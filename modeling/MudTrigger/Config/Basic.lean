import MudTrigger.Data.Width

/-!
# Configuration

The ceilings and the timing of the engine. Times are counted in pulses, of which there are
`pulsesPerSecond` in a second.
-/

set_option autoImplicit false

namespace MudTrigger

structure Config where
  /-- How many runs may be nested in the outermost one. -/
  maxScriptDepth : Nat := 10
  /-- Repetitions of `while` bodies in one stretch before the run yields for a pulse. -/
  loopDeferAfter : Nat := 30
  /-- Repetitions of `while` bodies in a whole run before it is halted. -/
  loopAbortAfter : Nat := 100
  pulsesPerSecond : Nat := 10
  secondsPerMudHour : Nat := 75
  /-- Pulses between two scans for random triggers; 0 turns the scans off. -/
  randomCheckInterval : Nat := 130
  /-- Pulses after which a run that found its owner asleep or casting tries again. -/
  castRetryPulses : Nat := 10
  rngSeed : UInt64 := 0
  deriving DecidableEq, Inhabited

namespace Config

def withMaxDepth (c : Config) (depth : Nat) : Config := { c with maxScriptDepth := depth }

def withLoopLimits (c : Config) (deferAfter abortAfter : Nat) : Config :=
  { c with loopDeferAfter := deferAfter, loopAbortAfter := abortAfter }

def withSeed (c : Config) (seed : UInt64) : Config := { c with rngSeed := seed }

def withRandomInterval (c : Config) (pulses : Nat) : Config :=
  { c with randomCheckInterval := pulses }

def pulsesForSeconds (c : Config) (seconds : Nat) : Nat :=
  Width.saturate64 (seconds * c.pulsesPerSecond)

def pulsesPerMudHour (c : Config) : Nat := c.pulsesForSeconds c.secondsPerMudHour

end Config

end MudTrigger
