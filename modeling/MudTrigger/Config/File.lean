import MudTrigger.Config.Basic
import MudTrigger.Config.Toml.Document

/-!
# Configuration files

A configuration file is a TOML document. Its keys are the names of the settings; what is missing
keeps its default, and keys and tables that name no setting are ignored.
-/

set_option autoImplicit false

namespace MudTrigger.Config

/-- Why a configuration was not read. -/
inductive FileError where
  | unreadable (path : String)
  | malformed
  deriving DecidableEq

/-- A setting below `bound`; `none` if the document gives it something else. -/
def setting? (t : Toml.Entries) (name : String) (bound otherwise : Nat) : Option Nat :=
  match t.get? name with
  | none => some otherwise
  | some (.value (some i)) => if 0 ≤ i ∧ i < bound then some i.toNat else none
  | some _ => none

/-- The configuration that a document writes. -/
def ofToml? (text : String) : Option Config := do
  let t ← Toml.Document.read? text
  let c : Config := {}
  return {
    maxScriptDepth := ← setting? t "max_script_depth" 0x1_0000_0000 c.maxScriptDepth
    loopDeferAfter := ← setting? t "loop_defer_after" 0x1_0000_0000 c.loopDeferAfter
    loopAbortAfter := ← setting? t "loop_abort_after" 0x1_0000_0000 c.loopAbortAfter
    pulsesPerSecond := ← setting? t "pulses_per_second" 0x1_0000_0000 c.pulsesPerSecond
    secondsPerMudHour := ← setting? t "seconds_per_mud_hour" 0x1_0000_0000 c.secondsPerMudHour
    randomCheckInterval := ← setting? t "random_check_interval" 0x1_0000_0000 c.randomCheckInterval
    castRetryPulses := ← setting? t "cast_retry_pulses" 0x1_0000_0000 c.castRetryPulses
    rngSeed := UInt64.ofNat (← setting? t "rng_seed" 0x1_0000_0000_0000_0000 c.rngSeed.toNat) }

/-- The configuration in a file, whose text is `none` if it could not be read. -/
def load (path : String) (text : Option String) : Except FileError Config :=
  match text with
  | none => .error (.unreadable path)
  | some text => match ofToml? text with
    | some c => .ok c
    | none => .error .malformed

end MudTrigger.Config
