import MudTrigger.Game.Command
import MudTrigger.Game.Drive

/-!
# Nested runs

A command of a script may fire other triggers, whose scripts run before the first one goes on. The
configuration limits how many runs may be nested in the outermost one; a run beyond that is refused,
and its trigger stays idle.
-/

set_option autoImplicit false

namespace MudTrigger

namespace Game

/-- Refuses a run; a fresh one leaves its trigger without the variables that were bound for it. -/
def refuse (g : Game) (h : Handle) (i : Instance) (mode : RunMode) : Game :=
  let g := g.report (.recursionCeiling i.proto.vnum i.proto.name)
  match mode with
  | .new => g.finish h
  | .resume => g

/-- Carries out a command of a script: what the host has an answer to is noted, and the rest is left
to the world. -/
def perform (host : Host) (run : Runner) (g : Game) (actor : Uid) (line : String) : Game :=
  match host.answer g.engine actor line with
  | some note => g.addNote note
  | none => g.execute run actor line

/-- Runs a trigger, with `fuel` more runs nested in it at most. -/
def runWithin : Nat → Host → Runner
  | 0, _ => fun g h mode =>
    match g.instance? h with
    | none => (1, g)
    | some i => (1, g.refuse h i mode)
  | fuel + 1, host => fun g h mode =>
    match g.instance? h with
    | none => (1, g)
    | some i =>
      if g.engine.config.maxScriptDepth < g.engine.depth then (1, g.refuse h i mode)
      else
        let r : Run :=
          { host, execute := perform host (runWithin fuel .standard), trigger := h,
            owner := i.owner, proto := i.proto, mode }
        let g := (g.withDepth (g.engine.depth + 1)).report (.started h i.owner)
        let outcome := r.drive i g
        (outcome.1, outcome.2.withDepth (outcome.2.engine.depth - 1))

/-- Runs a trigger. One nested run more than the configuration allows is started only to be
refused. -/
def run (host : Host) : Runner := fun g h mode =>
  runWithin (g.engine.config.maxScriptDepth + 2 - g.engine.depth) host g h mode

end Game

end MudTrigger
