import MudTrigger.Script.Compile
import MudTrigger.Trigger.Kind
import MudTrigger.Entity.Uid

/-!
# Prototypes

A prototype defines a trigger: what it attaches to, which events wake it, its two arguments and its
script.
-/

set_option autoImplicit false

namespace MudTrigger

structure Prototype where
  vnum : Vnum
  name : String
  kind : Kind
  /-- The events that wake the trigger. -/
  events : Bits := 0
  /-- A percent chance, a threshold, an hour or a way of matching, as the event has it. -/
  narg : Int := 0
  /-- Keywords, a phrase or a command, as the event has it. -/
  arg : String := ""
  script : Script := {}
  deriving DecidableEq, Inhabited

namespace Prototype

/-- A death trigger runs even when its owner sleeps or casts. -/
def isDeathTrigger (p : Prototype) : Bool := p.events.meets p.kind.deathBits

/-- The text argument as it is shown. -/
def argText (p : Prototype) : String := if p.arg = "" then "None" else p.arg

end Prototype

end MudTrigger
