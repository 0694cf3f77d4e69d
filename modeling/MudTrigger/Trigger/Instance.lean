import MudTrigger.Trigger.Prototype
import MudTrigger.Script.Variables
import MudTrigger.Script.WaitQueue

/-!
# Attached triggers

An instance is a prototype attached to one owner, with the state of its run. The depth is zero while
no run is under way, and events only fire triggers that are idle. A container holds the triggers of
one entity in firing order, its global variables, and the union of the events of its triggers.
-/

set_option autoImplicit false

namespace MudTrigger

structure Instance where
  proto : Prototype
  owner : Uid
  /-- The nesting of the current run; zero when there is none. -/
  depth : Nat := 0
  /-- How often the current run has repeated the body of a loop. -/
  loops : Nat := 0
  /-- The line at which a suspended run goes on. -/
  resumeAt : Option Nat := none
  /-- The pending continuation of a suspended run. -/
  wait : Option WaitId := none
  locals : Variables := ∅
  deriving Inhabited

namespace Instance

def isIdle (i : Instance) : Bool := i.depth == 0

/-- The same trigger without a run. -/
def reset (i : Instance) : Instance := { proto := i.proto, owner := i.owner }

end Instance

structure Container where
  kind : Kind
  /-- The attached triggers in firing order. -/
  triggers : List Handle := []
  /-- The union of the events of the attached triggers. -/
  types : Bits := 0
  globals : Variables := ∅
  deriving Inhabited

namespace Container

def hasEvent (c : Container) (events : Bits) : Bool := c.types.meets events

def isEmpty (c : Container) : Bool := c.triggers.isEmpty

/-- Puts a trigger at a position of the list, or at its end. -/
def insert (c : Container) (h : Handle) (position : Option Nat) : Container :=
  let n := c.triggers.length
  { c with triggers := c.triggers.insertIdx (min (position.getD n) n) h }

def erase (c : Container) (h : Handle) : Container := { c with triggers := c.triggers.erase h }

end Container

end MudTrigger
