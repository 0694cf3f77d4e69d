import MudTrigger.Data.Table
import MudTrigger.Trigger.File

/-!
# The registry

The prototypes that are known, by vnum. Loading a file adds all of its prototypes or none.
-/

set_option autoImplicit false

namespace MudTrigger

structure Registry where
  prototypes : Table Vnum Prototype := ∅

namespace Registry

instance : EmptyCollection Registry := ⟨{ prototypes := ∅ }⟩

instance : Inhabited Registry := ⟨∅⟩

def get? (r : Registry) (vnum : Vnum) : Option Prototype := r.prototypes.get? vnum

/-- Adds a prototype, in place of the one with the same vnum. -/
def register (r : Registry) (p : Prototype) : Registry := ⟨r.prototypes.set p.vnum p⟩

def unregister (r : Registry) (vnum : Vnum) : Registry := ⟨r.prototypes.erase vnum⟩

def size (r : Registry) : Nat := r.prototypes.size

def isEmpty (r : Registry) : Bool := r.prototypes.isEmpty

/-- The prototypes in the order of their vnums. -/
def toList (r : Registry) : List Prototype := r.prototypes.values

/-- Adds the prototypes of a trigger file and tells how many they are. -/
def loadText (r : Registry) (text : String) : Except LoadError (Nat × Registry) :=
  match TriggerFile.parse text with
  | .error e => .error e
  | .ok ps => match ps.find? fun p => (r.get? p.vnum).isSome with
    | some p => .error (.duplicate p.vnum)
    | none => .ok (ps.length, ps.foldl register r)

/-- Loads a file by what reading it gave: its text, or the reason why it has none. -/
def loadFile (r : Registry) (path : String) (read : Except String String) :
    Except LoadError (Nat × Registry) :=
  match read with
  | .error reason => .error (.unreadable path reason)
  | .ok text => r.loadText text

end Registry

end MudTrigger
