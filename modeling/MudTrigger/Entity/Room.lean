import MudTrigger.Bits
import MudTrigger.Entity.Uid
import MudTrigger.Entity.Direction

/-!
# Rooms

A room lists the people and the objects in it, and has at most one exit in each direction.
-/

set_option autoImplicit false

namespace MudTrigger

structure Exit where
  /-- The vnum of the room behind the exit. -/
  toRoom : Option Vnum := none
  /-- The vnum of the key, if the door locks. -/
  key : Option Vnum := none
  flags : Bits := 0
  deriving DecidableEq, Inhabited

/-- One place for an exit in each direction. -/
structure Exits where
  north : Option Exit := none
  east : Option Exit := none
  south : Option Exit := none
  west : Option Exit := none
  up : Option Exit := none
  down : Option Exit := none
  deriving DecidableEq, Inhabited

namespace Exits

def get? (e : Exits) : Direction → Option Exit
  | .north => e.north
  | .east => e.east
  | .south => e.south
  | .west => e.west
  | .up => e.up
  | .down => e.down

def set (e : Exits) (d : Direction) (x : Option Exit) : Exits :=
  match d with
  | .north => { e with north := x }
  | .east => { e with east := x }
  | .south => { e with south := x }
  | .west => { e with west := x }
  | .up => { e with up := x }
  | .down => { e with down := x }

@[simp] theorem get?_set_self (e : Exits) (d : Direction) (x : Option Exit) :
    (e.set d x).get? d = x := by cases d <;> rfl

theorem get?_set_ne (e : Exits) {d d' : Direction} (h : d' ≠ d) (x : Option Exit) :
    (e.set d x).get? d' = e.get? d' := by cases d <;> cases d' <;> simp_all [get?, set]

end Exits

structure Room where
  uid : Uid
  vnum : Vnum := 0
  zone : Nat := 0
  name : String := ""
  sector : String := ""
  dark : Bool := false
  flags : Bits := 0
  effects : Bits := 0
  exits : Exits := {}
  people : List Uid := []
  contents : List Uid := []
  deriving Inhabited

namespace Room

def flagNames : List String :=
  ["DARK", "DEATH", "NO_MOB", "INDOORS", "PEACEFUL", "SOUNDPROOF", "NO_TRACK", "NO_MAGIC",
    "TUNNEL", "PRIVATE", "GODROOM", "HOUSE", "HCRSH", "ATRIUM", "OLC", "*"]

def effectNames : List String := ["FOG", "DARKNESS", "CONT_LIGHT", "FOREST", "CIRCLE_FIRE"]

def exitFlagNames : List String := ["DOOR", "CLOSED", "LOCKED", "PICKPROOF", "HIDDEN"]

end Room

end MudTrigger
