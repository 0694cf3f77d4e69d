import MudTrigger.Text.Letter

/-!
# Directions

The six directions in which rooms have exits.
-/

set_option autoImplicit false

namespace MudTrigger

inductive Direction where
  | north
  | east
  | south
  | west
  | up
  | down
  deriving DecidableEq, Inhabited

namespace Direction

/-- All directions, in the order of an exit table. -/
def all : List Direction := [north, east, south, west, up, down]

def name : Direction → String
  | north => "north"
  | east => "east"
  | south => "south"
  | west => "west"
  | up => "up"
  | down => "down"

/-- The direction that leads back. -/
def reverse : Direction → Direction
  | north => south
  | east => west
  | south => north
  | west => east
  | up => down
  | down => up

/-- The direction with this whole name, in any case. -/
def ofName? (s : String) : Option Direction := all.find? fun d => Text.sameLetters d.name s

/-- The place in an exit table. -/
def index : Direction → Nat
  | north => 0
  | east => 1
  | south => 2
  | west => 3
  | up => 4
  | down => 5

theorem reverse_reverse (d : Direction) : d.reverse.reverse = d := by cases d <;> rfl

theorem all_index (d : Direction) : all[d.index]? = some d := by cases d <;> rfl

end Direction

end MudTrigger
