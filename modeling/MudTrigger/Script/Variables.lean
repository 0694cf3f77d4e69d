import MudTrigger.Text.Letter
import MudTrigger.Data.Table

/-!
# Variables

Names compare without regard to the case of ASCII letters, and a variable keeps the spelling it was
first set with. A table lists its variables in the order of the folded names.
-/

set_option autoImplicit false

namespace MudTrigger

structure Variable where
  name : String
  value : String
  deriving DecidableEq, Inhabited

/-- Variables by their folded names. -/
structure Variables where
  table : Table String Variable := ∅
  deriving DecidableEq

namespace Variables

instance : EmptyCollection Variables := ⟨{ table := ∅ }⟩

instance : Inhabited Variables := ⟨∅⟩

def toList (vs : Variables) : List Variable := vs.table.values

def size (vs : Variables) : Nat := vs.table.size

def isEmpty (vs : Variables) : Bool := vs.table.isEmpty

def find? (vs : Variables) (name : String) : Option Variable := vs.table.get? (Text.fold name)

def get? (vs : Variables) (name : String) : Option String := (vs.find? name).map (·.value)

def contains (vs : Variables) (name : String) : Bool := (vs.find? name).isSome

/-- Puts a variable in place of the one with the same name, spelling included. -/
def insert (vs : Variables) (v : Variable) : Variables := ⟨vs.table.set (Text.fold v.name) v⟩

/-- Sets a value; a variable that was there keeps its spelling. -/
def set (vs : Variables) (name value : String) : Variables :=
  match vs.find? name with
  | some v => ⟨vs.table.set (Text.fold name) { v with value := value }⟩
  | none => vs.insert ⟨name, value⟩

def erase (vs : Variables) (name : String) : Variables := ⟨vs.table.erase (Text.fold name)⟩

/-- Takes a variable out: the variable, if there was one, and the table without it. -/
def take (vs : Variables) (name : String) : Option Variable × Variables :=
  (vs.find? name, vs.erase name)

/-- Takes a variable out, and tells whether there was one. -/
def remove (vs : Variables) (name : String) : Bool × Variables :=
  ((vs.take name).1.isSome, (vs.take name).2)

/-- Sets values one after another. -/
def setAll (vs : Variables) (bindings : List (String × String)) : Variables :=
  bindings.foldl (fun vs b => vs.set b.1 b.2) vs

/-! ## What the operations do to the values -/

theorem get?_insert_self (vs : Variables) (v : Variable) {name : String}
    (h : Text.fold name = Text.fold v.name) : (vs.insert v).get? name = some v.value := by
  simp [get?, find?, insert, h]

theorem get?_insert_ne (vs : Variables) (v : Variable) {name : String}
    (h : Text.fold name ≠ Text.fold v.name) : (vs.insert v).get? name = vs.get? name := by
  simp [get?, find?, insert, Table.get?_set_ne _ h]

/-- A value is found under every spelling of its name. -/
theorem get?_set_self (vs : Variables) {name other : String} (value : String)
    (h : Text.fold other = Text.fold name) : (vs.set name value).get? other = some value := by
  unfold set
  split
  · simp [get?, find?, h]
  · exact get?_insert_self vs ⟨name, value⟩ h

theorem get?_set_ne (vs : Variables) {name other : String} (value : String)
    (h : Text.fold other ≠ Text.fold name) : (vs.set name value).get? other = vs.get? other := by
  unfold set
  split
  · simp [get?, find?, Table.get?_set_ne _ h]
  · exact get?_insert_ne vs ⟨name, value⟩ h

theorem get?_erase_self (vs : Variables) {name other : String}
    (h : Text.fold other = Text.fold name) : (vs.erase name).get? other = none := by
  simp [get?, find?, erase, h]

theorem get?_erase_ne (vs : Variables) {name other : String}
    (h : Text.fold other ≠ Text.fold name) : (vs.erase name).get? other = vs.get? other := by
  simp [get?, find?, erase, Table.get?_erase_ne _ h]

end Variables

end MudTrigger
