import MudTrigger.Data.Column

/-!
# Arenas

An arena stores values in numbered slots. A removed value's slot is used again, but under a new
generation, and a `Handle` names a slot together with a generation: the handle of a removed value
never reaches the value that took its slot.
-/

set_option autoImplicit false

namespace MudTrigger

/-- A slot number, and the generation of that slot when the handle was issued. -/
structure Handle where
  index : Nat
  generation : UInt32
  deriving DecidableEq, Inhabited

namespace Handle

/-- The slot and the generation, as in `3v1`. -/
def text (h : Handle) : String := toString h.index ++ "v" ++ toString h.generation.toNat

end Handle

/-- A place of an arena: how often it was used again, and what it holds now. -/
structure Slot (α : Type) where
  generation : UInt32 := 0
  value : Option α := none
  deriving DecidableEq

/-- Storage that is read through handles. -/
structure Arena (α : Type) where
  slots : Column (Slot α) := ∅
  /-- The vacant slots, the one to be taken next first. -/
  free : List Nat := []
  /-- The number of values stored. -/
  size : Nat := 0
  deriving DecidableEq

namespace Arena

variable {α : Type}

def empty : Arena α := {}

instance : EmptyCollection (Arena α) := ⟨empty⟩

instance : Inhabited (Arena α) := ⟨empty⟩

def slot? (a : Arena α) (h : Handle) : Option (Slot α) :=
  (a.slots.get? h.index).filter (·.generation == h.generation)

def get? (a : Arena α) (h : Handle) : Option α := (a.slot? h).bind (·.value)

def contains (a : Arena α) (h : Handle) : Bool := (a.get? h).isSome

def isEmpty (a : Arena α) : Bool := a.size == 0

/-- Stores a value in the slot freed last, or else in a new one. -/
def insert (a : Arena α) (x : α) : Handle × Arena α :=
  match a.free with
  | [] => (⟨a.slots.size, 0⟩, { a with slots := a.slots.push ⟨0, some x⟩, size := a.size + 1 })
  | i :: rest =>
    let generation := ((a.slots.get? i).getD {}).generation + 1
    (⟨i, generation⟩,
      { slots := a.slots.set i ⟨generation, some x⟩, free := rest, size := a.size + 1 })

/-- Replaces the value of a handle; a stale handle changes nothing. -/
def set (a : Arena α) (h : Handle) (x : α) : Arena α :=
  if a.contains h then { a with slots := a.slots.set h.index ⟨h.generation, some x⟩ } else a

/-- Applies `f` to the value of a handle; a stale handle changes nothing. -/
def modify (a : Arena α) (h : Handle) (f : α → α) : Arena α :=
  match a.get? h with
  | some x => a.set h (f x)
  | none => a

/-- Takes the value of a handle out and frees its slot. -/
def remove (a : Arena α) (h : Handle) : Option α × Arena α :=
  match a.get? h with
  | some x =>
    (some x,
      { slots := a.slots.set h.index ⟨h.generation, none⟩, free := h.index :: a.free,
        size := a.size - 1 })
  | none => (none, a)

/-- The values with their handles, in slot order. -/
def toList (a : Arena α) : List (Handle × α) :=
  a.slots.toList.zipIdx.filterMap fun (s, i) => s.value.map fun x => (⟨i, s.generation⟩, x)

def values (a : Arena α) : List α := a.slots.toList.filterMap (·.value)

end Arena

end MudTrigger
