/-!
# Tables in key order

A `Table` maps keys to values. It is kept as a list in decreasing key order, because new keys are mostly
greater than all others and then come first at no cost; `entries` has them in increasing order. Its view
is `get?`: `set` changes one key and `erase` removes one.
-/

set_option autoImplicit false

namespace MudTrigger

/-- A finite map, kept as its entries in decreasing order of the keys. -/
structure Table (κ α : Type) where
  latest : List (κ × α) := []
  deriving DecidableEq

namespace Table

variable {κ α : Type} [DecidableEq κ] [LT κ] [DecidableLT κ]

def empty : Table κ α := ⟨[]⟩

instance : EmptyCollection (Table κ α) := ⟨empty⟩

instance : Inhabited (Table κ α) := ⟨empty⟩

/-- The entries in increasing order of the keys. -/
def entries (t : Table κ α) : List (κ × α) := t.latest.reverse

def size (t : Table κ α) : Nat := t.latest.length

def isEmpty (t : Table κ α) : Bool := t.latest.isEmpty

def get? (t : Table κ α) (k : κ) : Option α := (t.latest.find? (·.1 = k)).map (·.2)

def contains (t : Table κ α) (k : κ) : Bool := (t.get? k).isSome

/-- The entries with `k` bound to `a`, a new key standing before the first smaller one. -/
def setEntry (k : κ) (a : α) : List (κ × α) → List (κ × α)
  | [] => [(k, a)]
  | e :: es =>
    if e.1 = k then (k, a) :: es
    else if e.1 < k then (k, a) :: e :: es
    else e :: setEntry k a es

def set (t : Table κ α) (k : κ) (a : α) : Table κ α := ⟨setEntry k a t.latest⟩

def erase (t : Table κ α) (k : κ) : Table κ α := ⟨t.latest.filter (·.1 ≠ k)⟩

/-- Applies `f` to the value of `k`, if there is one. -/
def modify (t : Table κ α) (k : κ) (f : α → α) : Table κ α :=
  match t.get? k with
  | some a => t.set k (f a)
  | none => t

def values (t : Table κ α) : List α := t.entries.map (·.2)

omit [DecidableEq κ] [LT κ] [DecidableLT κ] in
theorem mem_entries {t : Table κ α} {e : κ × α} : e ∈ t.entries ↔ e ∈ t.latest := List.mem_reverse

omit [DecidableEq κ] [LT κ] [DecidableLT κ] in
theorem mem_values {t : Table κ α} {a : α} : a ∈ t.values ↔ a ∈ t.latest.map (·.2) := by
  rw [values, entries, List.map_reverse, List.mem_reverse]

/-! ## What the operations do to the view -/

omit [LT κ] [DecidableLT κ] in
@[simp] theorem get?_empty (k : κ) : (∅ : Table κ α).get? k = none := rfl

theorem find?_setEntry_self (k : κ) (a : α) (es : List (κ × α)) :
    (setEntry k a es).find? (·.1 = k) = some (k, a) := by
  induction es with
  | nil => simp [setEntry]
  | cons e es ih =>
    unfold setEntry
    split
    · simp
    · split
      · simp
      · rename_i hne _
        simpa [hne] using ih

theorem find?_setEntry_ne {k k' : κ} (h : k' ≠ k) (a : α) (es : List (κ × α)) :
    (setEntry k a es).find? (·.1 = k') = es.find? (·.1 = k') := by
  induction es with
  | nil => simp [setEntry, Ne.symm h]
  | cons e es ih =>
    unfold setEntry
    split
    · rename_i he
      simp [he, Ne.symm h]
    · split
      · rw [List.find?_cons_of_neg (by simpa using Ne.symm h)]
      · by_cases he : e.1 = k'
        · simp [he]
        · simpa [he] using ih

@[simp] theorem get?_set_self (t : Table κ α) (k : κ) (a : α) : (t.set k a).get? k = some a := by
  simp [get?, set, find?_setEntry_self]

theorem get?_set_ne (t : Table κ α) {k k' : κ} (h : k' ≠ k) (a : α) :
    (t.set k a).get? k' = t.get? k' := by
  simp only [get?, set, find?_setEntry_ne h]

theorem get?_set (t : Table κ α) (k k' : κ) (a : α) :
    (t.set k a).get? k' = if k' = k then some a else t.get? k' := by
  split
  · rename_i h
    rw [h, get?_set_self]
  · rename_i h
    exact get?_set_ne t h a

omit [LT κ] [DecidableLT κ] in
@[simp] theorem get?_erase_self (t : Table κ α) (k : κ) : (t.erase k).get? k = none := by
  simp [get?, erase, List.find?_filter]

omit [LT κ] [DecidableLT κ] in
theorem get?_erase_ne (t : Table κ α) {k k' : κ} (h : k' ≠ k) :
    (t.erase k).get? k' = t.get? k' := by
  have keeps : (fun e : κ × α => decide (decide (e.1 ≠ k) = true ∧ decide (e.1 = k') = true))
      = fun e => decide (e.1 = k') := by
    funext e
    by_cases he : e.1 = k'
    · simp [he, h]
    · simp [he]
  simp only [get?, erase, List.find?_filter, keeps]

theorem length_setEntry {k : κ} {es : List (κ × α)} (h : ∀ e ∈ es, e.1 ≠ k) (a : α) :
    (setEntry k a es).length = es.length + 1 := by
  induction es with
  | nil => rfl
  | cons e es ih =>
    obtain ⟨he, hes⟩ := List.forall_mem_cons.1 h
    rw [setEntry, if_neg he]
    split
    · rfl
    · rw [List.length_cons, ih hes, List.length_cons]

/-- A new key is one entry more. -/
theorem size_set {t : Table κ α} {k : κ} (h : t.get? k = none) (a : α) :
    (t.set k a).size = t.size + 1 := by
  rw [get?, Option.map_eq_none_iff, List.find?_eq_none] at h
  exact length_setEntry (fun e he => by simpa using h e he) a

end Table

end MudTrigger
