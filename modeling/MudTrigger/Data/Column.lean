/-!
# Columns

A `Column` is a list that grows at its end at no cost, however long it is: the value added last stands
first, and the size is kept beside. Its view is `toList`, which has the values in their order.
-/

set_option autoImplicit false

namespace MudTrigger

/-- Values numbered from zero, the one with the greatest number first. -/
structure Column (α : Type) where
  newest : List α := []
  size : Nat := 0
  size_eq : newest.length = size := by rfl
  deriving DecidableEq

namespace Column

variable {α : Type}

def empty : Column α := {}

instance : EmptyCollection (Column α) := ⟨empty⟩

instance : Inhabited (Column α) := ⟨empty⟩

/-- The values in their order. -/
def toList (c : Column α) : List α := c.newest.reverse

/-- The value with a number. -/
def get? (c : Column α) (i : Nat) : Option α :=
  if i < c.size then c.newest[c.size - 1 - i]? else none

/-- Adds a value under the next number. -/
def push (c : Column α) (x : α) : Column α where
  newest := x :: c.newest
  size := c.size + 1
  size_eq := congrArg (· + 1) c.size_eq

/-- Replaces the value with a number, if there is one. -/
def set (c : Column α) (i : Nat) (x : α) : Column α where
  newest := if i < c.size then c.newest.set (c.size - 1 - i) x else c.newest
  size := c.size
  size_eq := by
    split
    · rw [List.length_set, c.size_eq]
    · exact c.size_eq

/-- Changes the value with a number, if there is one. -/
def modify (c : Column α) (i : Nat) (f : α → α) : Column α :=
  match c.get? i with
  | none => c
  | some x => c.set i (f x)

/-! ## What the operations do to the view -/

variable (c : Column α) (x : α) (i : Nat)

theorem toList_inj {c d : Column α} (h : c.toList = d.toList) : c = d := by
  obtain ⟨cs, n, rfl⟩ := c
  obtain ⟨ds, m, rfl⟩ := d
  obtain rfl : cs = ds := List.reverse_inj.1 h
  rfl

@[simp] theorem toList_empty : (∅ : Column α).toList = [] := rfl

theorem length_toList : c.toList.length = c.size := by
  rw [toList, List.length_reverse, c.size_eq]

theorem get?_eq : c.get? i = c.toList[i]? := by
  unfold get?
  split
  · rename_i hi
    rw [toList, List.getElem?_reverse (c.size_eq ▸ hi), c.size_eq]
  · rename_i hi
    rw [List.getElem?_eq_none (by rw [length_toList]; omega)]

@[simp] theorem toList_push : (c.push x).toList = c.toList ++ [x] := List.reverse_cons

@[simp] theorem toList_set : (c.set i x).toList = c.toList.set i x := by
  refine List.ext_getElem? fun j => ?_
  have hc := c.size_eq
  simp only [toList, set]
  split
  · rename_i hi
    by_cases hj : j < c.size
    · rw [List.getElem?_reverse (by simpa [hc] using hj), List.length_set, List.getElem?_set,
        List.getElem?_set, List.getElem?_reverse (hc ▸ hj), hc]
      simp only [List.length_reverse, hc]
      by_cases hij : i = j
      · simp [hij, hj]
        omega
      · rw [if_neg hij, if_neg (by omega)]
    · rw [List.getElem?_eq_none (by simp [hc]; omega), List.getElem?_eq_none (by simp [hc]; omega)]
  · rename_i hi
    rw [List.set_eq_of_length_le (by rw [List.length_reverse, hc]; omega)]

@[simp] theorem toList_modify (f : α → α) : (c.modify i f).toList = c.toList.modify i f := by
  unfold modify
  cases h : c.get? i with
  | none =>
    rw [get?_eq, List.getElem?_eq_none_iff] at h
    rw [List.modify_eq_self h]
  | some x =>
    rw [get?_eq] at h
    refine List.ext_getElem? fun j => ?_
    rw [toList_set, List.getElem?_set', List.getElem?_modify]
    by_cases hj : i = j
    · subst hj
      simp [h]
    · simp [hj]

theorem lt_of_get? {c : Column α} {x : α} {i : Nat} (h : c.get? i = some x) : i < c.size := by
  rw [get?_eq] at h
  exact c.length_toList ▸ (List.getElem?_eq_some_iff.1 h).1

theorem ext_get? {c d : Column α} (h : ∀ i, c.get? i = d.get? i) : c = d :=
  toList_inj (List.ext_getElem? fun i => by rw [← get?_eq, ← get?_eq, h])

theorem get?_push (j : Nat) : (c.push x).get? j = if j = c.size then some x else c.get? j := by
  have hn := c.length_toList
  rw [get?_eq, get?_eq, toList_push]
  split
  · rename_i hj
    simp [hj, hn]
  · rename_i hj
    by_cases hlt : j < c.toList.length
    · rw [List.getElem?_append_left hlt]
    · rw [List.getElem?_eq_none (by rw [List.length_append, List.length_singleton]; omega),
        List.getElem?_eq_none (by omega)]

@[simp] theorem get?_push_size : (c.push x).get? c.size = some x := by
  rw [get?_push, if_pos rfl]

theorem get?_push_ne {j : Nat} (h : j ≠ c.size) : (c.push x).get? j = c.get? j := by
  rw [get?_push, if_neg h]

@[simp] theorem get?_size : c.get? c.size = none := if_neg (Nat.lt_irrefl _)

theorem get?_set_self {c : Column α} {i : Nat} (h : i < c.size) : (c.set i x).get? i = some x := by
  rw [get?_eq, toList_set, List.getElem?_set_self (c.length_toList ▸ h)]

theorem get?_set_ne {i j : Nat} (h : i ≠ j) : (c.set i x).get? j = c.get? j := by
  rw [get?_eq, get?_eq, toList_set, List.getElem?_set_ne h]

theorem set_set (y : α) : (c.set i x).set i y = c.set i y := by
  apply toList_inj
  simp only [toList_set, List.set_set]

theorem set_comm (y : α) {i j : Nat} (h : i ≠ j) :
    (c.set i x).set j y = (c.set j y).set i x := by
  apply toList_inj
  simp only [toList_set, List.set_comm _ _ h]

end Column

end MudTrigger
