import MudTrigger.Data.Arena

/-!
# The view of an arena

`Arena.get?` is the view: `get?_insert`, `get?_remove` and `get?_modify` say what each operation does
to it, and `mem_toList_iff` that the list of an arena has just what can be read. Inserting is right
only in an arena that is `Sound`, that is, whose free list holds exactly the vacant slots, each once;
every operation keeps this.

Generations have 32 bits and start over. A handle is `Within` a number of insertions when its slot
was taken at most so often since the handle was issued; as long as that number fits 32 bits, the
handle is not issued again (`Within.insert`), so a handle that has become stale stays stale.
-/

set_option autoImplicit false

namespace MudTrigger

namespace Arena

variable {α : Type}

/-! ## Reading -/

/-- A handle reaches a value where its slot holds it in the handle's generation. -/
theorem get?_eq_some_iff {a : Arena α} {h : Handle} {x : α} :
    a.get? h = some x ↔ a.slots.get? h.index = some ⟨h.generation, some x⟩ := by
  simp only [get?, slot?, Option.bind_eq_some_iff, Option.filter_eq_some_iff, beq_iff_eq]
  constructor
  · rintro ⟨⟨gen, value⟩, ⟨hs, hg⟩, hv⟩
    simp only at hg hv
    rw [hs, hg, hv]
  · intro hs
    exact ⟨_, ⟨hs, rfl⟩, rfl⟩

theorem contains_iff {a : Arena α} {h : Handle} : a.contains h = true ↔ ∃ x, a.get? h = some x := by
  rw [contains, Option.isSome_iff_exists]

theorem get?_of_slot_eq {a b : Arena α} {h : Handle}
    (hs : b.slots.get? h.index = a.slots.get? h.index) : b.get? h = a.get? h := by
  simp only [get?, slot?, hs]

theorem get?_eq_none_of_generation {a : Arena α} {h : Handle} {s : Slot α}
    (hs : a.slots.get? h.index = some s) (hg : s.generation ≠ h.generation) : a.get? h = none := by
  simp [get?, slot?, hs, Option.filter, hg]

theorem get?_eq_none_of_vacant {a : Arena α} {h : Handle} {gen : UInt32}
    (hs : a.slots.get? h.index = some ⟨gen, none⟩) : a.get? h = none := by
  cases hx : a.get? h with
  | none => rfl
  | some x =>
    rw [get?_eq_some_iff, hs] at hx
    simp at hx

@[simp] theorem get?_empty (h : Handle) : (∅ : Arena α).get? h = none := rfl

theorem mem_values_of_get? {a : Arena α} {h : Handle} {x : α} (hx : a.get? h = some x) :
    x ∈ a.values := by
  have hs := get?_eq_some_iff.1 hx
  rw [Column.get?_eq] at hs
  exact List.mem_filterMap.2 ⟨_, List.mem_of_getElem? hs, rfl⟩

/-! ## Soundness -/

/-- The free list holds exactly the vacant slots, each once. -/
structure Sound (a : Arena α) : Prop where
  nodup : a.free.Nodup
  mem_free : ∀ i, i ∈ a.free ↔ ∃ gen, a.slots.get? i = some ⟨gen, none⟩

theorem sound_empty : Sound (∅ : Arena α) := by
  refine ⟨List.nodup_nil, fun i => ?_⟩
  show i ∈ [] ↔ ∃ gen, (∅ : Column (Slot α)).get? i = some ⟨gen, none⟩
  simp [Column.get?_eq]

/-! ## Inserting -/

theorem insert_of_full {a : Arena α} (x : α) (hf : a.free = []) :
    a.insert x =
      (⟨a.slots.size, 0⟩, { a with slots := a.slots.push ⟨0, some x⟩, size := a.size + 1 }) := by
  unfold insert
  rw [hf]

theorem insert_of_vacant {a : Arena α} (x : α) {i : Nat} {rest : List Nat} {gen : UInt32}
    (hf : a.free = i :: rest) (hs : a.slots.get? i = some ⟨gen, none⟩) :
    a.insert x = (⟨i, gen + 1⟩,
      { slots := a.slots.set i ⟨gen + 1, some x⟩, free := rest, size := a.size + 1 }) := by
  unfold insert
  rw [hf]
  simp only [hs, Option.getD_some]

/-- Where an insertion goes: behind the last slot, or into a vacant one. -/
theorem Sound.insert_cases {a : Arena α} (ha : a.Sound) (x : α) :
    (a.free = [] ∧
      a.insert x = (⟨a.slots.size, 0⟩,
        { slots := a.slots.push ⟨0, some x⟩, free := [], size := a.size + 1 })) ∨
    ∃ i rest gen, a.free = i :: rest ∧ a.slots.get? i = some ⟨gen, none⟩ ∧
      a.insert x = (⟨i, gen + 1⟩,
        { slots := a.slots.set i ⟨gen + 1, some x⟩, free := rest, size := a.size + 1 }) := by
  rcases hf : a.free with _ | ⟨i, rest⟩
  · exact .inl ⟨rfl, by rw [insert_of_full x hf, hf]⟩
  · obtain ⟨gen, hs⟩ := (ha.mem_free i).1 (by rw [hf]; exact List.mem_cons_self)
    exact .inr ⟨i, rest, gen, rfl, hs, insert_of_vacant x hf hs⟩

theorem Sound.get?_insert {a : Arena α} (ha : a.Sound) (x : α) (h : Handle) :
    (a.insert x).2.get? h = if h = (a.insert x).1 then some x else a.get? h := by
  rcases ha.insert_cases x with ⟨-, he⟩ | ⟨i, rest, gen, -, hs, he⟩ <;> rw [he]
  · split
    · rename_i hh
      rw [hh, get?_eq_some_iff]
      simp
    · rename_i hh
      by_cases hi : h.index = a.slots.size
      · have hg : (0 : UInt32) ≠ h.generation := fun hg => hh (by cases h; simp_all)
        rw [get?_eq_none_of_generation (s := ⟨0, some x⟩) (by simp [hi]) hg]
        simp [get?, slot?, hi]
      · exact get?_of_slot_eq (Column.get?_push_ne _ _ hi)
  · have hlt := Column.lt_of_get? hs
    split
    · rename_i hh
      rw [hh, get?_eq_some_iff]
      exact Column.get?_set_self _ hlt
    · rename_i hh
      by_cases hi : i = h.index
      · subst hi
        have hg : gen + 1 ≠ h.generation := fun hg => hh (by cases h; simp_all)
        rw [get?_eq_none_of_vacant hs]
        exact get?_eq_none_of_generation (Column.get?_set_self _ hlt) hg
      · exact get?_of_slot_eq (Column.get?_set_ne _ _ hi)

/-- The handle of an insertion reached nothing before. -/
theorem Sound.get?_insert_fst {a : Arena α} (ha : a.Sound) (x : α) :
    a.get? (a.insert x).1 = none := by
  rcases ha.insert_cases x with ⟨-, he⟩ | ⟨i, rest, gen, -, hs, he⟩ <;> rw [he]
  · simp [get?, slot?]
  · exact get?_eq_none_of_vacant hs

theorem Sound.insert {a : Arena α} (ha : a.Sound) (x : α) : (a.insert x).2.Sound := by
  rcases ha.insert_cases x with ⟨hf, he⟩ | ⟨i, rest, gen, hf, hs, he⟩ <;> rw [he]
  · refine ⟨List.nodup_nil, fun j => ?_⟩
    show j ∈ [] ↔ ∃ g, (a.slots.push ⟨0, some x⟩).get? j = some ⟨g, none⟩
    rw [← hf, ha.mem_free j, Column.get?_push]
    split
    · rename_i hj
      simp [hj]
    · rfl
  · have hlt := Column.lt_of_get? hs
    have hn := ha.nodup
    rw [hf, List.nodup_cons] at hn
    refine ⟨hn.2, fun j => ?_⟩
    have hj := ha.mem_free j
    rw [hf, List.mem_cons] at hj
    show j ∈ rest ↔ ∃ g, (a.slots.set i ⟨gen + 1, some x⟩).get? j = some ⟨g, none⟩
    by_cases hij : i = j
    · subst hij
      simp [hn.1, Column.get?_set_self _ hlt]
    · rw [Column.get?_set_ne _ _ hij, ← hj]
      simp [Ne.symm hij]

/-! ## Removing and changing -/

theorem remove_of_get? {a : Arena α} {h : Handle} {x : α} (hx : a.get? h = some x) :
    a.remove h = (some x,
      { slots := a.slots.set h.index ⟨h.generation, none⟩, free := h.index :: a.free,
        size := a.size - 1 }) := by
  simp only [remove, hx]

theorem remove_of_stale {a : Arena α} {h : Handle} (hx : a.get? h = none) :
    a.remove h = (none, a) := by
  simp only [remove, hx]

/-- Writing to the slot that a handle reaches changes what that handle reaches, and nothing else. -/
theorem get?_write {a : Arena α} {h : Handle} {x : α} (hx : a.get? h = some x) (v : Option α)
    (free : List Nat) (size : Nat) (h' : Handle) :
    get? { slots := a.slots.set h.index ⟨h.generation, v⟩, free, size } h' =
      if h' = h then v else a.get? h' := by
  have hs := get?_eq_some_iff.1 hx
  have hlt := Column.lt_of_get? hs
  split
  · rename_i he
    subst he
    simp [get?, slot?, Column.get?_set_self _ hlt, Option.filter]
  · rename_i he
    by_cases hi : h.index = h'.index
    · have hg : h.generation ≠ h'.generation := fun hg => he (by cases h; cases h'; simp_all)
      rw [hi] at hs hlt
      rw [get?_eq_none_of_generation hs hg, hi]
      exact get?_eq_none_of_generation (Column.get?_set_self _ hlt) hg
    · exact get?_of_slot_eq (Column.get?_set_ne _ _ hi)

theorem get?_remove (a : Arena α) (h h' : Handle) :
    (a.remove h).2.get? h' = if h' = h then none else a.get? h' := by
  cases hx : a.get? h with
  | none =>
    rw [remove_of_stale hx]
    split
    · rename_i he
      rw [he, hx]
    · rfl
  | some x =>
    rw [remove_of_get? hx]
    exact get?_write hx none _ _ h'

theorem Sound.remove {a : Arena α} (ha : a.Sound) (h : Handle) : (a.remove h).2.Sound := by
  cases hx : a.get? h with
  | none => rw [remove_of_stale hx]; exact ha
  | some x =>
    have hs := get?_eq_some_iff.1 hx
    have hlt := Column.lt_of_get? hs
    have hn : h.index ∉ a.free := fun hm => by
      obtain ⟨gen, hv⟩ := (ha.mem_free _).1 hm
      rw [hs] at hv
      simp at hv
    rw [remove_of_get? hx]
    refine ⟨List.nodup_cons.2 ⟨hn, ha.nodup⟩, fun j => ?_⟩
    show j ∈ h.index :: a.free ↔
      ∃ g, (a.slots.set h.index ⟨h.generation, none⟩).get? j = some ⟨g, none⟩
    by_cases hij : h.index = j
    · subst hij
      simp [Column.get?_set_self _ hlt]
    · rw [Column.get?_set_ne _ _ hij, List.mem_cons, ha.mem_free j]
      simp [Ne.symm hij]

theorem modify_of_get? {a : Arena α} {h : Handle} {x : α} (f : α → α) (hx : a.get? h = some x) :
    a.modify h f = { a with slots := a.slots.set h.index ⟨h.generation, some (f x)⟩ } := by
  simp only [modify, hx, set, contains, Option.isSome_some, if_true]

theorem modify_of_stale {a : Arena α} {h : Handle} (f : α → α) (hx : a.get? h = none) :
    a.modify h f = a := by
  simp only [modify, hx]

theorem get?_modify (a : Arena α) (h h' : Handle) (f : α → α) :
    (a.modify h f).get? h' = if h' = h then (a.get? h).map f else a.get? h' := by
  cases hx : a.get? h with
  | none =>
    rw [modify_of_stale f hx]
    split
    · rename_i he
      rw [he, hx]
      rfl
    · rfl
  | some x =>
    rw [modify_of_get? f hx]
    exact get?_write hx (some (f x)) _ _ h'

/-- Changing a value to itself changes nothing. -/
theorem modify_self (a : Arena α) (h : Handle) (f : α → α) (hf : ∀ x, f x = x) :
    a.modify h f = a := by
  cases hx : a.get? h with
  | none => exact modify_of_stale f hx
  | some x =>
    have hs := get?_eq_some_iff.1 hx
    rw [modify_of_get? f hx, hf]
    congr 1
    refine Column.ext_get? fun j => ?_
    by_cases hij : h.index = j
    · subst hij
      rw [hs, Column.get?_set_self _ (Column.lt_of_get? hs)]
    · rw [Column.get?_set_ne _ _ hij]

theorem Sound.modify {a : Arena α} (ha : a.Sound) (h : Handle) (f : α → α) :
    (a.modify h f).Sound := by
  cases hx : a.get? h with
  | none => rw [modify_of_stale f hx]; exact ha
  | some x =>
    have hs := get?_eq_some_iff.1 hx
    have hlt := Column.lt_of_get? hs
    rw [modify_of_get? f hx]
    refine ⟨ha.nodup, fun j => ?_⟩
    show j ∈ a.free ↔
      ∃ g, (a.slots.set h.index ⟨h.generation, some (f x)⟩).get? j = some ⟨g, none⟩
    rw [ha.mem_free j]
    by_cases hij : h.index = j
    · subst hij
      rw [hs, Column.get?_set_self _ hlt]
      simp
    · rw [Column.get?_set_ne _ _ hij]

/-! ## Generations -/

/-- The slot of the handle was taken at most `n` times since the handle was issued. -/
def Within (a : Arena α) (h : Handle) (n : Nat) : Prop :=
  ∃ s, a.slots.get? h.index = some s ∧ (s.generation - h.generation).toNat ≤ n

theorem within_of_get? {a : Arena α} {h : Handle} {x : α} (hx : a.get? h = some x) (n : Nat) :
    a.Within h n :=
  ⟨_, get?_eq_some_iff.1 hx, by simp⟩

/-- The generation after one that is fewer than 2^32 - 1 ahead is one more ahead. -/
theorem toNat_succ_sub {a b : UInt32} {n : Nat} (hle : (a - b).toNat ≤ n)
    (hn : n + 1 < 0x1_0000_0000) : (a + 1 - b).toNat = (a - b).toNat + 1 := by
  have ha := a.toNat_lt
  have hb := b.toNat_lt
  rw [UInt32.toNat_sub] at hle
  rw [UInt32.toNat_sub, UInt32.toNat_sub, UInt32.toNat_add]
  simp only [UInt32.reduceToNat]
  omega

/-- As long as a slot was not taken 2^32 times since a handle was issued, the handle is not issued
again. -/
theorem Within.insert {a : Arena α} (ha : a.Sound) {h : Handle} {n : Nat} (hw : a.Within h n)
    (hn : n + 1 < 0x1_0000_0000) (x : α) :
    (a.insert x).1 ≠ h ∧ (a.insert x).2.Within h (n + 1) := by
  obtain ⟨s, hs, hle⟩ := hw
  have hlt := Column.lt_of_get? hs
  rcases ha.insert_cases x with ⟨-, he⟩ | ⟨i, rest, gen, -, hv, he⟩ <;> rw [he]
  · have hne := Nat.ne_of_lt hlt
    refine ⟨?_, s, by rw [Column.get?_push_ne _ _ hne, hs], Nat.le_succ_of_le hle⟩
    rintro rfl
    exact Nat.lt_irrefl _ hlt
  · by_cases hi : i = h.index
    · subst hi
      rw [hv, Option.some.injEq] at hs
      subst hs
      have hg := toNat_succ_sub hle hn
      refine ⟨?_, _, Column.get?_set_self _ hlt, by rw [hg]; exact Nat.succ_le_succ hle⟩
      intro he
      have he : gen + 1 = h.generation := congrArg Handle.generation he
      rw [he, UInt32.sub_self] at hg
      exact absurd hg (by simp)
    · refine ⟨?_, s, by rw [Column.get?_set_ne _ _ hi, hs], Nat.le_succ_of_le hle⟩
      rintro rfl
      exact hi rfl

/-- Writing to a slot in the generation it has takes no slot. -/
theorem Within.write {a : Arena α} {h h' : Handle} {x : α} (hx : a.get? h' = some x)
    (value : Option α) (free : List Nat) (size : Nat) {n : Nat} (hw : a.Within h n) :
    Within { slots := a.slots.set h'.index ⟨h'.generation, value⟩, free, size } h n := by
  obtain ⟨s, hs, hle⟩ := hw
  have hs' := get?_eq_some_iff.1 hx
  by_cases he : h'.index = h.index
  · rw [← he, hs', Option.some.injEq] at hs
    subst hs
    refine ⟨⟨h'.generation, value⟩, ?_, hle⟩
    rw [← he]
    exact Column.get?_set_self _ (Column.lt_of_get? hs')
  · exact ⟨s, by rw [Column.get?_set_ne _ _ he, hs], hle⟩

theorem Within.remove {a : Arena α} {h : Handle} {n : Nat} (hw : a.Within h n) (h' : Handle) :
    (a.remove h').2.Within h n := by
  cases hx : a.get? h' with
  | none => rw [remove_of_stale hx]; exact hw
  | some x => rw [remove_of_get? hx]; exact hw.write hx _ _ _

theorem Within.modify {a : Arena α} {h : Handle} {n : Nat} (hw : a.Within h n) (h' : Handle)
    (f : α → α) : (a.modify h' f).Within h n := by
  cases hx : a.get? h' with
  | none => rw [modify_of_stale f hx]; exact hw
  | some x => rw [modify_of_get? f hx]; exact hw.write hx _ _ _

/-- The generation of a slot. -/
def generation? (a : Arena α) (i : Nat) : Option UInt32 := (a.slots.get? i).map (·.generation)

/-- An insertion takes a new slot in generation zero, or a vacant one in its next generation. -/
theorem Sound.generation_insert {a : Arena α} (ha : a.Sound) (x : α) :
    (a.insert x).1.generation =
      ((a.generation? (a.insert x).1.index).map (· + 1)).getD 0 := by
  rcases ha.insert_cases x with ⟨-, he⟩ | ⟨i, rest, gen, -, hs, he⟩
  · simp [he, generation?]
  · simp [he, generation?, hs]

theorem Sound.generation?_insert {a : Arena α} (ha : a.Sound) (x : α) (i : Nat) :
    (a.insert x).2.generation? i =
      if i = (a.insert x).1.index then some (a.insert x).1.generation else a.generation? i := by
  rcases ha.insert_cases x with ⟨-, he⟩ | ⟨j, rest, gen, -, hs, he⟩
  · rw [he]
    simp only [generation?, Column.get?_push]
    by_cases hi : i = a.slots.size
    · simp [hi]
    · simp [hi]
  · rw [he]
    simp only [generation?]
    by_cases hi : i = j
    · subst hi
      rw [Column.get?_set_self _ (Column.lt_of_get? hs), if_pos rfl, Option.map_some]
    · rw [Column.get?_set_ne _ _ (Ne.symm hi), if_neg hi]

/-- Writing to the slot that a handle reaches leaves it in its generation. -/
theorem generation?_write {a : Arena α} {h : Handle} {x : α} (hx : a.get? h = some x)
    (v : Option α) (free : List Nat) (size i : Nat) :
    generation? { slots := a.slots.set h.index ⟨h.generation, v⟩, free, size } i =
      a.generation? i := by
  have hs := get?_eq_some_iff.1 hx
  simp only [generation?]
  by_cases hi : h.index = i
  · subst hi
    rw [Column.get?_set_self _ (Column.lt_of_get? hs), hs]
    rfl
  · rw [Column.get?_set_ne _ _ hi]

theorem generation?_remove (a : Arena α) (h : Handle) (i : Nat) :
    (a.remove h).2.generation? i = a.generation? i := by
  cases hx : a.get? h with
  | none => rw [remove_of_stale hx]
  | some x => rw [remove_of_get? hx]; exact generation?_write hx _ _ _ i

theorem generation?_modify (a : Arena α) (h : Handle) (f : α → α) (i : Nat) :
    (a.modify h f).generation? i = a.generation? i := by
  cases hx : a.get? h with
  | none => rw [modify_of_stale f hx]
  | some x => rw [modify_of_get? f hx]; exact generation?_write hx _ _ _ i

/-! ## Size and list -/

theorem size_insert (a : Arena α) (x : α) : (a.insert x).2.size = a.size + 1 := by
  unfold insert
  split
  · rfl
  · rfl

theorem size_remove (a : Arena α) (h : Handle) :
    (a.remove h).2.size = a.size - (a.get? h).toList.length := by
  cases hx : a.get? h with
  | none => rw [remove_of_stale hx]; rfl
  | some x => rw [remove_of_get? hx]; rfl

theorem size_modify (a : Arena α) (h : Handle) (f : α → α) : (a.modify h f).size = a.size := by
  cases hx : a.get? h with
  | none => rw [modify_of_stale f hx]
  | some x => rw [modify_of_get? f hx]

theorem remove_fst (a : Arena α) (h : Handle) : (a.remove h).1 = a.get? h := by
  cases hx : a.get? h with
  | none => rw [remove_of_stale hx]
  | some x => rw [remove_of_get? hx]

theorem mem_toList_iff {a : Arena α} {h : Handle} {x : α} : (h, x) ∈ a.toList ↔ a.get? h = some x := by
  rw [get?_eq_some_iff, Column.get?_eq, toList, List.mem_filterMap]
  constructor
  · rintro ⟨⟨s, i⟩, hm, he⟩
    obtain ⟨y, hy, he⟩ := Option.map_eq_some_iff.1 he
    cases he
    rw [List.mem_zipIdx_iff_getElem?] at hm
    rw [hm, ← hy]
  · intro hs
    refine ⟨(⟨h.generation, some x⟩, h.index), ?_, rfl⟩
    rw [List.mem_zipIdx_iff_getElem?]
    exact hs

/-- The values are listed slot by slot. -/
theorem pairwise_toList (a : Arena α) : (a.toList.map (·.1.index)).Pairwise (· < ·) := by
  have hsorted : (a.slots.toList.zipIdx.map (·.2)).Pairwise (· < ·) := by
    rw [List.zipIdx_map_snd]
    exact List.pairwise_lt_range'
  refine hsorted.sublist ?_
  rw [toList]
  induction a.slots.toList.zipIdx with
  | nil => exact .slnil
  | cons e es ih =>
    obtain ⟨s, i⟩ := e
    cases hv : s.value with
    | none => simpa [hv] using ih.cons i
    | some x => simpa [hv] using ih

/-! ## One change after another -/

section

variable {a : Arena α} {h h' : Handle} (f g : α → α)

/-- Two handles that reach values are the same or lead to different slots. -/
theorem index_ne {x y : α} (hx : a.get? h = some x) (hy : a.get? h' = some y) (hne : h ≠ h') :
    h.index ≠ h'.index := by
  intro hi
  have hx := get?_eq_some_iff.1 hx
  have hy := get?_eq_some_iff.1 hy
  rw [hi, hy] at hx
  simp only [Option.some.injEq, Slot.mk.injEq] at hx
  obtain ⟨i, gen⟩ := h
  obtain ⟨i', gen'⟩ := h'
  simp only at hi hx
  exact hne (by rw [hi, hx.1])

theorem modify_modify : (a.modify h f).modify h g = a.modify h (g ∘ f) := by
  cases hx : a.get? h with
  | none => rw [modify_of_stale f hx, modify_of_stale g hx, modify_of_stale _ hx]
  | some x =>
    have hf : (a.modify h f).get? h = some (f x) := by
      rw [get?_modify, if_pos rfl, hx, Option.map_some]
    rw [modify_of_get? g hf, modify_of_get? f hx, modify_of_get? _ hx]
    simp only [Column.set_set, Function.comp_apply]

theorem modify_comm (hne : h ≠ h') :
    (a.modify h f).modify h' g = (a.modify h' g).modify h f := by
  have hf : (a.modify h f).get? h' = a.get? h' := by rw [get?_modify, if_neg hne.symm]
  have hg : (a.modify h' g).get? h = a.get? h := by rw [get?_modify, if_neg hne]
  cases hx : a.get? h with
  | none => rw [modify_of_stale f hx, modify_of_stale f (hg.trans hx)]
  | some x =>
    cases hy : a.get? h' with
    | none => rw [modify_of_stale g hy, modify_of_stale g (hf.trans hy)]
    | some y =>
      rw [modify_of_get? g (hf.trans hy), modify_of_get? f (hg.trans hx), modify_of_get? f hx,
        modify_of_get? g hy]
      simp only [Column.set_comm _ _ _ (index_ne hx hy hne)]

theorem remove_modify_self : ((a.modify h f).remove h).2 = (a.remove h).2 := by
  cases hx : a.get? h with
  | none => rw [modify_of_stale f hx]
  | some x =>
    have hf : (a.modify h f).get? h = some (f x) := by
      rw [get?_modify, if_pos rfl, hx, Option.map_some]
    rw [remove_of_get? hf, remove_of_get? hx, modify_of_get? f hx]
    simp only [Column.set_set]

theorem remove_modify_ne (hne : h ≠ h') :
    ((a.modify h f).remove h').2 = (a.remove h').2.modify h f := by
  have hf : (a.modify h f).get? h' = a.get? h' := by rw [get?_modify, if_neg hne.symm]
  have hg : (a.remove h').2.get? h = a.get? h := by rw [get?_remove, if_neg hne]
  cases hx : a.get? h with
  | none => rw [modify_of_stale f hx, modify_of_stale f (hg.trans hx)]
  | some x =>
    cases hy : a.get? h' with
    | none => rw [remove_of_stale hy, remove_of_stale (hf.trans hy)]
    | some y =>
      rw [modify_of_get? f (hg.trans hx), remove_of_get? (hf.trans hy), remove_of_get? hy,
        modify_of_get? f hx]
      simp only [Column.set_comm _ _ _ (index_ne hx hy hne)]

end

end Arena

end MudTrigger
