import MudTrigger.Proofs.Data.Arena
import Mathlib.Data.List.Nodup
import Mathlib.Data.List.Perm.Basic

/-!
# An arena as a roster

A `Roster` lists every handle that was ever issued, with the value that is stored under it or none once
that was removed. `Roster.Step` says what each operation of an arena answers there, and what it
changes. An arena answers every sequence of operations so (`arena_answers`), as long as no slot is
taken again so often that its generations start over.

The slots, the generations, the vacant slots and the size are all read off the roster
(`Arena.Matches`): the handles of a slot have the generations from zero on, in the order of issue, and
the slot has the generation of the last of them. Every handle names a slot that there is.
-/

set_option autoImplicit false

namespace MudTrigger

/-- What is asked of an arena. -/
inductive ArenaOp (α : Type) where
  | insert (x : α)
  | remove (h : Handle)
  | get (h : Handle)
  /-- Changes a value in its place. -/
  | modify (h : Handle) (f : α → α)
  | contains (h : Handle)
  | count
  | list

inductive ArenaAnswer (α : Type) where
  | issued (h : Handle)
  /-- The value that was removed, read or changed, as it was found. -/
  | found (x : Option α)
  | known (b : Bool)
  | counted (n : Nat)
  | listed (es : List (Handle × α))
  deriving DecidableEq

/-- The handles that a sequence of answers has issued. -/
def ArenaAnswer.handles {α : Type} (as : List (ArenaAnswer α)) : List Handle :=
  as.filterMap fun
    | .issued h => some h
    | _ => none

/-- How often a slot was taken again after it was first taken for one of these handles. -/
def Handle.reuses (hs : List Handle) (i : Nat) : Nat := hs.countP (·.index = i) - 1

namespace Arena

variable {α : Type}

def answer (a : Arena α) : ArenaOp α → ArenaAnswer α × Arena α
  | .insert x => (.issued (a.insert x).1, (a.insert x).2)
  | .remove h => (.found (a.remove h).1, (a.remove h).2)
  | .get h => (.found (a.get? h), a)
  | .modify h f => (.found (a.get? h), a.modify h f)
  | .contains h => (.known (a.contains h), a)
  | .count => (.counted a.size, a)
  | .list => (.listed a.toList, a)

/-- The answers to a sequence of operations, and the arena that is left. -/
def serve (a : Arena α) : List (ArenaOp α) → List (ArenaAnswer α) × Arena α
  | [] => ([], a)
  | op :: ops =>
    let rest := (a.answer op).2.serve ops
    ((a.answer op).1 :: rest.1, rest.2)

end Arena

/-- The handles that were issued, each with its value, or none once that was removed. -/
abbrev Roster (α : Type) := List (Handle × Option α)

namespace Roster

variable {α : Type}

def handles (r : Roster α) : List Handle := r.map (·.1)

/-- The value that is stored under a handle. -/
def value? (r : Roster α) (h : Handle) : Option α := (r.find? (·.1 = h)).bind (·.2)

/-- The values that are stored, with their handles. -/
def live (r : Roster α) : List (Handle × α) := r.filterMap fun e => e.2.map (e.1, ·)

/-- Applies `f` to the entry of a handle. -/
def change (r : Roster α) (h : Handle) (f : Option α → Option α) : Roster α :=
  r.map fun e => if e.1 = h then (e.1, f e.2) else e

/-- The handles of a slot. -/
def inSlot (r : Roster α) (i : Nat) : List Handle := r.handles.filter (·.index = i)

/-- What an operation answers, and how it changes the roster. -/
inductive Step : Roster α → ArenaOp α → ArenaAnswer α → Roster α → Prop
  | insert {r h} (x) : h ∉ r.handles → Step r (.insert x) (.issued h) (r ++ [(h, some x)])
  | remove {r} (h) : Step r (.remove h) (.found (r.value? h)) (r.change h fun _ => none)
  | get {r} (h) : Step r (.get h) (.found (r.value? h)) r
  | modify {r} (h f) : Step r (.modify h f) (.found (r.value? h)) (r.change h (Option.map f))
  | contains {r} (h) : Step r (.contains h) (.known (r.value? h).isSome) r
  | count {r} : Step r .count (.counted r.live.length) r
  | list {r es} : es.Perm r.live → (es.map (·.1.index)).Pairwise (· < ·) →
    Step r .list (.listed es) r

inductive Run : Roster α → List (ArenaOp α) → List (ArenaAnswer α) → Roster α → Prop
  | nil {r} : Run r [] [] r
  | cons {r op a r' ops as r''} : Step r op a r' → Run r' ops as r'' →
    Run r (op :: ops) (a :: as) r''

/-! ## Reading a roster -/

variable {r : Roster α} {e : Handle × Option α} {h h' : Handle} {x : α} {f : Option α → Option α}

theorem value?_cons (e : Handle × Option α) (r : Roster α) (h : Handle) :
    value? (e :: r) h = if e.1 = h then e.2 else r.value? h := by
  by_cases he : e.1 = h
  · simp [value?, he]
  · simp [value?, he]

theorem value?_of_not_mem (hh : h ∉ r.handles) : r.value? h = none := by
  induction r with
  | nil => rfl
  | cons e r ih =>
    simp only [handles, List.map_cons, List.mem_cons, not_or] at hh
    rw [value?_cons, if_neg (Ne.symm hh.1), ih hh.2]

theorem value?_append (hh : h ∉ r.handles) (x : α) (h' : Handle) :
    value? (r ++ [(h, some x)]) h' = if h' = h then some x else r.value? h' := by
  induction r with
  | nil => by_cases hh' : h' = h <;> simp [value?, hh', eq_comm]
  | cons e r ih =>
    simp only [handles, List.map_cons, List.mem_cons, not_or] at hh
    rw [List.cons_append, value?_cons, value?_cons, ih hh.2]
    by_cases he : e.1 = h'
    · have hne : h' ≠ h := fun hc => hh.1 (hc.symm.trans he.symm)
      simp [he, hne]
    · simp [he]

theorem handles_change (r : Roster α) (h : Handle) (f : Option α → Option α) :
    (r.change h f).handles = r.handles := by
  rw [change, handles, List.map_map]
  refine List.map_congr_left fun e _ => ?_
  by_cases he : e.1 = h
  · simp [he]
  · simp [he]

theorem change_cons (e : Handle × Option α) (r : Roster α) (h : Handle)
    (f : Option α → Option α) :
    change (e :: r) h f = (if e.1 = h then (e.1, f e.2) else e) :: r.change h f := rfl

theorem value?_change (hf : f none = none) (h' : Handle) :
    (r.change h f).value? h' = if h' = h then f (r.value? h) else r.value? h' := by
  induction r with
  | nil => simp [change, value?, hf]
  | cons e r ih =>
    rw [change_cons, value?_cons, value?_cons, value?_cons, ih]
    by_cases he : e.1 = h
    · by_cases hh : h' = h
      · simp [he, hh]
      · simp [he, hh, Ne.symm hh]
    · by_cases hh : h' = h
      · simp [he, hh]
      · simp [he, hh]

theorem change_of_not_mem (hh : h ∉ r.handles) : r.change h f = r := by
  rw [change]
  conv_rhs => rw [← List.map_id r]
  refine List.map_congr_left fun e he => ?_
  have hne : e.1 ≠ h := fun hc => hh (hc ▸ List.mem_map_of_mem he)
  simp [hne]

theorem live_cons (e : Handle × Option α) (r : Roster α) :
    live (e :: r) = (e.2.map (e.1, ·)).toList ++ r.live := by
  obtain ⟨h, x⟩ := e
  cases x with
  | none => rfl
  | some x => rfl

theorem live_append (r : Roster α) (h : Handle) (x : α) :
    live (r ++ [(h, some x)]) = r.live ++ [(h, x)] := by
  rw [live, List.filterMap_append]
  rfl

/-- Removing a value takes it off the live ones, and nothing else. -/
theorem length_live_remove (hn : r.handles.Nodup) (h : Handle) :
    (r.change h fun _ => none).live.length + (r.value? h).toList.length = r.live.length := by
  induction r with
  | nil => rfl
  | cons e r ih =>
    obtain ⟨hne, hn⟩ := List.nodup_cons.1 hn
    rw [change_cons, value?_cons, live_cons, live_cons]
    by_cases he : e.1 = h
    · subst he
      rw [change_of_not_mem hne]
      cases e.2 with
      | none => simp
      | some x => simp
    · have ih := ih hn
      simp only [if_neg he, List.length_append]
      omega

theorem length_live_modify (r : Roster α) (h : Handle) (f : α → α) :
    (r.change h (Option.map f)).live.length = r.live.length := by
  induction r with
  | nil => rfl
  | cons e r ih =>
    rw [change_cons, live_cons, live_cons, List.length_append, List.length_append, ih]
    by_cases he : e.1 = h
    · cases e.2 with
      | none => simp [he]
      | some x => simp [he]
    · simp [he]

theorem mem_live_iff (hn : r.handles.Nodup) : (h, x) ∈ r.live ↔ r.value? h = some x := by
  induction r with
  | nil => simp [live, value?]
  | cons e r ih =>
    obtain ⟨hne, hn⟩ := List.nodup_cons.1 hn
    rw [live_cons, value?_cons, List.mem_append, ih hn]
    by_cases he : e.1 = h
    · subst he
      have hv := value?_of_not_mem hne
      simp [hv]
    · have hne' : ∀ y, (e.1, y) ≠ (h, x) := fun y hc => he (congrArg Prod.fst hc)
      simp [he]

theorem inSlot_append (r : Roster α) (h : Handle) (x : Option α) (i : Nat) :
    inSlot (r ++ [(h, x)]) i = if h.index = i then r.inSlot i ++ [h] else r.inSlot i := by
  rw [inSlot, handles, List.map_append, List.filter_append, ← handles, ← inSlot]
  by_cases hi : h.index = i
  · simp [hi]
  · simp [hi]

theorem nodup_live (hn : r.handles.Nodup) : r.live.Nodup := by
  refine List.Nodup.of_map (·.1) (List.Nodup.sublist ?_ hn)
  induction r with
  | nil => exact .slnil
  | cons e r ih =>
    rw [live_cons, List.map_append]
    have ih := ih (List.nodup_cons.1 hn).2
    cases e.2 with
    | none => exact ih.cons _
    | some x => exact ih.cons_cons _

end Roster

namespace Arena

variable {α : Type} {a : Arena α} {h : Handle}

/-! ## The roster of an arena -/

/-- The generation that a slot has when it was taken so often. -/
def generationAfter : Nat → Option UInt32
  | 0 => none
  | n + 1 => some (.ofNat n)

/-- The roster tells what the arena holds, and which handles its slots were issued under. -/
structure Matches (a : Arena α) (r : Roster α) : Prop where
  sound : a.Sound
  nodup : r.handles.Nodup
  value : ∀ h, a.get? h = r.value? h
  size : a.size = r.live.length
  numbered : ∀ i, r.inSlot i = (List.range (r.inSlot i).length).map fun k => ⟨i, .ofNat k⟩
  latest : ∀ i, a.generation? i = generationAfter (r.inSlot i).length

theorem matches_empty : (∅ : Arena α).Matches [] where
  sound := sound_empty
  nodup := .nil
  value _ := rfl
  size := rfl
  numbered _ := rfl
  latest _ := rfl

variable {r : Roster α}

/-- The next handle of a slot has the number of those before it for a generation. -/
theorem Matches.insert_fst (hm : a.Matches r) (x : α) :
    (a.insert x).1 =
      ⟨(a.insert x).1.index, .ofNat (r.inSlot (a.insert x).1.index).length⟩ := by
  have hg := hm.sound.generation_insert x
  rw [hm.latest] at hg
  generalize (a.insert x).1 = h at hg ⊢
  obtain ⟨i, gen⟩ := h
  simp only at hg ⊢
  rw [hg]
  cases (r.inSlot i).length with
  | zero => rfl
  | succ n =>
    simp only [generationAfter, Option.map_some, Option.getD_some, UInt32.ofNat_add]
    rfl

/-- A handle is not issued again as long as its slot was taken fewer than 2^32 times. -/
theorem Matches.insert_not_mem (hm : a.Matches r) (x : α)
    (hfew : (r.inSlot (a.insert x).1.index).length < 0x1_0000_0000) :
    (a.insert x).1 ∉ r.handles := by
  intro hmem
  have hh := hm.insert_fst x
  have hslot : (a.insert x).1 ∈ r.inSlot (a.insert x).1.index :=
    List.mem_filter.2 ⟨hmem, decide_eq_true rfl⟩
  rw [hm.numbered, List.mem_map] at hslot
  obtain ⟨k, hk, he⟩ := hslot
  have hk := List.mem_range.1 hk
  have hg : UInt32.ofNat k = UInt32.ofNat (r.inSlot (a.insert x).1.index).length := by
    rw [hh] at he
    exact congrArg Handle.generation he
  have hg := congrArg UInt32.toNat hg
  rw [UInt32.toNat_ofNat', UInt32.toNat_ofNat', Nat.mod_eq_of_lt (by omega),
    Nat.mod_eq_of_lt (by omega)] at hg
  omega

/-- The last handle of a slot that was taken names it, so the slot is there. -/
theorem Matches.index_lt (hm : a.Matches r) (hh : h ∈ r.handles) : h.index < a.slots.size := by
  have hslot : h ∈ r.inSlot h.index := List.mem_filter.2 ⟨hh, decide_eq_true rfl⟩
  have hg := hm.latest h.index
  obtain ⟨n, hn⟩ := Nat.exists_eq_succ_of_ne_zero
    (Nat.ne_of_gt (List.length_pos_of_mem hslot))
  rw [hn, generationAfter, generation?] at hg
  obtain ⟨s, hs, -⟩ := Option.map_eq_some_iff.1 hg
  exact Column.lt_of_get? hs

theorem Matches.insert (hm : a.Matches r) (x : α)
    (hfew : (r.inSlot (a.insert x).1.index).length < 0x1_0000_0000) :
    ∃ r', r.Step (.insert x) (a.answer (.insert x)).1 r' ∧
      (a.answer (.insert x)).2.Matches r' := by
  have hnew := hm.insert_not_mem x hfew
  have hfst := hm.insert_fst x
  refine ⟨_, .insert x hnew, hm.sound.insert x, ?_, fun h => ?_, ?_, fun i => ?_, fun i => ?_⟩
  · rw [Roster.handles, List.map_append]
    exact List.nodup_append.2 ⟨hm.nodup, List.nodup_singleton _, fun u hu v hv => by
      rintro rfl
      obtain rfl := List.mem_singleton.1 hv
      exact hnew hu⟩
  · rw [Roster.value?_append hnew, ← hm.value]
    exact hm.sound.get?_insert x h
  · rw [Roster.live_append, List.length_append, ← hm.size]
    exact size_insert a x
  · rw [Roster.inSlot_append]
    by_cases hi : (a.insert x).1.index = i
    · subst hi
      rw [if_pos rfl, List.length_append, List.length_singleton, List.range_succ, List.map_append,
        ← hm.numbered, List.map_singleton, ← hfst]
    · rw [if_neg hi]
      exact hm.numbered i
  · rw [Roster.inSlot_append, answer, hm.sound.generation?_insert]
    by_cases hi : (a.insert x).1.index = i
    · subst hi
      rw [if_pos rfl, if_pos rfl, List.length_append, List.length_singleton, generationAfter, hfst]
    · rw [if_neg (Ne.symm hi), if_neg hi]
      exact hm.latest i

/-- The roster of the same handles matches an arena with the same generations. -/
theorem Matches.change {b : Arena α} (hm : a.Matches r) (hs : b.Sound)
    (hg : ∀ i, b.generation? i = a.generation? i) {f : Option α → Option α} (hf : f none = none)
    (hb : ∀ h', b.get? h' = if h' = h then f (a.get? h) else a.get? h')
    (hsize : b.size = (r.change h f).live.length) : b.Matches (r.change h f) := by
  have hslot : ∀ i, (r.change h f).inSlot i = r.inSlot i := by
    intro i
    rw [Roster.inSlot, Roster.handles_change, Roster.inSlot]
  refine ⟨hs, ?_, fun h' => ?_, hsize, fun i => ?_, fun i => ?_⟩
  · rw [Roster.handles_change]
    exact hm.nodup
  · rw [hb, Roster.value?_change hf, hm.value, hm.value]
  · rw [hslot]
    exact hm.numbered i
  · rw [hslot, hg]
    exact hm.latest i

theorem Matches.remove (hm : a.Matches r) (h : Handle) :
    ∃ r', r.Step (.remove h) (a.answer (.remove h)).1 r' ∧
      (a.answer (.remove h)).2.Matches r' := by
  have hs := Roster.Step.remove (r := r) h
  rw [← hm.value, ← remove_fst] at hs
  refine ⟨_, hs, hm.change (hm.sound.remove h) (generation?_remove a h) rfl (get?_remove a h) ?_⟩
  have hlen := Roster.length_live_remove hm.nodup h
  rw [← hm.value, ← hm.size] at hlen
  rw [size_remove]
  omega

theorem Matches.modify (hm : a.Matches r) (h : Handle) (f : α → α) :
    ∃ r', r.Step (.modify h f) (a.answer (.modify h f)).1 r' ∧
      (a.answer (.modify h f)).2.Matches r' := by
  have hs := Roster.Step.modify (r := r) h f
  rw [← hm.value] at hs
  refine ⟨_, hs, hm.change (hm.sound.modify h f) (generation?_modify a h f) rfl
    (fun h' => get?_modify a h h' f) ?_⟩
  rw [Roster.length_live_modify, ← hm.size]
  exact size_modify a h f

/-- The list has the live values, each once. -/
theorem Matches.toList_perm (hm : a.Matches r) : a.toList.Perm r.live := by
  have hnodup : a.toList.Nodup :=
    List.Nodup.of_map (fun e : Handle × α => e.1.index) (a.pairwise_toList.imp Nat.ne_of_lt)
  refine (List.perm_ext_iff_of_nodup hnodup (Roster.nodup_live hm.nodup)).2 fun e => ?_
  rw [mem_toList_iff, Roster.mem_live_iff hm.nodup, hm.value]

/-- One operation is answered as the roster answers it, unless it takes a slot for the 2^32th time
after it was first taken. -/
theorem Matches.answer (hm : a.Matches r) (op : ArenaOp α)
    (hfew : ∀ h, (a.answer op).1 = .issued h → (r.inSlot h.index).length < 0x1_0000_0000) :
    ∃ r', r.Step op (a.answer op).1 r' ∧ (a.answer op).2.Matches r' := by
  cases op with
  | insert x => exact hm.insert x (hfew _ rfl)
  | remove h => exact hm.remove h
  | get h =>
    refine ⟨r, ?_, hm⟩
    rw [Arena.answer, hm.value]
    exact .get h
  | modify h f => exact hm.modify h f
  | contains h =>
    refine ⟨r, ?_, hm⟩
    rw [Arena.answer, Arena.contains, hm.value]
    exact .contains h
  | count =>
    refine ⟨r, ?_, hm⟩
    rw [Arena.answer, hm.size]
    exact .count
  | list => exact ⟨r, .list hm.toList_perm a.pairwise_toList, hm⟩

end Arena

/-! ## Sequences of operations -/

namespace Roster

variable {α : Type} {r r' : Roster α} {ops : List (ArenaOp α)} {as : List (ArenaAnswer α)}

/-- The roster has just the handles that were issued. -/
theorem Step.handles {op : ArenaOp α} {a : ArenaAnswer α} (hs : r.Step op a r') :
    r'.handles = r.handles ++ ArenaAnswer.handles [a] := by
  cases hs with
  | insert x hh => simp [Roster.handles, ArenaAnswer.handles]
  | remove h => simp [handles_change, ArenaAnswer.handles]
  | modify h f => simp [handles_change, ArenaAnswer.handles]
  | get | contains | count | list => simp [ArenaAnswer.handles]

theorem Run.handles (hr : r.Run ops as r') :
    r'.handles = r.handles ++ ArenaAnswer.handles as := by
  induction hr with
  | nil => simp [ArenaAnswer.handles]
  | cons hs _ ih =>
    rw [ih, hs.handles, List.append_assoc, ArenaAnswer.handles, ArenaAnswer.handles,
      ← List.filterMap_append]
    rfl

end Roster

namespace Arena

variable {α : Type} {a : Arena α} {r : Roster α}

/-- A sequence of operations is answered as the roster answers it, unless it takes some slot 2^32 times
after it was first taken. -/
theorem Matches.serve (hm : a.Matches r) (ops : List (ArenaOp α))
    (hfew : ∀ i, (r.inSlot i).length +
      (ArenaAnswer.handles (a.serve ops).1).countP (·.index = i) ≤ 0x1_0000_0000) :
    ∃ r', r.Run ops (a.serve ops).1 r' ∧ (a.serve ops).2.Matches r' := by
  induction ops generalizing a r with
  | nil => exact ⟨r, .nil, hm⟩
  | cons op ops ih =>
    rw [Arena.serve] at hfew ⊢
    simp only at hfew ⊢
    have hcount : ∀ i, (ArenaAnswer.handles ((a.answer op).1 :: ((a.answer op).2.serve ops).1)).countP
        (·.index = i) = (ArenaAnswer.handles [(a.answer op).1]).countP (·.index = i) +
          (ArenaAnswer.handles ((a.answer op).2.serve ops).1).countP (·.index = i) := by
      intro i
      rw [← List.countP_append, ArenaAnswer.handles, ArenaAnswer.handles, ArenaAnswer.handles,
        ← List.filterMap_append]
      rfl
    have hop : ∀ h, (a.answer op).1 = .issued h → (r.inSlot h.index).length < 0x1_0000_0000 := by
      intro h he
      have hle := hfew h.index
      rw [hcount, he] at hle
      have hone : (ArenaAnswer.handles [ArenaAnswer.issued (α := α) h]).countP
          (·.index = h.index) = 1 := by
        simp [ArenaAnswer.handles]
      omega
    obtain ⟨r1, hs, h1⟩ := hm.answer op hop
    have hlen : ∀ i, (r1.inSlot i).length = (r.inSlot i).length +
        (ArenaAnswer.handles [(a.answer op).1]).countP (·.index = i) := by
      intro i
      rw [Roster.inSlot, Roster.inSlot, hs.handles, List.filter_append, List.length_append,
        List.countP_eq_length_filter]
    obtain ⟨r2, hr, h2⟩ := ih h1 fun i => by
      have hle := hfew i
      rw [hcount] at hle
      rw [hlen]
      omega
    exact ⟨r2, .cons hs hr, h2⟩

end Arena

/-- An arena answers every sequence of operations as a roster of the handles that it has issued does,
and no handle is issued twice, as long as no slot is taken again 2^32 times. Under a handle whose value
is gone, or that was never issued, nothing is removed or changed. -/
theorem arena_answers {α : Type} (ops : List (ArenaOp α)) :
    let served := (∅ : Arena α).serve ops
    let issued := ArenaAnswer.handles served.1
    (∀ i, Handle.reuses issued i < 0x1_0000_0000) →
    ∃ r : Roster α, Roster.Run [] ops served.1 r ∧ r.handles = issued ∧ issued.Nodup ∧
      (∀ h ∈ issued, h.index < served.2.slots.size) ∧
      ∀ h, r.value? h = none →
        served.2.remove h = (none, served.2) ∧ ∀ f, served.2.modify h f = served.2 := by
  intro served issued hfew
  obtain ⟨r, hr, hm⟩ := Arena.matches_empty.serve ops fun i => by
    have hi : issued.countP (·.index = i) - 1 < 0x1_0000_0000 := hfew i
    show 0 + issued.countP (·.index = i) ≤ 0x1_0000_0000
    omega
  have hh : r.handles = issued := hr.handles
  refine ⟨r, hr, hh, hh ▸ hm.nodup, fun h hmem => ?_, fun h hv => ?_⟩
  · exact hm.index_lt (hh.symm ▸ hmem)
  · have hx : served.2.get? h = none := (hm.value h).trans hv
    exact ⟨Arena.remove_of_stale hx, fun f => Arena.modify_of_stale f hx⟩

/-- A guard is removed, and a cat takes the slot. -/
def guardThenCat : List (ArenaOp String) :=
  [.insert "guard", .remove ⟨0, 0⟩, .insert "cat", .get ⟨0, 0⟩, .modify ⟨0, 0⟩ fun _ => "ghost",
    .modify ⟨0, 1⟩ (· ++ "!"), .remove ⟨0, 0⟩, .contains ⟨7, 3⟩, .count, .list]

theorem arena_answers_cat :
    let served := (∅ : Arena String).serve guardThenCat
    served.1 = [.issued ⟨0, 0⟩, .found (some "guard"), .issued ⟨0, 1⟩, .found none, .found none,
      .found (some "cat"), .found none, .known false, .counted 1, .listed [(⟨0, 1⟩, "cat!")]] ∧
    (∀ i, Handle.reuses (ArenaAnswer.handles served.1) i < 0x1_0000_0000) ∧
    ∃ r : Roster String, Roster.Run [] guardThenCat served.1 r ∧
      r.handles = [⟨0, 0⟩, ⟨0, 1⟩] := by
  intro served
  have hissued : ArenaAnswer.handles served.1 = [⟨0, 0⟩, ⟨0, 1⟩] := by decide +kernel
  have hfew : ∀ i, Handle.reuses (ArenaAnswer.handles served.1) i < 0x1_0000_0000 := by
    intro i
    have hle := List.countP_le_length (p := (·.index = i)) (l := ArenaAnswer.handles served.1)
    have htwo : (ArenaAnswer.handles served.1).length = 2 := congrArg List.length hissued
    rw [Handle.reuses]
    omega
  obtain ⟨r, hr, hh, -⟩ := arena_answers guardThenCat hfew
  exact ⟨by decide +kernel, hfew, r, hr, hh.trans hissued⟩

end MudTrigger
