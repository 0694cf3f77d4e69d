import Mathlib.Logic.Relation
import MudTrigger.Proofs.World.Sound

/-!
# How entities are taken out of the world

`World.Takes` says, without fuel, what extracting does: entities are taken out one after another, and
each one after what belongs to it. Extracting never runs out of fuel (`takes_extract`), so what holds
of every derivation of `Takes` holds of it: the world wanes and stays sound, who is listed as taken
is gone from the index, and nobody else is (`Takes.index`).
-/

set_option autoImplicit false

namespace MudTrigger

theorem Table.size_erase_lt {κ α : Type} [DecidableEq κ] {t : Table κ α} {k : κ} {a : α}
    (h : t.get? k = some a) : (t.erase k).size < t.size := by
  obtain ⟨e, he, -⟩ := Option.map_eq_some_iff.1 h
  exact List.length_filter_lt_length_iff_exists.2
    ⟨e, List.mem_of_find?_eq_some he, by simpa using List.find?_some he⟩

theorem Table.size_erase_le {κ α : Type} [DecidableEq κ] (t : Table κ α) (k : κ) :
    (t.erase k).size ≤ t.size := List.length_filter_le _ _

namespace World

/-- Strikes an entity out of the index. -/
def forget (w : World) (u : Uid) : World := { w with index := w.index.erase u }

/-- Takes the entities of a list out of the world, together with what belongs to them; the second
list names all that were taken, in the order in which they left. -/
inductive Takes : World → List Uid → List Uid → World → Prop
  | done {w} : Takes w [] [] w
  /-- Rooms stay, and so does what is not there. -/
  | skip {w w' u us out} : w.isMovable u = false → Takes w us out w' → Takes w (u :: us) out w'
  | take {w w1 w' u us inner outer} : w.isMovable u = true →
    Takes (w.forget u) (w.belongings u) inner w1 → Takes (w1.drop (w.resolve u) u) us outer w' →
    Takes w (u :: us) (inner ++ u :: outer) w'

variable {w w' w1 : World} {u x y : Uid} {us out : List Uid} {h : Handle} {r : EntityRef}

/-! ## The index -/

theorem get?_forget (w : World) (u x : Uid) :
    (w.forget u).index.get? x = if x = u then none else w.index.get? x := Table.get?_erase _ _ _

theorem Wanes.forget (u : Uid) : w.Wanes (w.forget u) := by
  refine ⟨rfl, fun {x r} hx => ?_, fun hc => ⟨_, hc, .refl⟩, fun ho => ⟨_, ho, .refl⟩,
    fun hr => ⟨_, hr, .refl⟩⟩
  rw [get?_forget] at hx
  split at hx
  · cases hx
  · exact hx

@[simp] theorem index_modifyCharacter (u : Uid) (f : Character → Character) :
    (w.modifyCharacter u f).index = w.index := by
  unfold modifyCharacter
  split <;> rfl

@[simp] theorem index_modifyObject (u : Uid) (f : Object → Object) :
    (w.modifyObject u f).index = w.index := by
  unfold modifyObject
  split <;> rfl

@[simp] theorem index_modifyRoom (u : Uid) (f : Room → Room) :
    (w.modifyRoom u f).index = w.index := by
  unfold modifyRoom
  split <;> rfl

@[simp] theorem index_unlink (u : Uid) (location : Location) :
    (w.unlink u location).index = w.index := by
  cases location <;> simp [unlink]

@[simp] theorem index_vacate (u : Uid) (room : Option Uid) : (w.vacate u room).index = w.index := by
  cases room <;> simp [vacate]

@[simp] theorem index_drop (r : EntityRef) (u : Uid) : (w.drop r u).index = w.index := by
  rcases w.drop_cases r u with he | ⟨h, c, rfl, hc, he⟩ | ⟨h, o, rfl, ho, he⟩ <;> simp [he]

namespace Takes

/-- Who was taken is in the index no more, and everyone else is found where they were. -/
theorem index (h : Takes w us out w') (x : Uid) :
    w'.index.get? x = if x ∈ out then none else w.index.get? x := by
  induction h with
  | done => rw [if_neg List.not_mem_nil]
  | skip _ _ ih => exact ih
  | @take w w1 w' u us inner outer _ _ _ ih ih' =>
    rw [ih', index_drop, ih, get?_forget]
    by_cases hu : x = u
    · simp [hu]
    · by_cases hi : x ∈ inner <;> by_cases ho : x ∈ outer <;> simp [hu, hi, ho]

theorem index_of_mem (h : Takes w us out w') (hx : x ∈ out) : w'.index.get? x = none := by
  rw [h.index, if_pos hx]

theorem index_of_not_mem (h : Takes w us out w') (hx : x ∉ out) :
    w'.index.get? x = w.index.get? x := by
  rw [h.index, if_neg hx]

theorem size_le (h : Takes w us out w') : w'.index.size ≤ w.index.size := by
  induction h with
  | done => exact Nat.le_refl _
  | skip _ _ ih => exact ih
  | @take w w1 w' u us inner outer _ _ _ ih ih' =>
    rw [index_drop] at ih'
    exact Nat.le_trans ih' (Nat.le_trans ih (Table.size_erase_le _ _))

theorem wanes (h : Takes w us out w') : w.Wanes w' := by
  induction h with
  | done => exact .refl
  | skip _ _ ih => exact ih
  | take _ _ _ ih ih' => exact (Wanes.forget _).trans (ih.trans ((Wanes.drop _ _).trans ih'))

end Takes

/-! ## Extracting takes -/

theorem not_movable_of_size (hw : w.index.size = 0) (u : Uid) : w.isMovable u = false := by
  cases hm : w.isMovable u with
  | false => rfl
  | true =>
    obtain ⟨r, hr⟩ := get?_of_isMovable hm
    have hlt := Table.size_erase_lt hr
    omega

/-- One unit of fuel for every entry of the index is enough, because who is taken is forgotten
first. -/
theorem takes_foldl (fuel : Nat) (us out : List Uid) (w : World) (hw : w.index.size ≤ fuel) :
    ∃ new w', us.foldl (extractWithin fuel) (out, w) = (out ++ new, w') ∧ Takes w us new w' := by
  induction fuel generalizing us out w with
  | zero =>
    induction us with
    | nil => exact ⟨[], w, by rw [List.append_nil]; rfl, .done⟩
    | cons u us ih =>
      obtain ⟨new, w', he, ht⟩ := ih
      exact ⟨new, w', he, .skip (not_movable_of_size (Nat.le_zero.1 hw) u) ht⟩
  | succ fuel ih =>
    induction us generalizing out w with
    | nil => exact ⟨[], w, by rw [List.append_nil]; rfl, .done⟩
    | cons u us ihus =>
      rw [List.foldl_cons, extractWithin]
      by_cases hu : w.isMovable u = true
      · obtain ⟨r, hr⟩ := get?_of_isMovable hu
        have hlt : (w.forget u).index.size ≤ fuel :=
          Nat.le_of_lt_succ (Nat.lt_of_lt_of_le (Table.size_erase_lt hr) hw)
        obtain ⟨inner, w1, he, ht⟩ := ih (w.belongings u) out (w.forget u) hlt
        have hsize : (w1.drop (w.resolve u) u).index.size ≤ fuel + 1 := by
          rw [index_drop]
          exact Nat.le_succ_of_le (Nat.le_trans ht.size_le hlt)
        obtain ⟨outer, w', he', ht'⟩ := ihus (out ++ inner ++ [u]) _ hsize
        refine ⟨inner ++ u :: outer, w', ?_, .take hu ht ht'⟩
        rw [if_pos hu]
        show us.foldl (extractWithin (fuel + 1))
          (((w.belongings u).foldl (extractWithin fuel) (out, w.forget u)).1 ++ [u],
            ((w.belongings u).foldl (extractWithin fuel) (out, w.forget u)).2.drop (w.resolve u) u)
            = _
        rw [he, he']
        simp
      · obtain ⟨new, w', he, ht⟩ := ihus out w hw
        refine ⟨new, w', ?_, .skip (Bool.not_eq_true _ ▸ hu) ht⟩
        rw [if_neg hu, he]

theorem takes_extract (w : World) (u : Uid) : Takes w [u] (w.extract u).1 (w.extract u).2 := by
  obtain ⟨new, w', he, ht⟩ := takes_foldl w.index.size [u] [] w (Nat.le_refl _)
  have he : w.extract u = (new, w') := he
  rw [he]
  exact ht

/-! ## Soundness -/

namespace Sound

variable (hw : w.Sound)
include hw

theorem forget (u : Uid) : (w.forget u).Sound := by
  have hwane : w.Wanes (w.forget u) := .forget u
  have hext : w.Extends (w.forget u) := ⟨Nat.le_refl _, fun hx => .inl (hwane.index hx)⟩
  exact ⟨hw.characters, hw.objects, hw.rooms, hext.numbered hw.numbered,
    fun hx => hw.character (hwane.index hx), fun hx => hw.object (hwane.index hx),
    fun hx => hw.room (hwane.index hx), fun hc hx => (hw.held hc hx).extends hext,
    fun ho hx => (hw.inside ho hx).extends hext, fun hr hx => (hw.floor hr hx).extends hext⟩

/-- A record that is not found under any identity can go. -/
theorem removeCharacter (hh : ∀ x, w.index.get? x ≠ some (.character h)) :
    Sound { w with characters := (w.characters.remove h).2 } := by
  have hget := Arena.get?_remove w.characters h
  refine { hw with characters := hw.characters.remove h, character := ?_, held := ?_ }
  · intro x h' hx
    obtain ⟨c, hc, hu⟩ := hw.character hx
    refine ⟨c, (hget h').trans ?_, hu⟩
    rw [if_neg, hc]
    rintro rfl
    exact hh x hx
  · intro h' c x hc hx
    have hc : (w.characters.remove h).2.get? h' = some c := hc
    rw [hget] at hc
    split at hc
    · cases hc
    · exact hw.held hc hx

theorem removeObject (hh : ∀ x, w.index.get? x ≠ some (.object h)) :
    Sound { w with objects := (w.objects.remove h).2 } := by
  have hget := Arena.get?_remove w.objects h
  refine { hw with objects := hw.objects.remove h, object := ?_, inside := ?_ }
  · intro x h' hx
    obtain ⟨o, ho, hu⟩ := hw.object hx
    refine ⟨o, (hget h').trans ?_, hu⟩
    rw [if_neg, ho]
    rintro rfl
    exact hh x hx
  · intro h' o x ho hx
    have ho : (w.objects.remove h).2.get? h' = some o := ho
    rw [hget] at ho
    split at ho
    · cases ho
    · exact hw.inside ho hx

theorem drop (u : Uid) (hr : ∀ x, w.index.get? x ≠ some r) : (w.drop r u).Sound := by
  rcases w.drop_cases r u with he | ⟨h, c, rfl, hc, he⟩ | ⟨h, o, rfl, ho, he⟩
  · rw [he]
    exact hw
  · rw [he]
    exact (hw.vacate u c.inRoom).removeCharacter (by simpa using hr)
  · rw [he]
    exact (hw.unlink u o.location).removeObject (by simpa using hr)

/-- The handle of one who has been forgotten belongs to nobody. -/
theorem unclaimed (hu : w.isMovable u = true) (hwane : (w.forget u).Wanes w1) (x : Uid) :
    w1.index.get? x ≠ some (w.resolve u) := by
  intro hx
  have hx := hwane.index hx
  rw [get?_forget] at hx
  split at hx
  · cases hx
  · rename_i hne
    obtain ⟨r, hr⟩ := get?_of_isMovable hu
    rw [resolve_of_get? hr] at hx
    refine hne (hw.ref_inj hx hr ?_)
    rintro rfl
    rcases isMovable_iff.1 hu with ⟨c, hc⟩ | ⟨o, ho⟩
    · obtain ⟨h, hi, -⟩ := character?_eq_some.1 hc
      rw [hr] at hi
      cases hi
    · obtain ⟨h, hi, -⟩ := object?_eq_some.1 ho
      rw [hr] at hi
      cases hi

end Sound

theorem Takes.sound (h : Takes w us out w') (hw : w.Sound) : w'.Sound := by
  induction h with
  | done => exact hw
  | skip _ _ ih => exact ih hw
  | take hu ht _ ih ih' => exact ih' ((ih (hw.forget _)).drop _ (hw.unclaimed hu ht.wanes))

theorem Sound.extract (hw : w.Sound) (u : Uid) : (w.extract u).2.Sound := (takes_extract w u).sound hw

/-! ## Who is taken -/

/-- The first holds the second, on itself or inside. -/
def Holds (w : World) (u x : Uid) : Prop := x ∈ w.belongings u

theorem Wanes.reaches (hw : w.Wanes w') (h : Relation.ReflTransGen w'.Holds u x) :
    Relation.ReflTransGen w.Holds u x :=
  h.lift id fun _ _ hx => hw.belongings hx

/-- In a sound world all that can leave the world has an entry of its kind. -/
theorem Sound.isMovable_iff (hw : w.Sound) : w.isMovable u = true ↔
    (∃ h, w.index.get? u = some (.character h)) ∨ ∃ h, w.index.get? u = some (.object h) := by
  rw [World.isMovable_iff]
  constructor
  · rintro (⟨c, hc⟩ | ⟨o, ho⟩)
    · obtain ⟨h, hi, -⟩ := character?_eq_some.1 hc
      exact .inl ⟨h, hi⟩
    · obtain ⟨h, hi, -⟩ := object?_eq_some.1 ho
      exact .inr ⟨h, hi⟩
  · rintro (⟨h, hi⟩ | ⟨h, hi⟩)
    · obtain ⟨c, hc, -⟩ := hw.character hi
      exact .inl ⟨c, character?_eq_some.2 ⟨h, hi, hc⟩⟩
    · obtain ⟨o, ho, -⟩ := hw.object hi
      exact .inr ⟨o, object?_eq_some.2 ⟨h, hi, ho⟩⟩

theorem isMovable_of_index (hw : w.Sound) (hw' : w'.Sound)
    (hi : w'.index.get? x = w.index.get? x) : w'.isMovable x = w.isMovable x := by
  rw [Bool.eq_iff_iff, hw.isMovable_iff, hw'.isMovable_iff, hi]

theorem not_movable_of_absent (hx : w.index.get? x = none) : w.isMovable x = false := by
  cases hm : w.isMovable x with
  | false => rfl
  | true =>
    obtain ⟨r, hr⟩ := get?_of_isMovable hm
    rw [hx] at hr
    cases hr

theorem Wanes.not_movable (hw : w.Wanes w') (hx : w.isMovable x = false) :
    w'.isMovable x = false := by
  cases hm : w'.isMovable x with
  | false => rfl
  | true => rw [hw.isMovable hm] at hx; cases hx

namespace Takes

theorem isMovable_of_mem (h : Takes w us out w') (hx : x ∈ out) : w.isMovable x = true := by
  induction h with
  | done => exact absurd hx List.not_mem_nil
  | skip _ _ ih => exact ih hx
  | @take w w1 w' u us inner outer hu ht _ ih ih' =>
    have hfirst : w.Wanes w1 := (Wanes.forget u).trans ht.wanes
    rcases List.mem_append.1 hx with hx | hx
    · exact (Wanes.forget u).isMovable (ih hx)
    · rcases List.mem_cons.1 hx with rfl | hx
      · exact hu
      · exact hfirst.isMovable ((Wanes.drop _ _).isMovable (ih' hx))

/-- Only what the listed entities hold, directly or not, is taken with them. -/
theorem reaches (h : Takes w us out w') (hx : x ∈ out) :
    ∃ u ∈ us, Relation.ReflTransGen w.Holds u x := by
  induction h with
  | done => exact absurd hx List.not_mem_nil
  | skip _ _ ih =>
    obtain ⟨v, hv, hr⟩ := ih hx
    exact ⟨v, List.mem_cons_of_mem _ hv, hr⟩
  | @take w w1 w' u us inner outer hu ht _ ih ih' =>
    have hfirst : w.Wanes w1 := (Wanes.forget u).trans ht.wanes
    rcases List.mem_append.1 hx with hx | hx
    · obtain ⟨v, hv, hr⟩ := ih hx
      exact ⟨u, List.mem_cons_self, .head hv ((Wanes.forget u).reaches hr)⟩
    · rcases List.mem_cons.1 hx with rfl | hx
      · exact ⟨x, List.mem_cons_self, .refl⟩
      · obtain ⟨v, hv, hr⟩ := ih' hx
        exact ⟨v, List.mem_cons_of_mem _ hv, (hfirst.trans (.drop _ _)).reaches hr⟩

/-- Besides those in the list only things are taken. -/
theorem thing (h : Takes w us out w') (hw : w.Sound) (hx : x ∈ out) : x ∈ us ∨ w.Thing x := by
  obtain ⟨u, hu, hr⟩ := h.reaches hx
  rcases Relation.ReflTransGen.cases_tail hr with rfl | ⟨v, -, hv⟩
  · exact .inl hu
  · exact .inr (hw.thing_of_belongings hv)

/-- Afterwards none of the listed entities is in the world, unless it is a room. -/
theorem left (h : Takes w us out w') (hx : x ∈ us) : w'.isMovable x = false := by
  induction h with
  | done => exact absurd hx List.not_mem_nil
  | skip hu ht ih =>
    rcases List.mem_cons.1 hx with rfl | hx
    · exact ht.wanes.not_movable hu
    · exact ih hx
  | @take w w1 w' u us inner outer hu ht ht' ih ih' =>
    rcases List.mem_cons.1 hx with rfl | hx
    · refine not_movable_of_absent ?_
      exact (Takes.take hu ht ht').index_of_mem (List.mem_append_right _ List.mem_cons_self)
    · exact ih' hx

end Takes

end World

end MudTrigger
