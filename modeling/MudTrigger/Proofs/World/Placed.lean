import MudTrigger.Proofs.World.Slot

/-!
# Objects are where they say

Whoever moves objects where: what is listed as held is an object, which says that it is held there, and
no list holds it twice (`World.Listed`). The converse needs care of the caller (`World.Filed`). An object is
listed where it says if objects are put only where there is a holder; but putting an object on at a wear
position takes the place of the one that is worn there, and taking either of them off empties the
position for both, so that wear positions have to be free. And locations lead out of every container if
nothing is put into itself or into its own contents (`World.Rooted`). With such care moving or
extracting an object leaves all others where they are, except for what is taken out with it
(`objects_are_where_they_say`); without it they get lost (`displaced_cloak_is_lost`). All this is about
worlds of 50,000 rooms at most, however they were built.
-/

set_option autoImplicit false

namespace MudTrigger

namespace World

variable {p : Policy} {w w' : World} {u x y : Uid} {ℓ ℓ' : Location} {kind : Location → Prop}

/-- What is listed is an object that says so, and no list repeats itself. -/
structure Listed (w : World) : Prop where
  located : ∀ {x ℓ}, x ∈ w.slot ℓ → w.locate x = some ℓ
  once : ∀ ℓ, (w.slot ℓ).Nodup

/-- At locations of a kind, objects are listed where they say that they are. -/
structure Filed (kind : Location → Prop) (w : World) : Prop where
  listed : ∀ {x ℓ}, kind ℓ → ℓ ≠ .nowhere → w.locate x = some ℓ → x ∈ w.slot ℓ

/-- An object says that it is in another one. -/
def Lies (w : World) (x y : Uid) : Prop := w.locate x = some (.inside y)

instance (w : World) (x y : Uid) : Decidable (w.Lies x y) :=
  inferInstanceAs (Decidable (_ = _))

/-- Locations never lead back. -/
def Rooted (w : World) : Prop := ∀ x, ¬ Relation.TransGen w.Lies x x

/-! ## What commands do to objects -/

/-- Every object is where it was, and new ones are nowhere. -/
structure Unmoved (w w' : World) : Prop where
  slot : ∀ ℓ, w'.slot ℓ = w.slot ℓ
  locate : ∀ x, w'.locate x = w.locate x ∨ w.locate x = none ∧ w'.locate x = some .nowhere

theorem Alike.unmoved (h : w.Alike w') : w.Unmoved w' := by
  refine ⟨fun ℓ => ?_, fun x => .inl ?_⟩
  · cases ℓ with
    | nowhere => rfl
    | room room =>
      have hr := congrArg (Option.map fun s => s.2.2) (h.room room)
      simp only [Option.map_map] at hr
      exact congrArg (Option.getD · []) hr
    | carried holder =>
      have hc := congrArg (Option.map fun s => s.2.2.2.1) (h.character holder)
      simp only [Option.map_map] at hc
      exact congrArg (Option.getD · []) hc
    | worn holder q =>
      have hc := congrArg (Option.map fun s => (s.2.2.2.2.get? q).toList) (h.character holder)
      simp only [Option.map_map] at hc
      exact congrArg (Option.getD · []) hc
    | inside container =>
      have ho := congrArg (Option.map fun s => s.2.2) (h.object container)
      simp only [Option.map_map] at ho
      exact congrArg (Option.getD · []) ho
  · have ho := congrArg (Option.map fun s => s.2.1) (h.object x)
    simp only [Option.map_map] at ho
    exact ho

theorem Sound.unmoved_placeCharacter (hw : w.Sound) (u room : Uid) :
    w.Unmoved (w.placeCharacter u room) := by
  refine ⟨fun ℓ => ?_, fun x => .inl (by simp [locate])⟩
  cases hc : w.character? u with
  | none => rw [placeCharacter_of_none hc]
  | some c =>
    cases ℓ with
    | nowhere => rfl
    | room room' =>
      simp only [slot, hw.room?_placeCharacter hc, Option.map_map]
      rfl
    | carried holder | worn holder q =>
      simp only [slot, hw.character?_placeCharacter hc]
      split
      · rename_i he
        rw [he, hc]
        rfl
      · rfl
    | inside container => simp [slot]

theorem Sound.unmoved_enroll (hw : w.Sound) (vnum : Option Vnum) (name : String)
    (hfree : w.index.get? ⟨w.nextUid⟩ = none) : w.Unmoved (w.enroll (w.newCharacter vnum name)) := by
  refine ⟨fun ℓ => ?_, fun x => .inl (by rw [locate, locate, object?_enroll vnum name hfree])⟩
  cases ℓ with
  | nowhere => rfl
  | room room => rw [slot, slot, room?_enroll vnum name hfree]
  | carried holder | worn holder q =>
    rw [slot, slot, hw.character?_enroll]
    split
    · rename_i he
      rw [he, character?_of_free hfree]
      rfl
    · rfl
  | inside container => rw [slot, slot, object?_enroll vnum name hfree]

theorem Sound.unmoved_produce (hw : w.Sound) (vnum : Vnum) (name : String)
    (hfree : w.index.get? ⟨w.nextUid⟩ = none) : w.Unmoved (w.produce (w.newObject vnum name)) := by
  refine ⟨fun ℓ => ?_, fun x => ?_⟩
  · cases ℓ with
    | nowhere => rfl
    | room room => rw [slot, slot, room?_produce vnum name hfree]
    | carried holder | worn holder q => rw [slot, slot, character?_produce vnum name hfree]
    | inside container =>
      rw [slot, slot, hw.object?_produce]
      split
      · rename_i he
        rw [he, object?_of_free hfree]
        rfl
      · rfl
  · rw [locate, locate, hw.object?_produce]
    split
    · rename_i he
      rw [he, object?_of_free hfree]
      exact .inr ⟨rfl, rfl⟩
    · exact .inl rfl

theorem Sound.unmoved_addRoom (hw : w.Sound) (vnum : Vnum) (name : String)
    (hfree : w.index.get? (Uid.room w.nextRoom) = none) : w.Unmoved (w.addRoom vnum name).2 := by
  refine ⟨fun ℓ => ?_, fun x => .inl (by rw [locate, locate, object?_addRoom vnum name hfree])⟩
  cases ℓ with
  | nowhere => rfl
  | room room =>
    rw [slot, slot, hw.room?_addRoom]
    split
    · rename_i he
      rw [he, room?_of_free hfree]
      rfl
    · rfl
  | carried holder | worn holder q => rw [slot, slot, character?_addRoom vnum name hfree]
  | inside container => rw [slot, slot, object?_addRoom vnum name hfree]

/-- A command leaves objects where they are, or puts one somewhere, or takes some out. -/
theorem Shift.objects (h : Shift p w w') (hw : w.Sound) : w.Unmoved w' ∨
    (∃ u ℓ o, p.put w u ℓ ∧ w.object? u = some o ∧ w' = w.placeObject u ℓ) ∨
    ∃ u, w' = (w.extract u).2 := by
  cases h with
  | alike h => exact .inl h.unmoved
  | placeCharacter u room => exact .inl (hw.unmoved_placeCharacter u room)
  | placeObject u ℓ hp =>
    cases ho : w.object? u with
    | none =>
      refine .inl ?_
      rw [placeObject_of_none ho]
      exact ⟨fun _ => rfl, fun _ => .inl rfl⟩
    | some o => exact .inr (.inl ⟨u, ℓ, o, hp, ho, rfl⟩)
  | enroll vnum name free => exact .inl (hw.unmoved_enroll vnum name free)
  | produce vnum name free => exact .inl (hw.unmoved_produce vnum name free)
  | addRoom vnum name free => exact .inl (hw.unmoved_addRoom vnum name free)
  | extract u => exact .inr (.inr ⟨u, rfl⟩)

/-! ## What is listed is there -/

namespace Listed

/-- Putting an object somewhere lists nothing else anywhere. -/
theorem mem_placeObject (hl : w.Listed) (hw : w.Sound) {o : Object} (ho : w.object? u = some o)
    (hx : x ∈ (w.placeObject u ℓ).slot ℓ') : x = u ∧ ℓ' = ℓ ∨ x ≠ u ∧ x ∈ w.slot ℓ' := by
  have hloc : w.locate u = some o.location := by rw [locate, ho, Option.map_some]
  have hother : ∀ {ℓ'}, x ∈ w.slot ℓ' → ℓ' ≠ o.location → x ≠ u := by
    intro ℓ' hmem hne he
    have hx := hl.located hmem
    rw [he, hloc, Option.some.injEq] at hx
    exact hne hx.symm
  have hrest : x ∈ (w.slot ℓ').filter (· ≠ u) → x ≠ u ∧ x ∈ w.slot ℓ' := fun hx =>
    ⟨of_decide_eq_true (List.mem_filter.1 hx).2, (List.mem_filter.1 hx).1⟩
  by_cases hnew : ℓ' = ℓ
  · subst hnew
    have hp : w.HasPlace ℓ' := by
      by_contra hp
      rw [hw.slot_placeObject_none hp] at hx
      cases hx
    rw [hw.slot_placeObject_self ho hp] at hx
    split at hx
    · exact .inl ⟨List.mem_singleton.1 hx, rfl⟩
    · rcases List.mem_append.1 hx with hx | hx
      · split at hx
        · exact .inr (hrest hx)
        · rename_i hne
          exact .inr ⟨hother hx hne, hx⟩
      · exact .inl ⟨List.mem_singleton.1 hx, rfl⟩
  · by_cases hold : ℓ' = o.location
    · subst hold
      rw [hw.slot_placeObject_old ho hnew] at hx
      split at hx
      · cases hx
      · exact .inr (hrest hx)
    · rw [hw.slot_placeObject_ne ho hnew hold] at hx
      exact .inr ⟨hother hx hold, hx⟩

/-- Where it is listed anew it was not listed before, or it has been taken off there. -/
theorem nodup_placeObject (hl : w.Listed) (hw : w.Sound) {o : Object} (ho : w.object? u = some o)
    (ℓ ℓ' : Location) : ((w.placeObject u ℓ).slot ℓ').Nodup := by
  by_cases hnew : ℓ' = ℓ
  · subst hnew
    by_cases hp : w.HasPlace ℓ'
    · rw [hw.slot_placeObject_self ho hp]
      split
      · exact List.nodup_singleton u
      · refine List.nodup_append.2 ⟨?_, List.nodup_singleton u, ?_⟩
        · split
          · exact (hl.once ℓ').filter _
          · exact hl.once ℓ'
        · rintro x hx y hy rfl
          obtain rfl := List.mem_singleton.1 hy
          split at hx
          · exact not_mem_filter_ne _ hx
          · rename_i hne
            have he := hl.located hx
            rw [locate, ho, Option.map_some, Option.some.injEq] at he
            exact hne he.symm
    · rw [hw.slot_placeObject_none hp]
      exact List.nodup_nil
  · by_cases hold : ℓ' = o.location
    · subst hold
      rw [hw.slot_placeObject_old ho hnew]
      split
      · exact List.nodup_nil
      · exact (hl.once _).filter _
    · rw [hw.slot_placeObject_ne ho hnew hold]
      exact hl.once ℓ'

theorem placeObject (hl : w.Listed) (hw : w.Sound) {o : Object} (ho : w.object? u = some o)
    (ℓ : Location) : (w.placeObject u ℓ).Listed where
  located hx := by
    rw [hw.locate_placeObject ho]
    rcases hl.mem_placeObject hw ho hx with ⟨rfl, rfl⟩ | ⟨hne, hx⟩
    · exact if_pos rfl
    · rw [if_neg hne]
      exact hl.located hx
  once := hl.nodup_placeObject hw ho ℓ

theorem extract (hl : w.Listed) (hw : w.Sound) (u : Uid) : (w.extract u).2.Listed where
  located {x ℓ} hx := by
    have ht := takes_extract w u
    have hold := hl.located ((ht.slot_sublist hw ℓ).subset hx)
    rw [ht.locate_of_not_mem hw, hold]
    intro hmem
    obtain ⟨o, ho, rfl⟩ := Option.map_eq_some_iff.1 hold
    exact ht.unlisted hw hmem ho (mem_slot.1 hx)
  once ℓ := (hl.once ℓ).sublist ((takes_extract w u).slot_sublist hw ℓ)

theorem unmoved (hl : w.Listed) (h : w.Unmoved w') : w'.Listed where
  located {x ℓ} hx := by
    have hold := hl.located (h.slot ℓ ▸ hx)
    rcases h.locate x with he | ⟨he, -⟩
    · rw [he, hold]
    · rw [hold] at he
      cases he
  once ℓ := h.slot ℓ ▸ hl.once ℓ

theorem shift (hl : w.Listed) (hw : w.Sound) (h : Shift p w w') : w'.Listed := by
  rcases h.objects hw with h | ⟨u, ℓ, o, -, ho, rfl⟩ | ⟨u, rfl⟩
  · exact hl.unmoved h
  · exact hl.placeObject hw ho ℓ
  · exact hl.extract hw u

end Listed

/-! ## What is there is listed -/

/-- The others stay in their lists, if none of these is a wear position. -/
theorem Sound.mem_placeObject_of (hw : w.Sound) {o : Object} (ho : w.object? u = some o)
    (hx : x ∈ w.slot ℓ') (hne : x ≠ u) (hnew : ℓ' = ℓ → ℓ.isWorn = false)
    (hold : ℓ' = o.location → o.location.isWorn = false) : x ∈ (w.placeObject u ℓ).slot ℓ' := by
  have hfilter : x ∈ (w.slot ℓ').filter (· ≠ u) := List.mem_filter.2 ⟨hx, decide_eq_true hne⟩
  by_cases he : ℓ' = ℓ
  · subst he
    rw [hw.slot_placeObject_self ho (hasPlace_of_mem hx), hnew rfl]
    refine List.mem_append_left _ ?_
    split
    · exact hfilter
    · exact hx
  · by_cases he' : ℓ' = o.location
    · subst he'
      rw [hw.slot_placeObject_old ho he, hold rfl]
      exact hfilter
    · rw [hw.slot_placeObject_ne ho he he']
      exact hx

/-- What is listed belongs to the holder, unless that is a room. -/
theorem mem_belongings_of_mem_slot {v : Uid} (hx : x ∈ w.slot ℓ) (hv : ℓ.holder? = some v) :
    (∃ r, w.room? v = some r) ∨ x ∈ w.belongings v := by
  have hl := mem_slot.1 hx
  cases ℓ with
  | nowhere => exact hl.elim
  | room room =>
    obtain ⟨r, hr, -⟩ := hl
    exact .inl ⟨r, Option.some.inj hv ▸ hr⟩
  | carried holder =>
    obtain ⟨c, hc, hx⟩ := hl
    exact .inr (mem_belongings.2 (.inl ⟨c, Option.some.inj hv ▸ hc, List.mem_append_left _ hx⟩))
  | worn holder q =>
    obtain ⟨c, hc, hx⟩ := hl
    obtain ⟨e, he, rfl⟩ := Option.map_eq_some_iff.1 hx
    have hmem : e.2 ∈ c.equipment.values :=
      Table.mem_values.2 (List.mem_map.2 ⟨e, List.mem_of_find?_eq_some he, rfl⟩)
    exact .inr (mem_belongings.2 (.inl ⟨c, Option.some.inj hv ▸ hc, List.mem_append_right _ hmem⟩))
  | inside container =>
    obtain ⟨o, ho, hx⟩ := hl
    exact .inr (mem_belongings.2 (.inr ⟨o, Option.some.inj hv ▸ ho, hx⟩))

theorem Takes.isMovable_of_single {out : List Uid} (ht : Takes w [u] out w') (hx : x ∈ out) :
    w.isMovable u = true := by
  cases ht with
  | skip _ ht => cases ht; exact absurd hx List.not_mem_nil
  | take hu => exact hu

/-- Who is taken leaves nothing in its lists that is not taken. -/
theorem Takes.holder_not_mem {out : List Uid} (ht : Takes w [u] out w') (hw : w.Sound)
    (hl : w.Listed) {v : Uid} (hx : x ∈ w.slot ℓ) (hxo : x ∉ out) (hv : ℓ.holder? = some v) :
    v ∉ out := by
  intro hmem
  have hu := ht.isMovable_of_single hmem
  rcases mem_belongings_of_mem_slot hx hv with ⟨r, hr⟩ | hb
  · obtain ⟨h, hi, -⟩ := room?_eq_some.1 hr
    have hm := ht.isMovable_of_mem hmem
    rw [not_movable_of_room hi] at hm
    cases hm
  · obtain ⟨o, ho, -⟩ := Option.map_eq_some_iff.1 (hl.located hx)
    have hreach := ((ht.mem_iff hw hu).1 hmem).2.tail hb
    exact hxo ((ht.mem_iff hw hu).2 ⟨isMovable_iff.2 (.inr ⟨o, ho⟩), hreach⟩)

namespace Filed

variable (hf : w.Filed kind) (hl : w.Listed) (hw : w.Sound)
include hf

theorem unmoved (h : w.Unmoved w') : w'.Filed kind := by
  refine ⟨fun {x ℓ} hk hne hloc => ?_⟩
  rcases h.locate x with he | ⟨-, he⟩
  · rw [h.slot]
    exact hf.listed hk hne (he ▸ hloc)
  · rw [he, Option.some.injEq] at hloc
    exact absurd hloc.symm hne

include hw

/-- Where another object was worn, only that one is emptied out. -/
theorem mem_placeObject_of {o : Object} (ho : w.object? u = some o) (hk : kind ℓ')
    (hfree : ℓ' = ℓ → ℓ.isWorn = true → w.slot ℓ ⊆ [u]) (hx : x ∈ w.slot ℓ') (hne : x ≠ u) :
    x ∈ (w.placeObject u ℓ).slot ℓ' := by
  refine hw.mem_placeObject_of ho hx hne (fun he => ?_) fun he => ?_
  · by_contra hworn
    have hmem := hfree he (by simpa using hworn) (he ▸ hx)
    exact hne (List.mem_singleton.1 hmem)
  · by_contra hworn
    have hworn : ℓ'.isWorn = true := by simpa [he] using hworn
    have hnowhere : ℓ' ≠ .nowhere := by
      rintro rfl
      cases hworn
    have hu : u ∈ w.slot ℓ' := hf.listed hk hnowhere (by rw [locate, ho, Option.map_some, he])
    exact hne (eq_of_mem_worn hworn hx hu)

theorem placeObject {o : Object} (ho : w.object? u = some o)
    (hplace : ℓ = .nowhere ∨ w.HasPlace ℓ)
    (hfree : kind ℓ → ℓ.isWorn = true → w.slot ℓ ⊆ [u]) : (w.placeObject u ℓ).Filed kind := by
  refine ⟨fun {x ℓ'} hk hne hloc => ?_⟩
  rw [hw.locate_placeObject ho] at hloc
  split at hloc
  · rename_i he
    obtain rfl := Option.some.inj hloc
    rw [hw.slot_placeObject_self ho (hplace.resolve_left hne), he]
    split
    · exact List.mem_singleton_self u
    · exact List.mem_append_right _ (List.mem_singleton_self u)
  · rename_i hxu
    exact hf.mem_placeObject_of hw ho hk (fun he => he ▸ hfree (he ▸ hk)) (hf.listed hk hne hloc) hxu

include hl

theorem mem_extract (hk : kind ℓ) (hx : x ∈ w.slot ℓ) (hxo : x ∉ (w.extract u).1) :
    x ∈ (w.extract u).2.slot ℓ := by
  have ht := takes_extract w u
  refine ht.slot_kept hw hx hxo (fun v hv => ht.holder_not_mem hw hl hx hxo hv) ?_
  intro hworn y hy hloc
  have hnowhere : ℓ ≠ .nowhere := by
    rintro rfl
    cases hworn
  exact hxo (eq_of_mem_worn hworn hx (hf.listed hk hnowhere hloc) ▸ hy)

theorem extract (u : Uid) : (w.extract u).2.Filed kind := by
  refine ⟨fun {x ℓ} hk hne hloc => ?_⟩
  have ht := takes_extract w u
  have hxo : x ∉ (w.extract u).1 := by
    obtain ⟨o, ho, -⟩ := Option.map_eq_some_iff.1 hloc
    obtain ⟨h, hi, -⟩ := object?_eq_some.1 ho
    exact ht.not_mem_of_get? hi
  exact hf.mem_extract hl hw hk (hf.listed hk hne (ht.wanes.locate hloc)) hxo

theorem shift (hplace : ∀ w u ℓ, p.put w u ℓ → ℓ = .nowhere ∨ w.HasPlace ℓ)
    (hfree : ∀ w u ℓ, p.put w u ℓ → kind ℓ → ℓ.isWorn = true → w.slot ℓ ⊆ [u])
    (h : Shift p w w') : w'.Filed kind := by
  rcases h.objects hw with h | ⟨u, ℓ, o, hp, ho, rfl⟩ | ⟨u, rfl⟩
  · exact hf.unmoved h
  · exact hf.placeObject hw ho (hplace w u ℓ hp) (hfree w u ℓ hp)
  · exact hf.extract hl hw u

end Filed

/-! ## Locations do not lead back -/

theorem Rooted.of_lies (hr : w.Rooted) (h : ∀ x y, w'.Lies x y → w.Lies x y) : w'.Rooted :=
  fun x hx => hr x (Relation.TransGen.mono h _ _ hx)

theorem Rooted.placeObject (hr : w.Rooted) (hw : w.Sound) {o : Object} (ho : w.object? u = some o)
    (hout : ∀ c, ℓ = .inside c → ¬ Relation.ReflTransGen w.Lies c u) :
    (w.placeObject u ℓ).Rooted := by
  have hlies : ∀ {x y}, (w.placeObject u ℓ).Lies x y → x ≠ u → w.Lies x y := by
    intro x y h hne
    rwa [Lies, hw.locate_placeObject ho, if_neg hne] at h
  have hfirst : ∀ {y}, (w.placeObject u ℓ).Lies u y → ℓ = .inside y := by
    intro y h
    rwa [Lies, hw.locate_placeObject ho, if_pos rfl, Option.some.injEq] at h
  -- From where the object is put, locations lead on as before, because they do not lead to it.
  have hon : ∀ {c y}, ℓ = .inside c → Relation.ReflTransGen (w.placeObject u ℓ).Lies c y →
      Relation.ReflTransGen w.Lies c y := by
    intro c y hc h
    induction h with
    | refl => exact .refl
    | tail _ h ih => exact ih.tail (hlies h fun he => hout c hc (he ▸ ih))
  have hpath : ∀ {x y}, Relation.TransGen (w.placeObject u ℓ).Lies x y →
      Relation.TransGen w.Lies x y ∨ Relation.ReflTransGen (w.placeObject u ℓ).Lies x u ∧
        ∃ c, ℓ = .inside c ∧ Relation.ReflTransGen (w.placeObject u ℓ).Lies c y := by
    intro x y h
    induction h with
    | @single y h =>
      by_cases he : x = u
      · subst he
        exact .inr ⟨.refl, y, hfirst h, .refl⟩
      · exact .inl (.single (hlies h he))
    | @tail y z h hyz ih =>
      rcases ih with ih | ⟨hu, c, hc, hy⟩
      · by_cases he : y = u
        · subst he
          exact .inr ⟨h.to_reflTransGen, z, hfirst hyz, .refl⟩
        · exact .inl (ih.tail (hlies hyz he))
      · exact .inr ⟨hu, c, hc, hy.tail hyz⟩
  intro x hx
  rcases hpath hx with h | ⟨hu, c, hc, h⟩
  · exact hr x h
  · exact hout c hc (hon hc (h.trans hu))

theorem Rooted.shift (hr : w.Rooted) (hw : w.Sound)
    (hout : ∀ w u c, p.put w u (.inside c) → ¬ Relation.ReflTransGen w.Lies c u)
    (h : Shift p w w') : w'.Rooted := by
  rcases h.objects hw with h | ⟨u, ℓ, o, hp, ho, rfl⟩ | ⟨u, rfl⟩
  · refine hr.of_lies fun x y hxy => ?_
    rcases h.locate x with he | ⟨-, he⟩
    · exact he.symm.trans hxy
    · rw [Lies, he] at hxy
      cases hxy
  · exact hr.placeObject hw ho fun c hc => hout w u c (hc ▸ hp)
  · exact hr.of_lies fun x y hxy => (takes_extract w u).wanes.locate hxy

/-! ## Histories -/

theorem listed_empty : ({} : World).Listed where
  located {x ℓ} hx := by cases ℓ <;> cases hx
  once ℓ := by cases ℓ <;> exact List.nodup_nil

theorem filed_empty : ({} : World).Filed kind := ⟨fun _ _ hloc => nomatch hloc⟩

theorem rooted_empty : ({} : World).Rooted := by
  intro x hx
  obtain ⟨y, hy, -⟩ := Relation.TransGen.head'_iff.1 hx
  exact nomatch hy

/-- The policy puts objects only where there is a holder, or nowhere. -/
def Policy.Finds (p : Policy) : Prop :=
  ∀ w u ℓ, p.put w u ℓ → ℓ = .nowhere ∨ w.HasPlace ℓ

/-- The policy puts nothing on where something else is worn. -/
def Policy.Spares (p : Policy) : Prop :=
  ∀ w u ℓ, p.put w u ℓ → ℓ.isWorn = true → w.slot ℓ ⊆ [u]

/-- The policy puts nothing into itself, or into what is in it, directly or not. -/
def Policy.Unfolds (p : Policy) : Prop :=
  ∀ w u c, p.put w u (.inside c) → ¬ Relation.ReflTransGen w.Lies c u

theorem Shifts.listed (h : Shifts p {} w) : w.Listed :=
  (Shifts.induction (fun hw h hl => hl.shift hw h) h sound_empty listed_empty).2

theorem Shifts.filed (h : Shifts p {} w) (hfind : p.Finds)
    (hfree : ∀ w u ℓ, p.put w u ℓ → kind ℓ → ℓ.isWorn = true → w.slot ℓ ⊆ [u]) : w.Filed kind := by
  have hstep : ∀ {w w' : World}, w.Sound → Shift p w w' → w.Listed ∧ w.Filed kind →
      w'.Listed ∧ w'.Filed kind := fun hw h hP =>
    ⟨hP.1.shift hw h, hP.2.shift hP.1 hw hfind hfree h⟩
  exact (Shifts.induction hstep h sound_empty ⟨listed_empty, filed_empty⟩).2.2

theorem Shifts.rooted (h : Shifts p {} w) (hout : p.Unfolds) : w.Rooted :=
  (Shifts.induction (fun hw h hr => hr.shift hw hout h) h sound_empty rooted_empty).2

end World

/-- Every entry of a list is an object whose location names that list, and no list has it twice. What
callers take care of decides the rest: who is listed where it says, who stays where others are moved or
extracted, and whether locations lead out of all containers. -/
theorem objects_are_where_they_say (p : World.Policy) (w : World) (h : World.Acts p {} w)
    (hn : w.nextRoom ≤ 50000) :
    (∀ x ℓ, x ∈ w.slot ℓ → w.locate x = some ℓ) ∧ (∀ ℓ, (w.slot ℓ).Nodup) ∧
    (p.Finds → ∀ x ℓ, w.locate x = some ℓ → ℓ ≠ .nowhere → ℓ.isWorn = false → x ∈ w.slot ℓ) ∧
    (p.Finds → p.Spares →
      (∀ x ℓ, w.locate x = some ℓ → ℓ ≠ .nowhere → x ∈ w.slot ℓ) ∧
      (∀ u ℓ x, (ℓ.isWorn = true → w.slot ℓ ⊆ [u]) → x ≠ u →
        (w.placeObject u ℓ).locate x = w.locate x ∧
        ∀ ℓ', x ∈ (w.placeObject u ℓ).slot ℓ' ↔ x ∈ w.slot ℓ') ∧
      ∀ u x, x ∉ (w.extract u).1 → (w.extract u).2.locate x = w.locate x ∧
        ∀ ℓ', x ∈ (w.extract u).2.slot ℓ' ↔ x ∈ w.slot ℓ') ∧
    (p.Unfolds → w.Rooted) := by
  have hshifts := World.Acts.shifts h World.sound_empty World.ranged_empty hn
  have hw := World.sound_empty.crafts (World.Acts.crafts h)
  have hl := World.Shifts.listed hshifts
  refine ⟨fun x ℓ => hl.located, hl.once, fun hfind x ℓ hloc hne hworn => ?_,
    fun hfind hspare => ?_, World.Shifts.rooted hshifts⟩
  · have hf : w.Filed (·.isWorn = false) := World.Shifts.filed hshifts hfind
      fun _ _ ℓ _ hk hworn => by rw [hk] at hworn; cases hworn
    exact hf.listed hworn hne hloc
  · have hf : w.Filed fun _ => True := World.Shifts.filed hshifts hfind
      fun w u ℓ hp _ => hspare w u ℓ hp
    refine ⟨fun x ℓ hloc hne => hf.listed trivial hne hloc, fun u ℓ x hfree hxu => ?_, fun u x hx => ?_⟩
    · cases ho : w.object? u with
      | none =>
        rw [World.placeObject_of_none ho]
        exact ⟨rfl, fun _ => .rfl⟩
      | some o =>
        refine ⟨by rw [hw.locate_placeObject ho, if_neg hxu], fun ℓ' => ⟨fun hx => ?_, fun hx => ?_⟩⟩
        · rcases hl.mem_placeObject hw ho hx with ⟨he, -⟩ | ⟨-, hx⟩
          · exact absurd he hxu
          · exact hx
        · exact hf.mem_placeObject_of hw ho trivial (fun he => he ▸ hfree) hx hxu
    · have ht := World.takes_extract w u
      exact ⟨ht.locate_of_not_mem hw hx, fun ℓ' => ⟨fun hm => (ht.slot_sublist hw ℓ').subset hm,
        fun hm => hf.mem_extract hl hw trivial hm hx⟩⟩

/-- Characters go to rooms that are there, and objects to holders that are there. -/
def World.Policy.usual : World.Policy where
  enter w room := (w.room? room).isSome
  put w _ ℓ := w.HasPlace ℓ

theorem World.Policy.usual_put {w : World} {u : Uid} {ℓ : Location} (hp : w.HasPlace ℓ) :
    usual.put w u ℓ := hp

/-- Moreover nothing is put on over something else, or into itself or its contents. -/
def World.Policy.careful : World.Policy where
  enter w room := (w.room? room).isSome
  put w u ℓ := w.HasPlace ℓ ∧ (ℓ.isWorn = true → w.slot ℓ ⊆ [u]) ∧
    ∀ c, ℓ = .inside c → ¬ Relation.ReflTransGen w.Lies c u

def hall : World := ((({} : World).addRoom 3001 "hall").2.addPlayer "Ann" (Uid.room 0)).2

/-- Ann carries a bag. -/
def laden : World := (hall.addObject 4 "a bag" (.carried ⟨100000⟩)).2

/-- There is a coin in the bag, and Ann wears a cloak. -/
def dressed : World :=
  ((laden.addObject 5 "a coin" (.inside ⟨100001⟩)).2.addObject 6 "a cloak" (.worn ⟨100000⟩ 16)).2

theorem hall_acts {p : World.Policy}
    (hp : ∀ w : World, (w.room? (Uid.room 0)).isSome = true → p.enter w (Uid.room 0)) :
    World.Acts p {} hall :=
  .head (.addRoom 3001 "hall") (.single (.addPlayer "Ann" (Uid.room 0) (hp _ (by decide +kernel))))

theorem dressed_acts : World.Acts .careful {} dressed := by
  have hbag : World.Act .careful hall laden :=
    .addObject 4 "a bag" _ ⟨by decide +kernel, nofun, nofun⟩
  have hcoin : World.Act .careful laden (laden.addObject 5 "a coin" (.inside ⟨100001⟩)).2 := by
    refine .addObject 5 "a coin" _ ⟨by decide +kernel, nofun, fun c hc hlies => ?_⟩
    cases hc
    rcases Relation.ReflTransGen.cases_head hlies with he | ⟨y, hy, -⟩
    · exact absurd he (by decide +kernel)
    · have hbag : (laden.produce (laden.newObject 5 "a coin")).locate ⟨100001⟩ =
          some (.carried ⟨100000⟩) := by decide +kernel
      exact nomatch hbag.symm.trans hy
  have hcloak : World.Act .careful (laden.addObject 5 "a coin" (.inside ⟨100001⟩)).2 dressed :=
    .addObject 6 "a cloak" _ ⟨by decide +kernel, by decide +kernel, nofun⟩
  exact (hall_acts fun _ => id).trans (.head hbag (.head hcoin (.single hcloak)))

/-- Dropping the bag leaves the cloak on and the coin in the bag. -/
theorem dressed_in_order :
    dressed.nextRoom ≤ 50000 ∧ dressed.Rooted ∧
    (dressed.placeObject ⟨100001⟩ (.room (Uid.room 0))).locate ⟨100003⟩ =
      some (.worn ⟨100000⟩ 16) ∧
    ⟨100003⟩ ∈ (dressed.placeObject ⟨100001⟩ (.room (Uid.room 0))).slot (.worn ⟨100000⟩ 16) ∧
    ⟨100002⟩ ∈ (dressed.placeObject ⟨100001⟩ (.room (Uid.room 0))).slot (.inside ⟨100001⟩) := by
  have hn : dressed.nextRoom ≤ 50000 := by decide +kernel
  obtain ⟨-, -, -, hfiled, hrooted⟩ := objects_are_where_they_say .careful dressed dressed_acts hn
  obtain ⟨hlisted, hmove, -⟩ := hfiled (fun _ _ _ hp => .inr hp.1) fun _ _ _ hp => hp.2.1
  have hcloak : dressed.locate ⟨100003⟩ = some (.worn ⟨100000⟩ 16) := by decide +kernel
  have hcoin : dressed.locate ⟨100002⟩ = some (.inside ⟨100001⟩) := by decide +kernel
  obtain ⟨hc, hcs⟩ := hmove ⟨100001⟩ (.room (Uid.room 0)) ⟨100003⟩ nofun (by decide)
  obtain ⟨-, hds⟩ := hmove ⟨100001⟩ (.room (Uid.room 0)) ⟨100002⟩ nofun (by decide)
  exact ⟨hn, hrooted fun _ _ c hp => hp.2.2 c rfl, hc.trans hcloak,
    (hcs _).2 (hlisted _ _ hcloak nofun), (hds _).2 (hlisted _ _ hcoin nofun)⟩

/-- Ann puts a shroud on over her cloak. -/
def overdressed : World :=
  ((hall.addObject 5 "a cloak" (.worn ⟨100000⟩ 16)).2.addObject 6 "a shroud" (.worn ⟨100000⟩ 16)).2

/-- A bag in a room, put into itself. -/
def swallowed : World :=
  (hall.addObject 4 "a bag" (.room (Uid.room 0))).2.placeObject ⟨100001⟩ (.inside ⟨100001⟩)

/-- The cloak says that it is worn, but it is not listed, and to take it off takes the shroud off; and a
bag can be put into itself. -/
theorem displaced_cloak_is_lost :
    (World.Acts .usual {} overdressed ∧ overdressed.nextRoom ≤ 50000 ∧
      overdressed.locate ⟨100001⟩ = some (.worn ⟨100000⟩ 16) ∧
      overdressed.HasPlace (.worn ⟨100000⟩ 16) ∧ ⟨100001⟩ ∉ overdressed.slot (.worn ⟨100000⟩ 16) ∧
      overdressed.slot (.worn ⟨100000⟩ 16) = [⟨100002⟩] ∧
      (overdressed.placeObject ⟨100001⟩ (.room (Uid.room 0))).slot (.worn ⟨100000⟩ 16) = []) ∧
    World.Acts .usual {} swallowed ∧ swallowed.Lies ⟨100001⟩ ⟨100001⟩ := by
  have hcloak : World.Act .usual hall (hall.addObject 5 "a cloak" (.worn ⟨100000⟩ 16)).2 :=
    .addObject 5 "a cloak" _ (World.Policy.usual_put (by decide +kernel))
  have hshroud : World.Act .usual (hall.addObject 5 "a cloak" (.worn ⟨100000⟩ 16)).2 overdressed :=
    .addObject 6 "a shroud" _ (World.Policy.usual_put (by decide +kernel))
  have hbag : World.Act .usual hall (hall.addObject 4 "a bag" (.room (Uid.room 0))).2 :=
    .addObject 4 "a bag" _ (World.Policy.usual_put (by decide +kernel))
  have hself : World.Act .usual (hall.addObject 4 "a bag" (.room (Uid.room 0))).2 swallowed :=
    .placeObject ⟨100001⟩ _ (World.Policy.usual_put (by decide +kernel))
  refine ⟨⟨(hall_acts fun _ => id).trans (.head hcloak (.single hshroud)), ?_, ?_, ?_, ?_, ?_, ?_⟩,
    (hall_acts fun _ => id).trans (.head hbag (.single hself)), ?_⟩
  all_goals decide +kernel

end MudTrigger
