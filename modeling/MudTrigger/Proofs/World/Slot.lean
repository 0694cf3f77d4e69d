import MudTrigger.Proofs.World.Shift

/-!
# The lists that hold objects

An object says where it is (`World.locate`), and the one that holds it lists it there (`World.slot`).
Moving an object takes it out of one list and puts it into another; a wear position is emptied and
filled whatever it held (`Sound.slot_unlink`, `Sound.slot_link_self`). The other lists stay, and so do
the locations of other objects.
-/

set_option autoImplicit false

namespace MudTrigger

namespace Location

/-- The room, character or object that holds what is at a location. -/
def holder? : Location → Option Uid
  | nowhere => none
  | room u | carried u | worn u _ | inside u => some u

/-- A wear position holds one object at most. -/
def isWorn : Location → Bool
  | worn .. => true
  | _ => false

end Location

/-- What a character lists at a location. -/
def Character.listed (c : Character) : Location → List Uid
  | .carried _ => c.inventory
  | .worn _ p => (c.equipment.get? p).toList
  | _ => []

namespace World

/-- Where an object says that it is. -/
def locate (w : World) (x : Uid) : Option Location := (w.object? x).map (·.location)

/-- What is listed at a location. -/
def slot (w : World) : Location → List Uid
  | .nowhere => []
  | .room room => ((w.room? room).map (·.contents)).getD []
  | .carried holder => ((w.character? holder).map (·.listed (.carried holder))).getD []
  | .worn holder p => ((w.character? holder).map (·.listed (.worn holder p))).getD []
  | .inside container => ((w.object? container).map (·.contents)).getD []

/-- There is a holder of the right kind. -/
def HasPlace (w : World) : Location → Prop
  | .nowhere => False
  | .room room => (w.room? room).isSome
  | .carried holder | .worn holder _ => (w.character? holder).isSome
  | .inside container => (w.object? container).isSome

instance (w : World) (ℓ : Location) : Decidable (w.HasPlace ℓ) :=
  match ℓ with
  | .nowhere => inferInstanceAs (Decidable False)
  | .room room => inferInstanceAs (Decidable ((w.room? room).isSome = true))
  | .carried holder | .worn holder _ =>
    inferInstanceAs (Decidable ((w.character? holder).isSome = true))
  | .inside container => inferInstanceAs (Decidable ((w.object? container).isSome = true))

variable {w w' : World} {u x y : Uid} {ℓ ℓ' : Location}

theorem mem_slot : x ∈ w.slot ℓ ↔ w.Lists x ℓ := by
  cases ℓ with
  | nowhere => exact ⟨nofun, False.elim⟩
  | room room =>
    show x ∈ ((w.room? room).map (·.contents)).getD [] ↔ ∃ r, w.room? room = some r ∧ x ∈ r.contents
    cases w.room? room <;> simp
  | carried holder =>
    show x ∈ ((w.character? holder).map (·.inventory)).getD [] ↔
      ∃ c, w.character? holder = some c ∧ x ∈ c.inventory
    cases w.character? holder <;> simp
  | worn holder p =>
    show x ∈ ((w.character? holder).map fun c => (c.equipment.get? p).toList).getD [] ↔
      ∃ c, w.character? holder = some c ∧ c.equipment.get? p = some x
    cases w.character? holder <;> simp
  | inside container =>
    show x ∈ ((w.object? container).map (·.contents)).getD [] ↔
      ∃ o, w.object? container = some o ∧ x ∈ o.contents
    cases w.object? container <;> simp

theorem hasPlace_of_mem (hx : x ∈ w.slot ℓ) : w.HasPlace ℓ := by
  have hl := mem_slot.1 hx
  cases ℓ with
  | nowhere => exact hl
  | room | carried | worn | inside =>
    obtain ⟨r, hr, -⟩ := hl
    exact Option.isSome_iff_exists.2 ⟨r, hr⟩

/-! ## Unlinking and linking -/

namespace Sound

variable (hw : w.Sound)
include hw

theorem slot_modifyCharacter (u : Uid) {f : Character → Character}
    (hf : ℓ.holder? = some u → ∀ c, (f c).listed ℓ = c.listed ℓ) :
    (w.modifyCharacter u f).slot ℓ = w.slot ℓ := by
  cases ℓ with
  | nowhere => rfl
  | room | inside => simp [slot]
  | carried holder | worn holder p =>
    simp only [slot, hw.character?_modifyCharacter]
    split
    · rename_i he
      subst he
      cases w.character? holder with
      | none => rfl
      | some c => exact hf rfl c
    · rfl

theorem slot_modifyObject (u : Uid) {f : Object → Object}
    (hf : ℓ = .inside u → ∀ o, (f o).contents = o.contents) :
    (w.modifyObject u f).slot ℓ = w.slot ℓ := by
  cases ℓ with
  | nowhere => rfl
  | room | carried | worn => simp [slot]
  | inside container =>
    simp only [slot, hw.object?_modifyObject]
    split
    · rename_i he
      subst he
      cases w.object? container with
      | none => rfl
      | some o => exact hf rfl o
    · rfl

theorem slot_modifyRoom (u : Uid) {f : Room → Room}
    (hf : ℓ = .room u → ∀ r, (f r).contents = r.contents) :
    (w.modifyRoom u f).slot ℓ = w.slot ℓ := by
  cases ℓ with
  | nowhere => rfl
  | carried | worn | inside => simp [slot]
  | room room =>
    simp only [slot, hw.room?_modifyRoom]
    split
    · rename_i he
      subst he
      cases w.room? room with
      | none => rfl
      | some r => exact hf rfl r
    · rfl

theorem slot_modifyInventory_ne {holder : Uid} (hne : ℓ' ≠ .carried holder)
    (f : List Uid → List Uid) :
    (w.modifyCharacter holder fun c => { c with inventory := f c.inventory }).slot ℓ' =
      w.slot ℓ' := by
  refine hw.slot_modifyCharacter holder fun hh c => ?_
  cases ℓ' with
  | carried holder' => exact absurd (congrArg Location.carried (Option.some.inj hh)) hne
  | nowhere | room | worn | inside => rfl

/-- What another wear position holds stays if the edit of the equipment leaves it. -/
theorem slot_modifyEquipment_ne {holder : Uid} {p : Nat} (hne : ℓ' ≠ .worn holder p)
    (f : Table Nat Uid → Table Nat Uid)
    (hf : ∀ t q, q ≠ p → (f t).get? q = t.get? q) :
    (w.modifyCharacter holder fun c => { c with equipment := f c.equipment }).slot ℓ' =
      w.slot ℓ' := by
  refine hw.slot_modifyCharacter holder fun hh c => ?_
  cases ℓ' with
  | worn holder' q =>
    obtain rfl : holder' = holder := Option.some.inj hh
    have hq : q ≠ p := fun he => hne (he ▸ rfl)
    exact congrArg Option.toList (hf c.equipment q hq)
  | nowhere | room | carried | inside => rfl

/-- The other lists stay. -/
theorem slot_unlink_ne (u : Uid) (hne : ℓ' ≠ ℓ) : (w.unlink u ℓ).slot ℓ' = w.slot ℓ' := by
  cases ℓ with
  | nowhere => rfl
  | room room => exact hw.slot_modifyRoom room fun he => absurd he hne
  | carried holder => exact hw.slot_modifyInventory_ne hne fun us => us.filter (· ≠ u)
  | worn holder p =>
    exact hw.slot_modifyEquipment_ne hne (·.erase p) fun t _ hq => Table.get?_erase_ne t hq
  | inside container => exact hw.slot_modifyObject container fun he => absurd he hne

theorem slot_link_ne (u : Uid) (hne : ℓ' ≠ ℓ) : (w.link u ℓ).slot ℓ' = w.slot ℓ' := by
  cases ℓ with
  | nowhere => rfl
  | room room => exact hw.slot_modifyRoom room fun he => absurd he hne
  | carried holder => exact hw.slot_modifyInventory_ne hne (· ++ [u])
  | worn holder p =>
    exact hw.slot_modifyEquipment_ne hne (·.set p u) fun t _ hq => Table.get?_set_ne t hq u
  | inside container => exact hw.slot_modifyObject container fun he => absurd he hne

end Sound

theorem slot_unlink_self (u : Uid) (ℓ : Location) :
    (w.unlink u ℓ).slot ℓ = if ℓ.isWorn then [] else (w.slot ℓ).filter (· ≠ u) := by
  cases ℓ with
  | nowhere => rfl
  | room room =>
    simp only [unlink, slot, room?_modifyRoom]
    cases w.room? room <;> rfl
  | carried holder =>
    simp only [unlink, slot, character?_modifyCharacter]
    cases w.character? holder <;> rfl
  | worn holder p =>
    simp only [unlink, slot, character?_modifyCharacter]
    cases w.character? holder with
    | none => rfl
    | some c => exact congrArg Option.toList (Table.get?_erase_self _ _)
  | inside container =>
    simp only [unlink, slot, object?_modifyObject]
    cases w.object? container <;> rfl

/-- A wear position holds nothing else afterwards. -/
theorem slot_link_self (u : Uid) (hp : w.HasPlace ℓ) :
    (w.link u ℓ).slot ℓ = if ℓ.isWorn then [u] else w.slot ℓ ++ [u] := by
  cases ℓ with
  | nowhere => exact hp.elim
  | room room =>
    obtain ⟨r, hr⟩ := Option.isSome_iff_exists.1 hp
    simp only [link, slot, room?_modifyRoom, hr]
    rfl
  | carried holder =>
    obtain ⟨c, hc⟩ := Option.isSome_iff_exists.1 hp
    simp only [link, slot, character?_modifyCharacter, hc]
    rfl
  | worn holder p =>
    obtain ⟨c, hc⟩ := Option.isSome_iff_exists.1 hp
    simp only [link, slot, character?_modifyCharacter, hc]
    exact congrArg Option.toList (Table.get?_set_self _ _ _)
  | inside container =>
    obtain ⟨o, ho⟩ := Option.isSome_iff_exists.1 hp
    simp only [link, slot, object?_modifyObject, ho]
    rfl

/-! ## Places -/

/-- What holds something has an entry of its kind. -/
theorem HasPlace.entry (hp : w.HasPlace ℓ) : ∃ v r, ℓ.holder? = some v ∧
    w.index.get? v = some r ∧ ∀ {w' : World}, w'.Sound → w'.index.get? v = some r → w'.HasPlace ℓ := by
  cases ℓ with
  | nowhere => exact hp.elim
  | room room =>
    obtain ⟨_, hr⟩ := Option.isSome_iff_exists.1 hp
    obtain ⟨h, hi, -⟩ := room?_eq_some.1 hr
    refine ⟨room, _, rfl, hi, fun hw' hi' => ?_⟩
    obtain ⟨r, hr, -⟩ := hw'.room hi'
    exact Option.isSome_iff_exists.2 ⟨r, room?_eq_some.2 ⟨h, hi', hr⟩⟩
  | carried holder | worn holder p =>
    obtain ⟨_, hc⟩ := Option.isSome_iff_exists.1 hp
    obtain ⟨h, hi, -⟩ := character?_eq_some.1 hc
    refine ⟨holder, _, rfl, hi, fun hw' hi' => ?_⟩
    obtain ⟨c, hc, -⟩ := hw'.character hi'
    exact Option.isSome_iff_exists.2 ⟨c, character?_eq_some.2 ⟨h, hi', hc⟩⟩
  | inside container =>
    obtain ⟨_, ho⟩ := Option.isSome_iff_exists.1 hp
    obtain ⟨h, hi, -⟩ := object?_eq_some.1 ho
    refine ⟨container, _, rfl, hi, fun hw' hi' => ?_⟩
    obtain ⟨o, ho, -⟩ := hw'.object hi'
    exact Option.isSome_iff_exists.2 ⟨o, object?_eq_some.2 ⟨h, hi', ho⟩⟩

theorem HasPlace.of_index (hp : w.HasPlace ℓ) (hw' : w'.Sound) (hi : w'.index = w.index) :
    w'.HasPlace ℓ := by
  obtain ⟨v, r, -, hr, hplace⟩ := hp.entry
  exact hplace hw' (hi ▸ hr)

/-! ## Moving an object -/

namespace Sound

variable (hw : w.Sound)
include hw

theorem locate_modifyObject (u x : Uid) {f : Object → Object}
    (hf : ∀ o, (f o).location = o.location) : (w.modifyObject u f).locate x = w.locate x :=
  hw.map_object?_modifyObject u x fun o _ => hf o

/-- Objects say that they are where they were while they are taken off lists and put on others. -/
theorem locate_unlink (u x : Uid) (ℓ : Location) : (w.unlink u ℓ).locate x = w.locate x := by
  cases ℓ with
  | nowhere => rfl
  | room | carried | worn => simp [World.unlink, locate]
  | inside container => exact hw.locate_modifyObject container x fun _ => rfl

theorem locate_link (u x : Uid) (ℓ : Location) : (w.link u ℓ).locate x = w.locate x := by
  cases ℓ with
  | nowhere => rfl
  | room | carried | worn => simp [World.link, locate]
  | inside container => exact hw.locate_modifyObject container x fun _ => rfl

end Sound

theorem placeObject_of_none (ho : w.object? u = none) (ℓ : Location) : w.placeObject u ℓ = w := by
  rw [placeObject, ho]

/-- Where there is no holder, nothing is listed. -/
theorem Sound.slot_placeObject_none (hw : w.Sound) (hp : ¬ w.HasPlace ℓ) :
    (w.placeObject u ℓ).slot ℓ = [] := by
  refine List.eq_nil_iff_forall_not_mem.2 fun x hx => hp ?_
  refine (hasPlace_of_mem hx).of_index hw ?_
  exact (Moves.placeObject u ℓ).index.symm

section

variable {o : Object} (ho : w.object? u = some o)
include ho

theorem placeObject_eq (ℓ : Location) : w.placeObject u ℓ =
    ((w.unlink u o.location).link u ℓ).modifyObject u fun o => { o with location := ℓ } := by
  simp only [placeObject, ho]

theorem Sound.linked (hw : w.Sound) (ℓ : Location) :
    ((w.unlink u o.location).link u ℓ).Sound :=
  (hw.unlink u o.location).link ((thing_of_object? hw ho).extends (.unlink u o.location)) ℓ

theorem Sound.slot_placeObject (hw : w.Sound) (ℓ ℓ' : Location) :
    (w.placeObject u ℓ).slot ℓ' = ((w.unlink u o.location).link u ℓ).slot ℓ' := by
  rw [placeObject_eq ho]
  refine (hw.linked ho ℓ).slot_modifyObject u ?_
  exact fun _ _ => rfl

/-- All lists but those of the old and of the new location stay. -/
theorem Sound.slot_placeObject_ne (hw : w.Sound) (hnew : ℓ' ≠ ℓ) (hold : ℓ' ≠ o.location) :
    (w.placeObject u ℓ).slot ℓ' = w.slot ℓ' := by
  rw [hw.slot_placeObject ho, (hw.unlink u o.location).slot_link_ne u hnew, hw.slot_unlink_ne u hold]

theorem Sound.slot_placeObject_old (hw : w.Sound) (hne : o.location ≠ ℓ) :
    (w.placeObject u ℓ).slot o.location =
      if o.location.isWorn then [] else (w.slot o.location).filter (· ≠ u) := by
  rw [hw.slot_placeObject ho, (hw.unlink u o.location).slot_link_ne u hne, slot_unlink_self]

theorem Sound.slot_placeObject_self (hw : w.Sound) (hp : w.HasPlace ℓ) :
    (w.placeObject u ℓ).slot ℓ =
      if ℓ.isWorn then [u]
      else (if ℓ = o.location then (w.slot ℓ).filter (· ≠ u) else w.slot ℓ) ++ [u] := by
  have hp' : (w.unlink u o.location).HasPlace ℓ := hp.of_index (hw.unlink u _) (index_unlink u _)
  rw [hw.slot_placeObject ho, slot_link_self u hp']
  by_cases hworn : ℓ.isWorn = true
  · simp [hworn]
  · by_cases he : ℓ = o.location
    · subst he
      rw [slot_unlink_self]
      simp [hworn]
    · rw [hw.slot_unlink_ne u he]
      simp [hworn, he]

theorem Sound.locate_placeObject (hw : w.Sound) (ℓ : Location) (x : Uid) :
    (w.placeObject u ℓ).locate x = if x = u then some ℓ else w.locate x := by
  have hlink : ∀ y, ((w.unlink u o.location).link u ℓ).locate y = w.locate y := fun y => by
    rw [(hw.unlink u o.location).locate_link, hw.locate_unlink]
  rw [placeObject_eq ho]
  unfold locate at hlink ⊢
  rw [(hw.linked ho ℓ).object?_modifyObject]
  split
  · have hu := hlink u
    rw [ho] at hu
    obtain ⟨o', ho', -⟩ := Option.map_eq_some_iff.1 hu
    rw [ho']
    rfl
  · exact hlink x

end

/-! ## Taking out -/

theorem eq_of_mem_worn (hworn : ℓ.isWorn = true) (hx : x ∈ w.slot ℓ) (hy : y ∈ w.slot ℓ) : x = y := by
  cases ℓ with
  | worn holder p =>
    obtain ⟨c, hc, hx⟩ := mem_slot.1 hx
    obtain ⟨d, hd, hy⟩ := mem_slot.1 hy
    rw [hc, Option.some.injEq] at hd
    subst hd
    rw [hx] at hy
    exact Option.some.inj hy
  | nowhere | room | carried | inside => cases hworn

theorem Wanes.locate (hw : w.Wanes w') (hx : w'.locate x = some ℓ) : w.locate x = some ℓ := by
  obtain ⟨o', ho', rfl⟩ := Option.map_eq_some_iff.1 hx
  obtain ⟨o, ho, hf⟩ := hw.object? ho'
  rw [World.locate, ho, Option.map_some, hf.location]

namespace Takes

variable {us out : List Uid} (ht : Takes w us out w') (hw : w.Sound)
include ht

theorem not_mem_of_get? {r : EntityRef} (hx : w'.index.get? x = some r) : x ∉ out := by
  intro hm
  rw [ht.index_of_mem hm] at hx
  cases hx

include hw

theorem locate_of_not_mem (hx : x ∉ out) : w'.locate x = w.locate x := by
  cases ho : w.object? x with
  | some o =>
    obtain ⟨o', ho', hl, -⟩ := ht.object? hw ho hx
    simp [World.locate, ho, ho', hl]
  | none =>
    cases ho' : w'.object? x with
    | none => simp [World.locate, ho, ho']
    | some o' =>
      obtain ⟨o, h, -⟩ := ht.wanes.object? ho'
      rw [ho] at h
      cases h

/-- Every list loses nothing but what is taken, unless its holder is taken, or an object that is worn at
the same position. -/
theorem slot_kept (hx : x ∈ w.slot ℓ) (hxo : x ∉ out) (hv : ∀ v, ℓ.holder? = some v → v ∉ out)
    (hfree : ℓ.isWorn = true → ∀ y ∈ out, w.locate y ≠ some ℓ) : x ∈ w'.slot ℓ := by
  have hl := mem_slot.1 hx
  rw [mem_slot]
  cases ℓ with
  | nowhere => exact hl
  | room room =>
    obtain ⟨r, hr, hx⟩ := hl
    obtain ⟨r', hr', hcull⟩ := ht.room? hw hr
    exact ⟨r', hr', (hcull.contents.kept x hx).resolve_right hxo⟩
  | carried holder =>
    obtain ⟨c, hc, hx⟩ := hl
    obtain ⟨c', h, hc', -, hcull⟩ := ht.character? hw hc (hv holder rfl)
    exact ⟨c', hc', (hcull.inventory.kept x hx).resolve_right hxo⟩
  | worn holder p =>
    obtain ⟨c, hc, hx⟩ := hl
    obtain ⟨c', h, hc', hi, hcull⟩ := ht.character? hw hc (hv holder rfl)
    refine ⟨c', hc', (hcull.worn p x hx).resolve_right ?_⟩
    rintro ⟨y, hy, h', o, hr, ho, holder', hloc, hi'⟩
    obtain rfl := hw.ref_inj hi' hi nofun
    refine hfree rfl y hy ?_
    rw [World.locate, object?_eq_some.2 ⟨h', get?_of_resolve hr (by simp), ho⟩, Option.map_some, hloc]
  | inside container =>
    obtain ⟨o, ho, hx⟩ := hl
    obtain ⟨o', ho', -, hcull⟩ := ht.object? hw ho (hv container rfl)
    exact ⟨o', ho', (hcull.kept x hx).resolve_right hxo⟩

/-- What is left of a list is in the same order. -/
theorem slot_sublist (ℓ : Location) : (w'.slot ℓ).Sublist (w.slot ℓ) := by
  cases ℓ with
  | nowhere => exact .refl _
  | room room =>
    cases hr' : w'.room? room with
    | none => simp [slot, hr']
    | some r' =>
      obtain ⟨r, hr, -⟩ := ht.wanes.room? hr'
      obtain ⟨r1, hr1, hcull⟩ := ht.room? hw hr
      rw [hr', Option.some.injEq] at hr1
      subst hr1
      simpa [slot, hr, hr'] using hcull.contents.sublist
  | carried holder =>
    cases hc' : w'.character? holder with
    | none => simp [slot, hc']
    | some c' =>
      obtain ⟨c, hc, -⟩ := ht.wanes.character? hc'
      obtain ⟨h, hi, -⟩ := character?_eq_some.1 hc'
      obtain ⟨c1, _, hc1, -, hcull⟩ := ht.character? hw hc (ht.not_mem_of_get? hi)
      rw [hc', Option.some.injEq] at hc1
      subst hc1
      simpa [slot, Character.listed, hc, hc'] using hcull.inventory.sublist
  | worn holder p =>
    cases hc' : w'.character? holder with
    | none => simp [slot, hc']
    | some c' =>
      obtain ⟨c, hc, hf⟩ := ht.wanes.character? hc'
      simp only [slot, hc, hc', Character.listed, Option.map_some, Option.getD_some]
      cases hg : c'.equipment.get? p with
      | none => exact List.nil_sublist _
      | some x => rw [hf.worn hg]
  | inside container =>
    cases ho' : w'.object? container with
    | none => simp [slot, ho']
    | some o' =>
      obtain ⟨o, ho, -⟩ := ht.wanes.object? ho'
      obtain ⟨h, hi, -⟩ := object?_eq_some.1 ho'
      obtain ⟨o1, ho1, -, hcull⟩ := ht.object? hw ho (ht.not_mem_of_get? hi)
      rw [ho', Option.some.injEq] at ho1
      subst ho1
      simpa [slot, ho, ho'] using hcull.sublist

end Takes

end World

end MudTrigger
