import MudTrigger.World.Extract
import MudTrigger.Proofs.Data.Arena

/-!
# Worlds that wane

What runs do to a world leaves the identities and the records of its entities as they are, but that
some leave the world: an entity is found under the same handle or not at all, and its record is the
same but for where a character is, who is in a room, and things that are not listed any more
(`World.Wanes`). Moving a character does no more than that, and neither does taking an entity out.
-/

set_option autoImplicit false

namespace MudTrigger

/-- What a character carries, and then what it wears. -/
def Character.held (c : Character) : List Uid := c.inventory ++ c.equipment.values

/-- The same character, maybe elsewhere, and with less in its hands. -/
structure Character.Fades (c c' : Character) : Prop where
  same : c' = { c with inRoom := c'.inRoom, inventory := c'.inventory, equipment := c'.equipment }
  inventory : c'.inventory ⊆ c.inventory
  worn : ∀ {p x}, c'.equipment.get? p = some x → c.equipment.get? p = some x
  values : c'.equipment.values ⊆ c.equipment.values

/-- The same object, with less in it. -/
structure Object.Fades (o o' : Object) : Prop where
  same : o' = { o with contents := o'.contents }
  contents : o'.contents ⊆ o.contents

/-- The same room, with other people in it, and with less lying around. -/
structure Room.Fades (r r' : Room) : Prop where
  same : r' = { r with people := r'.people, contents := r'.contents }
  contents : r'.contents ⊆ r.contents

namespace Character.Fades

variable {c c' c1 : Character}

theorem refl : c.Fades c := ⟨rfl, fun _ => id, id, fun _ => id⟩

theorem trans (h : c.Fades c1) (h' : c1.Fades c') : c.Fades c' := by
  refine ⟨?_, fun _ hx => h.inventory (h'.inventory hx), fun hx => h.worn (h'.worn hx),
    fun _ hx => h.values (h'.values hx)⟩
  rw [h'.same, h.same]

theorem uid (h : c.Fades c') : c'.uid = c.uid := by rw [h.same]

theorem vnum (h : c.Fades c') : c'.vnum = c.vnum := by rw [h.same]

theorem flags (h : c.Fades c') : c'.flags = c.flags := by rw [h.same]

theorem held (h : c.Fades c') : c'.held ⊆ c.held := by
  intro x hx
  rcases List.mem_append.1 hx with hx | hx
  · exact List.mem_append_left _ (h.inventory hx)
  · exact List.mem_append_right _ (h.values hx)

theorem move (room : Option Uid) : c.Fades { c with inRoom := room } :=
  ⟨rfl, fun _ => id, id, fun _ => id⟩

theorem losesCarried (u : Uid) : c.Fades { c with inventory := c.inventory.filter (· ≠ u) } :=
  ⟨rfl, fun _ hx => (List.mem_filter.1 hx).1, id, fun _ => id⟩

theorem losesWorn (p : Nat) : c.Fades { c with equipment := c.equipment.erase p } := by
  refine ⟨rfl, fun _ => id, fun {q x} hx => ?_, fun x hx => ?_⟩
  · have hx : (c.equipment.erase p).get? q = some x := hx
    by_cases hq : q = p
    · rw [hq, Table.get?_erase_self] at hx
      cases hx
    · rwa [Table.get?_erase_ne _ hq] at hx
  · obtain ⟨e, he, rfl⟩ := List.mem_map.1 (Table.mem_values.1 hx)
    exact Table.mem_values.2 (List.mem_map.2 ⟨e, (List.mem_filter.1 he).1, rfl⟩)

end Character.Fades

namespace Object.Fades

variable {o o' o1 : Object}

theorem refl : o.Fades o := ⟨rfl, fun _ => id⟩

theorem trans (h : o.Fades o1) (h' : o1.Fades o') : o.Fades o' :=
  ⟨by rw [h'.same, h.same], fun _ hx => h.contents (h'.contents hx)⟩

theorem uid (h : o.Fades o') : o'.uid = o.uid := by rw [h.same]

theorem location (h : o.Fades o') : o'.location = o.location := by rw [h.same]

theorem loses (u : Uid) : o.Fades { o with contents := o.contents.filter (· ≠ u) } :=
  ⟨rfl, fun _ hx => (List.mem_filter.1 hx).1⟩

end Object.Fades

namespace Room.Fades

variable {r r' r1 : Room}

theorem refl : r.Fades r := ⟨rfl, fun _ => id⟩

theorem trans (h : r.Fades r1) (h' : r1.Fades r') : r.Fades r' :=
  ⟨by rw [h'.same, h.same], fun _ hx => h.contents (h'.contents hx)⟩

theorem uid (h : r.Fades r') : r'.uid = r.uid := by rw [h.same]

theorem people (us : List Uid) : r.Fades { r with people := us } := ⟨rfl, fun _ => id⟩

theorem loses (u : Uid) : r.Fades { r with contents := r.contents.filter (· ≠ u) } :=
  ⟨rfl, fun _ hx => (List.mem_filter.1 hx).1⟩

end Room.Fades

namespace World

variable {w w' w1 : World} {u x : Uid} {h h' : Handle} {ref : EntityRef}

/-! ## Finding records -/

theorem resolve_of_get? (hu : w.index.get? u = some ref) : w.resolve u = ref := by
  rw [resolve, hu, Option.getD_some]

theorem get?_of_resolve (hr : w.resolve u = ref) (hn : ref ≠ .nothing) :
    w.index.get? u = some ref := by
  unfold resolve at hr
  cases hu : w.index.get? u with
  | none => rw [hu] at hr; exact absurd hr.symm hn
  | some r => rw [hu] at hr; exact congrArg some hr

theorem character?_eq_some {c : Character} : w.character? u = some c ↔
    ∃ h, w.index.get? u = some (.character h) ∧ w.characters.get? h = some c := by
  unfold character?
  constructor
  · intro hc
    split at hc
    · rename_i h hr
      exact ⟨h, get?_of_resolve hr (by simp), hc⟩
    · cases hc
  · rintro ⟨h, hu, hc⟩
    rw [resolve_of_get? hu]
    exact hc

theorem object?_eq_some {o : Object} : w.object? u = some o ↔
    ∃ h, w.index.get? u = some (.object h) ∧ w.objects.get? h = some o := by
  unfold object?
  constructor
  · intro ho
    split at ho
    · rename_i h hr
      exact ⟨h, get?_of_resolve hr (by simp), ho⟩
    · cases ho
  · rintro ⟨h, hu, ho⟩
    rw [resolve_of_get? hu]
    exact ho

theorem room?_eq_some {r : Room} : w.room? u = some r ↔
    ∃ h, w.index.get? u = some (.room h) ∧ w.rooms.get? h = some r := by
  unfold room?
  constructor
  · intro hr
    split at hr
    · rename_i h he
      exact ⟨h, get?_of_resolve he (by simp), hr⟩
    · cases hr
  · rintro ⟨h, hu, hr⟩
    rw [resolve_of_get? hu]
    exact hr

theorem isMovable_iff : w.isMovable u = true ↔
    (∃ c, w.character? u = some c) ∨ ∃ o, w.object? u = some o := by
  rw [isMovable, Bool.or_eq_true, Option.isSome_iff_exists, Option.isSome_iff_exists]

theorem get?_of_isMovable (hu : w.isMovable u = true) : ∃ r, w.index.get? u = some r := by
  rcases isMovable_iff.1 hu with ⟨c, hc⟩ | ⟨o, ho⟩
  · obtain ⟨h, hi, -⟩ := character?_eq_some.1 hc
    exact ⟨_, hi⟩
  · obtain ⟨h, hi, -⟩ := object?_eq_some.1 ho
    exact ⟨_, hi⟩

theorem mem_belongings : x ∈ w.belongings u ↔
    (∃ c, w.character? u = some c ∧ x ∈ c.held) ∨ ∃ o, w.object? u = some o ∧ x ∈ o.contents := by
  unfold belongings
  split
  · rename_i h hr
    have ho : w.object? u = none := by rw [object?, hr]
    cases hc : w.character? u <;> simp [ho, Character.held]
  · rename_i h hr
    have hc : w.character? u = none := by rw [character?, hr]
    cases ho : w.object? u <;> simp [hc]
  · rename_i hnc hno
    have hc : w.character? u = none := by
      unfold character?
      split
      · exact absurd (by assumption) (hnc _)
      · rfl
    have ho : w.object? u = none := by
      unfold object?
      split
      · exact absurd (by assumption) (hno _)
      · rfl
    simp [hc, ho]

/-! ## Dropping -/

/-- The world without a character among the people of the room where it was. -/
def vacate (w : World) (u : Uid) : Option Uid → World
  | some room => w.modifyRoom room fun r => { r with people := r.people.filter (· ≠ u) }
  | none => w

theorem drop_character {c : Character} (u : Uid) (hc : w.characters.get? h = some c) :
    w.drop (.character h) u = { w.vacate u c.inRoom with
      characters := ((w.vacate u c.inRoom).characters.remove h).2 } := by
  simp only [drop, hc]
  cases c.inRoom <;> rfl

theorem drop_object {o : Object} (u : Uid) (ho : w.objects.get? h = some o) :
    w.drop (.object h) u = { w.unlink u o.location with
      objects := ((w.unlink u o.location).objects.remove h).2 } := by
  simp only [drop, ho]

/-- Dropping does nothing, or the record of a character goes, or that of an object. -/
theorem drop_cases (w : World) (r : EntityRef) (u : Uid) : w.drop r u = w ∨
    (∃ h c, r = .character h ∧ w.characters.get? h = some c ∧
      w.drop r u = { w.vacate u c.inRoom with
        characters := ((w.vacate u c.inRoom).characters.remove h).2 }) ∨
    ∃ h o, r = .object h ∧ w.objects.get? h = some o ∧
      w.drop r u = { w.unlink u o.location with
        objects := ((w.unlink u o.location).objects.remove h).2 } := by
  cases r with
  | character h =>
    cases hc : w.characters.get? h with
    | none => exact .inl (by simp only [drop, hc])
    | some c => exact .inr (.inl ⟨h, c, rfl, hc, drop_character u hc⟩)
  | object h =>
    cases ho : w.objects.get? h with
    | none => exact .inl (by simp only [drop, ho])
    | some o => exact .inr (.inr ⟨h, o, rfl, ho, drop_object u ho⟩)
  | room | nothing => exact .inl rfl

/-! ## Waning -/

/-- Nothing comes into the world, and what stays is the same but for its place and its lists. -/
structure Wanes (w w' : World) : Prop where
  nextUid : w'.nextUid = w.nextUid
  index : ∀ {u r}, w'.index.get? u = some r → w.index.get? u = some r
  character : ∀ {h c'}, w'.characters.get? h = some c' →
    ∃ c, w.characters.get? h = some c ∧ c.Fades c'
  object : ∀ {h o'}, w'.objects.get? h = some o' → ∃ o, w.objects.get? h = some o ∧ o.Fades o'
  room : ∀ {h r'}, w'.rooms.get? h = some r' → ∃ r, w.rooms.get? h = some r ∧ r.Fades r'

namespace Wanes

theorem of_eq (hn : w'.nextUid = w.nextUid) (hi : w'.index = w.index)
    (hc : w'.characters = w.characters) (ho : w'.objects = w.objects) (hr : w'.rooms = w.rooms) :
    w.Wanes w' :=
  ⟨hn, fun h => hi ▸ h, fun h => ⟨_, hc ▸ h, .refl⟩, fun h => ⟨_, ho ▸ h, .refl⟩,
    fun h => ⟨_, hr ▸ h, .refl⟩⟩

theorem refl : w.Wanes w := of_eq rfl rfl rfl rfl rfl

theorem trans (h : w.Wanes w1) (h' : w1.Wanes w') : w.Wanes w' := by
  refine ⟨h'.nextUid.trans h.nextUid, fun hx => h.index (h'.index hx), fun hc => ?_, fun ho => ?_,
    fun hr => ?_⟩
  · obtain ⟨c1, hc1, hf'⟩ := h'.character hc
    obtain ⟨c, hc, hf⟩ := h.character hc1
    exact ⟨c, hc, hf.trans hf'⟩
  · obtain ⟨o1, ho1, hf'⟩ := h'.object ho
    obtain ⟨o, ho, hf⟩ := h.object ho1
    exact ⟨o, ho, hf.trans hf'⟩
  · obtain ⟨r1, hr1, hf'⟩ := h'.room hr
    obtain ⟨r, hr, hf⟩ := h.room hr1
    exact ⟨r, hr, hf.trans hf'⟩

/-! ### What is still found -/

theorem character? (hw : w.Wanes w') {c' : Character} (hc : w'.character? u = some c') :
    ∃ c, w.character? u = some c ∧ c.Fades c' := by
  obtain ⟨h, hi, hc⟩ := character?_eq_some.1 hc
  obtain ⟨c, hc, hf⟩ := hw.character hc
  exact ⟨c, character?_eq_some.2 ⟨h, hw.index hi, hc⟩, hf⟩

theorem object? (hw : w.Wanes w') {o' : Object} (ho : w'.object? u = some o') :
    ∃ o, w.object? u = some o ∧ o.Fades o' := by
  obtain ⟨h, hi, ho⟩ := object?_eq_some.1 ho
  obtain ⟨o, ho, hf⟩ := hw.object ho
  exact ⟨o, object?_eq_some.2 ⟨h, hw.index hi, ho⟩, hf⟩

theorem room? (hw : w.Wanes w') {r' : Room} (hr : w'.room? u = some r') :
    ∃ r, w.room? u = some r ∧ r.Fades r' := by
  obtain ⟨h, hi, hr⟩ := room?_eq_some.1 hr
  obtain ⟨r, hr, hf⟩ := hw.room hr
  exact ⟨r, room?_eq_some.2 ⟨h, hw.index hi, hr⟩, hf⟩

theorem isMovable (hw : w.Wanes w') (hu : w'.isMovable u = true) : w.isMovable u = true := by
  rw [isMovable_iff] at hu ⊢
  rcases hu with ⟨c', hc⟩ | ⟨o', ho⟩
  · obtain ⟨c, hc, -⟩ := hw.character? hc
    exact .inl ⟨c, hc⟩
  · obtain ⟨o, ho, -⟩ := hw.object? ho
    exact .inr ⟨o, ho⟩

theorem belongings (hw : w.Wanes w') : w'.belongings u ⊆ w.belongings u := by
  intro x hx
  rw [mem_belongings] at hx ⊢
  rcases hx with ⟨c', hc, hx⟩ | ⟨o', ho, hx⟩
  · obtain ⟨c, hc, hf⟩ := hw.character? hc
    exact .inl ⟨c, hc, hf.held hx⟩
  · obtain ⟨o, ho, hf⟩ := hw.object? ho
    exact .inr ⟨o, ho, hf.contents hx⟩

/-! ### What only wanes the world -/

theorem modifyCharacter (u : Uid) {f : Character → Character} (hf : ∀ c : Character, c.Fades (f c)) :
    w.Wanes (w.modifyCharacter u f) := by
  unfold World.modifyCharacter
  split
  · rename_i h _
    refine ⟨rfl, id, fun {h' c'} hc => ?_, fun ho => ⟨_, ho, .refl⟩, fun hr => ⟨_, hr, .refl⟩⟩
    have hc : (w.characters.modify h f).get? h' = some c' := hc
    rw [Arena.get?_modify] at hc
    split at hc
    · rename_i he
      obtain ⟨c, hold, rfl⟩ := Option.map_eq_some_iff.1 hc
      exact ⟨c, he ▸ hold, hf c⟩
    · exact ⟨c', hc, .refl⟩
  · exact refl

theorem modifyObject (u : Uid) {f : Object → Object} (hf : ∀ o : Object, o.Fades (f o)) :
    w.Wanes (w.modifyObject u f) := by
  unfold World.modifyObject
  split
  · rename_i h _
    refine ⟨rfl, id, fun hc => ⟨_, hc, .refl⟩, fun {h' o'} ho => ?_, fun hr => ⟨_, hr, .refl⟩⟩
    have ho : (w.objects.modify h f).get? h' = some o' := ho
    rw [Arena.get?_modify] at ho
    split at ho
    · rename_i he
      obtain ⟨o, hold, rfl⟩ := Option.map_eq_some_iff.1 ho
      exact ⟨o, he ▸ hold, hf o⟩
    · exact ⟨o', ho, .refl⟩
  · exact refl

theorem modifyRoom (u : Uid) {f : Room → Room} (hf : ∀ r : Room, r.Fades (f r)) :
    w.Wanes (w.modifyRoom u f) := by
  unfold World.modifyRoom
  split
  · rename_i h _
    refine ⟨rfl, id, fun hc => ⟨_, hc, .refl⟩, fun ho => ⟨_, ho, .refl⟩, fun {h' r'} hr => ?_⟩
    have hr : (w.rooms.modify h f).get? h' = some r' := hr
    rw [Arena.get?_modify] at hr
    split at hr
    · rename_i he
      obtain ⟨r, hold, rfl⟩ := Option.map_eq_some_iff.1 hr
      exact ⟨r, he ▸ hold, hf r⟩
    · exact ⟨r', hr, .refl⟩
  · exact refl

theorem placeCharacter (u room : Uid) : w.Wanes (w.placeCharacter u room) := by
  unfold World.placeCharacter
  split
  · exact refl
  · simp only
    split
    · exact (modifyRoom _ fun _ => .people _).trans
        ((modifyRoom _ fun _ => .people _).trans (modifyCharacter _ fun _ => .move _))
    · exact (modifyRoom _ fun _ => .people _).trans (modifyCharacter _ fun _ => .move _)

theorem unlink (u : Uid) (location : Location) : w.Wanes (w.unlink u location) := by
  cases location with
  | nowhere => exact refl
  | room r => exact modifyRoom _ fun _ => .loses u
  | carried holder => exact modifyCharacter _ fun _ => .losesCarried u
  | worn holder p => exact modifyCharacter _ fun _ => .losesWorn p
  | inside container => exact modifyObject _ fun _ => .loses u

theorem removeCharacter (h : Handle) :
    w.Wanes { w with characters := (w.characters.remove h).2 } := by
  refine ⟨rfl, id, fun {h' c'} hc => ⟨c', ?_, .refl⟩, fun ho => ⟨_, ho, .refl⟩,
    fun hr => ⟨_, hr, .refl⟩⟩
  have hc : (w.characters.remove h).2.get? h' = some c' := hc
  rw [Arena.get?_remove] at hc
  split at hc
  · cases hc
  · exact hc

theorem removeObject (h : Handle) : w.Wanes { w with objects := (w.objects.remove h).2 } := by
  refine ⟨rfl, id, fun hc => ⟨_, hc, .refl⟩, fun {h' o'} ho => ⟨o', ?_, .refl⟩,
    fun hr => ⟨_, hr, .refl⟩⟩
  have ho : (w.objects.remove h).2.get? h' = some o' := ho
  rw [Arena.get?_remove] at ho
  split at ho
  · cases ho
  · exact ho

theorem vacate (u : Uid) (room : Option Uid) : w.Wanes (w.vacate u room) := by
  cases room with
  | none => exact refl
  | some room => exact modifyRoom _ fun _ => .people _

theorem drop (r : EntityRef) (u : Uid) : w.Wanes (w.drop r u) := by
  rcases w.drop_cases r u with he | ⟨h, c, rfl, hc, he⟩ | ⟨h, o, rfl, ho, he⟩
  · rw [he]
    exact refl
  · rw [he]
    exact (vacate u _).trans (removeCharacter h)
  · rw [he]
    exact (unlink u _).trans (removeObject h)

end Wanes

end World

end MudTrigger
