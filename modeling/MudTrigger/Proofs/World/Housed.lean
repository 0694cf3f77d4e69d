import MudTrigger.Proofs.World.Slot

/-!
# People are in the rooms where they are

A room lists exactly the characters who are in it, each once (`World.Housed`), as long as characters are
put only into rooms that are there (`Policy.Enters`): moving a character takes it off the list of its
old room before it is put on the new one, even when the two are the same, and one that is taken out is
taken off the list of its room. The vnums of rooms lead to rooms (`World.Mapped`), so that walks end
in rooms.
-/

set_option autoImplicit false

namespace MudTrigger

namespace World

variable {p : Policy} {w w' w1 : World} {u x : Uid} {room : Uid}

/-- A room lists exactly the characters who are in it, and each of them once. -/
structure Housed (w : World) : Prop where
  listed : ∀ {x room}, w.HasPerson x room → ∃ c, w.character? x = some c ∧ c.inRoom = some room
  present : ∀ {x c room}, w.character? x = some c → c.inRoom = some room → w.HasPerson x room
  once : ∀ {room r}, w.room? room = some r → r.people.Nodup

/-- Every vnum in use leads to a room. -/
def Mapped (w : World) : Prop :=
  ∀ vnum u, w.roomVnums.get? vnum = some u → ∃ h, w.index.get? u = some (.room h)

/-- The policy puts characters only into rooms that are there. -/
def Policy.Enters (p : Policy) : Prop := ∀ w room, p.enter w room → (w.room? room).isSome = true

/-! ## What leaves people alone -/

/-- Every character is in the room where it was, and every list of people is the same; new characters
are in no room, and new rooms are empty. -/
structure Undisturbed (w w' : World) : Prop where
  character : ∀ x, (w'.character? x).map (·.inRoom) = (w.character? x).map (·.inRoom) ∨
    w.character? x = none ∧ (w'.character? x).map (·.inRoom) = some none
  room : ∀ y, (w'.room? y).map (·.people) = (w.room? y).map (·.people) ∨
    w.room? y = none ∧ (w'.room? y).map (·.people) = some []

namespace Undisturbed

theorem character? (h : w.Undisturbed w') {c' : Character} (hc : w'.character? x = some c')
    (hr : c'.inRoom = some room) : ∃ c, w.character? x = some c ∧ c.inRoom = some room := by
  have he := h.character x
  rw [hc, Option.map_some, hr] at he
  rcases he with he | ⟨-, he⟩
  · exact Option.map_eq_some_iff.1 he.symm
  · cases he

theorem character?_some (h : w.Undisturbed w') {c : Character} (hc : w.character? x = some c) :
    ∃ c', w'.character? x = some c' ∧ c'.inRoom = c.inRoom := by
  have he := h.character x
  rw [hc, Option.map_some] at he
  rcases he with he | ⟨he, -⟩
  · exact Option.map_eq_some_iff.1 he
  · cases he

theorem room? (h : w.Undisturbed w') {r' : Room} (hr : w'.room? room = some r') :
    r'.people = [] ∨ ∃ r, w.room? room = some r ∧ r.people = r'.people := by
  have he := h.room room
  rw [hr, Option.map_some] at he
  rcases he with he | ⟨-, he⟩
  · exact .inr (Option.map_eq_some_iff.1 he.symm)
  · exact .inl (Option.some.inj he)

theorem room?_some (h : w.Undisturbed w') {r : Room} (hr : w.room? room = some r) :
    ∃ r', w'.room? room = some r' ∧ r'.people = r.people := by
  have he := h.room room
  rw [hr, Option.map_some] at he
  rcases he with he | ⟨he, -⟩
  · exact Option.map_eq_some_iff.1 he
  · cases he

end Undisturbed

theorem Housed.undisturbed (hh : w.Housed) (h : w.Undisturbed w') : w'.Housed where
  listed := by
    rintro x room ⟨r', hr', hx⟩
    rcases h.room? hr' with he | ⟨r, hr, he⟩
    · rw [he] at hx
      cases hx
    · obtain ⟨c, hc, hroom⟩ := hh.listed ⟨r, hr, he ▸ hx⟩
      obtain ⟨c', hc', hsame⟩ := h.character?_some hc
      exact ⟨c', hc', hsame.trans hroom⟩
  present := by
    intro x c' room hc' hroom
    obtain ⟨c, hc, hroom⟩ := h.character? hc' hroom
    obtain ⟨r, hr, hx⟩ := hh.present hc hroom
    obtain ⟨r', hr', he⟩ := h.room?_some hr
    exact ⟨r', hr', he ▸ hx⟩
  once := by
    intro room r' hr'
    rcases h.room? hr' with he | ⟨r, hr, he⟩
    · rw [he]
      exact List.nodup_nil
    · exact he ▸ hh.once hr

theorem Alike.undisturbed (h : w.Alike w') : w.Undisturbed w' := by
  refine ⟨fun x => .inl ?_, fun y => .inl ?_⟩
  · have hc := congrArg (Option.map fun s => s.2.2.1) (h.character x)
    simp only [Option.map_map] at hc
    exact hc
  · have hr := congrArg (Option.map fun s => s.2.1) (h.room y)
    simp only [Option.map_map] at hr
    exact hr

theorem undisturbed_produce (vnum : Vnum) (name : String)
    (hfree : w.index.get? ⟨w.nextUid⟩ = none) :
    w.Undisturbed (w.produce (w.newObject vnum name)) :=
  ⟨fun x => .inl (by rw [character?_produce vnum name hfree]),
    fun y => .inl (by rw [room?_produce vnum name hfree])⟩

namespace Sound

variable (hw : w.Sound)
include hw

/-- Taking an object off a list moves nobody. -/
theorem undisturbed_unlink (u : Uid) (ℓ : Location) : w.Undisturbed (w.unlink u ℓ) := by
  cases ℓ with
  | nowhere => exact ⟨fun _ => .inl rfl, fun _ => .inl rfl⟩
  | room room =>
    exact ⟨fun x => .inl (by simp [World.unlink]),
      fun y => .inl (hw.map_room?_modifyRoom room y fun _ _ => rfl)⟩
  | carried holder | worn holder p =>
    exact ⟨fun x => .inl (hw.map_character?_modifyCharacter holder x fun _ _ => rfl),
      fun y => .inl (by simp [World.unlink])⟩
  | inside container =>
    exact ⟨fun x => .inl (by simp [World.unlink]), fun y => .inl (by simp [World.unlink])⟩

theorem undisturbed_link (u : Uid) (ℓ : Location) : w.Undisturbed (w.link u ℓ) := by
  cases ℓ with
  | nowhere => exact ⟨fun _ => .inl rfl, fun _ => .inl rfl⟩
  | room room =>
    exact ⟨fun x => .inl (by simp [World.link]),
      fun y => .inl (hw.map_room?_modifyRoom room y fun _ _ => rfl)⟩
  | carried holder | worn holder p =>
    exact ⟨fun x => .inl (hw.map_character?_modifyCharacter holder x fun _ _ => rfl),
      fun y => .inl (by simp [World.link])⟩
  | inside container =>
    exact ⟨fun x => .inl (by simp [World.link]), fun y => .inl (by simp [World.link])⟩

theorem undisturbed_enroll (vnum : Option Vnum) (name : String)
    (hfree : w.index.get? ⟨w.nextUid⟩ = none) :
    w.Undisturbed (w.enroll (w.newCharacter vnum name)) := by
  refine ⟨fun x => ?_, fun y => .inl (by rw [room?_enroll vnum name hfree])⟩
  rw [hw.character?_enroll]
  split
  · rename_i he
    exact .inr ⟨he ▸ character?_of_free hfree, rfl⟩
  · exact .inl rfl

theorem undisturbed_addRoom (vnum : Vnum) (name : String)
    (hfree : w.index.get? (Uid.room w.nextRoom) = none) :
    w.Undisturbed (w.addRoom vnum name).2 := by
  refine ⟨fun x => .inl (by rw [character?_addRoom vnum name hfree]), fun y => ?_⟩
  rw [hw.room?_addRoom]
  split
  · rename_i he
    exact .inr ⟨he ▸ room?_of_free hfree, rfl⟩
  · exact .inl rfl

end Sound

/-! ## People move -/

namespace Housed

variable (hh : w.Housed) (hw : w.Sound)
include hh

/-- Off the list of its old room, a character is on no list. -/
theorem mem_vacated {c : Character} {r : Room} {y : Uid} (hc : w.character? u = some c)
    (hr : w.room? y = some r) :
    x ∈ (if c.inRoom = some y then r.people.filter (· ≠ u) else r.people) ↔
      x ≠ u ∧ x ∈ r.people := by
  split
  · rw [List.mem_filter, decide_eq_true_eq, and_comm]
  · rename_i hne
    refine ⟨fun hx => ⟨?_, hx⟩, And.right⟩
    rintro rfl
    obtain ⟨c', hc', hin⟩ := hh.listed ⟨r, hr, hx⟩
    rw [hc, Option.some.injEq] at hc'
    exact hne (hc' ▸ hin)

include hw

theorem placeObject (u : Uid) (ℓ : Location) : (w.placeObject u ℓ).Housed := by
  cases ho : w.object? u with
  | none =>
    rw [placeObject_of_none ho]
    exact hh
  | some o =>
    have hlinked := (hh.undisturbed (hw.undisturbed_unlink u o.location)).undisturbed
      ((hw.unlink u o.location).undisturbed_link u ℓ)
    rw [placeObject_eq ho]
    exact hlinked.undisturbed ⟨fun x => .inl (by simp), fun y => .inl (by simp)⟩

/-- Who has not moved is where it was, and the one that has moved is in its new room. -/
theorem hasPerson_placeCharacter {c : Character} (hc : w.character? u = some c) (room x y : Uid) :
    (w.placeCharacter u room).HasPerson x y ↔
      x ≠ u ∧ w.HasPerson x y ∨ x = u ∧ y = room ∧ ∃ r, w.room? y = some r := by
  have hnew : x ∈ (if y = room then [u] else []) ↔ x = u ∧ y = room := by
    split <;> simp [*]
  rw [HasPerson, HasPerson, hw.room?_placeCharacter hc]
  cases hr : w.room? y with
  | none => simp
  | some r =>
    simp only [Option.map_some, Option.some.injEq, exists_eq_left', List.mem_append,
      hh.mem_vacated hc hr, hnew, exists_eq', and_true]

theorem placeCharacter (u : Uid) (hroom : (w.room? room).isSome = true) :
    (w.placeCharacter u room).Housed := by
  cases hc : w.character? u with
  | none =>
    rw [placeCharacter_of_none hc]
    exact hh
  | some c =>
    refine ⟨fun {x y} hx => ?_, fun {x c' y} hc' hin => ?_, fun {y r'} hr' => ?_⟩
    · rw [hw.character?_placeCharacter hc]
      rcases (hh.hasPerson_placeCharacter hw hc room x y).1 hx with ⟨hne, hx⟩ | ⟨he, rfl, -⟩
      · rw [if_neg hne]
        exact hh.listed hx
      · exact ⟨_, if_pos he, rfl⟩
    · rw [hw.character?_placeCharacter hc] at hc'
      refine (hh.hasPerson_placeCharacter hw hc room x y).2 ?_
      split at hc'
      · rename_i he
        obtain rfl := Option.some.inj hc'
        obtain rfl : room = y := Option.some.inj hin
        exact .inr ⟨he, rfl, Option.isSome_iff_exists.1 hroom⟩
      · rename_i hne
        exact .inl ⟨hne, hh.present hc' hin⟩
    · rw [hw.room?_placeCharacter hc] at hr'
      obtain ⟨r, hr, rfl⟩ := Option.map_eq_some_iff.1 hr'
      have hgone := fun hu => ((hh.mem_vacated (x := u) hc hr).1 hu).1 rfl
      refine List.nodup_append.2 ⟨?_, ?_, ?_⟩
      · split
        · exact (hh.once hr).filter _
        · exact hh.once hr
      · split
        · exact List.nodup_singleton u
        · exact List.nodup_nil
      · rintro x hx z hz rfl
        split at hz
        · exact hgone (List.mem_singleton.1 hz ▸ hx)
        · cases hz

theorem extract (u : Uid) : (w.extract u).2.Housed := by
  have ht := takes_extract w u
  have hroom : ∀ {y r'}, (w.extract u).2.room? y = some r' →
      ∃ r, w.room? y = some r ∧ r.Culled (w.extract u).1 r' := by
    intro y r' hr'
    obtain ⟨r, hr, -⟩ := ht.wanes.room? hr'
    obtain ⟨r1, hr1, hcull⟩ := ht.room? hw hr
    rw [hr', Option.some.injEq] at hr1
    exact ⟨r, hr, hr1 ▸ hcull⟩
  refine ⟨?_, ?_, fun hr' => ?_⟩
  · rintro x y ⟨r', hr', hx⟩
    obtain ⟨r, hr, hcull⟩ := hroom hr'
    obtain ⟨c, hc, hin⟩ := hh.listed ⟨r, hr, hcull.people.sublist.subset hx⟩
    by_cases hxo : x ∈ (w.extract u).1
    · -- Only the one that is extracted can be a character.
      obtain ⟨h, hi, -⟩ := character?_eq_some.1 hc
      have hxu : x = u := by
        rcases ht.thing hw hxo with hmem | hthing
        · exact List.mem_singleton.1 hmem
        · exact absurd hi (hthing.1 h)
      subst hxu
      exact absurd ⟨r', hr', hx⟩ (ht.not_hasPerson hw hc hin)
    · obtain ⟨c', _, hc', -, hcull'⟩ := ht.character? hw hc hxo
      exact ⟨c', hc', hcull'.inRoom.trans hin⟩
  · intro x c' y hc' hin
    obtain ⟨h, hi, -⟩ := character?_eq_some.1 hc'
    have hxo := ht.not_mem_of_get? hi
    obtain ⟨c, hc, -⟩ := ht.wanes.character? hc'
    obtain ⟨c1, _, hc1, -, hcull⟩ := ht.character? hw hc hxo
    rw [hc', Option.some.injEq] at hc1
    obtain ⟨r, hr, hx⟩ := hh.present hc (hcull.inRoom.symm.trans (hc1 ▸ hin))
    obtain ⟨r', hr', hcull'⟩ := ht.room? hw hr
    exact ⟨r', hr', (hcull'.people.kept x hx).resolve_right hxo⟩
  · obtain ⟨r, hr, hcull⟩ := hroom hr'
    exact (hh.once hr).sublist hcull.people.sublist

theorem shift (hp : p.Enters) (h : Shift p w w') : w'.Housed := by
  cases h with
  | alike h => exact hh.undisturbed h.undisturbed
  | placeCharacter u room hroom => exact hh.placeCharacter hw u (hp _ _ hroom)
  | placeObject u ℓ => exact hh.placeObject hw u ℓ
  | enroll vnum name free => exact hh.undisturbed (hw.undisturbed_enroll vnum name free)
  | produce vnum name free => exact hh.undisturbed (undisturbed_produce vnum name free)
  | addRoom vnum name free => exact hh.undisturbed (hw.undisturbed_addRoom vnum name free)
  | extract u => exact hh.extract hw u

end Housed

theorem housed_empty : ({} : World).Housed where
  listed := by
    rintro x room ⟨r, hr, -⟩
    cases hr
  present hc := by cases hc
  once hr := by cases hr

/-! ## Vnums of rooms -/

/-- The vnums lead where they led, and no room goes. -/
structure Leads (w w' : World) : Prop where
  vnums : w'.roomVnums = w.roomVnums
  rooms : ∀ {u h}, w.index.get? u = some (.room h) → w'.index.get? u = some (.room h)

theorem Mapped.leads (hm : w.Mapped) (h : w.Leads w') : w'.Mapped := by
  intro vnum u hu
  obtain ⟨hd, hi⟩ := hm vnum u (h.vnums ▸ hu)
  exact ⟨hd, h.rooms hi⟩

namespace Leads

theorem of_index (hv : w'.roomVnums = w.roomVnums) (hi : w'.index = w.index) : w.Leads w' :=
  ⟨hv, fun h => hi ▸ h⟩

theorem of_set {r : EntityRef} (hv : w'.roomVnums = w.roomVnums)
    (hi : w'.index = w.index.set u r) (hfree : w.index.get? u = none) : w.Leads w' := by
  refine ⟨hv, fun {x h} hx => ?_⟩
  rw [hi, Table.get?_set_ne, hx]
  rintro rfl
  rw [hfree] at hx
  cases hx

theorem placeCharacter (u room : Uid) : w.Leads (w.placeCharacter u room) := by
  refine of_index ?_ (Moves.placeCharacter u room).index
  cases hc : w.character? u with
  | none => rw [placeCharacter_of_none hc]
  | some c =>
    rw [placeCharacter_eq hc]
    cases c.inRoom <;> simp [vacate]

theorem unlink (u : Uid) (ℓ : Location) : w.Leads (w.unlink u ℓ) := by
  refine of_index ?_ (index_unlink u ℓ)
  cases ℓ <;> simp [World.unlink]

theorem placeObject (u : Uid) (ℓ : Location) : w.Leads (w.placeObject u ℓ) := by
  refine of_index ?_ (Moves.placeObject u ℓ).index
  cases ho : w.object? u with
  | none => rw [placeObject_of_none ho]
  | some o =>
    rw [placeObject_eq ho, roomVnums_modifyObject]
    cases ℓ <;> simp [World.link, (unlink u o.location).vnums]

end Leads

theorem roomVnums_drop (w : World) (r : EntityRef) (u : Uid) :
    (w.drop r u).roomVnums = w.roomVnums := by
  rcases w.drop_cases r u with he | ⟨h, c, -, -, he⟩ | ⟨h, o, -, -, he⟩ <;> rw [he]
  · cases c.inRoom <;> simp [vacate]
  · exact (Leads.unlink u o.location).vnums

theorem Takes.leads {us out : List Uid} (ht : Takes w us out w') : w.Leads w' := by
  constructor
  · induction ht with
    | done => rfl
    | skip _ _ ih => exact ih
    | @take w w1 w' u us inner outer _ _ _ ih ih' =>
      rw [ih', roomVnums_drop, ih]
      rfl
  · intro x h hi
    rw [ht.index_of_not_mem, hi]
    intro hx
    have hm := ht.isMovable_of_mem hx
    rw [not_movable_of_room hi] at hm
    cases hm

theorem Mapped.shift (hm : w.Mapped) (h : Shift p w w') : w'.Mapped := by
  cases h with
  | alike h => exact hm.leads (.of_index h.vnums h.index)
  | placeCharacter u room => exact hm.leads (.placeCharacter u room)
  | placeObject u ℓ => exact hm.leads (.placeObject u ℓ)
  | enroll vnum name free => exact hm.leads (.of_set rfl rfl free)
  | produce vnum name free => exact hm.leads (.of_set rfl rfl free)
  | addRoom vnum name free =>
    intro v u hu
    rcases Table.get?_set_cases hu with ⟨-, rfl⟩ | hu
    · exact ⟨_, Table.get?_set_self _ _ _⟩
    · obtain ⟨h, hi⟩ := hm v u hu
      have hl : w.Leads { (w.addRoom vnum name).2 with roomVnums := w.roomVnums } :=
        .of_set rfl rfl free
      exact ⟨h, hl.rooms hi⟩
  | extract u => exact hm.leads (takes_extract w u).leads

theorem mapped_empty : ({} : World).Mapped := fun _ _ hu => nomatch hu

end World

end MudTrigger
