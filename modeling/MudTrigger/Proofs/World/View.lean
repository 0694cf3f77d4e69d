import MudTrigger.Proofs.World.Taken

/-!
# What is found after a command

In a sound world an edit of a record is seen under its own identity and under no other
(`Sound.room?_modifyRoom` and the like). So moving a character changes its room and the lists of people
of two rooms at most (`Sound.room?_placeCharacter`); a new record is found under its own identity, if
that was free, and the others as before (`Sound.character?_enroll`); and when entities are taken out, the
others are found with what is left of their lists (`Takes.room?`).
-/

set_option autoImplicit false

namespace MudTrigger

namespace World

variable {w w' : World} {u x y : Uid} {us out : List Uid}

/-! ## Edits -/

@[simp] theorem roomVnums_modifyCharacter (u : Uid) (f : Character → Character) :
    (w.modifyCharacter u f).roomVnums = w.roomVnums := by
  unfold modifyCharacter
  split <;> rfl

@[simp] theorem roomVnums_modifyObject (u : Uid) (f : Object → Object) :
    (w.modifyObject u f).roomVnums = w.roomVnums := by
  unfold modifyObject
  split <;> rfl

@[simp] theorem roomVnums_modifyRoom (u : Uid) (f : Room → Room) :
    (w.modifyRoom u f).roomVnums = w.roomVnums := by
  unfold modifyRoom
  split <;> rfl

theorem character?_congr (hi : w'.index = w.index) (hc : w'.characters = w.characters) (x : Uid) :
    w'.character? x = w.character? x := by
  unfold character? resolve
  rw [hi, hc]

theorem object?_congr (hi : w'.index = w.index) (ho : w'.objects = w.objects) (x : Uid) :
    w'.object? x = w.object? x := by
  unfold object? resolve
  rw [hi, ho]

theorem room?_congr (hi : w'.index = w.index) (hr : w'.rooms = w.rooms) (x : Uid) :
    w'.room? x = w.room? x := by
  unfold room? resolve
  rw [hi, hr]

@[simp] theorem character?_modifyObject (u x : Uid) (f : Object → Object) :
    (w.modifyObject u f).character? x = w.character? x := character?_congr (by simp) (by simp) x

@[simp] theorem character?_modifyRoom (u x : Uid) (f : Room → Room) :
    (w.modifyRoom u f).character? x = w.character? x := character?_congr (by simp) (by simp) x

@[simp] theorem object?_modifyCharacter (u x : Uid) (f : Character → Character) :
    (w.modifyCharacter u f).object? x = w.object? x := object?_congr (by simp) (by simp) x

@[simp] theorem object?_modifyRoom (u x : Uid) (f : Room → Room) :
    (w.modifyRoom u f).object? x = w.object? x := object?_congr (by simp) (by simp) x

@[simp] theorem room?_modifyCharacter (u x : Uid) (f : Character → Character) :
    (w.modifyCharacter u f).room? x = w.room? x := room?_congr (by simp) (by simp) x

@[simp] theorem room?_modifyObject (u x : Uid) (f : Object → Object) :
    (w.modifyObject u f).room? x = w.room? x := room?_congr (by simp) (by simp) x

/-- An edit of one entry hides nothing of what it leaves as it was. -/
theorem map_edit {α β : Type} {look : Uid → Option α} {f : α → α} {sel : α → β}
    (hf : ∀ a, look u = some a → sel (f a) = sel a) (x : Uid) :
    (if x = u then (look u).map f else look x).map sel = (look x).map sel := by
  split
  · rename_i he
    rw [he, Option.map_map]
    exact Option.map_congr hf
  · rfl

namespace Sound

variable (hw : w.Sound)
include hw

/-- No two identities are filed under one record. -/
theorem resolve_inj {r : EntityRef} (hx : w.resolve x = r) (hu : w.resolve u = r) (hr : r ≠ .nothing) :
    x = u :=
  hw.ref_inj (get?_of_resolve hx hr) (get?_of_resolve hu hr) hr

theorem character?_modifyCharacter (u x : Uid) (f : Character → Character) :
    (w.modifyCharacter u f).character? x =
      if x = u then (w.character? u).map f else w.character? x := by
  split
  · rename_i he
    rw [he, World.character?_modifyCharacter]
  · rename_i hne
    unfold character? World.resolve
    rw [index_modifyCharacter, ← World.resolve]
    split
    · rename_i h hx
      unfold World.modifyCharacter
      split
      · rename_i h' hu
        refine (Arena.get?_modify _ _ _ _).trans (if_neg ?_)
        rintro rfl
        exact hne (hw.resolve_inj hx hu (by simp))
      · rfl
    · rfl

theorem object?_modifyObject (u x : Uid) (f : Object → Object) :
    (w.modifyObject u f).object? x = if x = u then (w.object? u).map f else w.object? x := by
  split
  · rename_i he
    rw [he, World.object?_modifyObject]
  · rename_i hne
    unfold object? World.resolve
    rw [index_modifyObject, ← World.resolve]
    split
    · rename_i h hx
      unfold World.modifyObject
      split
      · rename_i h' hu
        refine (Arena.get?_modify _ _ _ _).trans (if_neg ?_)
        rintro rfl
        exact hne (hw.resolve_inj hx hu (by simp))
      · rfl
    · rfl

theorem room?_modifyRoom (u x : Uid) (f : Room → Room) :
    (w.modifyRoom u f).room? x = if x = u then (w.room? u).map f else w.room? x := by
  split
  · rename_i he
    rw [he, World.room?_modifyRoom]
  · rename_i hne
    unfold room? World.resolve
    rw [index_modifyRoom, ← World.resolve]
    split
    · rename_i h hx
      unfold World.modifyRoom
      split
      · rename_i h' hu
        refine (Arena.get?_modify _ _ _ _).trans (if_neg ?_)
        rintro rfl
        exact hne (hw.resolve_inj hx hu (by simp))
      · rfl
    · rfl

theorem map_character?_modifyCharacter {β : Type} {sel : Character → β} (u x : Uid)
    {f : Character → Character} (hf : ∀ c, w.character? u = some c → sel (f c) = sel c) :
    ((w.modifyCharacter u f).character? x).map sel = (w.character? x).map sel := by
  rw [hw.character?_modifyCharacter]
  exact map_edit hf x

theorem map_object?_modifyObject {β : Type} {sel : Object → β} (u x : Uid) {f : Object → Object}
    (hf : ∀ o, w.object? u = some o → sel (f o) = sel o) :
    ((w.modifyObject u f).object? x).map sel = (w.object? x).map sel := by
  rw [hw.object?_modifyObject]
  exact map_edit hf x

theorem map_room?_modifyRoom {β : Type} {sel : Room → β} (u x : Uid) {f : Room → Room}
    (hf : ∀ r, w.room? u = some r → sel (f r) = sel r) :
    ((w.modifyRoom u f).room? x).map sel = (w.room? x).map sel := by
  rw [hw.room?_modifyRoom]
  exact map_edit hf x

end Sound

/-! ## Moving a character -/

theorem placeCharacter_of_none (hc : w.character? u = none) (room : Uid) :
    w.placeCharacter u room = w := by
  unfold placeCharacter
  rw [hc]

theorem placeCharacter_eq {c : Character} (hc : w.character? u = some c) (room : Uid) :
    w.placeCharacter u room =
      ((w.vacate u c.inRoom).modifyRoom room fun r => { r with people := r.people ++ [u] }).modifyCharacter
        u fun c => { c with inRoom := some room } := by
  simp only [placeCharacter, hc]
  cases c.inRoom <;> rfl

@[simp] theorem character?_vacate (u x : Uid) (room : Option Uid) :
    (w.vacate u room).character? x = w.character? x := by cases room <;> simp [vacate]

@[simp] theorem object?_vacate (u x : Uid) (room : Option Uid) :
    (w.vacate u room).object? x = w.object? x := by cases room <;> simp [vacate]

@[simp] theorem object?_placeCharacter (u room x : Uid) :
    (w.placeCharacter u room).object? x = w.object? x := by
  cases hc : w.character? u with
  | none => rw [placeCharacter_of_none hc]
  | some c => simp [placeCharacter_eq hc]

namespace Sound

variable (hw : w.Sound)
include hw

theorem room?_vacate (u y : Uid) (room : Option Uid) :
    (w.vacate u room).room? y = (w.room? y).map fun r =>
      { r with people := if room = some y then r.people.filter (· ≠ u) else r.people } := by
  cases room with
  | none => simp [World.vacate]
  | some room =>
    rw [World.vacate, hw.room?_modifyRoom]
    by_cases hy : y = room
    · subst hy
      simp
    · have hne : room ≠ y := fun he => hy he.symm
      simp [if_neg hy, hne]

/-- The one that is moved stands in the room. -/
theorem character?_placeCharacter {c : Character} (hc : w.character? u = some c) (room x : Uid) :
    (w.placeCharacter u room).character? x =
      if x = u then some { c with inRoom := some room } else w.character? x := by
  rw [placeCharacter_eq hc, ((hw.vacate u c.inRoom).fadeRoom room
    fun _ => .people _).character?_modifyCharacter]
  simp [hc]

/-- It is the last one in the list of the room, and in that of its old room no more. -/
theorem room?_placeCharacter {c : Character} (hc : w.character? u = some c) (room y : Uid) :
    (w.placeCharacter u room).room? y = (w.room? y).map fun r =>
      { r with
        people := (if c.inRoom = some y then r.people.filter (· ≠ u) else r.people) ++
          if y = room then [u] else [] } := by
  rw [placeCharacter_eq hc, room?_modifyCharacter, (hw.vacate u c.inRoom).room?_modifyRoom]
  by_cases hy : y = room
  · subst hy
    rw [if_pos rfl, hw.room?_vacate, Option.map_map]
    simp [Function.comp_def]
  · rw [if_neg hy, hw.room?_vacate]
    simp [if_neg hy]

end Sound

/-! ## New records -/

theorem addCharacter_eq (w : World) (vnum : Option Vnum) (name : String) (room : Uid) :
    (w.addCharacter vnum name room).2 =
      (w.enroll (w.newCharacter vnum name)).placeCharacter ⟨w.nextUid⟩ room := rfl

theorem addObject_eq (w : World) (vnum : Vnum) (name : String) (location : Location) :
    (w.addObject vnum name location).2 =
      (w.produce (w.newObject vnum name)).placeObject ⟨w.nextUid⟩ location := rfl

theorem resolve_set {r : EntityRef} (hi : w'.index = w.index.set u r) (x : Uid) :
    w'.resolve x = if x = u then r else w.resolve x := by
  unfold resolve
  rw [hi, Table.get?_set]
  split <;> rfl

/-- A new entry under a free identity hides no entry of another kind. -/
theorem get?_of_set {r s : EntityRef} (hi : w'.index = w.index.set u r)
    (hfree : w.index.get? u = none) (hs : s ≠ r) (x : Uid) :
    w'.index.get? x = some s ↔ w.index.get? x = some s := by
  rw [hi, Table.get?_set]
  split
  · rename_i he
    rw [he, hfree]
    exact ⟨fun h => absurd (Option.some.inj h).symm hs, by simp⟩
  · rfl

theorem character?_of_set {r : EntityRef} (hi : w'.index = w.index.set u r)
    (hc : w'.characters = w.characters) (hfree : w.index.get? u = none)
    (hr : ∀ h, .character h ≠ r) (x : Uid) : w'.character? x = w.character? x := by
  ext c
  simp only [character?_eq_some, get?_of_set hi hfree (hr _), hc]

theorem object?_of_set {r : EntityRef} (hi : w'.index = w.index.set u r)
    (ho : w'.objects = w.objects) (hfree : w.index.get? u = none)
    (hr : ∀ h, .object h ≠ r) (x : Uid) : w'.object? x = w.object? x := by
  ext o
  simp only [object?_eq_some, get?_of_set hi hfree (hr _), ho]

theorem room?_of_set {r : EntityRef} (hi : w'.index = w.index.set u r)
    (ha : w'.rooms = w.rooms) (hfree : w.index.get? u = none)
    (hr : ∀ h, .room h ≠ r) (x : Uid) : w'.room? x = w.room? x := by
  ext a
  simp only [room?_eq_some, get?_of_set hi hfree (hr _), ha]

theorem character?_of_free (hfree : w.index.get? u = none) : w.character? u = none := by
  rw [character?, resolve, hfree]
  rfl

theorem object?_of_free (hfree : w.index.get? u = none) : w.object? u = none := by
  rw [object?, resolve, hfree]
  rfl

theorem room?_of_free (hfree : w.index.get? u = none) : w.room? u = none := by
  rw [room?, resolve, hfree]
  rfl

/-! ### A character -/

section

variable (vnum : Option Vnum) (name : String)

theorem Sound.character?_enroll (hw : w.Sound) (x : Uid) :
    (w.enroll (w.newCharacter vnum name)).character? x =
      if x = ⟨w.nextUid⟩ then some (w.newCharacter vnum name) else w.character? x := by
  unfold character?
  rw [resolve_set (u := ⟨w.nextUid⟩) rfl]
  by_cases hx : x = ⟨w.nextUid⟩
  · rw [if_pos hx, if_pos hx]
    exact hw.characters.get?_insert_self
  · rw [if_neg hx, if_neg hx]
    split
    · rename_i h hr
      obtain ⟨d, hd, -⟩ := hw.character (get?_of_resolve hr (by simp))
      rw [hd]
      exact hw.characters.get?_insert_of hd
    · rfl

variable (hfree : w.index.get? ⟨w.nextUid⟩ = none)
include hfree

theorem object?_enroll (x : Uid) :
    (w.enroll (w.newCharacter vnum name)).object? x = w.object? x := by
  have hi : (w.enroll (w.newCharacter vnum name)).index = w.index.set ⟨w.nextUid⟩ _ := rfl
  exact object?_of_set hi rfl hfree (fun _ he => nomatch he) x

theorem room?_enroll (x : Uid) : (w.enroll (w.newCharacter vnum name)).room? x = w.room? x := by
  have hi : (w.enroll (w.newCharacter vnum name)).index = w.index.set ⟨w.nextUid⟩ _ := rfl
  exact room?_of_set hi rfl hfree (fun _ he => nomatch he) x

end

/-! ### An object -/

section

variable (vnum : Vnum) (name : String)

theorem Sound.object?_produce (hw : w.Sound) (x : Uid) :
    (w.produce (w.newObject vnum name)).object? x =
      if x = ⟨w.nextUid⟩ then some (w.newObject vnum name) else w.object? x := by
  unfold object?
  rw [resolve_set (u := ⟨w.nextUid⟩) rfl]
  by_cases hx : x = ⟨w.nextUid⟩
  · rw [if_pos hx, if_pos hx]
    exact hw.objects.get?_insert_self
  · rw [if_neg hx, if_neg hx]
    split
    · rename_i h hr
      obtain ⟨p, hp, -⟩ := hw.object (get?_of_resolve hr (by simp))
      rw [hp]
      exact hw.objects.get?_insert_of hp
    · rfl

variable (hfree : w.index.get? ⟨w.nextUid⟩ = none)
include hfree

theorem character?_produce (x : Uid) :
    (w.produce (w.newObject vnum name)).character? x = w.character? x := by
  have hi : (w.produce (w.newObject vnum name)).index = w.index.set ⟨w.nextUid⟩ _ := rfl
  exact character?_of_set hi rfl hfree (fun _ he => nomatch he) x

theorem room?_produce (x : Uid) : (w.produce (w.newObject vnum name)).room? x = w.room? x := by
  have hi : (w.produce (w.newObject vnum name)).index = w.index.set ⟨w.nextUid⟩ _ := rfl
  exact room?_of_set hi rfl hfree (fun _ he => nomatch he) x

end

/-! ### A room -/

section

variable (vnum : Vnum) (name : String)

theorem Sound.room?_addRoom (hw : w.Sound) (x : Uid) : (w.addRoom vnum name).2.room? x =
    if x = Uid.room w.nextRoom then some (w.newRoom vnum name) else w.room? x := by
  unfold room?
  rw [resolve_set (u := Uid.room w.nextRoom) rfl]
  by_cases hx : x = Uid.room w.nextRoom
  · rw [if_pos hx, if_pos hx]
    exact hw.rooms.get?_insert_self
  · rw [if_neg hx, if_neg hx]
    split
    · rename_i h hr
      obtain ⟨a, ha, -⟩ := hw.room (get?_of_resolve hr (by simp))
      rw [ha]
      exact hw.rooms.get?_insert_of ha
    · rfl

variable (hfree : w.index.get? (Uid.room w.nextRoom) = none)
include hfree

theorem character?_addRoom (x : Uid) : (w.addRoom vnum name).2.character? x = w.character? x := by
  have hi : (w.addRoom vnum name).2.index = w.index.set (Uid.room w.nextRoom) _ := rfl
  exact character?_of_set hi rfl hfree (fun _ he => nomatch he) x

theorem object?_addRoom (x : Uid) : (w.addRoom vnum name).2.object? x = w.object? x := by
  have hi : (w.addRoom vnum name).2.index = w.index.set (Uid.room w.nextRoom) _ := rfl
  exact object?_of_set hi rfl hfree (fun _ he => nomatch he) x

end

/-! ## Taking out -/

theorem Sound.spared (hw : w.Sound) {r : EntityRef} (hx : x ∉ out) (hi : w.index.get? x = some r)
    (hr : r ≠ .nothing) : w.Spared r out := by
  intro y hy he
  rw [hw.ref_inj hi he hr] at hx
  exact hx hy

namespace Takes

variable (ht : Takes w us out w') (hw : w.Sound)
include ht hw

/-- Rooms stay, and lose only what is taken. -/
theorem room? {r : Room} (hr : w.room? x = some r) :
    ∃ r', w'.room? x = some r' ∧ r.Culled out r' := by
  obtain ⟨h, hi, hg⟩ := room?_eq_some.1 hr
  obtain ⟨r', hg', hcull⟩ := ht.room_kept hg
  refine ⟨r', room?_eq_some.2 ⟨h, ?_, hg'⟩, hcull⟩
  rw [ht.index_of_not_mem, hi]
  intro hx
  rcases hw.isMovable_iff.1 (ht.isMovable_of_mem hx) with ⟨h', hi'⟩ | ⟨h', hi'⟩ <;>
    · rw [hi] at hi'
      cases hi'

theorem character? {c : Character} (hc : w.character? x = some c) (hx : x ∉ out) :
    ∃ c' h, w'.character? x = some c' ∧ w.index.get? x = some (.character h) ∧
      c.Culled out (fun p => ∃ y ∈ out, w.Frees (w.resolve y) h p) c' := by
  obtain ⟨h, hi, hg⟩ := character?_eq_some.1 hc
  obtain ⟨c', hg', hcull⟩ := ht.character_kept hg (hw.spared hx hi (by simp))
  exact ⟨c', h, character?_eq_some.2 ⟨h, (ht.index_of_not_mem hx).trans hi, hg'⟩, hi, hcull⟩

theorem object? {o : Object} (ho : w.object? x = some o) (hx : x ∉ out) :
    ∃ o', w'.object? x = some o' ∧ o'.location = o.location ∧
      Culled out o.contents o'.contents := by
  obtain ⟨h, hi, hg⟩ := object?_eq_some.1 ho
  obtain ⟨o', hg', hcull⟩ := ht.object_kept hg (hw.spared hx hi (by simp))
  obtain ⟨o0, hg0, hf⟩ := ht.wanes.object hg'
  rw [hg, Option.some.injEq] at hg0
  subst hg0
  exact ⟨o', object?_eq_some.2 ⟨h, (ht.index_of_not_mem hx).trans hi, hg'⟩, hf.location, hcull⟩

end Takes

end World

end MudTrigger
