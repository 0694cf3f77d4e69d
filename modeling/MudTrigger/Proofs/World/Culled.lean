import MudTrigger.Proofs.World.Takes

/-!
# What is left behind

The records of those who are not taken stay, and all that they lose is taken: the lists of rooms, of
characters and of objects keep everybody else, in the same order (`Culled`). A wear position is
emptied when an object goes that says it is worn there, whatever object it held (`World.Frees`).
-/

set_option autoImplicit false

namespace MudTrigger

/-- The second list is what is left of the first when some are taken. -/
structure Culled (out us us' : List Uid) : Prop where
  sublist : us'.Sublist us
  kept : ∀ x ∈ us, x ∈ us' ∨ x ∈ out

namespace Culled

variable {out out' us us1 us' : List Uid}

theorem refl : Culled out us us := ⟨.refl us, fun _ => .inl⟩

theorem mono (h : Culled out us us') (ho : out ⊆ out') : Culled out' us us' :=
  ⟨h.sublist, fun x hx => (h.kept x hx).imp_right (@ho x)⟩

theorem trans (h : Culled out us us1) (h' : Culled out us1 us') : Culled out us us' :=
  ⟨h'.sublist.trans h.sublist, fun x hx => (h.kept x hx).elim (h'.kept x) .inr⟩

theorem filter (u : Uid) : Culled [u] us (us.filter (· ≠ u)) := by
  refine ⟨List.filter_sublist, fun x hx => ?_⟩
  by_cases hu : x = u
  · exact .inr (List.mem_singleton.2 hu)
  · exact .inl (List.mem_filter.2 ⟨hx, decide_eq_true hu⟩)

end Culled

/-- The same character in the same place, with what is left of its things. -/
structure Character.Culled (out : List Uid) (freed : Nat → Prop) (c c' : Character) : Prop where
  inRoom : c'.inRoom = c.inRoom
  inventory : MudTrigger.Culled out c.inventory c'.inventory
  worn : ∀ p x, c.equipment.get? p = some x → c'.equipment.get? p = some x ∨ freed p

/-- The same room, with what is left of its people and things. -/
structure Room.Culled (out : List Uid) (r r' : Room) : Prop where
  people : MudTrigger.Culled out r.people r'.people
  contents : MudTrigger.Culled out r.contents r'.contents

section

variable {out out' : List Uid} {freed freed' : Nat → Prop}

theorem Character.Culled.refl {c : Character} : c.Culled out freed c :=
  ⟨rfl, .refl, fun _ _ => .inl⟩

theorem Character.Culled.mono {c c' : Character} (h : c.Culled out freed c') (ho : out ⊆ out')
    (hf : ∀ p, freed p → freed' p) : c.Culled out' freed' c' :=
  ⟨h.inRoom, h.inventory.mono ho, fun p x hx => (h.worn p x hx).imp_right (hf p)⟩

theorem Character.Culled.trans {c c1 c' : Character} (h : c.Culled out freed c1)
    (h' : c1.Culled out freed c') : c.Culled out freed c' :=
  ⟨h'.inRoom.trans h.inRoom, h.inventory.trans h'.inventory,
    fun p x hx => (h.worn p x hx).elim (h'.worn p x) .inr⟩

theorem Room.Culled.refl {r : Room} : r.Culled out r := ⟨.refl, .refl⟩

theorem Room.Culled.mono {r r' : Room} (h : r.Culled out r') (ho : out ⊆ out') :
    r.Culled out' r' := ⟨h.people.mono ho, h.contents.mono ho⟩

theorem Room.Culled.trans {r r1 r' : Room} (h : r.Culled out r1) (h' : r1.Culled out r') :
    r.Culled out r' := ⟨h.people.trans h'.people, h.contents.trans h'.contents⟩

end

namespace World

variable {w w' w1 : World} {u x y : Uid} {us out : List Uid} {h : Handle} {r : EntityRef}

/-! ## Editing records -/

@[simp] theorem objects_modifyCharacter (u : Uid) (f : Character → Character) :
    (w.modifyCharacter u f).objects = w.objects := by
  unfold modifyCharacter
  split <;> rfl

@[simp] theorem objects_modifyRoom (u : Uid) (f : Room → Room) :
    (w.modifyRoom u f).objects = w.objects := by
  unfold modifyRoom
  split <;> rfl

@[simp] theorem characters_modifyObject (u : Uid) (f : Object → Object) :
    (w.modifyObject u f).characters = w.characters := by
  unfold modifyObject
  split <;> rfl

@[simp] theorem characters_modifyRoom (u : Uid) (f : Room → Room) :
    (w.modifyRoom u f).characters = w.characters := by
  unfold modifyRoom
  split <;> rfl

@[simp] theorem rooms_modifyCharacter (u : Uid) (f : Character → Character) :
    (w.modifyCharacter u f).rooms = w.rooms := by
  unfold modifyCharacter
  split <;> rfl

@[simp] theorem rooms_modifyObject (u : Uid) (f : Object → Object) :
    (w.modifyObject u f).rooms = w.rooms := by
  unfold modifyObject
  split <;> rfl

/-- An edit of characters leaves none out. -/
theorem get?_characters_modifyCharacter {c : Character} (u : Uid) (f : Character → Character)
    (hc : w.characters.get? h = some c) :
    (w.modifyCharacter u f).characters.get? h = some c ∨
      w.index.get? u = some (.character h) ∧
        (w.modifyCharacter u f).characters.get? h = some (f c) := by
  unfold modifyCharacter
  split
  · rename_i h' hr
    show (w.characters.modify h' f).get? h = _ ∨ _ ∧ (w.characters.modify h' f).get? h = _
    rw [Arena.get?_modify]
    split
    · rename_i he
      subst he
      exact .inr ⟨get?_of_resolve hr (by simp), by rw [hc, Option.map_some]⟩
    · exact .inl hc
  · exact .inl hc

theorem get?_objects_modifyObject {o : Object} (u : Uid) (f : Object → Object)
    (ho : w.objects.get? h = some o) :
    (w.modifyObject u f).objects.get? h = some o ∨
      (w.modifyObject u f).objects.get? h = some (f o) := by
  unfold modifyObject
  split
  · rename_i h' _
    show (w.objects.modify h' f).get? h = _ ∨ (w.objects.modify h' f).get? h = _
    rw [Arena.get?_modify]
    split
    · rename_i he
      rw [← he, ho]
      exact .inr rfl
    · exact .inl ho
  · exact .inl ho

theorem get?_rooms_modifyRoom {a : Room} (u : Uid) (f : Room → Room)
    (ha : w.rooms.get? h = some a) :
    (w.modifyRoom u f).rooms.get? h = some a ∨ (w.modifyRoom u f).rooms.get? h = some (f a) := by
  unfold modifyRoom
  split
  · rename_i h' _
    show (w.rooms.modify h' f).get? h = _ ∨ (w.rooms.modify h' f).get? h = _
    rw [Arena.get?_modify]
    split
    · rename_i he
      rw [← he, ha]
      exact .inr rfl
    · exact .inl ha
  · exact .inl ha

/-! ## Taking one off its place -/

/-- The position is that of a character's at which the object is worn. -/
def Empties (w : World) (h : Handle) (location : Location) (p : Nat) : Prop :=
  ∃ holder, location = .worn holder p ∧ w.index.get? holder = some (.character h)

theorem characters_unlink {c : Character} (u : Uid) (location : Location)
    (hc : w.characters.get? h = some c) :
    ∃ c', (w.unlink u location).characters.get? h = some c' ∧
      c.Culled [u] (w.Empties h location) c' := by
  cases location with
  | nowhere => exact ⟨c, hc, .refl⟩
  | room room => exact ⟨c, by rw [unlink, characters_modifyRoom]; exact hc, .refl⟩
  | carried holder =>
    rcases get?_characters_modifyCharacter holder _ hc with he | ⟨-, he⟩
    · exact ⟨_, he, .refl⟩
    · exact ⟨_, he, rfl, .filter u, fun _ _ => .inl⟩
  | worn holder p =>
    rcases get?_characters_modifyCharacter holder _ hc with he | ⟨hi, he⟩
    · exact ⟨_, he, .refl⟩
    · refine ⟨_, he, rfl, .refl, fun q x hx => ?_⟩
      by_cases hq : q = p
      · exact .inr ⟨holder, by rw [hq], hi⟩
      · exact .inl ((Table.get?_erase_ne _ hq).trans hx)
  | inside container => exact ⟨c, by rw [unlink, characters_modifyObject]; exact hc, .refl⟩

theorem objects_unlink {o : Object} (u : Uid) (location : Location)
    (ho : w.objects.get? h = some o) :
    ∃ o', (w.unlink u location).objects.get? h = some o' ∧ Culled [u] o.contents o'.contents := by
  cases location with
  | nowhere => exact ⟨o, ho, .refl⟩
  | room room => exact ⟨o, by rw [unlink, objects_modifyRoom]; exact ho, .refl⟩
  | carried holder | worn holder p =>
    exact ⟨o, by rw [unlink, objects_modifyCharacter]; exact ho, .refl⟩
  | inside container =>
    rcases get?_objects_modifyObject container _ ho with he | he
    · exact ⟨_, he, .refl⟩
    · exact ⟨_, he, .filter u⟩

theorem rooms_unlink {a : Room} (u : Uid) (location : Location) (ha : w.rooms.get? h = some a) :
    ∃ a', (w.unlink u location).rooms.get? h = some a' ∧ a.Culled [u] a' := by
  cases location with
  | nowhere => exact ⟨a, ha, .refl⟩
  | room room =>
    rcases get?_rooms_modifyRoom room _ ha with he | he
    · exact ⟨_, he, .refl⟩
    · exact ⟨_, he, .refl, .filter u⟩
  | carried holder | worn holder p =>
    exact ⟨a, by rw [unlink, rooms_modifyCharacter]; exact ha, .refl⟩
  | inside container => exact ⟨a, by rw [unlink, rooms_modifyObject]; exact ha, .refl⟩

theorem characters_vacate (u : Uid) (room : Option Uid) :
    (w.vacate u room).characters = w.characters := by
  cases room <;> simp [vacate]

theorem objects_vacate (u : Uid) (room : Option Uid) : (w.vacate u room).objects = w.objects := by
  cases room <;> simp [vacate]

theorem rooms_vacate {a : Room} (u : Uid) (room : Option Uid) (ha : w.rooms.get? h = some a) :
    ∃ a', (w.vacate u room).rooms.get? h = some a' ∧ a.Culled [u] a' := by
  cases room with
  | none => exact ⟨a, ha, .refl⟩
  | some room =>
    rcases get?_rooms_modifyRoom room _ ha with he | he
    · exact ⟨_, he, .refl⟩
    · exact ⟨_, he, .filter u, .refl⟩

/-! ## Dropping -/

/-- When this record goes, a wear position of a character is emptied. -/
def Frees (w : World) (r : EntityRef) (h : Handle) (p : Nat) : Prop :=
  ∃ h' o, r = .object h' ∧ w.objects.get? h' = some o ∧ w.Empties h o.location p

theorem Wanes.frees (hw : w.Wanes w') {p : Nat} (hf : w'.Frees r h p) : w.Frees r h p := by
  obtain ⟨h', o', rfl, ho', holder, hl, hi⟩ := hf
  obtain ⟨o, ho, hfade⟩ := hw.object ho'
  exact ⟨h', o, rfl, ho, holder, hfade.location ▸ hl, hw.index hi⟩

theorem Wanes.frees_resolve (hw : w.Wanes w') {p : Nat} (hf : w'.Frees (w'.resolve x) h p) :
    w.Frees (w.resolve x) h p := by
  have ⟨h', _, hr, _⟩ := hf
  rw [resolve_of_get? (hw.index (get?_of_resolve hr (by simp)))]
  exact hw.frees (hr ▸ hf)

theorem characters_drop {c : Character} (u : Uid) (hc : w.characters.get? h = some c)
    (hr : r ≠ .character h) :
    ∃ c', (w.drop r u).characters.get? h = some c' ∧ c.Culled [u] (w.Frees r h) c' := by
  rcases w.drop_cases r u with he | ⟨h', d, rfl, -, he⟩ | ⟨h', o, rfl, ho, he⟩
  · rw [he]
    exact ⟨c, hc, .refl⟩
  · have hne : h ≠ h' := fun he => hr (he ▸ rfl)
    refine ⟨c, ?_, .refl⟩
    simp only [he, Arena.get?_remove, if_neg hne, characters_vacate]
    exact hc
  · rw [he]
    obtain ⟨c', hc', hcull⟩ := characters_unlink u o.location hc
    exact ⟨c', hc', hcull.mono (fun _ => id) fun p hp => ⟨h', o, rfl, ho, hp⟩⟩

theorem objects_drop {o : Object} (u : Uid) (ho : w.objects.get? h = some o)
    (hr : r ≠ .object h) :
    ∃ o', (w.drop r u).objects.get? h = some o' ∧ Culled [u] o.contents o'.contents := by
  rcases w.drop_cases r u with he | ⟨h', d, rfl, -, he⟩ | ⟨h', p, rfl, -, he⟩
  · rw [he]
    exact ⟨o, ho, .refl⟩
  · refine ⟨o, ?_, .refl⟩
    simp only [he, objects_vacate]
    exact ho
  · have hne : h ≠ h' := fun he => hr (he ▸ rfl)
    obtain ⟨o', ho', hcull⟩ := objects_unlink u p.location ho
    refine ⟨o', ?_, hcull⟩
    simp only [he, Arena.get?_remove, if_neg hne]
    exact ho'

theorem rooms_drop {a : Room} (r : EntityRef) (u : Uid) (ha : w.rooms.get? h = some a) :
    ∃ a', (w.drop r u).rooms.get? h = some a' ∧ a.Culled [u] a' := by
  rcases w.drop_cases r u with he | ⟨h', d, -, -, he⟩ | ⟨h', o, -, -, he⟩
  · rw [he]
    exact ⟨a, ha, .refl⟩
  · rw [he]
    exact rooms_vacate u d.inRoom ha
  · rw [he]
    exact rooms_unlink u o.location ha

/-! ## Taking -/

/-- None of those in the list has this record. -/
def Spared (w : World) (r : EntityRef) (out : List Uid) : Prop :=
  ∀ x ∈ out, w.index.get? x ≠ some r

namespace Takes

theorem spared (hu : w.isMovable u = true) (ht : Takes (w.forget u) (w.belongings u) us w1)
    (hs : w.Spared r (us ++ u :: out)) :
    (w.forget u).Spared r us ∧ w.resolve u ≠ r ∧ (w1.drop (w.resolve u) u).Spared r out := by
  have hfirst : w.Wanes (w1.drop (w.resolve u) u) :=
    (Wanes.forget u).trans (ht.wanes.trans (.drop _ _))
  refine ⟨fun x hx he => hs x (List.mem_append_left _ hx) ((Wanes.forget u).index he), ?_,
    fun x hx he => hs x (List.mem_append_right _ (List.mem_cons_of_mem _ hx)) (hfirst.index he)⟩
  obtain ⟨r', hr⟩ := get?_of_isMovable hu
  rw [resolve_of_get? hr]
  rintro rfl
  exact hs u (List.mem_append_right _ List.mem_cons_self) hr

/-- The lists of what goes before an entity, of itself, and of what goes after it are parts of that of
all that goes. -/
theorem parts (inner outer : List Uid) (u : Uid) : inner ⊆ inner ++ u :: outer ∧
    [u] ⊆ inner ++ u :: outer ∧ outer ⊆ inner ++ u :: outer :=
  ⟨List.subset_append_left _ _,
    fun _ hx => List.mem_append_right _ (List.mem_singleton.1 hx ▸ List.mem_cons_self),
    fun _ hx => List.mem_append_right _ (List.mem_cons_of_mem _ hx)⟩

/-- A character who is not taken stays where it is, and loses only what is taken. -/
theorem character_kept (ht : Takes w us out w') {c : Character}
    (hc : w.characters.get? h = some c) (hs : w.Spared (.character h) out) :
    ∃ c', w'.characters.get? h = some c' ∧
      c.Culled out (fun p => ∃ x ∈ out, w.Frees (w.resolve x) h p) c' := by
  induction ht generalizing c with
  | done => exact ⟨c, hc, .refl⟩
  | skip _ _ ih => exact ih hc hs
  | @take w w1 w' u us inner outer hu ht ht' ih ih' =>
    obtain ⟨hs1, hne, hs2⟩ := spared hu ht hs
    obtain ⟨hinner, hself, houter⟩ := parts inner outer u
    have hfirst : w.Wanes w1 := (Wanes.forget u).trans ht.wanes
    obtain ⟨c1, hc1, h1⟩ := ih hc hs1
    obtain ⟨c2, hc2, h2⟩ := characters_drop u hc1 hne
    obtain ⟨c3, hc3, h3⟩ := ih' hc2 hs2
    refine ⟨c3, hc3, ((h1.mono hinner ?_).trans (h2.mono hself ?_)).trans (h3.mono houter ?_)⟩
    · rintro p ⟨x, hx, hf⟩
      exact ⟨x, hinner hx, (Wanes.forget u).frees_resolve hf⟩
    · exact fun p hf => ⟨u, hself List.mem_cons_self, hfirst.frees hf⟩
    · rintro p ⟨x, hx, hf⟩
      exact ⟨x, houter hx, (hfirst.trans (.drop _ _)).frees_resolve hf⟩

/-- An object that is not taken loses only what is taken. -/
theorem object_kept (ht : Takes w us out w') {o : Object} (ho : w.objects.get? h = some o)
    (hs : w.Spared (.object h) out) :
    ∃ o', w'.objects.get? h = some o' ∧ Culled out o.contents o'.contents := by
  induction ht generalizing o with
  | done => exact ⟨o, ho, .refl⟩
  | skip _ _ ih => exact ih ho hs
  | @take w w1 w' u us inner outer hu ht _ ih ih' =>
    obtain ⟨hs1, hne, hs2⟩ := spared hu ht hs
    obtain ⟨hinner, hself, houter⟩ := parts inner outer u
    obtain ⟨o1, ho1, h1⟩ := ih ho hs1
    obtain ⟨o2, ho2, h2⟩ := objects_drop u ho1 hne
    obtain ⟨o3, ho3, h3⟩ := ih' ho2 hs2
    exact ⟨o3, ho3, ((h1.mono hinner).trans (h2.mono hself)).trans (h3.mono houter)⟩

/-- A room loses only what is taken. -/
theorem room_kept (ht : Takes w us out w') {a : Room} (ha : w.rooms.get? h = some a) :
    ∃ a', w'.rooms.get? h = some a' ∧ a.Culled out a' := by
  induction ht generalizing a with
  | done => exact ⟨a, ha, .refl⟩
  | skip _ _ ih => exact ih ha
  | @take w w1 w' u us inner outer hu ht _ ih ih' =>
    obtain ⟨hinner, hself, houter⟩ := parts inner outer u
    obtain ⟨a1, ha1, h1⟩ := ih ha
    obtain ⟨a2, ha2, h2⟩ := rooms_drop (w.resolve u) u ha1
    obtain ⟨a3, ha3, h3⟩ := ih' ha2
    exact ⟨a3, ha3, ((h1.mono hinner).trans (h2.mono hself)).trans (h3.mono houter)⟩

end Takes

end World

end MudTrigger
