import MudTrigger.Proofs.World.Takes

/-!
# Every record is found under its identity

In a sound world the index leads to records of the right identity. Conversely it leads to every record
(`World.Indexed`) as long as no identity is given out twice: a record is lost when a new one takes its
entry. Moving leaves the index as it is, and the records their identities (`World.Moves`); a new record
needs an identity without an entry (`Arena.Indexed.insert`); and when entities are taken out, their
records go with their entries (`Takes.lost`).
-/

set_option autoImplicit false

namespace MudTrigger

namespace Arena

variable {α : Type} {uid : α → Uid} {ref : Handle → EntityRef} {index : Table Uid EntityRef}
  {a b c : Arena α}

/-- Every value of the second arena has the handle and the identity of one of the first. -/
def Inherits (uid : α → Uid) (a b : Arena α) : Prop :=
  ∀ h y, b.get? h = some y → ∃ x, a.get? h = some x ∧ uid x = uid y

theorem Inherits.refl : a.Inherits uid a := fun _ y hy => ⟨y, hy, rfl⟩

theorem Inherits.trans (hab : Inherits uid a b) (hbc : Inherits uid b c) : Inherits uid a c := by
  intro h z hz
  obtain ⟨y, hy, hyz⟩ := hbc h z hz
  obtain ⟨x, hx, hxy⟩ := hab h y hy
  exact ⟨x, hx, hxy.trans hyz⟩

theorem Inherits.get?_none (hab : Inherits uid a b) {h : Handle} (ha : a.get? h = none) :
    b.get? h = none := by
  refine Option.eq_none_iff_forall_not_mem.2 fun y hy => ?_
  obtain ⟨x, hx, -⟩ := hab h y hy
  rw [ha] at hx
  cases hx

theorem Inherits.modify (h : Handle) {f : α → α} (hf : ∀ x, uid (f x) = uid x) :
    a.Inherits uid (a.modify h f) := by
  intro h' y hy
  rw [get?_modify] at hy
  split at hy
  · rename_i he
    obtain ⟨x, hx, rfl⟩ := Option.map_eq_some_iff.1 hy
    exact ⟨x, he ▸ hx, (hf x).symm⟩
  · exact ⟨y, hy, rfl⟩

/-- The index leads to every value, under its identity. -/
def Indexed (uid : α → Uid) (ref : Handle → EntityRef) (index : Table Uid EntityRef)
    (a : Arena α) : Prop :=
  ∀ h x, a.get? h = some x → index.get? (uid x) = some (ref h)

theorem Indexed.inherits (ha : a.Indexed uid ref index) (h : a.Inherits uid b) :
    b.Indexed uid ref index := by
  intro i y hy
  obtain ⟨x, hx, he⟩ := h i y hy
  rw [← he]
  exact ha i x hx

/-- An entry under a new identity hides no value. -/
theorem Indexed.set (ha : a.Indexed uid ref index) {u : Uid} (hu : index.get? u = none)
    (r : EntityRef) : a.Indexed uid ref (index.set u r) := by
  intro h x hx
  have hi := ha h x hx
  rw [Table.get?_set_ne, hi]
  intro he
  rw [he, hu] at hi
  cases hi

theorem Indexed.insert (ha : a.Indexed uid ref index) (hs : a.Sound) {x : α}
    (hx : index.get? (uid x) = none) :
    (a.insert x).2.Indexed uid ref (index.set (uid x) (ref (a.insert x).1)) := by
  intro h y hy
  rw [hs.get?_insert] at hy
  split at hy
  · rename_i he
    cases hy
    rw [he, Table.get?_set_self]
  · exact ha.set hx _ h y hy

/-- Values can go if their entries go, and no other entries. -/
theorem Indexed.without (ha : a.Indexed uid ref index) (h : a.Inherits uid b)
    {index' : Table Uid EntityRef} {out : List Uid}
    (hindex : ∀ x, index'.get? x = if x ∈ out then none else index.get? x)
    (hout : ∀ x ∈ out, ∀ i, index.get? x = some (ref i) → b.get? i = none) :
    b.Indexed uid ref index' := by
  intro i y hy
  obtain ⟨x, hx, he⟩ := h i y hy
  have hentry := ha i x hx
  rw [← he, hindex, if_neg, hentry]
  intro hmem
  rw [hout _ hmem i hentry] at hy
  cases hy

end Arena

namespace World

variable {w w' w1 : World} {u x : Uid} {us out : List Uid} {r : EntityRef}

/-- The index leads to every record, under its identity. -/
structure Indexed (w : World) : Prop where
  characters : w.characters.Indexed Character.uid .character w.index
  objects : w.objects.Indexed Object.uid .object w.index
  rooms : w.rooms.Indexed Room.uid .room w.index

theorem indexed_empty : ({} : World).Indexed where
  characters _ _ hx := by cases hx
  objects _ _ hx := by cases hx
  rooms _ _ hx := by cases hx

/-! ## Moving -/

/-- Nothing comes into the world or leaves it, and what is there keeps its identity. -/
structure Moves (w w' : World) : Prop where
  index : w'.index = w.index
  nextUid : w'.nextUid = w.nextUid
  nextRoom : w'.nextRoom = w.nextRoom
  characters : w.characters.Inherits Character.uid w'.characters
  objects : w.objects.Inherits Object.uid w'.objects
  rooms : w.rooms.Inherits Room.uid w'.rooms

theorem Indexed.moves (hw : w.Indexed) (h : w.Moves w') : w'.Indexed where
  characters := h.index ▸ hw.characters.inherits h.characters
  objects := h.index ▸ hw.objects.inherits h.objects
  rooms := h.index ▸ hw.rooms.inherits h.rooms

namespace Moves

theorem refl : w.Moves w := ⟨rfl, rfl, rfl, .refl, .refl, .refl⟩

theorem trans (h : w.Moves w1) (h' : w1.Moves w') : w.Moves w' where
  index := h'.index.trans h.index
  nextUid := h'.nextUid.trans h.nextUid
  nextRoom := h'.nextRoom.trans h.nextRoom
  characters := h.characters.trans h'.characters
  objects := h.objects.trans h'.objects
  rooms := h.rooms.trans h'.rooms

theorem modifyCharacter (u : Uid) {f : Character → Character} (hf : ∀ c, (f c).uid = c.uid) :
    w.Moves (w.modifyCharacter u f) := by
  unfold World.modifyCharacter
  split
  · exact ⟨rfl, rfl, rfl, .modify _ hf, .refl, .refl⟩
  · exact refl

theorem modifyObject (u : Uid) {f : Object → Object} (hf : ∀ o, (f o).uid = o.uid) :
    w.Moves (w.modifyObject u f) := by
  unfold World.modifyObject
  split
  · exact ⟨rfl, rfl, rfl, .refl, .modify _ hf, .refl⟩
  · exact refl

theorem modifyRoom (u : Uid) {f : Room → Room} (hf : ∀ r, (f r).uid = r.uid) :
    w.Moves (w.modifyRoom u f) := by
  unfold World.modifyRoom
  split
  · exact ⟨rfl, rfl, rfl, .refl, .refl, .modify _ hf⟩
  · exact refl

theorem vacate (u : Uid) (room : Option Uid) : w.Moves (w.vacate u room) := by
  cases room with
  | none => exact refl
  | some room => exact modifyRoom _ fun _ => rfl

theorem placeCharacter (u room : Uid) : w.Moves (w.placeCharacter u room) := by
  unfold World.placeCharacter
  split
  · exact refl
  · simp only
    split
    · refine (modifyRoom _ ?_).trans ((modifyRoom _ ?_).trans (modifyCharacter _ ?_))
      all_goals exact fun _ => rfl
    · refine (modifyRoom _ ?_).trans (modifyCharacter _ ?_)
      all_goals exact fun _ => rfl

theorem unlink (u : Uid) (location : Location) : w.Moves (w.unlink u location) := by
  cases location with
  | nowhere => exact refl
  | room => exact modifyRoom _ fun _ => rfl
  | carried | worn => exact modifyCharacter _ fun _ => rfl
  | inside => exact modifyObject _ fun _ => rfl

theorem link (u : Uid) (location : Location) : w.Moves (w.link u location) := by
  cases location with
  | nowhere => exact refl
  | room => exact modifyRoom _ fun _ => rfl
  | carried | worn => exact modifyCharacter _ fun _ => rfl
  | inside => exact modifyObject _ fun _ => rfl

theorem placeObject (u : Uid) (location : Location) : w.Moves (w.placeObject u location) := by
  unfold World.placeObject
  split
  · exact refl
  · exact (unlink _ _).trans ((link _ _).trans (modifyObject _ fun _ => rfl))

end Moves

/-! ## Building -/

/-- A record comes into the world, under an identity that gets an entry; the other records keep
theirs if the identity had none. -/
structure Adds (w : World) (u : Uid) (w' : World) : Prop where
  index : ∃ r, w'.index = w.index.set u r
  indexed : w.index.get? u = none → w.Sound → w.Indexed → w'.Indexed

theorem Adds.moves (h : w.Adds u w1) (h' : w1.Moves w') : w.Adds u w' where
  index := by
    rw [h'.index]
    exact h.index
  indexed hu hs hw := (h.indexed hu hs hw).moves h'

theorem adds_addRoom (w : World) (vnum : Vnum) (name : String) :
    w.Adds (Uid.room w.nextRoom) (w.addRoom vnum name).2 where
  index := ⟨_, rfl⟩
  indexed hu hs hw := ⟨hw.characters.set hu _, hw.objects.set hu _, hw.rooms.insert hs.rooms hu⟩

theorem adds_addCharacter (w : World) (vnum : Option Vnum) (name : String) (room : Uid) :
    w.Adds ⟨w.nextUid⟩ (w.addCharacter vnum name room).2 := by
  refine Adds.moves ⟨⟨_, rfl⟩, fun hu hs hw => ?_⟩ (.placeCharacter ⟨w.nextUid⟩ room)
  exact ⟨hw.characters.insert hs.characters hu, hw.objects.set hu _, hw.rooms.set hu _⟩

theorem adds_addMobile (w : World) (vnum : Vnum) (name : String) (room : Uid) :
    w.Adds ⟨w.nextUid⟩ (w.addMobile vnum name room).2 := by
  have h := adds_addCharacter { w with mobileDescs := describe w.mobileDescs vnum name } (some vnum)
    name room
  exact ⟨h.index, fun hu hs hw => h.indexed hu (hs.of_eq rfl rfl rfl rfl rfl)
    ⟨hw.characters, hw.objects, hw.rooms⟩⟩

theorem adds_addObject (w : World) (vnum : Vnum) (name : String) (location : Location) :
    w.Adds ⟨w.nextUid⟩ (w.addObject vnum name location).2 := by
  refine Adds.moves ⟨⟨_, rfl⟩, fun hu hs hw => ?_⟩ (.placeObject ⟨w.nextUid⟩ location)
  exact ⟨hw.characters.set hu _, hw.objects.insert hs.objects hu, hw.rooms.set hu _⟩

/-! ## Taking out -/

namespace Wanes

variable (hw : w.Wanes w')
include hw

theorem characters : w.characters.Inherits Character.uid w'.characters := fun _ _ hc => by
  obtain ⟨c, hc, hf⟩ := hw.character hc
  exact ⟨c, hc, hf.uid.symm⟩

theorem objects : w.objects.Inherits Object.uid w'.objects := fun _ _ ho => by
  obtain ⟨o, ho, hf⟩ := hw.object ho
  exact ⟨o, ho, hf.uid.symm⟩

theorem rooms : w.rooms.Inherits Room.uid w'.rooms := fun _ _ hr => by
  obtain ⟨r, hr, hf⟩ := hw.room hr
  exact ⟨r, hr, hf.uid.symm⟩

end Wanes

/-- The record is there no more. -/
def Lost (w : World) : EntityRef → Prop
  | .character h => w.characters.get? h = none
  | .object h => w.objects.get? h = none
  | .room _ | .nothing => True

theorem Wanes.lost (hw : w.Wanes w') (hr : w.Lost r) : w'.Lost r := by
  cases r with
  | character h => exact hw.characters.get?_none hr
  | object h => exact hw.objects.get?_none hr
  | room | nothing => trivial

theorem lost_drop (w : World) (r : EntityRef) (u : Uid) : (w.drop r u).Lost r := by
  cases r with
  | character h =>
    cases hc : w.characters.get? h with
    | none =>
      simp only [drop, hc]
      exact hc
    | some c =>
      rw [drop_character u hc]
      exact (Arena.get?_remove _ h h).trans (if_pos rfl)
  | object h =>
    cases ho : w.objects.get? h with
    | none =>
      simp only [drop, ho]
      exact ho
    | some o =>
      rw [drop_object u ho]
      exact (Arena.get?_remove _ h h).trans (if_pos rfl)
  | room | nothing => trivial

theorem not_movable_of_room {h : Handle} (hx : w.index.get? x = some (.room h)) :
    w.isMovable x = false := by
  simp [isMovable, character?, object?, resolve_of_get? hx]

namespace Takes

/-- Who was taken has no record any more. -/
theorem lost (h : Takes w us out w') (hx : x ∈ out) (hr : w.index.get? x = some r) : w'.Lost r := by
  induction h with
  | done => exact absurd hx List.not_mem_nil
  | skip _ _ ih => exact ih hx hr
  | @take w w1 w' u us inner outer hu ht ht' ih ih' =>
    have hfirst : w.Wanes w1 := (Wanes.forget u).trans ht.wanes
    have hdrop : w1.Wanes (w1.drop (w.resolve u) u) := .drop _ _
    rcases List.mem_append.1 hx with hx | hx
    · obtain ⟨r', hr'⟩ := get?_of_isMovable (ht.isMovable_of_mem hx)
      have he := (Wanes.forget u).index hr'
      rw [hr] at he
      cases he
      exact ht'.wanes.lost (hdrop.lost (ih hx hr'))
    · rcases List.mem_cons.1 hx with rfl | hx
      · rw [resolve_of_get? hr] at ht'
        exact ht'.wanes.lost (lost_drop w1 r x)
      · obtain ⟨r', hr'⟩ := get?_of_isMovable (ht'.isMovable_of_mem hx)
        have he := (hfirst.trans hdrop).index hr'
        rw [hr] at he
        cases he
        exact ih' hx hr'

theorem nextRoom (h : Takes w us out w') : w'.nextRoom = w.nextRoom := by
  induction h with
  | done => rfl
  | skip _ _ ih => exact ih
  | @take w w1 w' u us inner outer _ _ _ ih ih' =>
    rw [ih']
    rcases w1.drop_cases (w.resolve u) u with he | ⟨h, c, -, -, he⟩ | ⟨h, o, -, -, he⟩
    · rw [he, ih]
      rfl
    · rw [he]
      exact (Moves.vacate u c.inRoom).nextRoom.trans ih
    · rw [he]
      exact (Moves.unlink u o.location).nextRoom.trans ih

theorem indexed (h : Takes w us out w') (hw : w.Indexed) : w'.Indexed where
  characters := hw.characters.without h.wanes.characters h.index fun _ hx _ hi => h.lost hx hi
  objects := hw.objects.without h.wanes.objects h.index fun _ hx _ hi => h.lost hx hi
  rooms := hw.rooms.without h.wanes.rooms h.index fun _ hx _ hi => by
    have hmove := h.isMovable_of_mem hx
    rw [not_movable_of_room hi] at hmove
    cases hmove

end Takes

end World

end MudTrigger
