import MudTrigger.Proofs.World.Edit
import MudTrigger.Proofs.World.Wane

/-!
# Sound worlds

In a sound world the index leads to records of the right identity, and what characters hold, what is
in objects and what lies in rooms are no characters (`World.Sound`). Editing a record keeps a world
sound if it keeps the identity and lists nothing but things (`Sound.modifyCharacter` and the like),
and so do building, moving, and leaving the world.
-/

set_option autoImplicit false

namespace MudTrigger

theorem Table.get?_set_cases {κ α : Type} [DecidableEq κ] [LT κ] [DecidableLT κ] {t : Table κ α}
    {k k' : κ} {a b : α} (h : (t.set k a).get? k' = some b) :
    k' = k ∧ b = a ∨ t.get? k' = some b := by
  rw [Table.get?_set] at h
  split at h
  · rename_i he
    exact .inl ⟨he, (Option.some.inj h).symm⟩
  · exact .inr h

theorem Table.mem_values_set {κ α : Type} [DecidableEq κ] [LT κ] [DecidableLT κ] {t : Table κ α}
    {k : κ} {a b : α} (h : b ∈ (t.set k a).values) : b = a ∨ b ∈ t.values := by
  obtain ⟨latest⟩ := t
  rw [Table.mem_values] at h ⊢
  change b ∈ (Table.setEntry k a latest).map (·.2) at h
  show b = a ∨ b ∈ latest.map (·.2)
  induction latest with
  | nil => exact .inl (List.mem_singleton.1 h)
  | cons e es ih =>
    unfold Table.setEntry at h
    split at h
    · exact (List.mem_cons.1 h).imp_right (List.mem_cons_of_mem _)
    · split at h
      · exact List.mem_cons.1 h
      · rcases List.mem_cons.1 h with rfl | h
        · exact .inr List.mem_cons_self
        · exact (ih h).imp_right (List.mem_cons_of_mem _)

namespace Arena.Sound

variable {α : Type} {a : Arena α} (ha : a.Sound) {x y : α} {h : Handle}
include ha

theorem get?_insert_self : (a.insert x).2.get? (a.insert x).1 = some x := by
  rw [ha.get?_insert, if_pos rfl]

/-- What was stored stays where it is. -/
theorem get?_insert_of (hy : a.get? h = some y) : (a.insert x).2.get? h = some y := by
  rw [ha.get?_insert, if_neg, hy]
  rintro rfl
  rw [ha.get?_insert_fst] at hy
  cases hy

theorem get?_insert_cases (hy : (a.insert x).2.get? h = some y) : y = x ∨ a.get? h = some y := by
  rw [ha.get?_insert] at hy
  split at hy
  · exact .inl (Option.some.inj hy).symm
  · exact .inr hy

end Arena.Sound

namespace World

/-! ## New records -/

/-- A new character, before it is put into a room. -/
def newCharacter (w : World) (vnum : Option Vnum) (name : String) : Character :=
  { uid := ⟨w.nextUid⟩, vnum, aliases := Text.toLower name, name, level := 1, hit := 20, maxHit := 20,
    moves := 50, maxMoves := 50 }

/-- A new object, before it is put anywhere. -/
def newObject (w : World) (vnum : Vnum) (name : String) : Object :=
  { uid := ⟨w.nextUid⟩, vnum, aliases := Text.toLower (Text.splitWord name).2, shortDesc := name }

def newRoom (w : World) (vnum : Vnum) (name : String) : Room :=
  { uid := Uid.room w.nextRoom, vnum, zone := (vnum.tdiv 100).toNat, name }

/-- The world with the record of a new character. -/
def enroll (w : World) (c : Character) : World :=
  { w with
    characters := (w.characters.insert c).2
    index := w.index.set c.uid (.character (w.characters.insert c).1)
    nextUid := w.nextUid + 1 }

/-- The world with the record of a new object. -/
def produce (w : World) (o : Object) : World :=
  { w with
    objects := (w.objects.insert o).2
    objectDescs := describe w.objectDescs o.vnum o.shortDesc
    index := w.index.set o.uid (.object (w.objects.insert o).1)
    nextUid := w.nextUid + 1 }

/-! ## Soundness -/

/-- No character, and never one: the identity was given out. -/
def Thing (w : World) (u : Uid) : Prop :=
  (∀ h, w.index.get? u ≠ some (.character h)) ∧ u.raw < w.nextUid

/-- The index leads to the records, and only things are listed as held, contained or lying around. -/
structure Sound (w : World) : Prop where
  characters : w.characters.Sound
  objects : w.objects.Sound
  rooms : w.rooms.Sound
  numbered : w.Numbered
  character : ∀ {u h}, w.index.get? u = some (.character h) →
    ∃ c, w.characters.get? h = some c ∧ c.uid = u
  object : ∀ {u h}, w.index.get? u = some (.object h) → ∃ o, w.objects.get? h = some o ∧ o.uid = u
  room : ∀ {u h}, w.index.get? u = some (.room h) → ∃ r, w.rooms.get? h = some r ∧ r.uid = u
  held : ∀ {h c x}, w.characters.get? h = some c → x ∈ c.held → w.Thing x
  inside : ∀ {h o x}, w.objects.get? h = some o → x ∈ o.contents → w.Thing x
  floor : ∀ {h r x}, w.rooms.get? h = some r → x ∈ r.contents → w.Thing x

variable {w w' : World} {u x y : Uid} {r : EntityRef}

theorem sound_empty : ({} : World).Sound where
  characters := Arena.sound_empty
  objects := Arena.sound_empty
  rooms := Arena.sound_empty
  numbered := numbered_empty
  character := nofun
  object := nofun
  room := nofun
  held := nofun
  inside := nofun
  floor := nofun

theorem thing_of_object? {o : Object} (hw : w.Sound) (ho : w.object? u = some o) : w.Thing u := by
  obtain ⟨h, hi, -⟩ := object?_eq_some.1 ho
  refine ⟨fun h' he => ?_, (hw.numbered _ _ hi).resolve_left ?_⟩
  · rw [hi] at he
    cases he
  · rintro ⟨h', he⟩
    cases he

/-- The room of an entity is a room of the world. -/
theorem room?_of_roomOf? {r : Room} (hr : w.roomOf? u = some r) : ∃ x, w.room? x = some r := by
  unfold roomOf? at hr
  generalize maxNesting = fuel at hr
  induction fuel generalizing u with
  | zero => cases hr
  | succ fuel ih =>
    unfold roomOfWithin at hr
    split at hr
    · rename_i h he
      exact ⟨u, by rw [room?, he]; exact hr⟩
    · obtain ⟨x, -, hx⟩ := Option.bind_eq_some_iff.1 hr
      exact ⟨x, hx⟩
    · split at hr
      · exact ih hr
      · exact ih hr
      · exact ih hr
      · exact ih hr
      · cases hr
      · cases hr
    · cases hr

/-- Things stay things, because identities are not used again. -/
theorem Thing.extends (hx : w.Thing x) (h : w.Extends w') : w'.Thing x := by
  refine ⟨fun h' he => ?_, Nat.lt_of_lt_of_le hx.2 h.nextUid⟩
  rcases h.index he with he | ⟨hlo, -⟩
  · exact hx.1 h' he
  · exact absurd hx.2 (Nat.not_lt.2 hlo)

namespace Sound

variable (hw : w.Sound)
include hw

/-- Two identities do not share a record. -/
theorem ref_inj (hx : w.index.get? x = some r) (hy : w.index.get? y = some r)
    (hr : r ≠ .nothing) : x = y := by
  cases r with
  | character h =>
    obtain ⟨c, hc, rfl⟩ := hw.character hx
    obtain ⟨c', hc', rfl⟩ := hw.character hy
    rw [hc, Option.some.injEq] at hc'
    rw [hc']
  | object h =>
    obtain ⟨o, ho, rfl⟩ := hw.object hx
    obtain ⟨o', ho', rfl⟩ := hw.object hy
    rw [ho, Option.some.injEq] at ho'
    rw [ho']
  | room h =>
    obtain ⟨a, ha, rfl⟩ := hw.room hx
    obtain ⟨b, hb, rfl⟩ := hw.room hy
    rw [ha, Option.some.injEq] at hb
    rw [hb]
  | nothing => exact absurd rfl hr

theorem thing_of_belongings (hx : x ∈ w.belongings u) : w.Thing x := by
  rcases mem_belongings.1 hx with ⟨c, hc, hx⟩ | ⟨o, ho, hx⟩
  · obtain ⟨h, -, hc⟩ := character?_eq_some.1 hc
    exact hw.held hc hx
  · obtain ⟨h, -, ho⟩ := object?_eq_some.1 ho
    exact hw.inside ho hx

/-! ## Editing records -/

theorem of_eq (hc : w'.characters = w.characters) (ho : w'.objects = w.objects)
    (hr : w'.rooms = w.rooms) (hi : w'.index = w.index) (hn : w'.nextUid = w.nextUid) :
    w'.Sound := by
  have ht : ∀ {x}, w.Thing x → w'.Thing x := fun hx => hx.extends (.of_eq hi hn)
  exact ⟨hc ▸ hw.characters, ho ▸ hw.objects, hr ▸ hw.rooms, (Extends.of_eq hi hn).numbered hw.numbered,
    fun h => hc ▸ hw.character (hi ▸ h), fun h => ho ▸ hw.object (hi ▸ h),
    fun h => hr ▸ hw.room (hi ▸ h), fun h hx => ht (hw.held (hc ▸ h) hx),
    fun h hx => ht (hw.inside (ho ▸ h) hx), fun h hx => ht (hw.floor (hr ▸ h) hx)⟩

theorem modifyCharacter (u : Uid) {f : Character → Character}
    (huid : ∀ c, w.character? u = some c → (f c).uid = c.uid)
    (hheld : ∀ c x, w.character? u = some c → x ∈ (f c).held → x ∈ c.held ∨ w.Thing x) :
    (w.modifyCharacter u f).Sound := by
  unfold World.modifyCharacter
  split
  · rename_i h hr
    have hget := Arena.get?_modify w.characters h
    have hat : w.character? u = w.characters.get? h := by rw [character?, hr]
    refine { hw with characters := hw.characters.modify h f, character := ?_, held := ?_ }
    · intro x h' hx
      obtain ⟨c, hc, rfl⟩ := hw.character hx
      show ∃ c', (w.characters.modify h f).get? h' = some c' ∧ _
      rw [hget]
      split
      · rename_i he
        exact ⟨f c, by rw [← he, hc, Option.map_some], huid c (by rw [hat, ← he, hc])⟩
      · exact ⟨c, hc, rfl⟩
    · intro h' c' x hc hx
      have hc : (w.characters.modify h f).get? h' = some c' := hc
      rw [hget] at hc
      split at hc
      · obtain ⟨c, hold, rfl⟩ := Option.map_eq_some_iff.1 hc
        rcases hheld c x (hat.trans hold) hx with hx | hx
        · exact hw.held hold hx
        · exact hx
      · exact hw.held hc hx
  · exact hw

theorem modifyObject (u : Uid) {f : Object → Object}
    (huid : ∀ o, w.object? u = some o → (f o).uid = o.uid)
    (hinside : ∀ o x, w.object? u = some o → x ∈ (f o).contents → x ∈ o.contents ∨ w.Thing x) :
    (w.modifyObject u f).Sound := by
  unfold World.modifyObject
  split
  · rename_i h hr
    have hget := Arena.get?_modify w.objects h
    have hat : w.object? u = w.objects.get? h := by rw [object?, hr]
    refine { hw with objects := hw.objects.modify h f, object := ?_, inside := ?_ }
    · intro x h' hx
      obtain ⟨o, ho, rfl⟩ := hw.object hx
      show ∃ o', (w.objects.modify h f).get? h' = some o' ∧ _
      rw [hget]
      split
      · rename_i he
        exact ⟨f o, by rw [← he, ho, Option.map_some], huid o (by rw [hat, ← he, ho])⟩
      · exact ⟨o, ho, rfl⟩
    · intro h' o' x ho hx
      have ho : (w.objects.modify h f).get? h' = some o' := ho
      rw [hget] at ho
      split at ho
      · obtain ⟨o, hold, rfl⟩ := Option.map_eq_some_iff.1 ho
        rcases hinside o x (hat.trans hold) hx with hx | hx
        · exact hw.inside hold hx
        · exact hx
      · exact hw.inside ho hx
  · exact hw

theorem modifyRoom (u : Uid) {f : Room → Room}
    (huid : ∀ r, w.room? u = some r → (f r).uid = r.uid)
    (hfloor : ∀ r x, w.room? u = some r → x ∈ (f r).contents → x ∈ r.contents ∨ w.Thing x) :
    (w.modifyRoom u f).Sound := by
  unfold World.modifyRoom
  split
  · rename_i h hr
    have hget := Arena.get?_modify w.rooms h
    have hat : w.room? u = w.rooms.get? h := by rw [room?, hr]
    refine { hw with rooms := hw.rooms.modify h f, room := ?_, floor := ?_ }
    · intro x h' hx
      obtain ⟨a, ha, rfl⟩ := hw.room hx
      show ∃ r', (w.rooms.modify h f).get? h' = some r' ∧ _
      rw [hget]
      split
      · rename_i he
        exact ⟨f a, by rw [← he, ha, Option.map_some], huid a (by rw [hat, ← he, ha])⟩
      · exact ⟨a, ha, rfl⟩
    · intro h' a' x ha hx
      have ha : (w.rooms.modify h f).get? h' = some a' := ha
      rw [hget] at ha
      split at ha
      · obtain ⟨a, hold, rfl⟩ := Option.map_eq_some_iff.1 ha
        rcases hfloor a x (hat.trans hold) hx with hx | hx
        · exact hw.floor hold hx
        · exact hx
      · exact hw.floor ha hx
  · exact hw

/-! ## Moving -/

theorem fadeCharacter (u : Uid) {f : Character → Character}
    (hf : ∀ c : Character, c.Fades (f c)) : (w.modifyCharacter u f).Sound :=
  hw.modifyCharacter u (fun c _ => (hf c).uid) fun c _ _ hx => .inl ((hf c).held hx)

theorem fadeObject (u : Uid) {f : Object → Object} (hf : ∀ o : Object, o.Fades (f o)) :
    (w.modifyObject u f).Sound :=
  hw.modifyObject u (fun o _ => (hf o).uid) fun o _ _ hx => .inl ((hf o).contents hx)

theorem fadeRoom (u : Uid) {f : Room → Room} (hf : ∀ r : Room, r.Fades (f r)) :
    (w.modifyRoom u f).Sound :=
  hw.modifyRoom u (fun r _ => (hf r).uid) fun r _ _ hx => .inl ((hf r).contents hx)

theorem placeCharacter (u room : Uid) : (w.placeCharacter u room).Sound := by
  unfold World.placeCharacter
  split
  · exact hw
  · simp only
    split
    · exact ((hw.fadeRoom _ fun _ => .people _).fadeRoom _ fun _ => .people _).fadeCharacter _
        fun _ => .move _
    · exact (hw.fadeRoom _ fun _ => .people _).fadeCharacter _ fun _ => .move _

theorem vacate (u : Uid) (room : Option Uid) : (w.vacate u room).Sound := by
  cases room with
  | none => exact hw
  | some room => exact hw.fadeRoom _ fun _ => .people _

theorem unlink (u : Uid) (location : Location) : (w.unlink u location).Sound := by
  cases location with
  | nowhere => exact hw
  | room r => exact hw.fadeRoom _ fun _ => .loses u
  | carried holder => exact hw.fadeCharacter _ fun _ => .losesCarried u
  | worn holder p => exact hw.fadeCharacter _ fun _ => .losesWorn p
  | inside container => exact hw.fadeObject _ fun _ => .loses u

theorem link (hu : w.Thing u) (location : Location) : (w.link u location).Sound := by
  cases location with
  | nowhere => exact hw
  | room r =>
    refine hw.modifyRoom _ (fun _ _ => rfl) fun a x _ hx => ?_
    rcases List.mem_append.1 hx with hx | hx
    · exact .inl hx
    · exact .inr (List.mem_singleton.1 hx ▸ hu)
  | carried holder =>
    refine hw.modifyCharacter _ (fun _ _ => rfl) fun c x _ hx => ?_
    rcases List.mem_append.1 hx with hx | hx
    · rcases List.mem_append.1 hx with hx | hx
      · exact .inl (List.mem_append_left _ hx)
      · exact .inr (List.mem_singleton.1 hx ▸ hu)
    · exact .inl (List.mem_append_right _ hx)
  | worn holder p =>
    refine hw.modifyCharacter _ (fun _ _ => rfl) fun c x _ hx => ?_
    rcases List.mem_append.1 hx with hx | hx
    · exact .inl (List.mem_append_left _ hx)
    · exact (Table.mem_values_set hx).elim (fun he => .inr (he ▸ hu))
        fun hx => .inl (List.mem_append_right _ hx)
  | inside container =>
    refine hw.modifyObject _ (fun _ _ => rfl) fun o x _ hx => ?_
    rcases List.mem_append.1 hx with hx | hx
    · exact .inl hx
    · exact .inr (List.mem_singleton.1 hx ▸ hu)

theorem placeObject (u : Uid) (location : Location) : (w.placeObject u location).Sound := by
  unfold World.placeObject
  split
  · exact hw
  · rename_i o ho
    have hu := (thing_of_object? hw ho).extends (Extends.unlink u o.location)
    exact ((hw.unlink u o.location).link hu location).modifyObject u (fun _ _ => rfl)
      fun _ _ _ hx => .inl hx

theorem join (start : Uid) (d : Direction) (finish : Uid) : (w.join start d finish).Sound := by
  unfold World.join
  split
  · refine Sound.modifyRoom (Sound.modifyRoom hw start ?_ ?_) finish ?_ ?_
    · exact fun _ _ => rfl
    · exact fun _ _ _ hx => .inl hx
    · exact fun _ _ => rfl
    · exact fun _ _ _ hx => .inl hx
  · exact hw

/-! ## Building -/

theorem addRoom (vnum : Vnum) (name : String) : (w.addRoom vnum name).2.Sound := by
  let a : Room := w.newRoom vnum name
  have hindex : ∀ {x ref}, (w.addRoom vnum name).2.index.get? x = some ref →
      x = a.uid ∧ ref = .room (w.rooms.insert a).1 ∨ w.index.get? x = some ref :=
    Table.get?_set_cases
  have hthing : ∀ {x}, w.Thing x → (w.addRoom vnum name).2.Thing x := by
    refine fun hx => ⟨fun h he => ?_, hx.2⟩
    rcases hindex he with ⟨-, he⟩ | he
    · cases he
    · exact hx.1 h he
  refine ⟨hw.characters, hw.objects, hw.rooms.insert a, hw.numbered.addRoom vnum name, fun hx => ?_,
    fun hx => ?_, fun hx => ?_, fun hc hx => hthing (hw.held hc hx),
    fun ho hx => hthing (hw.inside ho hx), fun hb hx => ?_⟩
  · exact hw.character ((hindex hx).resolve_left fun he => nomatch he.2)
  · exact hw.object ((hindex hx).resolve_left fun he => nomatch he.2)
  · rcases hindex hx with ⟨rfl, he⟩ | hx
    · cases he
      exact ⟨a, hw.rooms.get?_insert_self, rfl⟩
    · obtain ⟨b, hb, hu⟩ := hw.room hx
      exact ⟨b, hw.rooms.get?_insert_of hb, hu⟩
  · rcases hw.rooms.get?_insert_cases hb with rfl | hb
    · exact absurd hx List.not_mem_nil
    · exact hthing (hw.floor hb hx)

theorem enroll (c : Character) (hc : c.uid = ⟨w.nextUid⟩) (hempty : c.held = []) :
    (w.enroll c).Sound := by
  have hext : w.Extends (w.enroll c) := .allocate (by rw [← hc]; rfl) rfl
  have hindex : ∀ {x ref}, (w.enroll c).index.get? x = some ref →
      x = c.uid ∧ ref = .character (w.characters.insert c).1 ∨ w.index.get? x = some ref :=
    Table.get?_set_cases
  refine ⟨hw.characters.insert c, hw.objects, hw.rooms, hext.numbered hw.numbered,
    fun hx => ?_, fun hx => ?_, fun hx => ?_, fun hb hx => ?_,
    fun ho hx => (hw.inside ho hx).extends hext, fun hr hx => (hw.floor hr hx).extends hext⟩
  · rcases hindex hx with ⟨rfl, he⟩ | hx
    · cases he
      exact ⟨c, hw.characters.get?_insert_self, rfl⟩
    · obtain ⟨b, hb, hu⟩ := hw.character hx
      exact ⟨b, hw.characters.get?_insert_of hb, hu⟩
  · exact hw.object ((hindex hx).resolve_left fun he => nomatch he.2)
  · exact hw.room ((hindex hx).resolve_left fun he => nomatch he.2)
  · rcases hw.characters.get?_insert_cases hb with rfl | hb
    · exact absurd hx (hempty ▸ List.not_mem_nil)
    · exact (hw.held hb hx).extends hext

theorem addCharacter (vnum : Option Vnum) (name : String) (room : Uid) :
    (w.addCharacter vnum name room).2.Sound :=
  (hw.enroll (w.newCharacter vnum name) rfl rfl).placeCharacter ⟨w.nextUid⟩ room

theorem addMobile (vnum : Vnum) (name : String) (room : Uid) :
    (w.addMobile vnum name room).2.Sound := by
  have hv : Sound { w with mobileDescs := describe w.mobileDescs vnum name } :=
    hw.of_eq rfl rfl rfl rfl rfl
  exact hv.addCharacter _ name room

theorem produce (o : Object) (hu : o.uid = ⟨w.nextUid⟩) (hempty : o.contents = []) :
    (w.produce o).Sound := by
  have hext : w.Extends (w.produce o) := .allocate (by rw [← hu]; rfl) rfl
  have hindex : ∀ {x ref}, (w.produce o).index.get? x = some ref →
      x = o.uid ∧ ref = .object (w.objects.insert o).1 ∨ w.index.get? x = some ref :=
    Table.get?_set_cases
  refine ⟨hw.characters, hw.objects.insert o, hw.rooms, hext.numbered hw.numbered,
    fun hx => ?_, fun hx => ?_, fun hx => ?_, fun hc hx => (hw.held hc hx).extends hext,
    fun hb hx => ?_, fun hr hx => (hw.floor hr hx).extends hext⟩
  · exact hw.character ((hindex hx).resolve_left fun he => nomatch he.2)
  · rcases hindex hx with ⟨rfl, he⟩ | hx
    · cases he
      exact ⟨o, hw.objects.get?_insert_self, rfl⟩
    · obtain ⟨b, hb, hu⟩ := hw.object hx
      exact ⟨b, hw.objects.get?_insert_of hb, hu⟩
  · exact hw.room ((hindex hx).resolve_left fun he => nomatch he.2)
  · rcases hw.objects.get?_insert_cases hb with rfl | hb
    · exact absurd hx (hempty ▸ List.not_mem_nil)
    · exact (hw.inside hb hx).extends hext

theorem addObject (vnum : Vnum) (name : String) (location : Location) :
    (w.addObject vnum name location).2.Sound :=
  (hw.produce (w.newObject vnum name) rfl rfl).placeObject ⟨w.nextUid⟩ location

end Sound

end World

end MudTrigger
