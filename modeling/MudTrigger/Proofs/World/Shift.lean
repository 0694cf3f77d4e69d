import MudTrigger.Proofs.World.Lasting
import MudTrigger.Proofs.World.View

/-!
# Commands that keep to a policy

`World.Act` is one command of the world whose caller keeps to a policy, about the rooms that characters are
put into and about the places that objects are put at; edits of records leave everyone where they
are. What a command does to the places of characters and objects is one of a few things, or two of
them one after another (`World.Shift`, `Act.shifts`), so whatever shifts keep, histories of commands
keep, while there are 50,000 rooms at most (`Acts.shifts`).
-/

set_option autoImplicit false

namespace MudTrigger

/-! ## Stations -/

/-- What the record of a character says about places. -/
def Character.station (c : Character) :
    Uid × Option Vnum × Option Uid × List Uid × Table Nat Uid :=
  (c.uid, c.vnum, c.inRoom, c.inventory, c.equipment)

/-- What the record of an object says about places. -/
def Object.station (o : Object) : Uid × Location × List Uid := (o.uid, o.location, o.contents)

/-- What the record of a room says about places. -/
def Room.station (r : Room) : Uid × List Uid × List Uid := (r.uid, r.people, r.contents)

namespace World

/-- The same entities at the same places. -/
structure Alike (w w' : World) : Prop where
  index : w'.index = w.index
  vnums : w'.roomVnums = w.roomVnums
  character : ∀ x, (w'.character? x).map Character.station = (w.character? x).map Character.station
  object : ∀ x, (w'.object? x).map Object.station = (w.object? x).map Object.station
  room : ∀ x, (w'.room? x).map Room.station = (w.room? x).map Room.station

/-! ## Commands -/

/-- Where a caller may put characters and objects. A new one is already there when it is put. -/
structure Policy where
  enter : World → Uid → Prop
  put : World → Uid → Location → Prop

/-- The first mobile of a vnum gives the prototype its short description. -/
def nameMobile (w : World) (vnum : Vnum) (name : String) : World :=
  { w with mobileDescs := describe w.mobileDescs vnum name }

/-- One command of a caller that keeps to a policy. -/
inductive Act (p : Policy) : World → World → Prop
  | tell {w} (message : String) : Act p w (w.tell message)
  | clearMessages {w} : Act p w w.clearMessages
  | setTime {w} (time : GameTime) : Act p w { w with time }
  | editCharacter {w} (u : Uid) (f : Character → Character)
    (stays : ∀ c, w.character? u = some c → (f c).station = c.station) :
    Act p w (w.modifyCharacter u f)
  | editObject {w} (u : Uid) (f : Object → Object)
    (stays : ∀ o, w.object? u = some o → (f o).station = o.station) : Act p w (w.modifyObject u f)
  | editRoom {w} (u : Uid) (f : Room → Room)
    (stays : ∀ r, w.room? u = some r → (f r).station = r.station) : Act p w (w.modifyRoom u f)
  | placeCharacter {w} (u room : Uid) : p.enter w room → Act p w (w.placeCharacter u room)
  | placeObject {w} (u : Uid) (location : Location) : p.put w u location →
    Act p w (w.placeObject u location)
  | join {w} (start : Uid) (d : Direction) (finish : Uid) : Act p w (w.join start d finish)
  | addRoom {w} (vnum : Vnum) (name : String) : Act p w (w.addRoom vnum name).2
  | addPlayer {w} (name : String) (room : Uid) : p.enter (w.enroll (w.newCharacter none name)) room →
    Act p w (w.addPlayer name room).2
  | addMobile {w} (vnum : Vnum) (name : String) (room : Uid) :
    p.enter ((w.nameMobile vnum name).enroll (w.newCharacter (some vnum) name)) room →
    Act p w (w.addMobile vnum name room).2
  | addObject {w} (vnum : Vnum) (name : String) (location : Location) :
    p.put (w.produce (w.newObject vnum name)) ⟨w.nextUid⟩ location →
    Act p w (w.addObject vnum name location).2
  | extract {w} (u : Uid) : Act p w (w.extract u).2

/-- One command after another. -/
abbrev Acts (p : Policy) : World → World → Prop := Relation.ReflTransGen (Act p)

/-- What commands do to the places of characters and objects. A new record has a free identity and is
nowhere yet. -/
inductive Shift (p : Policy) : World → World → Prop
  | alike {w w'} : w.Alike w' → w'.Sound → Shift p w w'
  | placeCharacter {w} (u room : Uid) : p.enter w room → Shift p w (w.placeCharacter u room)
  | placeObject {w} (u : Uid) (location : Location) : p.put w u location →
    Shift p w (w.placeObject u location)
  | enroll {w} (vnum : Option Vnum) (name : String) (free : w.index.get? ⟨w.nextUid⟩ = none) :
    Shift p w (w.enroll (w.newCharacter vnum name))
  | produce {w} (vnum : Vnum) (name : String) (free : w.index.get? ⟨w.nextUid⟩ = none) :
    Shift p w (w.produce (w.newObject vnum name))
  | addRoom {w} (vnum : Vnum) (name : String) (free : w.index.get? (Uid.room w.nextRoom) = none) :
    Shift p w (w.addRoom vnum name).2
  | extract {w} (u : Uid) : Shift p w (w.extract u).2

@[inherit_doc Acts]
abbrev Shifts (p : Policy) : World → World → Prop := Relation.ReflTransGen (Shift p)

variable {w w' w1 : World} {u x : Uid}

/-! ## Edits -/

namespace Alike

theorem of_eq (hi : w'.index = w.index) (hv : w'.roomVnums = w.roomVnums)
    (hc : w'.characters = w.characters) (ho : w'.objects = w.objects) (hr : w'.rooms = w.rooms) :
    w.Alike w' :=
  ⟨hi, hv, fun x => by rw [character?_congr hi hc], fun x => by rw [object?_congr hi ho],
    fun x => by rw [room?_congr hi hr]⟩

theorem trans (h : w.Alike w1) (h' : w1.Alike w') : w.Alike w' where
  index := h'.index.trans h.index
  vnums := h'.vnums.trans h.vnums
  character x := (h'.character x).trans (h.character x)
  object x := (h'.object x).trans (h.object x)
  room x := (h'.room x).trans (h.room x)

variable (hw : w.Sound)
include hw

theorem modifyCharacter (u : Uid) {f : Character → Character}
    (hf : ∀ c, w.character? u = some c → (f c).station = c.station) :
    w.Alike (w.modifyCharacter u f) := by
  refine ⟨index_modifyCharacter u f, roomVnums_modifyCharacter u f, fun x => ?_,
    fun x => by rw [object?_modifyCharacter],
    fun x => by rw [room?_modifyCharacter]⟩
  exact hw.map_character?_modifyCharacter u x hf

theorem modifyObject (u : Uid) {f : Object → Object}
    (hf : ∀ o, w.object? u = some o → (f o).station = o.station) :
    w.Alike (w.modifyObject u f) := by
  refine ⟨index_modifyObject u f, roomVnums_modifyObject u f,
    fun x => by rw [character?_modifyObject], fun x => ?_,
    fun x => by rw [room?_modifyObject]⟩
  exact hw.map_object?_modifyObject u x hf

theorem modifyRoom (u : Uid) {f : Room → Room}
    (hf : ∀ r, w.room? u = some r → (f r).station = r.station) :
    w.Alike (w.modifyRoom u f) := by
  refine ⟨index_modifyRoom u f, roomVnums_modifyRoom u f,
    fun x => by rw [character?_modifyRoom], fun x => by rw [object?_modifyRoom], fun x => ?_⟩
  exact hw.map_room?_modifyRoom u x hf

theorem join (start : Uid) (d : Direction) (finish : Uid) : w.Alike (w.join start d finish) := by
  unfold World.join
  split
  · rename_i a b _ _
    have hsound := hw.modifyRoom start
      (f := fun r => { r with exits := r.exits.set d (some { toRoom := some b.vnum }) })
      (fun _ _ => rfl) fun _ _ _ hx => .inl hx
    refine (modifyRoom hw start ?_).trans (modifyRoom hsound finish ?_)
    all_goals exact fun _ _ => rfl
  · exact .of_eq rfl rfl rfl rfl rfl

end Alike

/-! ## Commands are shifts -/

variable {p : Policy}

theorem Act.craft (h : Act p w w') : Craft w w' := by
  cases h with
  | tell message => exact .tell message
  | clearMessages => exact .clearMessages
  | setTime time => exact .setTime time
  | editCharacter u f stays =>
    refine .modifyCharacter u f (fun c hc => congrArg Prod.fst (stays c hc)) fun c x hc hx => ?_
    have hs := stays c hc
    simp only [Character.station, Prod.mk.injEq] at hs
    rw [Character.held, hs.2.2.2.1, hs.2.2.2.2] at hx
    exact .inl hx
  | editObject u f stays =>
    refine .modifyObject u f (fun o ho => congrArg Prod.fst (stays o ho)) fun o x ho hx => ?_
    have hs := stays o ho
    simp only [Object.station, Prod.mk.injEq] at hs
    exact .inl (hs.2.2 ▸ hx)
  | editRoom u f stays =>
    refine .modifyRoom u f (fun r hr => congrArg Prod.fst (stays r hr)) fun r x hr hx => ?_
    have hs := stays r hr
    simp only [Room.station, Prod.mk.injEq] at hs
    exact .inl (hs.2.2 ▸ hx)
  | placeCharacter u room => exact .placeCharacter u room
  | placeObject u location => exact .placeObject u location
  | join start d finish => exact .join start d finish
  | addRoom vnum name => exact .addRoom vnum name
  | addPlayer name room => exact .addPlayer name room
  | addMobile vnum name room => exact .addMobile vnum name room
  | addObject vnum name location => exact .addObject vnum name location
  | extract u => exact .extract u

theorem Acts.crafts (h : Acts p w w') : Relation.ReflTransGen Craft w w' :=
  h.lift id fun _ _ => Act.craft

theorem Sound.shift (hw : w.Sound) (h : Shift p w w') : w'.Sound := by
  cases h with
  | alike _ hw' => exact hw'
  | placeCharacter u room => exact hw.placeCharacter u room
  | placeObject u location => exact hw.placeObject u location
  | enroll vnum name => exact hw.enroll _ rfl rfl
  | produce vnum name => exact hw.produce _ rfl rfl
  | addRoom vnum name => exact hw.addRoom vnum name
  | extract u => exact hw.extract u

/-- What every shift keeps in a sound world, any number of them keeps. -/
theorem Shifts.induction {P : World → Prop}
    (hstep : ∀ {w w'}, w.Sound → Shift p w w' → P w → P w') (h : Shifts p w w') (hw : w.Sound)
    (hP : P w) : w'.Sound ∧ P w' := by
  induction h with
  | refl => exact ⟨hw, hP⟩
  | tail _ h ih => exact ⟨ih.1.shift h, hstep ih.1 h ih.2⟩

theorem Ranged.get?_of_not_used (hw : w.Ranged) (hu : ¬ w.Used u) : w.index.get? u = none := by
  cases hi : w.index.get? u with
  | none => rfl
  | some r => exact absurd (hw.used hi) hu

theorem Act.shifts (h : Act p w w') (hw : w.Sound) (hr : w.Ranged) (hn : w'.nextRoom ≤ 50000) :
    Shifts p w w' := by
  have hw' : w'.Sound := hw.craft h.craft
  have hle := h.craft.issues.nextRoom_le
  have hfree : w.index.get? ⟨w.nextUid⟩ = none :=
    hr.get?_of_not_used (hr.not_used_other (by omega))
  cases h with
  | tell | clearMessages | setTime =>
    exact .single (.alike (.of_eq rfl rfl rfl rfl rfl) hw')
  | editCharacter u f stays =>
    exact .single (.alike (.modifyCharacter hw u stays) hw')
  | editObject u f stays =>
    exact .single (.alike (.modifyObject hw u stays) hw')
  | editRoom u f stays =>
    exact .single (.alike (.modifyRoom hw u stays) hw')
  | placeCharacter u room hp => exact .single (.placeCharacter u room hp)
  | placeObject u location hp => exact .single (.placeObject u location hp)
  | join start d finish => exact .single (.alike (.join hw start d finish) hw')
  | addRoom vnum name =>
    refine .single (.addRoom vnum name (hr.get?_of_not_used (not_used_room ?_)))
    exact Nat.lt_of_succ_le hn
  | addPlayer name room hp =>
    exact .head (.enroll none name hfree) (.single (.placeCharacter ⟨w.nextUid⟩ room hp))
  | addMobile vnum name room hp =>
    have hname : Shift p w (w.nameMobile vnum name) :=
      .alike (.of_eq rfl rfl rfl rfl rfl) (hw.of_eq rfl rfl rfl rfl rfl)
    exact .head hname (.head (.enroll (some vnum) name hfree)
      (.single (.placeCharacter ⟨w.nextUid⟩ room hp)))
  | addObject vnum name location hp =>
    exact .head (.produce vnum name hfree) (.single (.placeObject ⟨w.nextUid⟩ location hp))
  | extract u => exact .single (.extract u)

/-- While there are 50,000 rooms at most, commands do nothing but shift. -/
theorem Acts.shifts (h : Acts p w w') (hw : w.Sound) (hr : w.Ranged) (hn : w'.nextRoom ≤ 50000) :
    Shifts p w w' := by
  induction h with
  | refl => exact .refl
  | tail hpath h ih =>
    have hle := h.craft.issues.nextRoom_le
    have hcrafts := Acts.crafts hpath
    exact (ih (by omega)).trans (h.shifts (hw.crafts hcrafts) (hr.crafts hcrafts) hn)

end World

end MudTrigger
