import MudTrigger.Proofs.Trace.Roam
import MudTrigger.Proofs.Variables.Captured

/-!
# A script's walk over the people of a room

If the host puts characters only into rooms that are there (`World.Policy.indoors`), then in every game
that it plays a room lists exactly the characters who are in it, each once, whatever is walked, typed,
carried out, run, pulsed or purged (`Lodged.play`). So a script that starts at `%room.people%` and goes
on to `%person.next_in_room%` meets everyone in the room once, in the order of the list, and then
nobody (`Scene.tour_eq`), as long as identities fit into 64 bits and rooms into their range, which is
50,000.
-/

set_option autoImplicit false

namespace MudTrigger

open Game

/-- In a list without repetition, what follows an element. -/
theorem next_of_nodup {α : Type} [DecidableEq α] {l : List α} {x : α} {k : Nat} (hl : l.Nodup)
    (hx : l[k]? = some x) : ((l.dropWhile (· ≠ x)).drop 1).head? = l[k + 1]? := by
  induction l generalizing k with
  | nil => cases hx
  | cons y l ih =>
    obtain ⟨hy, hl⟩ := List.nodup_cons.1 hl
    cases k with
    | zero =>
      obtain rfl := Option.some.inj hx
      rw [List.dropWhile_cons_of_neg (by simp), List.drop_succ_cons, List.drop_zero,
        List.head?_eq_getElem?]
      rfl
    | succ k =>
      have hne : y ≠ x := fun he => hy (he ▸ List.mem_of_getElem? hx)
      rw [List.dropWhile_cons_of_pos (by simpa using hne)]
      exact ih hl hx

namespace World

/-- Characters are put into rooms that are there, and objects anywhere. -/
def Policy.indoors : Policy where
  enter w room := (w.room? room).isSome = true
  put _ _ _ := True

theorem Policy.indoors_enters : indoors.Enters := fun _ _ h => h

variable {may : Uid → Prop} {w w' : World} {u room : Uid}

theorem Visit.crafts (h : Visit may w w') : Relation.ReflTransGen Craft w w' := by
  cases h with
  | tell message => exact .single (.tell message)
  | place => exact .single (.placeCharacter _ _)
  | purge => exact .single (.extract _)

theorem Visits.crafts (h : Visits may w w') : Relation.ReflTransGen Craft w w' := by
  induction h with
  | refl => exact .refl
  | tail _ h ih => exact ih.trans h.crafts

/-- Nobody is added meanwhile. -/
theorem Visits.counters (h : Visits may w w') :
    w'.nextRoom = w.nextRoom ∧ w'.nextUid = w.nextUid := by
  induction h with
  | refl => exact ⟨rfl, rfl⟩
  | @tail w1 _ _ h ih =>
    cases h with
    | tell => exact ih
    | @place u room =>
      have hm : w1.Moves (w1.placeCharacter u room) := .placeCharacter u room
      exact ⟨hm.nextRoom.trans ih.1, hm.nextUid.trans ih.2⟩
    | @purge u =>
      have ht := takes_extract w1 u
      exact ⟨ht.nextRoom.trans ih.1, ht.wanes.nextUid.trans ih.2⟩

theorem Housed.visit (hh : w.Housed) (hm : w.Mapped) (hw : w.Sound) (h : Visit may w w') :
    w'.Housed := by
  cases h with
  | tell message =>
    have halike : w.Alike (w.tell message) := .of_eq rfl rfl rfl rfl rfl
    exact hh.undisturbed halike.undisturbed
  | place _ hroom => exact hh.placeCharacter hw _ (hm.isSome_of_reaches hw hroom)
  | purge => exact hh.extract hw _

theorem Housed.visits (hh : w.Housed) (hm : w.Mapped) (hw : w.Sound) (h : Visits may w w') :
    w'.Housed := by
  induction h with
  | refl => exact hh
  | tail hpath h ih =>
    exact ih.visit (hm.leads (Visits.leads hpath)) (Visits.sound hpath hw) h

theorem nextRoom_le_of_crafts (h : Relation.ReflTransGen Craft w w') : w.nextRoom ≤ w'.nextRoom := by
  induction h with
  | refl => exact Nat.le_refl _
  | tail _ h ih => exact Nat.le_trans ih h.issues.nextRoom_le

/-- Identities of characters and objects have 64 bits, and so have then those of rooms. -/
theorem Ranged.raw_lt (hw : w.Ranged) (hn : w.nextRoom ≤ 50000)
    (hu : w.nextUid ≤ 0x1_0000_0000_0000_0000) {r : EntityRef} (hr : w.index.get? u = some r) :
    u.raw < 0x1_0000_0000_0000_0000 := by
  have hused := hw.used hr
  simp only [Used, Uid.firstRoom, Uid.firstMobile] at hused
  omega

theorem roomOf?_character {c : Character} (hc : w.character? u = some c) :
    w.roomOf? u = c.inRoom.bind w.room? := by
  obtain ⟨h, hi, hget⟩ := character?_eq_some.1 hc
  have hr : w.resolve u = .character h := by rw [resolve, hi]; rfl
  unfold roomOf? maxNesting roomOfWithin
  simp only [hr, hget, Option.bind_some]

end World

/-! ## The walk of a script -/

namespace Scene

/-- A field with a text that nothing in a token ends. -/
def fieldNamed (text : String) (h : text ≠ "" ∧ ∀ c ∈ text.toList, c ≠ '%' ∧ c ≠ '[') : FieldName :=
  ⟨text, h.1, h.2⟩

/-- The fields that lead over the people of a room. -/
def peopleField : FieldName := fieldNamed "people" (by simp)

@[inherit_doc peopleField]
def nextField : FieldName := fieldNamed "next_in_room" (by simp)

/-- The scene with a text in a local variable. -/
def holding (s : Scene) (v : TokenName) (text : String) : Scene :=
  { s with locals := s.locals.set v.text text }

/-- What the variable comes to hold when it is first set to `%v.people%` with the room in it, and then `n`
times to `%v.next_in_room%`. -/
def tour (s : Scene) (v : TokenName) (room : Uid) : Nat → Expand String
  | 0 => (s.holding v room.text).expand (fieldToken v peopleField)
  | n + 1 => do
    let person ← s.tour v room n
    (s.holding v person).expand (fieldToken v nextField)

variable {s : Scene} {u room : Uid} {v : TokenName} {r : Room} {c : Character}

theorem valueOf?_holding (text : String) : (s.holding v text).valueOf? v.text = some text :=
  valueOf?_local (Variables.get?_set_self _ _ rfl)

theorem expand_people (hu : room.raw < 0x1_0000_0000_0000_0000) (hr : s.world.room? room = some r) :
    (s.holding v room.text).expand (fieldToken v peopleField) = pure (uidText r.people.head?) := by
  obtain ⟨h, hi, hget⟩ := World.room?_eq_some.1 hr
  have hres : (s.holding v room.text).world.resolve room = .room h := by
    show s.world.resolve room = _
    rw [World.resolve, hi]
    rfl
  have hfold : Text.fold peopleField.text = "people" := by decide +kernel
  have hread : (s.holding v room.text).fieldOf? (.room h) "people" "" =
      some (.value (uidText r.people.head?)) := by
    show (s.world.rooms.get? h).map _ = _
    rw [hget]
    rfl
  rw [expand_identity hu (valueOf?_holding _), hres, if_neg (by simp), entityField, hfold, hread]

theorem expand_next (hu : u.raw < 0x1_0000_0000_0000_0000) (hc : s.world.character? u = some c) :
    (s.holding v u.text).expand (fieldToken v nextField) = pure (uidText (s.nextInRoom c)) := by
  obtain ⟨h, hi, hget⟩ := World.character?_eq_some.1 hc
  have hres : (s.holding v u.text).world.resolve u = .character h := by
    show s.world.resolve u = _
    rw [World.resolve, hi]
    rfl
  have hfold : Text.fold nextField.text = "next_in_room" := by decide +kernel
  have hread : (s.holding v u.text).fieldOf? (.character h) "next_in_room" "" =
      some (.value (uidText (s.nextInRoom c))) := by
    show (s.world.characters.get? h).map _ = _
    rw [hget]
    rfl
  rw [expand_identity hu (valueOf?_holding _), hres, if_neg (by simp), entityField, hfold, hread]

/-- Who follows in a room that lists each character who is in it once. -/
theorem nextInRoom_eq {k : Nat} (hw : s.world.Sound) (hh : s.world.Housed)
    (hr : s.world.room? room = some r) (hu : r.people[k]? = some u)
    (hc : s.world.character? u = some c) : s.nextInRoom c = r.people[k + 1]? := by
  obtain ⟨c', hc', hin⟩ := hh.listed ⟨r, hr, List.mem_of_getElem? hu⟩
  rw [hc, Option.some.injEq] at hc'
  obtain ⟨h, hi, hget⟩ := World.character?_eq_some.1 hc
  obtain ⟨c0, hc0, huid⟩ := hw.character hi
  rw [hget, Option.some.injEq] at hc0
  rw [← hc0] at huid
  have hpeople : s.world.peopleWith u = r.people := by
    rw [World.peopleWith, World.roomOf?_character hc, hc', hin, Option.bind_some, hr]
    rfl
  rw [nextInRoom, huid, hpeople]
  exact next_of_nodup (hh.once hr) hu

/-- The walk meets the people of the room in the order of the list, and then nobody. -/
theorem tour_eq {n : Nat} (hw : s.world.Sound) (hh : s.world.Housed)
    (huid : ∀ u ref, s.world.index.get? u = some ref → u.raw < 0x1_0000_0000_0000_0000)
    (hr : s.world.room? room = some r) (hn : n ≤ r.people.length) :
    s.tour v room n = pure (uidText r.people[n]?) := by
  induction n with
  | zero =>
    obtain ⟨h, hi, -⟩ := World.room?_eq_some.1 hr
    rw [tour, expand_people (huid _ _ hi) hr, List.head?_eq_getElem?]
  | succ n ih =>
    obtain ⟨u, hu⟩ : ∃ u, r.people[n]? = some u := ⟨_, List.getElem?_eq_getElem hn⟩
    obtain ⟨c, hc, -⟩ := hh.listed ⟨r, hr, List.mem_of_getElem? hu⟩
    obtain ⟨h, hi, -⟩ := World.character?_eq_some.1 hc
    rw [tour, ih (Nat.le_of_succ_le hn), hu, ← nextInRoom_eq hw hh hr hu hc, pure_bind]
    exact expand_next (huid _ _ hi) hc

end Scene

/-! ## Games -/

/-- By its own hand the host does to the world what the policy permits. -/
def Operation.Abides (p : World.Policy) (g : Game) (op : Operation) : Prop :=
  ∀ w, op = .replaceWorld w → World.Acts p g.world w

variable {p : World.Policy} {g : Game} {op : Operation}

theorem Operation.Abides.crafts (h : op.Abides p g) : op.Crafts g := fun w hw => (h w hw).crafts

theorem Changes.crafts {m m' : Moment} (h : Changes m m') :
    Relation.ReflTransGen World.Craft m.game.world m'.game.world := by
  induction h with
  | refl => exact .refl
  | tail _ h ih => exact ih.trans h.crafts

theorem Operation.apply_crafts (hop : op.Crafts g) :
    Relation.ReflTransGen World.Craft g.world (op.apply g).world :=
  (opening_crafts hop).trans (Changes.crafts (op.apply_changes g))

theorem Game.Allows.imp {may may' : Game → Operation → Prop} {ops : List Operation}
    (h : g.Allows may ops) (himp : ∀ g op, may g op → may' g op) : g.Allows may' ops := by
  induction ops generalizing g with
  | nil => trivial
  | cons op ops ih => exact ⟨himp g op h.1, ih h.2⟩

theorem play_crafts {ops : List Operation} (hops : g.Allows (fun g op => op.Crafts g) ops) :
    Relation.ReflTransGen World.Craft g.world (g.play ops).world := by
  induction ops generalizing g with
  | nil => exact .refl
  | cons op ops ih => exact (Operation.apply_crafts hops.1).trans (ih hops.2)

/-- Everyone is in a room that lists them, whatever has been done to the world so far. -/
structure Game.Lodged (g : Game) : Prop where
  governed : g.Governed fun _ => True
  mapped : g.world.Mapped
  crafted : Relation.ReflTransGen World.Craft {} g.world
  housed : g.world.Housed

theorem lodged_start (config : Config) (registry : Registry) :
    (Game.start config registry {}).Lodged where
  governed :=
    { coherent := coherent_start config registry {}
      sound := World.sound_empty
      owners := fun _ => trivial
      players := fun hn => absurd trivial hn }
  mapped := World.mapped_empty
  crafted := .refl
  housed := World.housed_empty

namespace Game.Lodged

variable (hg : g.Lodged)
include hg

theorem purge (u : Uid) : (g.purge u).Lodged := by
  have hw : (g.purge u).world = (g.world.extract u).2 := (silent_purge u).world
  refine ⟨⟨hg.governed.coherent.purge u, ?_, fun _ => trivial, fun hn => absurd trivial hn⟩, ?_, ?_,
    ?_⟩ <;> rw [hw]
  · exact hg.governed.sound.extract u
  · exact hg.mapped.leads (World.takes_extract g.world u).leads
  · exact hg.crafted.tail (.extract u)
  · exact hg.housed.extract hg.governed.sound u

/-- While there are 50,000 rooms at most. -/
theorem replaceWorld (hp : p.Enters) {w : World} (hacts : World.Acts p g.world w)
    (hn : w.nextRoom ≤ 50000) : (g.withWorld w).Lodged := by
  have hshifts := hacts.shifts hg.governed.sound (World.ranged_empty.crafts hg.crafted) hn
  obtain ⟨hsound, hmapped, hhoused⟩ := hshifts.induction
    (P := fun w => w.Mapped ∧ w.Housed)
    (fun hw hs hP => ⟨hP.1.shift hs, hP.2.shift hw hp hs⟩) hg.governed.sound
    ⟨hg.mapped, hg.housed⟩
  exact ⟨⟨hg.governed.coherent.of_same (same_of_eq rfl rfl), hsound, fun _ => trivial,
    fun hn => absurd trivial hn⟩, hmapped, hg.crafted.trans hacts.crafts, hhoused⟩

theorem apply (hp : p.Enters) (hop : op.Abides p g) (hn : (op.apply g).world.nextRoom ≤ 50000) :
    (op.apply g).Lodged := by
  by_cases hplay : op.isPlay = true
  · obtain ⟨hgoverned, hvisits⟩ := Operation.roams hplay (fun _ _ => trivial) hg.governed
    exact ⟨hgoverned, hg.mapped.leads hvisits.leads, hg.crafted.trans hvisits.crafts,
      hg.housed.visits hg.mapped hg.governed.sound hvisits⟩
  · cases op with
    | purge u => exact hg.purge u
    | replaceWorld w => exact hg.replaceWorld hp (hop w rfl) hn
    | extractEntity | run | attach | detach | detachAll | setGlobal | dispatch | pulse | interpret
      | execute | walk => exact absurd rfl hplay

theorem play (hp : p.Enters) {ops : List Operation} (hops : g.Allows (fun g op => op.Abides p g) ops)
    (hn : (g.play ops).world.nextRoom ≤ 50000) : (g.play ops).Lodged := by
  induction ops generalizing g with
  | nil => exact hg
  | cons op ops ih =>
    have hcrafts := play_crafts (hops.2.imp fun _ _ h => h.crafts)
    have hle := World.nextRoom_le_of_crafts hcrafts
    exact ih (hg.apply hp hops.1 (Nat.le_trans hle hn)) hops.2 hn

end Game.Lodged

/-- Also while scripts and commands go on, a character is on the list of a room exactly if it is in that
room, and no list names anyone twice. So the walk from `%v.people%` along `%v.next_in_room%` meets each
person once, in the order of the list, and then gives the empty text. -/
theorem rooms_list_who_is_there (config : Config) (registry : Registry) (ops : List Operation)
    (hops : (Game.start config registry {}).Allows (fun g op => op.Abides .indoors g) ops)
    (hn : ((Game.start config registry {}).play ops).world.nextRoom ≤ 50000) (w : World)
    (hw : World.Visits (fun _ => True) ((Game.start config registry {}).play ops).world w) :
    (∀ u room, w.HasPerson u room ↔ ∃ c, w.character? u = some c ∧ c.inRoom = some room) ∧
    (∀ room r, w.room? room = some r → r.people.Nodup) ∧
    (w.nextUid ≤ 0x1_0000_0000_0000_0000 →
      ∀ (s : Scene) (v : TokenName) (room : Uid) (r : Room) (n : Nat), s.world = w →
        w.room? room = some r → n ≤ r.people.length →
        s.tour v room n = pure (uidText r.people[n]?)) := by
  have hg := (lodged_start config registry).play World.Policy.indoors_enters hops hn
  have hhoused : w.Housed := hg.housed.visits hg.mapped hg.governed.sound hw
  refine ⟨fun u room => ⟨hhoused.listed, fun ⟨c, hc, hin⟩ => hhoused.present hc hin⟩,
    fun room r => hhoused.once, ?_⟩
  rintro hu s v room r n rfl hr hle
  have hranged := World.ranged_empty.crafts (hg.crafted.trans hw.crafts)
  exact Scene.tour_eq (hw.sound hg.governed.sound) hhoused
    (fun _ _ hi => hranged.raw_lt (hw.counters.1 ▸ hn) hu hi) hr hle

/-- A clerk joins Ann in the lobby. -/
def lobby : World :=
  let empty := (({} : World).addRoom 3001 "lobby").2
  ((empty.addPlayer "Ann" (Uid.room 0)).2.addMobile 7 "a clerk" (Uid.room 0)).2

theorem lobby_acts : World.Acts .indoors {} lobby :=
  .head (.addRoom 3001 "lobby")
    (.head (.addPlayer "Ann" (Uid.room 0) (by show Option.isSome _ = true; decide +kernel))
      (.single (.addMobile 7 "a clerk" (Uid.room 0) (by show Option.isSome _ = true; decide +kernel))))

/-- Ann goes to the lobby where she is already, and so behind the clerk. -/
def lobbyCalls : List Operation :=
  [.replaceWorld lobby, .execute .standard ⟨100000⟩ "goto 3001"]

/-- Whoever walks over the people of the lobby meets the clerk first, then Ann and then nobody. -/
theorem lobby_toured :
    let s : Scene :=
      { host := .standard, world := ((Game.start {} ∅ {}).play lobbyCalls).world
        owner := Uid.room 0, locals := ∅, globals := ∅ }
    s.tour captive (Uid.room 0) 0 = pure (Uid.text ⟨100001⟩) ∧
    s.tour captive (Uid.room 0) 1 = pure (Uid.text ⟨100000⟩) ∧
    s.tour captive (Uid.room 0) 2 = pure "" := by
  intro s
  have hops : (Game.start {} ∅ {}).Allows (fun g op => op.Abides .indoors g) lobbyCalls :=
    ⟨fun w hw => (by cases hw; exact lobby_acts), fun w hw => (by cases hw), trivial⟩
  obtain ⟨-, -, htour⟩ := rooms_list_who_is_there {} ∅ lobbyCalls hops (by decide +kernel) s.world .refl
  have hpeople : (s.world.room? (Uid.room 0)).map (·.people) = some [⟨100001⟩, ⟨100000⟩] := by
    decide +kernel
  obtain ⟨r, hr, hlist⟩ := Option.map_eq_some_iff.1 hpeople
  have hwalk := fun n => htour (by decide +kernel) s captive (Uid.room 0) r n rfl hr
  rw [hlist] at hwalk
  exact ⟨hwalk 0 (by decide), hwalk 1 (by decide), hwalk 2 (by decide)⟩

end MudTrigger
