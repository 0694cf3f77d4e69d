import MudTrigger.Proofs.World.Deed
import MudTrigger.Proofs.World.Takes

/-!
# Every world that commands make is sound

`World.Craft` is one command of the world: building, moving, extracting, and editing records, as long as
they keep their identities and list nothing but objects. Worlds made this way are sound
(`Sound.crafts`). What a run does to the world is to say something, to move a character, or to purge an
entity that is no player (`Change.world_cases`), so that the world of every game whose host keeps to
these commands is sound (`play_sound`).
-/

set_option autoImplicit false

namespace MudTrigger

open Game

namespace World

/-- One command of the world. -/
inductive Craft : World → World → Prop
  | tell {w} (message : String) : Craft w (w.tell message)
  | clearMessages {w} : Craft w w.clearMessages
  | setTime {w} (time : GameTime) : Craft w { w with time }
  | modifyCharacter {w} (u : Uid) (f : Character → Character)
    (identity : ∀ c, w.character? u = some c → (f c).uid = c.uid)
    (things : ∀ c x, w.character? u = some c → x ∈ (f c).held →
      x ∈ c.held ∨ ∃ o, w.object? x = some o) : Craft w (w.modifyCharacter u f)
  | modifyObject {w} (u : Uid) (f : Object → Object)
    (identity : ∀ o, w.object? u = some o → (f o).uid = o.uid)
    (things : ∀ o x, w.object? u = some o → x ∈ (f o).contents →
      x ∈ o.contents ∨ ∃ o', w.object? x = some o') : Craft w (w.modifyObject u f)
  | modifyRoom {w} (u : Uid) (f : Room → Room)
    (identity : ∀ r, w.room? u = some r → (f r).uid = r.uid)
    (things : ∀ r x, w.room? u = some r → x ∈ (f r).contents →
      x ∈ r.contents ∨ ∃ o, w.object? x = some o) : Craft w (w.modifyRoom u f)
  | placeCharacter {w} (u room : Uid) : Craft w (w.placeCharacter u room)
  | placeObject {w} (u : Uid) (location : Location) : Craft w (w.placeObject u location)
  | join {w} (start : Uid) (d : Direction) (finish : Uid) : Craft w (w.join start d finish)
  | addRoom {w} (vnum : Vnum) (name : String) : Craft w (w.addRoom vnum name).2
  | addPlayer {w} (name : String) (room : Uid) : Craft w (w.addPlayer name room).2
  | addMobile {w} (vnum : Vnum) (name : String) (room : Uid) : Craft w (w.addMobile vnum name room).2
  | addObject {w} (vnum : Vnum) (name : String) (location : Location) :
    Craft w (w.addObject vnum name location).2
  | extract {w} (u : Uid) : Craft w (w.extract u).2

variable {w w' : World} {u : Uid}

theorem Sound.craft (hw : w.Sound) (h : Craft w w') : w'.Sound := by
  have thing : ∀ {x}, (∃ o, w.object? x = some o) → w.Thing x := fun ⟨_, ho⟩ =>
    thing_of_object? hw ho
  cases h with
  | tell | clearMessages | setTime => exact hw.of_eq rfl rfl rfl rfl rfl
  | modifyCharacter u f identity things =>
    exact hw.modifyCharacter u identity fun c x hc hx => (things c x hc hx).imp_right thing
  | modifyObject u f identity things =>
    exact hw.modifyObject u identity fun o x ho hx => (things o x ho hx).imp_right thing
  | modifyRoom u f identity things =>
    exact hw.modifyRoom u identity fun r x hr hx => (things r x hr hx).imp_right thing
  | placeCharacter u room => exact hw.placeCharacter u room
  | placeObject u location => exact hw.placeObject u location
  | join start d finish => exact hw.join start d finish
  | addRoom vnum name => exact hw.addRoom vnum name
  | addPlayer name room => exact hw.addCharacter none name room
  | addMobile vnum name room => exact hw.addMobile vnum name room
  | addObject vnum name location => exact hw.addObject vnum name location
  | extract u => exact hw.extract u

theorem Sound.crafts (hw : w.Sound) (h : Relation.ReflTransGen Craft w w') : w'.Sound := by
  induction h with
  | refl => exact hw
  | tail _ h ih => exact ih.craft h

end World

/-! ## What runs do to the world -/

theorem Change.world_cases {m m' : Moment} (h : Change m m') :
    m'.game.world = m.game.world ∨
    (∃ message, m'.game.world = m.game.world.tell message) ∨
    (∃ u room, m'.game.world = m.game.world.placeCharacter u room) ∨
    ∃ u, isPlayer m.game.world u = false ∧ m'.game.world = (m.game.world.extract u).2 := by
  cases h with
  | tell message => exact .inr (.inl ⟨message, rfl⟩)
  | place u room => exact .inr (.inr (.inl ⟨u, room, rfl⟩))
  | @purge s g u hp => exact .inr (.inr (.inr ⟨u, hp, (silent_purge u).world⟩))
  | attach ha => exact .inl (silent_attach ha).world
  | detach => exact .inl (silent_removeInstance _ _).world
  | detachAll target => exact .inl (silent_detachAll target).world
  | unset name => exact .inl (silent_unset _ name).world
  | loopYield | suspend => exact .inl (silent_suspend _ _ _ _ _).world
  | start => exact .inl (silent_begin _).world
  | @refuse s g h i j bindings => exact .inl (silent_refuse h j .new).world
  | @refuseResume g w q i => exact .inl (silent_refuse w.continuation.trigger i .resume).world
  | report | blame | addNote | roll | reach | evaluate | command | setLocal | makeGlobal | deepen | rise
    | loopOver | loopAgain | loopHalt | finish | vanish | noteHour | skip | resume => exact .inl rfl

theorem Change.sound {m m' : Moment} (h : Change m m') (hw : m.game.world.Sound) :
    m'.game.world.Sound := by
  rcases h.world_cases with he | ⟨message, he⟩ | ⟨u, room, he⟩ | ⟨u, -, he⟩ <;> rw [he]
  · exact hw
  · exact hw.craft (.tell message)
  · exact hw.placeCharacter u room
  · exact hw.extract u

theorem Change.wanes {m m' : Moment} (h : Change m m') : m.game.world.Wanes m'.game.world := by
  rcases h.world_cases with he | ⟨message, he⟩ | ⟨u, room, he⟩ | ⟨u, -, he⟩ <;> rw [he]
  · exact .refl
  · exact .of_eq rfl rfl rfl rfl rfl
  · exact .placeCharacter u room
  · exact (World.takes_extract _ u).wanes

theorem Changes.sound {m m' : Moment} (h : Changes m m') (hw : m.game.world.Sound) :
    m'.game.world.Sound := by
  induction h with
  | refl => exact hw
  | tail _ h ih => exact h.sound ih

theorem Changes.wanes {m m' : Moment} (h : Changes m m') : m.game.world.Wanes m'.game.world := by
  induction h with
  | refl => exact .refl
  | tail _ h ih => exact ih.trans h.wanes

/-! ## What calls do to the world -/

namespace Operation

/-- A call does to the world what its commands do. -/
def Crafts (g : Game) (op : Operation) : Prop :=
  ∀ w, op = .replaceWorld w → Relation.ReflTransGen World.Craft g.world w

/-- A call leaves the taking of entities to scripts and commands. -/
def isPlay : Operation → Bool
  | purge _ | replaceWorld _ => false
  | _ => true

theorem opening_world (g : Game) (op : Operation) (hop : op.isPlay = true) :
    (op.opening g).game.world = g.world := by
  cases op with
  | extractEntity u => exact (silent_extractEntity u).world
  | run host h mode =>
    show (runOpening g h mode).game.world = g.world
    have hopens := runOpening_opens g h mode
    generalize runOpening g h mode = m at hopens
    cases hopens with
    | stale | takenUp => rfl
    | @refused _ i => exact (silent_refuse h i mode).world
    | @begun i => exact (silent_begin (g := g.enter h i.owner) h).world
  | purge | replaceWorld => cases hop
  | attach | detach | detachAll | setGlobal | dispatch | pulse | interpret | execute | walk => rfl

theorem opening_sound {g : Game} {op : Operation} (hw : g.world.Sound) (hop : op.Crafts g) :
    (op.opening g).game.world.Sound := by
  by_cases hp : op.isPlay = true
  · rw [opening_world g op hp]
    exact hw
  · cases op with
    | purge u =>
      show (g.purge u).world.Sound
      rw [(silent_purge u).world]
      exact hw.extract u
    | replaceWorld w => exact hw.crafts (hop w rfl)
    | extractEntity | run | attach | detach | detachAll | setGlobal | dispatch | pulse | interpret
      | execute | walk => exact absurd rfl hp

theorem apply_changes (g : Game) (op : Operation) : Changes (op.opening g) ⟨[], op.apply g⟩ :=
  (op.opening_leads g).lift id fun _ _ h => h.change

end Operation

/-- The world of a game stays sound, if the host keeps to the commands of the world. -/
theorem play_sound {g : Game} {ops : List Operation} (hw : g.world.Sound)
    (hops : g.Allows (fun g op => op.Crafts g) ops) : (g.play ops).world.Sound := by
  induction ops generalizing g with
  | nil => exact hw
  | cons op ops ih => exact ih ((op.apply_changes g).sound (Operation.opening_sound hw hops.1)) hops.2

end MudTrigger
