import MudTrigger.Proofs.World.Craft

/-!
# Players and rooms stay

The purge command passes over players, and what an entity takes with it are things only. So no run and
no command takes a player or a room out of a sound world (`Changes.keeps`): after a call each of them is
found under the same handle, and its record is the same but for where it is and what it lists
(`players_and_rooms_stay`).
-/

set_option autoImplicit false

namespace MudTrigger

open Game

namespace World

variable {w w' w1 : World} {u : Uid}

/-- Every player and every room is found where it was, with the same record. -/
structure Keeps (w w' : World) : Prop where
  wanes : w.Wanes w'
  player : ∀ {u h c}, w.index.get? u = some (.character h) → w.characters.get? h = some c →
    c.isMobile = false → w'.index.get? u = some (.character h)
  room : ∀ {u h}, w.index.get? u = some (.room h) → w'.index.get? u = some (.room h)

namespace Keeps

theorem refl : w.Keeps w := ⟨.refl, fun hi _ _ => hi, id⟩

theorem of_index (h : w.Wanes w') (hi : w'.index = w.index) : w.Keeps w' :=
  ⟨h, fun hp _ _ => hi ▸ hp, fun hr => hi ▸ hr⟩

/-- The record of a player is still there, and still that of a player. -/
theorem player_record (h : w.Keeps w') (hw' : w'.Sound) {hd : Handle} {c : Character}
    (hi : w.index.get? u = some (.character hd)) (hc : w.characters.get? hd = some c)
    (hp : c.isMobile = false) : ∃ c', w'.characters.get? hd = some c' ∧ c.Fades c' := by
  obtain ⟨c', hc', -⟩ := hw'.character (h.player hi hc hp)
  obtain ⟨c0, hc0, hf⟩ := h.wanes.character hc'
  rw [hc, Option.some.injEq] at hc0
  subst hc0
  exact ⟨c', hc', hf⟩

theorem room_record (h : w.Keeps w') (hw' : w'.Sound) {hd : Handle} {r : Room}
    (hi : w.index.get? u = some (.room hd)) (hr : w.rooms.get? hd = some r) :
    ∃ r', w'.rooms.get? hd = some r' ∧ r.Fades r' := by
  obtain ⟨r', hr', -⟩ := hw'.room (h.room hi)
  obtain ⟨r0, hr0, hf⟩ := h.wanes.room hr'
  rw [hr, Option.some.injEq] at hr0
  subst hr0
  exact ⟨r', hr', hf⟩

theorem trans (h : w.Keeps w1) (hw1 : w1.Sound) (h' : w1.Keeps w') : w.Keeps w' := by
  refine ⟨h.wanes.trans h'.wanes, fun hi hc hp => ?_, fun hr => h'.room (h.room hr)⟩
  obtain ⟨c1, hc1, hf⟩ := h.player_record hw1 hi hc hp
  refine h'.player (h.player hi hc hp) hc1 ?_
  rw [Character.isMobile, hf.vnum]
  exact hp

end Keeps

theorem index_placeCharacter (u room : Uid) : (w.placeCharacter u room).index = w.index := by
  unfold placeCharacter
  split
  · rfl
  · simp only
    split <;> simp

/-- Neither another player nor a room leaves with an entity that is no player. -/
theorem Sound.keeps_extract (hw : w.Sound) (hu : isPlayer w u = false) :
    w.Keeps (w.extract u).2 := by
  have ht := takes_extract w u
  refine ⟨ht.wanes, fun {x h c} hi hc hp => ?_, fun {x h} hi => ?_⟩
  · rw [ht.index_of_not_mem, hi]
    intro hx
    rcases ht.thing hw hx with hm | hthing
    · obtain rfl := List.mem_singleton.1 hm
      rw [isPlayer, character?_eq_some.2 ⟨h, hi, hc⟩] at hu
      simp [hp] at hu
    · exact hthing.1 h hi
  · rw [ht.index_of_not_mem, hi]
    intro hx
    rcases hw.isMovable_iff.1 (ht.isMovable_of_mem hx) with ⟨h', hi'⟩ | ⟨h', hi'⟩
    · rw [hi] at hi'
      cases hi'
    · rw [hi] at hi'
      cases hi'

end World

/-- No step takes a player or a room out of the world. -/
theorem Change.keeps {m m' : Moment} (h : Change m m') (hw : m.game.world.Sound) :
    m.game.world.Keeps m'.game.world := by
  rcases h.world_cases with he | ⟨message, he⟩ | ⟨u, room, he⟩ | ⟨u, hu, he⟩ <;> rw [he]
  · exact .refl
  · exact .of_index (.of_eq rfl rfl rfl rfl rfl) rfl
  · exact .of_index (.placeCharacter u room) (World.index_placeCharacter u room)
  · exact hw.keeps_extract hu

/-- However many steps are taken, and however many runs are under way. -/
theorem Changes.keeps {m m' : Moment} (h : Changes m m') (hw : m.game.world.Sound) :
    m.game.world.Keeps m'.game.world := by
  induction h with
  | refl => exact .refl
  | tail hs h ih => exact ih.trans (Changes.sound hs hw) (h.keeps (Changes.sound hs hw))

/--
In every game whose host keeps to the commands of the world: whatever is dispatched, typed, carried out,
run, walked or pulsed, and whatever triggers are attached, every player and every room is afterwards
found under the same handle, and its record is the same but for where it is and what it lists.
-/
theorem players_and_rooms_stay (config : Config) (registry : Registry) (ops : List Operation)
    (op : Operation)
    (hops : (Game.start config registry {}).Allows (fun g op => op.Crafts g) ops)
    (hop : op.isPlay = true) :
    let g := (Game.start config registry {}).play ops
    let w := g.world
    let w' := (op.apply g).world
    (∀ u h c, w.index.get? u = some (.character h) → w.characters.get? h = some c →
      c.isMobile = false → w'.index.get? u = some (.character h) ∧
        ∃ c', w'.characters.get? h = some c' ∧ c.Fades c') ∧
    ∀ u h r, w.index.get? u = some (.room h) → w.rooms.get? h = some r →
      w'.index.get? u = some (.room h) ∧ ∃ r', w'.rooms.get? h = some r' ∧ r.Fades r' := by
  intro g w w'
  have hw : w.Sound := play_sound World.sound_empty hops
  have hopen : (op.opening g).game.world = w := Operation.opening_world g op hop
  have hsound : w'.Sound := (op.apply_changes g).sound (hopen.symm ▸ hw)
  have hkeeps : w.Keeps w' := by
    have hk := (op.apply_changes g).keeps (hopen.symm ▸ hw)
    rwa [hopen] at hk
  refine ⟨fun u h c hi hc hp => ⟨hkeeps.player hi hc hp, hkeeps.player_record hsound hi hc hp⟩,
    fun u h r hi hr => ⟨hkeeps.room hi, hkeeps.room_record hsound hi hr⟩⟩

/-- A trigger whose run purges a player by name, everything around, and at last its owner. -/
def rampage : Prototype :=
  { vnum := 2, name := "rampage", kind := .mobile
    script := Script.compile "purge Ann\npurge\npurge %self%\n" }

def arena : World :=
  let pit := (({} : World).addRoom 100 "pit").2
  ((pit.addPlayer "Ann" (Uid.room 0)).2.addMobile 7 "an orc" (Uid.room 0)).2

theorem arena_crafted : Relation.ReflTransGen World.Craft {} arena :=
  .head (.addRoom 100 "pit") (.head (.addPlayer "Ann" (Uid.room 0))
    (.single (.addMobile 7 "an orc" (Uid.room 0))))

/-- The orc is about to run its trigger. -/
def pitted : Game :=
  (Game.start {} ((∅ : Registry).register rampage) {}).play
    [.replaceWorld arena, .attach 2 ⟨100001⟩ none]

/-- The orc is gone after its rampage, but the player is not. -/
theorem rampage_survived :
    ((Operation.run .standard ⟨0, 0⟩ .new).apply pitted).world.index.get? ⟨100001⟩ = none ∧
    ((Operation.run .standard ⟨0, 0⟩ .new).apply pitted).world.index.get? ⟨100000⟩ =
      some (.character ⟨0, 0⟩) := by
  have hmay : (Game.start {} ((∅ : Registry).register rampage) {}).Allows (fun g op => op.Crafts g)
      [.replaceWorld arena, .attach 2 ⟨100001⟩ none] :=
    ⟨fun w hw => (by cases hw; exact arena_crafted), fun w hw => (by cases hw), trivial⟩
  have hann : pitted.world.index.get? ⟨100000⟩ = some (.character ⟨0, 0⟩) ∧
      (pitted.world.characters.get? ⟨0, 0⟩).map (·.isMobile) = some false := by decide +kernel
  obtain ⟨c, hc, hplayer⟩ := Option.map_eq_some_iff.1 hann.2
  refine ⟨by decide +kernel, ?_⟩
  unfold pitted at hann hc ⊢
  exact ((players_and_rooms_stay {} ((∅ : Registry).register rampage)
    [.replaceWorld arena, .attach 2 ⟨100001⟩ none] (.run .standard ⟨0, 0⟩ .new) hmay rfl).1
    ⟨100000⟩ ⟨0, 0⟩ c hann.1 hc hplayer).1

end MudTrigger
