import MudTrigger.Proofs.Wait.Change
import MudTrigger.Proofs.World.Craft
import MudTrigger.Proofs.World.Unpack

/-!
# Purging removes exactly the right things

The engine forgets the entities that have left the world, each by itself, and all together they lose
their containers, triggers and waits, and nobody else does (`container?_forgetting` and the lemmas
after it). So purging an entity removes it and what it holds from the world and from the engine, and
nothing else changes, also where each entity stays in the index until its belongings have left
(`purge_exact`). Every world that is made by commands is sound.
-/

set_option autoImplicit false

namespace MudTrigger

open Game

namespace Game

variable {g : Game} {u x : Uid} {h : Handle}

/-! ## Forgetting one after another -/

theorem container?_forgetting (us : List Uid) (x : Uid) :
    (us.foldl extractEntity g).container? x = if x ∈ us then none else g.container? x := by
  induction us generalizing g with
  | nil => rw [if_neg List.not_mem_nil]; rfl
  | cons u us ih =>
    rw [List.foldl_cons, ih, container?_extractEntity]
    by_cases hx : x = u <;> by_cases hm : x ∈ us <;> simp [hx, hm]

theorem waits_forgetting (us : List Uid) :
    (us.foldl extractEntity g).engine.waits.pending =
      g.engine.waits.pending.filter fun w => w.continuation.owner ∉ us := by
  induction us generalizing g with
  | nil =>
    refine (List.filter_eq_self.2 fun w _ => ?_).symm
    exact decide_eq_true List.not_mem_nil
  | cons u us ih =>
    rw [List.foldl_cons, ih, waits_extractEntity]
    show (g.engine.waits.pending.filter _).filter _ = _
    rw [List.filter_filter]
    refine List.filter_congr fun w _ => ?_
    by_cases hu : w.continuation.owner = u <;> by_cases hm : w.continuation.owner ∈ us <;>
      simp [hu, hm]

/-- Where containers and triggers agree, those of the owner are forgotten, and no others. -/
theorem Coherent.instance?_extractEntity (hg : g.Coherent) (u : Uid) (h : Handle) :
    (g.extractEntity u).instance? h = (g.instance? h).filter (·.owner ≠ u) := by
  rw [Game.instance?_extractEntity]
  split
  · rename_i hm
    obtain ⟨i, hi, ho⟩ := hg.mem_listed_iff.1 hm
    rw [hi, Option.filter_some_neg (by simpa using ho)]
  · rename_i hm
    cases hi : g.instance? h with
    | none => rfl
    | some i =>
      have ho : i.owner ≠ u := fun ho => hm (hg.mem_listed_iff.2 ⟨i, hi, ho⟩)
      rw [Option.filter_some_pos (by simpa using ho)]

theorem Coherent.instance?_forgetting (hg : g.Coherent) (us : List Uid) (h : Handle) :
    (us.foldl Game.extractEntity g).instance? h = (g.instance? h).filter (·.owner ∉ us) := by
  induction us generalizing g with
  | nil =>
    rw [List.foldl_nil]
    cases g.instance? h with
    | none => rfl
    | some i => simp [Option.filter_some]
  | cons u us ih =>
    rw [List.foldl_cons, ih (hg.extractEntity u), hg.instance?_extractEntity]
    cases g.instance? h with
    | none => rfl
    | some i =>
      by_cases hu : i.owner = u
      · rw [Option.filter_some_neg (by simpa using hu), Option.filter_some_neg (by simp [hu])]
        rfl
      · rw [Option.filter_some_pos (by simpa using hu)]
        simp [Option.filter_some, hu]

/-! ## What purging does -/

/-- A game after exactly these entities have left it. -/
structure Loses (g g' : Game) (gone : List Uid) : Prop where
  absent : ∀ x ∈ gone, g'.world.resolve x = .nothing
  /-- The place where an object was does not list it. -/
  unlisted : ∀ x ∈ gone, ∀ o, g.world.object? x = some o → ¬ g'.world.Lists x o.location
  /-- The room where a character was does not have it among its people. -/
  vacated : ∀ x ∈ gone, ∀ c room, g.world.character? x = some c → c.inRoom = some room →
    ¬ g'.world.HasPerson x room
  resolve : ∀ x ∉ gone, g'.world.resolve x = g.world.resolve x
  /-- The others keep their records, but that these may list less. -/
  character : ∀ x ∉ gone, ∀ c, g.world.character? x = some c →
    ∃ c', g'.world.character? x = some c' ∧ c.Fades c' ∧ c'.inRoom = c.inRoom
  object : ∀ x ∉ gone, ∀ o, g.world.object? x = some o →
    ∃ o', g'.world.object? x = some o' ∧ o.Fades o' ∧ ∀ y ∈ o.contents, y ∈ o'.contents ∨ y ∈ gone
  room : ∀ x ∉ gone, ∀ r, g.world.room? x = some r →
    ∃ r', g'.world.room? x = some r' ∧ r.Fades r'
  container : ∀ x, g'.container? x = if x ∈ gone then none else g.container? x
  instances : ∀ h, g'.instance? h = (g.instance? h).filter (·.owner ∉ gone)
  waits : g'.engine.waits.pending =
    g.engine.waits.pending.filter fun w => w.continuation.owner ∉ gone

theorem Coherent.loses_purge (hg : g.Coherent) (hw : g.world.Sound) (u : Uid) :
    g.Loses (g.purge u) (g.world.extract u).1 := by
  have ht := World.takes_extract g.world u
  have hworld := (silent_purge (g := g) u).world
  have hg1 : (g.withWorld (g.world.extract u).2).Coherent := hg.of_same (same_of_eq rfl rfl)
  have hw1 := ht.sound hw
  have hresolve : ∀ x ∉ (g.world.extract u).1,
      (g.world.extract u).2.index.get? x = g.world.index.get? x := fun x => ht.index_of_not_mem
  have hspared : ∀ {x r}, x ∉ (g.world.extract u).1 → r ≠ .nothing → g.world.index.get? x = some r →
      g.world.Spared r (g.world.extract u).1 := fun hx hr hi y hy he =>
    hx (hw.ref_inj he hi hr ▸ hy)
  constructor
  · intro x hx
    rw [hworld]
    show (g.world.extract u).2.resolve x = _
    rw [World.resolve, ht.index_of_mem hx, Option.getD_none]
  · intro x hx o ho
    rw [hworld]
    exact ht.unlisted hw hx ho
  · intro x hx c room hc hroom
    rw [hworld]
    rcases ht.thing hw hx with hm | hthing
    · rw [List.mem_singleton] at hm
      subst hm
      exact ht.not_hasPerson hw hc hroom
    · obtain ⟨h, hi, -⟩ := World.character?_eq_some.1 hc
      exact absurd hi (hthing.1 h)
  · intro x hx
    rw [hworld]
    show (g.world.extract u).2.resolve x = _
    rw [World.resolve, hresolve x hx, World.resolve]
  · intro x hx c hc
    rw [hworld]
    obtain ⟨h, hi, hget⟩ := World.character?_eq_some.1 hc
    obtain ⟨c', hc', hcull⟩ := ht.character_kept hget (hspared hx (by simp) hi)
    obtain ⟨c0, hc0, hf⟩ := ht.wanes.character hc'
    rw [hget, Option.some.injEq] at hc0
    subst hc0
    exact ⟨c', World.character?_eq_some.2 ⟨h, (hresolve x hx).trans hi, hc'⟩, hf, hcull.inRoom⟩
  · intro x hx o ho
    rw [hworld]
    obtain ⟨h, hi, hget⟩ := World.object?_eq_some.1 ho
    obtain ⟨o', ho', hcull⟩ := ht.object_kept hget (hspared hx (by simp) hi)
    obtain ⟨o0, ho0, hf⟩ := ht.wanes.object ho'
    rw [hget, Option.some.injEq] at ho0
    subst ho0
    exact ⟨o', World.object?_eq_some.2 ⟨h, (hresolve x hx).trans hi, ho'⟩, hf, hcull.kept⟩
  · intro x hx r hr
    rw [hworld]
    obtain ⟨h, hi, hget⟩ := World.room?_eq_some.1 hr
    have hi' := (hresolve x hx).trans hi
    obtain ⟨r', hr', -⟩ := hw1.room hi'
    obtain ⟨r0, hr0, hf⟩ := ht.wanes.room hr'
    rw [hget, Option.some.injEq] at hr0
    subst hr0
    exact ⟨r', World.room?_eq_some.2 ⟨h, hi', hr'⟩, hf⟩
  · exact fun x => container?_forgetting _ x
  · exact fun h => hg1.instance?_forgetting _ h
  · exact waits_forgetting _

end Game

/-- Purging an entity of a sound world in which nothing holds itself comes to an end, and takes out
exactly the entity and the objects it holds, directly or not, each once and contents before their
holder; the game loses them and nothing else. -/
theorem purge_exact :
    (∀ w, Relation.ReflTransGen World.Craft {} w → w.Sound) ∧
    ∀ (g : Game) (u : Uid), g.world.Sound → g.world.Acyclic → g.Coherent →
      g.world.isMovable u = true → ∃ gone, gone = (g.world.extract u).1 ∧
        g.world.Unpacks [u] gone (g.purge u).world ∧
        (∀ x, x ∈ gone ↔ g.world.isMovable x = true ∧ Relation.ReflTransGen g.world.Holds u x) ∧
        (∀ x ∈ gone, x ≠ u → ∃ o, g.world.object? x = some o) ∧
        gone.Nodup ∧ gone.Pairwise (fun x y => y ∉ g.world.belongings x) ∧
        g.Loses (g.purge u) gone := by
  refine ⟨fun w h => World.sound_empty.crafts h, fun g u hw ha hg hu => ⟨_, rfl, ?_⟩⟩
  have ht := World.takes_extract g.world u
  have hworld : (g.purge u).world = (g.world.extract u).2 := (silent_purge u).world
  have hordered := ht.ordered_single hw ha hu
  refine ⟨?_, fun x => ht.mem_iff hw hu, fun x hx hne => ht.object_of_mem hw hx hne,
    hordered.imp And.left, hordered.imp And.right, hg.loses_purge hw u⟩
  rw [hworld]
  exact ht.unpacks hw ha

/-! ## A hoard -/

/-- Where everyone holds only those with greater identities, nothing holds itself. -/
theorem World.acyclic_of_later {w : World}
    (h : ∀ e ∈ w.index.entries, ∀ x ∈ w.belongings e.1, e.1.raw < x.raw) : w.Acyclic := by
  have hstep : ∀ {u x}, w.Holds u x → u.raw < x.raw := by
    intro u x hx
    obtain ⟨r, hr⟩ : ∃ r, w.index.get? u = some r := by
      rcases World.mem_belongings.1 hx with ⟨c, hc, -⟩ | ⟨o, ho, -⟩
      · obtain ⟨h, hi, -⟩ := World.character?_eq_some.1 hc
        exact ⟨_, hi⟩
      · obtain ⟨h, hi, -⟩ := World.object?_eq_some.1 ho
        exact ⟨_, hi⟩
    obtain ⟨e, he, rfl⟩ := Option.map_eq_some_iff.1 hr
    have hu : e.1 = u := by simpa using List.find?_some he
    exact hu ▸ h e (Table.mem_entries.2 (List.mem_of_find?_eq_some he)) x (hu ▸ hx)
  intro u hu
  have hlt : ∀ {x}, Relation.TransGen w.Holds u x → u.raw < x.raw := fun hx => by
    induction hx with
    | single hx => exact hstep hx
    | tail _ hx ih => exact Nat.lt_trans ih (hstep hx)
  exact Nat.lt_irrefl _ (hlt hu)

/-- A trigger whose run waits. -/
def brooding : Prototype :=
  { vnum := 3, name := "brood", kind := .object, script := Script.compile "wait 5\n" }

/-- An orc in a cave, with a bag in its hands and a gem in the bag, and someone who looks on. -/
def hoard : World :=
  let cave := (({} : World).addRoom 100 "cave").2
  let orc := (cave.addMobile 7 "an orc" (Uid.room 0)).2
  let bag := (orc.addObject 8 "a bag" (.carried ⟨100000⟩)).2
  let gem := (bag.addObject 9 "a gem" (.inside ⟨100001⟩)).2
  (gem.addPlayer "Ann" (Uid.room 0)).2

theorem hoard_crafted : Relation.ReflTransGen World.Craft {} hoard :=
  .head (.addRoom 100 "cave") (.head (.addMobile 7 "an orc" (Uid.room 0))
    (.head (.addObject 8 "a bag" (.carried ⟨100000⟩))
      (.head (.addObject 9 "a gem" (.inside ⟨100001⟩)) (.single (.addPlayer "Ann" (Uid.room 0))))))

/-- The bag broods when the orc is purged with all that it has. -/
theorem hoard_purged : ∃ g : Game, g.world = hoard ∧ g.engine.waits.pending.length = 1 ∧
    g.Loses (g.purge ⟨100000⟩) [⟨100002⟩, ⟨100001⟩, ⟨100000⟩] ∧
    (g.purge ⟨100000⟩).engine.waits.pending = [] := by
  let begun : Game := Game.start {} ((∅ : Registry).register brooding) {}
  let ops : List Operation :=
    [.replaceWorld hoard, .attach 3 ⟨100001⟩ none, .run .standard ⟨0, 0⟩ .new]
  have hfacts : (begun.play ops).engine.waits.pending.length = 1 ∧
      ((begun.play ops).world.extract ⟨100000⟩).1 = [⟨100002⟩, ⟨100001⟩, ⟨100000⟩] ∧
      (begun.play ops).world.isMovable ⟨100000⟩ = true ∧
      (∀ e ∈ (begun.play ops).world.index.entries,
        ∀ x ∈ (begun.play ops).world.belongings e.1, e.1.raw < x.raw) ∧
      ((begun.play ops).purge ⟨100000⟩).engine.waits.pending = [] := by decide +kernel
  obtain ⟨hpending, hgone, hmovable, hlater, hnone⟩ := hfacts
  have hworld : (begun.play ops).world = hoard := by rfl
  obtain ⟨gone, he, -, -, -, -, -, hloses⟩ := purge_exact.2 (begun.play ops) ⟨100000⟩
    (hworld ▸ purge_exact.1 hoard hoard_crafted) (World.acyclic_of_later hlater)
    (play_coherent {} _ {} ops) hmovable
  exact ⟨begun.play ops, hworld, hpending, hgone ▸ he ▸ hloses, hnone⟩

end MudTrigger
