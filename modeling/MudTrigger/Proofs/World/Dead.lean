import MudTrigger.Proofs.World.Deed

/-!
# What has left the world runs no scripts

Once an entity has left the world, none of its triggers is attached and nothing of it is pending
(`Game.Lacks`), and this stays so, because nothing can be attached to it any more
(`Stage.Sane.buried_next`). Runs of its triggers that were under way find themselves without a
trigger, even if its slot was used again. So its scripts are dead (`purged_dead`), unless the world is
given new rooms, which may take its identity.
-/

set_option autoImplicit false

namespace MudTrigger

open Game

namespace Game

variable {g : Game} {u : Uid} {h : Handle}

/-- Nothing is attached to the entity, and nothing of it is pending. -/
structure Lacks (g : Game) (u : Uid) : Prop where
  triggers : ∀ {h i}, g.instance? h = some i → i.owner ≠ u
  waits : ∀ w ∈ g.engine.waits.pending, w.continuation.owner ≠ u

theorem Lacks.extractEntity (hg : g.Lacks u) (v : Uid) : (g.extractEntity v).Lacks u := by
  refine ⟨fun {h i} hi => ?_, fun w hw => hg.waits w ((drains_extractEntity v).pending.subset hw)⟩
  rcases spares_extractEntity v h with he | he
  · exact hg.triggers (he.symm.trans hi)
  · rw [he] at hi
    cases hi

theorem Coherent.lacks_extractEntity (hg : g.Coherent) (u : Uid) : (g.extractEntity u).Lacks u := by
  refine ⟨fun {h i} hi ho => ?_, fun w hw => ?_⟩
  · rw [instance?_extractEntity] at hi
    split at hi
    · cases hi
    · rename_i hn
      exact hn (hg.mem_listed_iff.2 ⟨i, hi, ho⟩)
  · rw [waits_extractEntity] at hw
    exact (WaitQueue.mem_cancelOwner.1 hw).2

/-- The engine forgets everything that leaves the world. -/
theorem Coherent.lacks_purge (hg : g.Coherent) {v : Uid} (hu : u ∈ (g.world.extract v).1) :
    (g.purge v).Lacks u := by
  have hf : ∀ (us : List Uid) (g1 : Game), g1.Coherent → g1.Lacks u ∨ u ∈ us →
      (us.foldl Game.extractEntity g1).Lacks u := by
    intro us
    induction us with
    | nil => exact fun g1 _ h => h.resolve_right List.not_mem_nil
    | cons x us ih =>
      intro g1 h1 h
      refine ih _ (h1.extractEntity x) ?_
      rcases h with h | h
      · exact .inl (h.extractEntity x)
      · rcases List.mem_cons.1 h with rfl | h
        · exact .inl (h1.lacks_extractEntity u)
        · exact .inr h
  exact hf _ (g.withWorld _) (hg.of_same (same_of_eq rfl rfl)) (.inr hu)

theorem kindOf_gone (hu : g.world.Gone u) : g.kindOf u = .error (.noSuchTarget u) := by
  rw [kindOf, World.resolve, hu.absent]
  rfl

/-- Nothing can be attached to what has left the world. -/
theorem attach_gone (hu : g.world.Gone u) {vnum : Vnum} {p : Prototype}
    (hp : g.engine.registry.get? vnum = some p) (position : Option Nat) :
    g.attach vnum u position = .error (.noSuchTarget u) := by
  simp only [attach, hp, kindOf_gone hu]

theorem attach_target (hu : g.world.Gone u) {vnum : Vnum} {target : Uid} {position : Option Nat}
    {g' : Game} (ha : g.attach vnum target position = .ok (h, g')) : target ≠ u := by
  rintro rfl
  unfold attach at ha
  split at ha
  · cases ha
  · simp only [kindOf_gone hu] at ha
    cases ha

end Game

/-- The owners of triggers after a step had triggers before, or got one now. -/
theorem Effect.lacks {m m' : Moment} {u : Uid} (he : Effect m m') (hq : QueueEffect m m')
    (hm : Upright m) (hs : m.game.engine.triggers.Sound) (hg : m.game.Lacks u)
    (hu : m.game.world.Gone u) : m'.game.Lacks u := by
  constructor
  · intro h j hj
    cases he with
    | spare _ _ hx =>
      rcases hx h with he | he
      · exact hg.triggers (he.symm.trans hj)
      · rw [he] at hj
        cases hj
    | @attach vnum target position _ _ ha =>
      have hne := attach_target hu ha
      obtain ⟨p, -, hg'⟩ := attach_ok ha
      rw [hg', instance?_attachTo target vnum p position hs] at hj
      split at hj
      · cases hj
        exact hne
      · exact hg.triggers hj
    | @work a s n _ _ _ hx hself | @leave a s _ _ _ hx hself =>
      by_cases hh : h = a.trigger
      · obtain ⟨i, hi, ho, -⟩ := hself j (hh ▸ hj)
        rw [ho]
        exact hg.triggers hi
      · exact hg.triggers ((hx h hh).symm.trans hj)
    | @enter a i _ _ hx hi _ _ hself =>
      by_cases hh : h = a.trigger
      · obtain ⟨k, hk, ho, -⟩ := hself
        rw [hh, hk, Option.some.injEq] at hj
        rw [← hj, ho]
        exact hg.triggers hi
      · exact hg.triggers ((hx h hh).symm.trans hj)
    | @refuse x i _ _ hx hi _ hself =>
      by_cases hh : h = x
      · rw [hh, hself, Option.some.injEq] at hj
        subst hj
        exact hg.triggers (i := i) hi
      · exact hg.triggers ((hx h hh).symm.trans hj)
  · intro w hw
    cases hq with
    | shrinks h => exact hg.waits w (h.pending.subset hw)
    | @schedule a s i line delay kind hst _ hi hq =>
      rw [hq] at hw
      rcases WaitQueue.mem_schedule.1 hw with rfl | hw
      · have ho := (hm.running (hst ▸ List.mem_cons_self) hi).2.2
        exact fun he => hg.triggers hi (ho.trans he)
      · exact hg.waits w hw

/-- An entity that has no triggers does nothing. -/
theorem DeedEffect.deeds_eq {m m' : Moment} {u : Uid} (h : DeedEffect m m') (hm : Upright m)
    (hg : m.game.Lacks u) : m'.game.deeds u = m.game.deeds u := by
  cases h with
  | silent hs => exact hs.deeds u
  | edit _ hd => exact hd u
  | @deed n h i owner hi ho hn _ hs =>
    have hne : owner ≠ u := by
      rcases ho with rfl | ⟨a, ha, rfl, rfl⟩
      · exact hg.triggers hi
      · exact (hm.running ha hi).2.2 ▸ hg.triggers hi
    rw [hs.deeds, deeds_report, hn, if_neg (by rwa [Option.some.injEq]), List.append_nil]
  | @reach a s line hst live _ _ _ hs =>
    obtain ⟨i, hi⟩ := (hasTrigger_iff _ _).1 live
    have hne : a.owner ≠ u :=
      (hm.running (hst ▸ List.mem_cons_self) hi).2.2 ▸ hg.triggers hi
    rw [hs.deeds, deeds_report, show Notice.doer? (.reached a.trigger a.owner line) = some a.owner
      from rfl, if_neg (by rwa [Option.some.injEq]), List.append_nil]

/-! ## Calls that only use the world's commands -/

namespace Operation

/-- A call does to the world what its commands do. -/
def Builds (g : Game) (op : Operation) : Prop :=
  ∀ w, op = .replaceWorld w → Relation.ReflTransGen World.Build g.world w

/-- A call does to the world what those of its commands do that build no room. -/
def Edits (g : Game) (op : Operation) : Prop :=
  ∀ w, op = .replaceWorld w → Relation.ReflTransGen World.Edit g.world w

end Operation

namespace Stage

variable {p p' : Stage} {u : Uid}

theorem Next.deedEffect (h : Next Operation.Edits p p') : DeedEffect p.moment p'.moment := by
  cases h with
  | change hf => exact hf.change.deedEffect
  | call op hop => exact Operation.deedEffect hop

theorem Next.numbered (h : Next Operation.Builds p p') (hp : p.game.world.Numbered) :
    p'.game.world.Numbered := by
  cases h with
  | change hf => exact (hf.change.deedEffect.extends hp).numbered hp
  | @call g n op hop =>
    by_cases hw : ∃ w, op = .replaceWorld w
    · obtain ⟨w, rfl⟩ := hw
      exact hp.builds (hop w rfl)
    · have hd : DeedEffect ⟨[], g⟩ (op.opening g) :=
        Operation.deedEffect fun w he => absurd ⟨w, he⟩ hw
      exact (hd.extends hp).numbered hp

theorem numbered_course (h : Course Operation.Builds p p') (hp : p.game.world.Numbered) :
    p'.game.world.Numbered := by
  induction h with
  | refl => exact hp
  | tail _ h ih => exact h.numbered ih

/-- The entity has left the world, and the engine has forgotten it. -/
structure Buried (u : Uid) (p : Stage) : Prop where
  gone : p.game.world.Gone u
  numbered : p.game.world.Numbered
  lacks : p.game.Lacks u

/-- One step digs nothing up, and the entity does nothing. -/
theorem Sane.buried_next (hp : p.Sane) (hb : p.Buried u) (h : Next Operation.Edits p p') :
    p'.Buried u ∧ p'.game.deeds u = p.game.deeds u := by
  have hw := h.deedEffect.extends hb.numbered
  exact ⟨⟨hw.gone hb.gone, hw.numbered hb.numbered,
    h.effect.lacks h.queueEffect hp.upright hp.coherent.sound hb.lacks hb.gone⟩,
    h.deedEffect.deeds_eq hp.upright hb.lacks⟩

end Stage

/-- However a game came about: from the moment at which an entity leaves the world, no trigger of it
begins or goes on with a run, reaches a line, evaluates a condition or gives a command, and nothing of
it is attached or pending; as long as the world gets no new rooms. -/
theorem purged_dead (config : Config) (registry : Registry) :
    (∀ g op, Relation.ReflTransGen Fair (Operation.opening g op) ⟨[], op.apply g⟩) ∧
    ∀ p p1 u v, Course Operation.Builds (Stage.start (Game.start config registry {})) p →
      Stage.Next Operation.Builds p p1 → p1.moment = ⟨p.moment.stack, p.game.purge v⟩ →
      u ∈ (p.game.world.extract v).1 → ∀ p2, Course Operation.Edits p1 p2 →
        p2.game.deeds u = p.game.deeds u ∧
        (∀ h i, p2.game.instance? h = some i → i.owner ≠ u) ∧
        (∀ w ∈ p2.game.engine.waits.pending, w.continuation.owner ≠ u) ∧
        ∀ vnum q position, p2.game.engine.registry.get? vnum = some q →
          p2.game.attach vnum u position = .error (.noSuchTarget u) := by
  refine ⟨Operation.opening_leads, fun p p1 u v hc hn hp1 hu p2 hc2 => ?_⟩
  have hp := (Stage.sane_start config registry {}).course hc
  have hw := Stage.numbered_course hc World.numbered_empty
  have hsane := hp.next hn
  have hquiet := silent_purge (g := p.game) v
  have hb : p1.Buried u ∧ p1.game.deeds u = p.game.deeds u := by
    obtain ⟨m, n⟩ := p1
    cases hp1
    exact ⟨⟨hquiet.world ▸ hw.gone_extract hu,
      hquiet.world ▸ (World.Extends.extract hw v).numbered hw, hp.coherent.lacks_purge hu⟩,
      hquiet.deeds u⟩
  have hall : p2.Sane ∧ p2.Buried u ∧ p2.game.deeds u = p.game.deeds u := by
    clear hu
    induction hc2 with
    | refl => exact ⟨hsane, hb⟩
    | tail _ hn ih =>
      obtain ⟨hs, hb, hd⟩ := ih
      obtain ⟨hb', hd'⟩ := hs.buried_next hb hn
      exact ⟨hs.next hn, hb', hd'.trans hd⟩
  exact ⟨hall.2.2, fun _ _ hi => hall.2.1.lacks.triggers hi, hall.2.1.lacks.waits,
    fun _ _ position hq => attach_gone hall.2.1.gone hq position⟩

/-- A trigger of mobiles whose run takes its owner out of the world. -/
def vanishing : Prototype :=
  { vnum := 1, name := "vanish", kind := .mobile, script := Script.compile "purge %self%\n" }

def den : World := ((({} : World).addRoom 100 "den").2.addMobile 7 "an orc" (Uid.room 0)).2

theorem den_built : Relation.ReflTransGen World.Build {} den :=
  .head (.addRoom 100 "den") (.single (.edit (.addMobile 7 "an orc" (Uid.room 0))))

/-- The orc is taken out of the world while its own trigger runs. -/
theorem orc_purged_dead :
    ∃ (p p1 : Stage) (a : Activation), p.moment.stack = [a] ∧ a.owner = ⟨100000⟩ ∧
      p1.moment = ⟨[a], p.game.purge ⟨100000⟩⟩ ∧
      ∀ p2, Course Operation.Edits p1 p2 →
        p2.game.deeds ⟨100000⟩ = p.game.deeds ⟨100000⟩ ∧
        ∀ vnum q position, p2.game.engine.registry.get? vnum = some q →
          p2.game.attach vnum ⟨100000⟩ position = .error (.noSuchTarget ⟨100000⟩) := by
  let begun : Game := Game.start {} ((∅ : Registry).register vanishing) {}
  let ops : List Operation := [.replaceWorld den, .attach 1 ⟨100000⟩ none]
  have hmay : begun.Allows Operation.Builds ops :=
    ⟨fun w hw => (by cases hw; exact den_built), fun w hw => (by cases hw), trivial⟩
  have hpaced : begun.Paced ops := by decide +kernel
  obtain ⟨n, hc⟩ := play_course hmay hpaced begun.attachments
  have hg : ((begun.play ops).instance? ⟨0, 0⟩).map (·.owner) = some ⟨100000⟩ ∧
      (begun.play ops).engine.depth ≤ (begun.play ops).engine.config.maxScriptDepth ∧
      isPlayer (begun.play ops).world ⟨100000⟩ = false ∧
      ⟨100000⟩ ∈ ((begun.play ops).world.extract ⟨100000⟩).1 := by decide +kernel
  generalize begun.play ops = g at hc hg
  obtain ⟨howner, hdepth, hmob, hleft⟩ := hg
  obtain ⟨i, hi, ho⟩ := Option.map_eq_some_iff.1 howner
  have hbegin : Stage.Next Operation.Builds ⟨⟨[], g⟩, n⟩ _ :=
    .begin .standard (fun w hw => by cases hw) hi hdepth
  let a : Activation := ⟨⟨0, 0⟩, i.owner, i.proto, 0, false⟩
  let g1 : Game := (g.enter ⟨0, 0⟩ i.owner).begin ⟨0, 0⟩
  have hentered : Silent (g.report (.started ⟨0, 0⟩ i.owner)) (g.enter ⟨0, 0⟩ i.owner) :=
    silent_of_eq rfl rfl
  have hworld : g1.world = g.world := (hentered.trans (silent_begin _)).world
  have hquiet : (g1.purge ⟨100000⟩).attachments = g.attachments :=
    (((quiet_enter _ _).trans (quiet_begin _)).trans (quiet_purge _)).attachments
  have hpurge : Tame ⟨[a], g1⟩ ⟨[a], g1.purge ⟨100000⟩⟩ :=
    tame_of_stack (.purge (hworld ▸ hmob)) fun _ hx => hx
  have hnext : Stage.Next Operation.Builds ⟨⟨[a], g1⟩, g.attachments⟩
      ⟨⟨[a], g1.purge ⟨100000⟩⟩, g.attachments⟩ :=
    .change hpurge.fair (hquiet ▸ Nat.lt_add_of_pos_right (by decide))
  refine ⟨⟨⟨[a], g1⟩, g.attachments⟩, ⟨⟨[a], g1.purge ⟨100000⟩⟩, g.attachments⟩, a, rfl, ho, rfl,
    fun p2 hp2 => ?_⟩
  have h := (purged_dead {} ((∅ : Registry).register vanishing)).2 _ _ ⟨100000⟩ ⟨100000⟩
    (hc.tail hbegin) hnext rfl (by rwa [Stage.game, hworld]) p2 hp2
  exact ⟨h.1, h.2.2.2⟩

end MudTrigger
