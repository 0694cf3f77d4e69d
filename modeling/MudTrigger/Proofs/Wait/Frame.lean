import MudTrigger.Proofs.Trace.Agree
import MudTrigger.Proofs.Wait.Effect

/-!
# A suspended run is left alone

`Upright`: the runs under way are those of different triggers, which are not idle and wait for
nothing, and of the other triggers those that are not idle wait for something. Every step keeps this
(`Upright.effect`), also when the host makes runs go on by itself. As events start idle triggers only,
nothing touches a run that waits until it is taken up, unless its trigger is removed or the host runs
it (`Upright.suspended_effect`, `suspended_untouched`).
-/

set_option autoImplicit false

namespace MudTrigger

open Game

/-- The runs under way and the runs that wait are told apart by their triggers (module doc). -/
structure Upright (m : Moment) : Prop where
  depth : m.game.engine.depth = m.stack.length
  nodup : m.handles.Nodup
  running : ∀ {a i}, a ∈ m.stack → m.game.instance? a.trigger = some i →
    i.isIdle = false ∧ i.wait = none ∧ i.owner = a.owner
  resting : ∀ {h i}, h ∉ m.handles → m.game.instance? h = some i →
    (i.isIdle = true ↔ i.wait = none)

namespace Upright

variable {m m' : Moment} {h : Handle} {i : Instance}

theorem not_mem_of_idle (hm : Upright m) (hi : m.game.instance? h = some i)
    (hidle : i.isIdle = true) : h ∉ m.handles := fun hh => by
  obtain ⟨a, ha, rfl⟩ := List.mem_map.1 hh
  rw [(hm.running ha hi).1] at hidle
  cases hidle

/-- A run that waits is not under way. -/
theorem waiting (hm : Upright m) (hi : m.game.instance? h = some i) (hw : i.wait.isSome = true) :
    h ∉ m.handles ∧ i.isIdle = false := by
  have hh : h ∉ m.handles := fun hh => by
    obtain ⟨a, ha, rfl⟩ := List.mem_map.1 hh
    rw [(hm.running ha hi).2.1] at hw
    cases hw
  refine ⟨hh, Bool.eq_false_iff.2 fun hidle => ?_⟩
  rw [(hm.resting hh hi).1 hidle] at hw
  cases hw

theorem not_mem_of_free (hm : Upright m) (hi : m.game.instance? h = some i)
    (hs : i.isIdle = true ∨ m.stack = []) : h ∉ m.handles := by
  rcases hs with hidle | hs
  · exact hm.not_mem_of_idle hi hidle
  · rw [Moment.handles, hs]
    exact List.not_mem_nil

theorem of_start (g : Game) (hg : ∀ h, g.instance? h = none) (hd : g.engine.depth = 0) :
    Upright ⟨[], g⟩ where
  depth := hd
  nodup := List.nodup_nil
  running ha := by cases ha
  resting {h i} _ hi := by
    have hi : g.instance? h = some i := hi
    rw [hg] at hi
    cases hi

/-- Every step keeps the runs apart. -/
theorem effect (hm : Upright m) (he : Effect m m') (hs : m.game.engine.triggers.Sound)
    (hfresh : ∀ target p, m'.game.attachments = m.game.attachments + 1 →
      ∀ a ∈ m.stack, a.trigger ≠ m.game.nextHandle target p) : Upright m' := by
  obtain ⟨s', g'⟩ := m'
  cases he with
  | spare hst hd hx =>
    cases hst
    have hold : ∀ {x j}, g'.instance? x = some j → m.game.instance? x = some j := fun {x j} hj => by
      rcases hx x with he | he
      · exact he.symm.trans hj
      · rw [show g'.instance? x = none from he] at hj
        cases hj
    exact ⟨hd.trans hm.depth, hm.nodup, fun ha hi => hm.running ha (hold hi),
      fun hn hi => hm.resting hn (hold hi)⟩
  | @attach vnum target position _ hst ha =>
    cases hst
    obtain ⟨p, -, hg⟩ := attach_ok ha
    obtain rfl : g' = m.game.attachTo target vnum p position := hg
    have hx := instance?_attachTo target vnum p position hs
    refine ⟨hm.depth, hm.nodup, fun {a i} ha hi => ?_, fun {x i} hn hi => ?_⟩
    · have hi : (m.game.attachTo target vnum p position).instance? a.trigger = some i := hi
      rw [hx, if_neg (hfresh target p (attachments_attachTo _ _ _ _) a ha)] at hi
      exact hm.running ha hi
    · have hi : (m.game.attachTo target vnum p position).instance? x = some i := hi
      rw [hx] at hi
      split at hi
      · cases hi
        exact ⟨fun _ => rfl, fun _ => rfl⟩
      · exact hm.resting hn hi
  | @work a s n hst hst' hd hx hself =>
    obtain ⟨s0, g⟩ := m
    cases hst
    cases hst'
    refine ⟨hd.trans hm.depth, hm.nodup, fun {b i} hb hi => ?_, fun {x i} hn hi => ?_⟩
    · by_cases hba : b.trigger = a.trigger
      · rw [hba] at hi
        obtain ⟨j, hj, ho, hw, hk⟩ := hself i hi
        have hr := hm.running List.mem_cons_self hj
        refine ⟨hk hr.1, hw.trans hr.2.1, ?_⟩
        rcases List.mem_cons.1 hb with rfl | hb
        · exact ho.trans hr.2.2
        · exact absurd (List.mem_map.2 ⟨b, hb, hba⟩) (List.nodup_cons.1 hm.nodup).1
      · rcases List.mem_cons.1 hb with rfl | hb
        · exact absurd rfl hba
        · exact hm.running (List.mem_cons_of_mem _ hb) ((hx _ hba).symm.trans hi)
    · have hne : x ≠ a.trigger := fun he => hn (he ▸ List.mem_cons_self)
      exact hm.resting hn ((hx x hne).symm.trans hi)
  | @leave a s hst hst' hd hx hself =>
    obtain ⟨s0, g⟩ := m
    cases hst
    cases hst'
    have hna := (List.nodup_cons.1 hm.nodup).1
    refine ⟨hd.trans (by rw [hm.depth]; rfl), (List.nodup_cons.1 hm.nodup).2, fun {b i} hb hi => ?_,
      fun {x i} hn hi => ?_⟩
    · have hne : b.trigger ≠ a.trigger := fun he => hna (List.mem_map.2 ⟨b, hb, he⟩)
      exact hm.running (List.mem_cons_of_mem _ hb) ((hx _ hne).symm.trans hi)
    · by_cases he : x = a.trigger
      · rw [he] at hi
        obtain ⟨j, hj, -, hw | ⟨hk, hw⟩⟩ := hself i hi
        · exact ⟨fun _ => hw.2, fun _ => hw.1⟩
        · rw [hk, (hm.running List.mem_cons_self hj).1]
          refine ⟨fun hidle => (by cases hidle), fun hnone => ?_⟩
          rw [hnone] at hw
          cases hw
      · exact hm.resting (mt List.mem_cons.1 (not_or.2 ⟨he, hn⟩)) ((hx x he).symm.trans hi)
  | @enter a i hst hd hx hi hfree ho hself =>
    cases hst
    have hn := hm.not_mem_of_free hi hfree
    obtain ⟨k, hk, hko, hkidle, hkw⟩ := hself
    refine ⟨hd.trans (by rw [hm.depth]; rfl), List.nodup_cons.2 ⟨hn, hm.nodup⟩,
      fun {b j} hb hj => ?_, fun {x j} hnx hj => ?_⟩
    · rcases List.mem_cons.1 hb with rfl | hb
      · have hj : g'.instance? b.trigger = some j := hj
        rw [hk, Option.some.injEq] at hj
        exact hj ▸ ⟨hkidle, hkw, hko.trans ho.symm⟩
      · have hne : b.trigger ≠ a.trigger := fun he => hn (List.mem_map.2 ⟨b, hb, he⟩)
        exact hm.running hb ((hx _ hne).symm.trans hj)
    · obtain ⟨hne, hnx⟩ := not_or.1 (mt List.mem_cons.2 hnx)
      exact hm.resting hnx ((hx x hne).symm.trans hj)
  | @refuse x i hst hd hx hi hfree hself =>
    cases hst
    have hn := hm.not_mem_of_free hi (hfree.imp id And.left)
    refine ⟨hd.trans hm.depth, hm.nodup, fun {b j} hb hj => ?_, fun {y j} hny hj => ?_⟩
    · have hne : b.trigger ≠ x := fun he => hn (List.mem_map.2 ⟨b, hb, he⟩)
      exact hm.running hb ((hx _ hne).symm.trans hj)
    · by_cases he : y = x
      · have hj : g'.instance? y = some j := hj
        rw [he, hself, Option.some.injEq] at hj
        exact hj ▸ ⟨fun _ => rfl, fun _ => rfl⟩
      · exact hm.resting hny ((hx y he).symm.trans hj)

/-- A step that does not take up a run that waits leaves it as it is, or removes its trigger. -/
theorem suspended_effect (hm : Upright m) (he : Effect m m') (hs : m.game.engine.triggers.Sound)
    (hi : m.game.instance? h = some i) (hw : i.wait.isSome = true) :
    m'.game.instance? h = some i ∨ m'.game.instance? h = none ∨
      h ∈ m'.handles ∧ m.stack = [] := by
  obtain ⟨hn, hidle⟩ := hm.waiting hi hw
  cases he with
  | spare _ _ hx => exact (hx h).imp (fun he => he.trans hi) .inl
  | @attach vnum target position _ _ ha =>
    obtain ⟨q, -, hg⟩ := attach_ok ha
    refine .inl ?_
    rw [hg, instance?_attachTo target vnum q position hs, if_neg]
    · exact hi
    · rintro rfl
      rw [instance?_nextHandle target q hs] at hi
      cases hi
  | work _ hst _ _ hx =>
    exact .inl ((hx h fun he => hn (by rw [Moment.handles, hst, he]; exact List.mem_cons_self)).trans hi)
  | leave hst _ _ hx =>
    exact .inl ((hx h fun he => hn (by rw [Moment.handles, hst, he]; exact List.mem_cons_self)).trans hi)
  | @enter a j hst _ hx hj hfree =>
    by_cases he : h = a.trigger
    · subst he
      rw [hi, Option.some.injEq] at hj
      subst hj
      rw [hidle] at hfree
      refine .inr (.inr ⟨?_, hfree.resolve_left (by decide)⟩)
      rw [Moment.handles, hst]
      exact List.mem_cons_self
    · exact .inl ((hx h he).trans hi)
  | @refuse x j _ _ hx hj hfree =>
    by_cases he : h = x
    · subst he
      rw [hi, Option.some.injEq] at hj
      subst hj
      rw [hidle, hm.depth] at hfree
      obtain ⟨hst, hlt⟩ := hfree.resolve_left (by decide)
      rw [hst] at hlt
      exact absurd hlt (Nat.not_lt_zero _)
    · exact .inl ((hx h he).trans hi)

end Upright

/-! ## Stages -/

namespace Game

variable {g : Game}

theorem Coherent.opening (hg : g.Coherent) (op : Operation) : (op.opening g).game.Coherent := by
  cases op with
  | extractEntity u => exact hg.extractEntity u
  | setGlobal u name value => exact hg.intervention (.setGlobal u name value)
  | purge u => exact hg.purge u
  | replaceWorld w => exact hg.intervention (.replaceWorld w)
  | pulse host => exact hg.of_same (same_of_eq rfl rfl)
  | run host h mode =>
    show (Operation.runOpening g h mode).game.Coherent
    have hopens := Operation.runOpening_opens g h mode
    generalize Operation.runOpening g h mode = m at hopens
    cases hopens with
    | stale => exact hg
    | @refused _ i => exact hg.of_same (same_refuse h i mode)
    | begun => exact hg.of_same ((same_enter _ _).trans (same_begin _))
    | takenUp => exact hg.of_same ((same_enter _ _).trans (same_takeUp _))
  | attach | detach | detachAll | dispatch | interpret | execute | walk => exact hg

end Game

namespace Stage

variable {may : Game → Operation → Prop} {p p' : Stage} {h : Handle} {i : Instance}

/-- What holds at every stage. -/
structure Sane (p : Stage) : Prop where
  coherent : p.game.Coherent
  upright : Upright p.moment
  tracked : Tracked p.issued p.moment

theorem sane_start (config : Config) (registry : Registry) (world : World) :
    (start (Game.start config registry world)).Sane :=
  ⟨coherent_start config registry world, .of_start _ (fun _ => rfl) rfl, .of_idle _⟩

theorem tracked_opening (g : Game) (op : Operation) : Tracked g.attachments (op.opening g) := by
  refine ⟨Nat.le_of_eq (attachments_opening g op).symm, fun {a} ha => ?_⟩
  cases op.effect g with
  | spare hst | attach hst | refuse hst =>
    rw [hst] at ha
    cases ha
  | work _ hst | leave hst => cases hst
  | enter hst _ _ _ _ _ hself =>
    rw [hst] at ha
    obtain rfl := List.mem_singleton.1 ha
    obtain ⟨j, hj, -⟩ := hself
    exact Arena.within_of_get? hj _

theorem Sane.next (hp : p.Sane) (h : Next may p p') : p'.Sane := by
  cases h with
  | @change m m' n hf hn =>
    refine ⟨hp.coherent.change hf.change, ?_, hp.tracked.change hf.change hp.coherent.sound hn⟩
    refine hp.upright.effect hf.change.effect hp.coherent.sound fun target q ha a hmem => ?_
    exact hp.tracked.attach hp.coherent.sound (ha ▸ hn) hmem target q
  | @call g n op _ =>
    refine ⟨hp.coherent.opening op, ?_, tracked_opening g op⟩
    exact hp.upright.effect (op.effect g) hp.coherent.sound fun _ _ _ a ha => by cases ha

theorem Sane.course (hp : p.Sane) (h : Course may p p') : p'.Sane := by
  induction h with
  | refl => exact hp
  | tail _ h ih => exact ih.next h

/-- What ends the suspension of a run, from one stage to the next. -/
inductive Frees (h : Handle) (p p' : Stage) : Prop
  | removed : p'.game.instance? h = none → Frees h p p'
  /-- A pulse takes up its continuation. -/
  | takenUp : p.moment.Takes h → h ∈ p'.moment.handles → Frees h p p'
  /-- The host runs the trigger. -/
  | restarted (host : Host) (mode : RunMode) : p.moment.stack = [] →
    p'.moment = Operation.opening p.game (.run host h mode) → Frees h p p'

/-- One step leaves a run that waits as it is, or frees it. -/
theorem Sane.suspended_next (hp : p.Sane) (hn : Next may p p') (hi : p.game.instance? h = some i)
    (hw : i.wait.isSome = true) : p'.game.instance? h = some i ∨ Frees h p p' := by
  have hnot := (hp.upright.waiting hi hw).1
  cases hn with
  | @change m m' n hf hlt =>
    rcases hp.upright.suspended_effect hf.change.effect hp.coherent.sound hi hw with he | he | ⟨hmem, -⟩
    · exact .inl he
    · exact .inr (.removed he)
    · refine .inr (.takenUp ((hf.starts h hmem hnot).resolve_left ?_) hmem)
      rintro ⟨j, hj, hidle⟩
      have hj : m.game.instance? h = some j := hj
      have hi : m.game.instance? h = some i := hi
      rw [hi, Option.some.injEq] at hj
      rw [← hj, (hp.upright.waiting hi hw).2] at hidle
      cases hidle
  | @call g n op hmay =>
    rcases hp.upright.suspended_effect (op.effect g) hp.coherent.sound hi hw with he | he | ⟨hmem, -⟩
    · exact .inl he
    · exact .inr (.removed he)
    · cases op with
      | run host x mode =>
        have hx : h = x := by
          have hmem : h ∈ (Operation.runOpening g x mode).handles := hmem
          have hopens := Operation.runOpening_opens g x mode
          generalize Operation.runOpening g x mode = m at hopens hmem
          cases hopens with
          | stale | refused => cases hmem
          | begun | takenUp => exact List.mem_singleton.1 hmem
        exact .inr (.restarted host mode rfl (by rw [hx]))
      | attach | detach | detachAll | extractEntity | setGlobal | dispatch | pulse | interpret
        | execute | walk | purge | replaceWorld => cases hmem

end Stage

/-- But for what a pulse takes up, only idle triggers are bound and started in a call of the host's. The
runs under way are those of different triggers; and a run that waits stays exactly as it is until it is
taken up, its trigger is removed, or the host runs the trigger itself. -/
theorem suspended_untouched (may : Game → Operation → Prop) (config : Config) (registry : Registry)
    (world : World) :
    (∀ host (run run' : Runner), run.Agrees run' →
      Event.dispatch host run = Event.dispatch host run') ∧
    (∀ g op, (∀ host, op ≠ .pulse host) →
      Relation.ReflTransGen Tame (Operation.opening g op) ⟨[], op.apply g⟩) ∧
    (∀ g host, Relation.ReflTransGen Fair ⟨[], Game.tick g⟩ ⟨[], g.pulse host⟩) ∧
    ∀ p, Course may (Stage.start (Game.start config registry world)) p →
      p.moment.handles.Nodup ∧
      (∀ h i, h ∈ p.moment.handles → p.game.instance? h = some i → i.isIdle = false) ∧
      (∀ h i, h ∉ p.moment.handles → p.game.instance? h = some i →
        (i.isIdle = true ↔ i.wait = none)) ∧
      ∀ h i, p.game.instance? h = some i → i.wait.isSome = true → ∀ p', Course may p p' →
        (p'.game.instance? h = some i ∧ h ∉ p'.moment.handles) ∨
        ∃ p1 p2, Course may p p1 ∧ p1.game.instance? h = some i ∧ Stage.Next may p1 p2 ∧
          Stage.Frees h p1 p2 ∧ Course may p2 p' := by
  refine ⟨fun host _ _ hr => Event.dispatch_agrees hr host, fun g _ => Operation.opening_tame g,
    fun g host => Game.pulse_fair host, fun p hp => ?_⟩
  have hs := (Stage.sane_start config registry world).course hp
  refine ⟨hs.upright.nodup, fun h i hh hi => ?_, fun h i hn hi => hs.upright.resting hn hi,
    fun h i hi hw p' hc => ?_⟩
  · obtain ⟨a, ha, rfl⟩ := List.mem_map.1 hh
    exact (hs.upright.running ha hi).1
  · induction hc with
    | refl => exact .inl ⟨hi, (hs.upright.waiting hi hw).1⟩
    | @tail p1 p2 hc hn ih =>
      rcases ih with ⟨h1, -⟩ | ⟨q1, q2, hq1, hqi, hqn, hqf, hq2⟩
      · have hs1 := hs.course hc
        rcases hs1.suspended_next hn h1 hw with h2 | hf
        · exact .inl ⟨h2, ((hs1.next hn).upright.waiting h2 hw).1⟩
        · exact .inr ⟨p1, p2, hc, h1, hn, hf, .refl⟩
      · exact .inr ⟨q1, q2, hq1, hqi, hqn, hqf, hq2.tail hn⟩

/-- The run of the nap that has begun waits, and is left alone until something frees it. -/
theorem nap_untouched :
    ∃ p i, Course (fun _ _ => True) (Stage.start bedroom) p ∧ p.game = bedroom.play (nap.take 2) ∧
      p.game.instance? ⟨0, 0⟩ = some i ∧ i.wait = some 0 ∧
      ∀ p', Course (fun _ _ => True) p p' →
        (p'.game.instance? ⟨0, 0⟩ = some i ∧ (⟨0, 0⟩ : Handle) ∉ p'.moment.handles) ∨
        ∃ p1 p2, Course (fun _ _ => True) p p1 ∧ p1.game.instance? ⟨0, 0⟩ = some i ∧
          Stage.Next (fun _ _ => True) p1 p2 ∧ Stage.Frees ⟨0, 0⟩ p1 p2 ∧
          Course (fun _ _ => True) p2 p' := by
  have hpaced : bedroom.Paced (nap.take 2) := by decide +kernel
  have hwait : ((bedroom.play (nap.take 2)).instance? ⟨0, 0⟩).map (·.wait) = some (some 0) := by
    decide +kernel
  have hmay : bedroom.Allows (fun _ _ => True) (nap.take 2) := ⟨trivial, trivial, trivial⟩
  obtain ⟨k, hk⟩ := play_course hmay hpaced bedroom.attachments
  obtain ⟨i, hi, hw⟩ := Option.map_eq_some_iff.1 hwait
  have hall := suspended_untouched (fun _ _ => True) {} ((∅ : Registry).register napping)
    (({} : World).addRoom 100 "bedroom").2
  exact ⟨_, i, hk, rfl, hi, hw, (hall.2.2.2 _ hk).2.2.2 _ i hi (by rw [hw]; rfl)⟩

end MudTrigger
