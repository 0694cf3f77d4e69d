import MudTrigger.Proofs.Wait.Turns

/-!
# A run is taken up when it is due

A pulse takes up what is due at its beginning, in turn, and then nothing else (`Game.PulsesExactly`).
As nothing stays overdue, a run that is suspended for `n` pulses is taken up at the `n`th pulse, and
at no other (`pulse_exact`), if its trigger is not removed or run anew before. The host may do what it
likes, short of making runs go on by itself: every play is a course in which calls are made only when
nothing is overdue.
-/

set_option autoImplicit false

namespace MudTrigger

open Game

namespace Game

variable {g : Game}

/-- The loop of a pulse is over when nothing is due; more rounds make no difference. -/
theorem resumeDue_enough {run : Runner} {fuel : Nat} (k : Nat)
    (h : (resumeDue run fuel g).engine.waits.popDue? (resumeDue run fuel g).engine.pulseCount = none) :
    resumeDue run (fuel + k) g = resumeDue run fuel g := by
  induction fuel generalizing g with
  | zero =>
    have h : g.engine.waits.popDue? g.engine.pulseCount = none := h
    cases k with
    | zero => rfl
    | succ k =>
      rw [Nat.zero_add]
      show resumeDue run (k + 1) g = g
      unfold resumeDue
      rw [h]
  | succ fuel ih =>
    rw [Nat.succ_add]
    unfold resumeDue at h ⊢
    cases hq : g.engine.waits.popDue? g.engine.pulseCount with
    | none => rfl
    | some found =>
      rw [hq] at h
      simp only at h ⊢
      split
      · rename_i hc
        rw [if_pos hc] at h
        exact ih h
      · rename_i hc
        rw [if_neg hc] at h
        exact ih h

theorem popDue?_of_overdue (h : g.overdue = []) :
    g.engine.waits.popDue? g.engine.pulseCount = none := by
  cases hq : g.engine.waits.popDue? g.engine.pulseCount with
  | none => rfl
  | some found =>
    rw [overdue, WaitQueue.overdue_popDue? hq] at h
    cases h

/-- A pulse counts itself, lets the continuations that are due have their turns, and is then done with
the queue: what it does besides is the same whatever a runner would do with triggers that are not
idle. -/
structure PulsesExactly (g : Game) (host : Host) : Prop where
  counts : (g.pulse host).engine.pulseCount = g.engine.pulseCount + 1
  inTurn : g.tick.overdue.Pairwise fun v w => v.before w = true
  turns : ∃ rs g', Turns host g.tick g.tick.overdue rs g' ∧ rs.Sublist g.tick.overdue ∧
    (∀ fuel, g.engine.waits.size ≤ fuel → resumeDue (run host) fuel g.tick = g') ∧
    g'.engine.waits.popDue? g'.engine.pulseCount = none ∧
    ∀ run', (run host).Agrees run' →
      g.pulse host = checkHour run' (if g'.isScanPulse then scanRandom host run' g' else g')

theorem Orderly.pulsesExactly (ho : g.Orderly) (hq : g.engine.waits.InTurn) (host : Host)
    (hn : (g.pulse host).attachments < g.attachments + 0x1_0000_0000)
    (hp : g.engine.pulseCount + 1 < lastPulse) : g.PulsesExactly host := by
  have hg : g.tick.Coherent := ho.coherent.of_same (same_of_eq rfl rfl)
  have hm : Settled ⟨[], g.tick⟩ := ho.settled.of_view (fun _ => rfl) rfl rfl
  have ht : Tracked g.attachments ⟨[], g.tick⟩ := Tracked.of_idle g.tick
  have htail := changes_of_tame (pulse_tail_tame host (g := g))
  have hn1 := Nat.lt_of_le_of_lt htail.attachments_le hn
  have hlen : g.tick.overdue.length ≤ g.engine.waits.size := List.length_filter_le _ _
  have hturn : g.tick.overdue.Pairwise fun v w => v.before w = true :=
    hq.turn.sublist List.filter_sublist
  have hnodup : g.tick.overdue.Nodup := hturn.imp fun {v w} hb he => by
    rw [he, Wait.before_iff] at hb
    exact hb.elim (Nat.lt_irrefl _) fun h => Nat.lt_irrefl _ h.2
  obtain ⟨rs, hrs⟩ := hm.turns host hg ht hn1 hp hlen hnodup
    (fun w hw => (WaitQueue.mem_overdue.1 hw).2)
    (fun w hw => Fate.of_pending hm (WaitQueue.mem_overdue.1 hw).1) (.refl _)
  have hnil := popDue?_of_overdue (overdue_resumeDue host g.engine.waits.size hm hg ht hn1 hp hlen)
  refine ⟨(Changes.recedes (pulse_evolves host)).pulseCount, hturn, rs, _, hrs, hrs.sublist,
    fun fuel hf => ?_, hnil, fun run' hr => ?_⟩
  · obtain ⟨k, rfl⟩ := Nat.exists_eq_add_of_le hf
    exact resumeDue_enough k hnil
  · rw [← checkHour_agrees hr, ← scanRandom_agrees hr]
    rfl

/-- The host makes no run go on by itself, and calls only when the last pulse is over. -/
def Timely (g : Game) (op : Operation) : Prop :=
  op.resumes = false ∧ (g.engine.pulseCount < lastPulse → g.overdue = [])

theorem Orderly.allows (ho : g.Orderly) {ops : List Operation}
    (hops : ∀ op ∈ ops, op.resumes = false) (hn : g.Paced ops) : g.Allows Timely ops := by
  induction ops generalizing g with
  | nil => trivial
  | cons op ops ih =>
    have hop := hops op List.mem_cons_self
    exact ⟨⟨hop, ho.overdue⟩,
      ih (ho.apply hop hn.1) (fun o h => hops o (List.mem_cons_of_mem _ h)) hn.2⟩

theorem pulseCount_opening {op : Operation} (hop : ∀ host, op ≠ .pulse host) :
    (op.opening g).game.engine.pulseCount = g.engine.pulseCount := by
  cases op with
  | extractEntity u => exact (recedes_extractEntity u).pulseCount
  | purge u => exact (recedes_purge u).pulseCount
  | pulse host => exact absurd rfl (hop host)
  | run host h mode =>
    show (Operation.runOpening g h mode).game.engine.pulseCount = _
    have hopens := Operation.runOpening_opens g h mode
    generalize Operation.runOpening g h mode = m at hopens
    cases hopens with
    | stale | takenUp => rfl
    | @refused _ i => exact (recedes_refuse h i mode).pulseCount
    | @begun i => exact (recedes_begin (g := g.enter h i.owner) h).pulseCount
  | attach | detach | detachAll | setGlobal | dispatch | interpret | execute | walk
    | replaceWorld => rfl

end Game

/-- The opening of a call that makes no run go on by itself. -/
theorem Settled.opening {g : Game} (hm : Settled ⟨[], g⟩) (hg : g.Coherent) {op : Operation}
    (hop : op.resumes = false) : Settled (op.opening g) := by
  cases op with
  | extractEntity u => exact hm.extractEntity hg u
  | setGlobal u name value => exact settled_intervention hg hm (.setGlobal u name value)
  | purge u => exact hm.purge hg u
  | replaceWorld w => exact settled_intervention hg hm (.replaceWorld w)
  | pulse host => exact hm.of_view (fun _ => rfl) rfl rfl
  | run host h mode =>
    cases mode with
    | resume => cases hop
    | new =>
      show Settled (Operation.runOpening g h .new)
      have hopens := Operation.runOpening_opens g h .new
      generalize Operation.runOpening g h .new = m at hopens
      cases hopens with
      | stale => exact hm
      | refused _ hd =>
        rw [hm.depth] at hd
        exact absurd hd (Nat.not_lt_zero _)
      | begun hi =>
        have hs := hm.start hi List.not_mem_nil []
        rwa [bindLocals_nil] at hs
  | attach | detach | detachAll | dispatch | interpret | execute | walk => exact hm

namespace Stage

variable {p p' : Stage} {w : Wait} {i : Instance}

/-- What holds at every stage if the host makes no run go on by itself. -/
structure Prompt (p : Stage) : Prop where
  sane : p.Sane
  settled : Settled p.moment

theorem prompt_start (config : Config) (registry : Registry) (world : World) :
    (start (Game.start config registry world)).Prompt :=
  ⟨sane_start config registry world, settled_start config registry world⟩

theorem Prompt.next (hp : p.Prompt) (h : Next Timely p p') : p'.Prompt := by
  refine ⟨hp.sane.next h, ?_⟩
  cases h with
  | change hf hn => exact hp.settled.change hf.change hp.sane.coherent hp.sane.tracked hn
  | call op hmay => exact hp.settled.opening hp.sane.coherent hmay.1

theorem Prompt.course (hp : p.Prompt) (h : Course Timely p p') : p'.Prompt := by
  induction h with
  | refl => exact hp
  | tail _ h ih => exact ih.next h

/-- The run of a trigger waits for an entry that is pending, and that entry is not overdue. -/
structure Awaits (p : Stage) (i : Instance) (w : Wait) : Prop where
  instance_eq : p.game.instance? w.continuation.trigger = some i
  wait : i.wait = some w.id
  pending : w ∈ p.game.engine.waits.pending
  notLate : p.game.engine.pulseCount ≤ w.due

/-- A pulse takes up no run before it is due. -/
theorem Prompt.due_le (hp : p.Prompt) (hw : p.Awaits i w)
    (ht : p.moment.Takes w.continuation.trigger) : w.due ≤ p.game.engine.pulseCount := by
  obtain ⟨-, v, q, j, hq, hv, hj, hjv⟩ := ht
  obtain ⟨hdue, hpend, -⟩ := WaitQueue.popDue?_eq_some_iff.1 hq
  have hj : p.game.instance? w.continuation.trigger = some j := hj
  rw [hw.instance_eq, Option.some.injEq] at hj
  rw [← hj, hw.wait, Option.some.injEq] at hjv
  rw [hp.settled.ordered.eq_of_id hw.pending (hpend ▸ List.mem_cons_self) hjv]
  exact hdue

/-- One step leaves a run that waits as it is, or frees it; and it does not become overdue. -/
theorem Prompt.awaits_next (hp : p.Prompt) (hn : Next Timely p p') (hw : p.Awaits i w)
    (hlast : w.due < lastPulse) :
    p'.Awaits i w ∨ Frees w.continuation.trigger p p' := by
  rcases hp.sane.suspended_next hn hw.instance_eq (by rw [hw.wait]; rfl) with he | hf
  · refine .inl ⟨he, hw.wait,
      hp.settled.still_pending (hp.next hn).settled hn.queueEffect hw.pending he hw.wait, ?_⟩
    cases hn with
    | change hf => exact Nat.le_trans (Nat.le_of_eq hf.change.recedes.pulseCount) hw.notLate
    | @call g n op hmay =>
      by_cases hop : ∃ host, op = .pulse host
      · obtain ⟨host, rfl⟩ := hop
        -- Nothing is overdue when a pulse begins.
        refine Nat.lt_of_not_le fun hle => ?_
        have hmem : w ∈ g.overdue := WaitQueue.mem_overdue.2 ⟨hw.pending, hle⟩
        rw [hmay.2 (Nat.lt_of_le_of_lt hw.notLate hlast)] at hmem
        cases hmem
      · exact Nat.le_trans (Nat.le_of_eq (pulseCount_opening (not_exists.1 hop))) hw.notLate
  · exact .inr hf

/-- A run that is suspended waits for the entry that is made for it. -/
theorem awaits_suspend {a : Activation} {s : List Activation} {line delay : Nat} {kind : WaitKind}
    (hi : p.game.instance? a.trigger = some i)
    (hp' : p'.moment = ⟨s, (p.game.suspend a.trigger a.owner line delay kind).leave⟩)
    (hlast : p.game.engine.pulseCount + max delay 1 < lastPulse) :
    p'.Awaits { i with resumeAt := some line, wait := some p.game.engine.waits.nextId }
      ⟨p.game.engine.pulseCount + max delay 1, p.game.engine.waits.nextId,
        ⟨a.trigger, a.owner, line, kind⟩⟩ := by
  have hsat : Width.saturate64 (p.game.engine.pulseCount + max delay 1) =
      p.game.engine.pulseCount + max delay 1 := Nat.min_eq_left (Nat.le_of_lt hlast)
  rw [suspend_eq hi] at hp'
  refine ⟨?_, rfl, ?_, ?_⟩
  · show p'.moment.game.instance? a.trigger = _
    rw [hp', instance?_leave, instance?_report, instance?_modifyInstance_self, instance?_withWaits, hi]
    rfl
  · show _ ∈ p'.moment.game.engine.waits.pending
    rw [hp']
    refine WaitQueue.mem_schedule.2 (.inl ?_)
    rw [hsat]
  · show p'.moment.game.engine.pulseCount ≤ _
    rw [hp']
    exact Nat.le_add_right _ _

end Stage

/-- A pulse takes up what is due at its beginning and is not cancelled before its turn, in turn and
nothing else. A run that is suspended for `n` pulses stays as it is, and is taken up when `n` pulses have
been counted, unless its trigger is removed or run anew before. -/
theorem pulse_exact (config : Config) (registry : Registry) (world : World) :
    let begun := Game.start config registry world
    (∀ ops, (∀ op ∈ ops, op.resumes = false) → begun.Paced ops →
      (∀ host, ((begun.play ops).pulse host).attachments <
          (begun.play ops).attachments + 0x1_0000_0000 →
        (begun.play ops).engine.pulseCount + 1 < lastPulse →
        (begun.play ops).PulsesExactly host) ∧
      (∃ n, Course Timely (Stage.start begun) ⟨⟨[], begun.play ops⟩, n⟩) ∧
      ((begun.play ops).engine.pulseCount < lastPulse → (begun.play ops).overdue = [])) ∧
    ∀ p p1 a s i line delay kind, Course Timely (Stage.start begun) p → Stage.Next Timely p p1 →
      p.moment.stack = a :: s → p.game.instance? a.trigger = some i →
      p1.moment = ⟨s, (p.game.suspend a.trigger a.owner line delay kind).leave⟩ →
      let due := p.game.engine.pulseCount + max delay 1
      let j := { i with resumeAt := some line, wait := some p.game.engine.waits.nextId }
      due < lastPulse → ∀ p2, Course Timely p1 p2 →
        (p2.game.instance? a.trigger = some j ∧ p2.game.engine.pulseCount ≤ due ∧
          (p2.game.overdue = [] → p2.game.engine.pulseCount < due)) ∨
        ∃ q1 q2, Course Timely p1 q1 ∧ q1.game.instance? a.trigger = some j ∧
          Stage.Next Timely q1 q2 ∧ Stage.Frees a.trigger q1 q2 ∧
          (q1.moment.Takes a.trigger → q1.game.engine.pulseCount = due) ∧ Course Timely q2 p2 := by
  intro begun
  refine ⟨fun ops hops hpaced => ?_, ?_⟩
  · have ho : (begun.play ops).Orderly := (orderly_start config registry world).play hops hpaced
    obtain ⟨n, hc⟩ := play_course ((orderly_start config registry world).allows hops hpaced) hpaced
      begun.attachments
    have hq : (begun.play ops).engine.waits.InTurn :=
      Course.inTurn hc ⟨.nil, fun _ hw => absurd hw List.not_mem_nil⟩
    exact ⟨fun host hn hp => ho.pulsesExactly hq host hn hp, ⟨n, hc⟩, ho.overdue⟩
  · intro p p1 a s i line delay kind hc hn hs hi hp1 due j hlast p2 hc2
    have hprompt := ((Stage.prompt_start config registry world).course hc).next hn
    have hw1 := Stage.awaits_suspend hi hp1 hlast
    suffices h : p2.Awaits j ⟨due, p.game.engine.waits.nextId, ⟨a.trigger, a.owner, line, kind⟩⟩ ∨
        ∃ q1 q2, Course Timely p1 q1 ∧ q1.game.instance? a.trigger = some j ∧
          Stage.Next Timely q1 q2 ∧ Stage.Frees a.trigger q1 q2 ∧
          (q1.moment.Takes a.trigger → q1.game.engine.pulseCount = due) ∧ Course Timely q2 p2 by
      refine h.imp_left fun hw => ⟨hw.instance_eq, hw.notLate, fun hnil => Nat.lt_of_not_le fun hle => ?_⟩
      have hmem := WaitQueue.mem_overdue.2 ⟨hw.pending, hle⟩
      rw [← Game.overdue, hnil] at hmem
      cases hmem
    induction hc2 with
    | refl => exact .inl hw1
    | @tail q q' hcq hnq ih =>
      rcases ih with hw | ⟨q1, q2, h1, h2, h3, h4, h5, h6⟩
      · have hpq := hprompt.course hcq
        rcases hpq.awaits_next hnq hw hlast with hw' | hf
        · exact .inl hw'
        · exact .inr ⟨q, q', hcq, hw.instance_eq, hnq, hf,
            fun ht => Nat.le_antisymm hw.notLate (hpq.due_le hw ht), .refl⟩
      · exact .inr ⟨q1, q2, h1, h2, h3, h4, h5, h6.tail hnq⟩

/-- The nap begins, and its run is suspended for two pulses. -/
theorem nap_begins :
    ∃ p p1 a i, Course Timely (Stage.start bedroom) p ∧ Stage.Next Timely p p1 ∧
      p.moment.stack = [a] ∧ a.trigger = ⟨0, 0⟩ ∧ p.game.instance? a.trigger = some i ∧
      p1.moment = ⟨[], (p.game.suspend a.trigger a.owner 1 2 .wait).leave⟩ ∧
      p.game.engine.pulseCount = 0 := by
  have hops : ∀ op ∈ nap.take 1, op.resumes = false := by simp [nap, Operation.resumes]
  have hpaced : bedroom.Paced (nap.take 1) := by decide +kernel
  have hstart : bedroom.Orderly := orderly_start _ _ _
  have hg : (bedroom.play (nap.take 1)).overdue = [] ∧
      (bedroom.play (nap.take 1)).engine.pulseCount = 0 ∧
      ((bedroom.play (nap.take 1)).instance? ⟨0, 0⟩).isSome = true := by decide +kernel
  have ho := hstart.play hops hpaced
  obtain ⟨n, hc⟩ := play_course (hstart.allows hops hpaced) hpaced bedroom.attachments
  generalize bedroom.play (nap.take 1) = g at hc hg ho
  obtain ⟨hnil, hcount, hsome⟩ := hg
  obtain ⟨i, hi⟩ := Option.isSome_iff_exists.1 hsome
  have hd : g.engine.depth ≤ g.engine.config.maxScriptDepth := by
    rw [ho.settled.depth]
    exact Nat.zero_le _
  have hbegin : Stage.Next Timely ⟨⟨[], g⟩, n⟩ _ := .begin .standard ⟨rfl, fun _ => hnil⟩ hi hd
  let a : Activation := ⟨⟨0, 0⟩, i.owner, i.proto, 0, false⟩
  let g1 : Game := (g.enter ⟨0, 0⟩ i.owner).begin ⟨0, 0⟩
  have hi1 : g1.instance? ⟨0, 0⟩ =
      some { i with depth := 1, loops := 0, resumeAt := none, wait := none } := by
    rw [instance?_begin, if_pos rfl, instance?_enter, hi]
    rfl
  have hfree : a.held = false := rfl
  have hsuspend : Tame ⟨[a], g1⟩ ⟨[], (g1.suspend a.trigger a.owner 1 2 .wait).leave⟩ :=
    tame_of_stack (.suspend 1 2 .wait ((hasTrigger_iff _ _).2 ⟨_, hi1⟩) hfree)
      fun _ hx => absurd hx List.not_mem_nil
  have hquiet : (g1.suspend a.trigger a.owner 1 2 .wait).leave.attachments = g.attachments :=
    (((quiet_enter _ _).trans (quiet_begin _)).trans
      ((quiet_suspend _ _ _ _ _).trans quiet_leave)).attachments
  refine ⟨_, _, a, _, hc.tail hbegin, .change hsuspend.fair ?_, rfl, rfl, hi1, rfl, ?_⟩
  · show (g1.suspend a.trigger a.owner 1 2 .wait).leave.attachments < _
    rw [hquiet]
    exact Nat.lt_add_of_pos_right (by decide)
  · exact ((recedes_begin (g := g.enter ⟨0, 0⟩ i.owner) ⟨0, 0⟩).pulseCount).trans hcount

/-- The second pulse of the nap takes up the run that waits for it. -/
theorem nap_pulse_exact :
    (bedroom.play (nap.take 3)).tick.overdue.map (·.due) = [2] ∧
      (bedroom.play (nap.take 3)).PulsesExactly .standard ∧
      ∃ (p p1 : Stage) (a : Activation) (i : Instance),
        Course Timely (Stage.start bedroom) p ∧ Stage.Next Timely p p1 ∧
        a.trigger = ⟨0, 0⟩ ∧ p.game.instance? a.trigger = some i ∧
        p1.moment = ⟨[], (p.game.suspend a.trigger a.owner 1 2 .wait).leave⟩ ∧
        ∀ p2, Course Timely p1 p2 →
          (p2.game.engine.pulseCount ≤ 2 ∧
            (p2.game.overdue = [] → p2.game.engine.pulseCount < 2)) ∨
          ∃ q1 q2, Course Timely p1 q1 ∧ Stage.Next Timely q1 q2 ∧
            Stage.Frees a.trigger q1 q2 ∧
            (q1.moment.Takes a.trigger → q1.game.engine.pulseCount = 2) := by
  have hops : ∀ op ∈ nap.take 3, op.resumes = false := by simp [nap, Operation.resumes]
  have hnap : (bedroom.play (nap.take 3)).tick.overdue.map (·.due) = [2] ∧
      bedroom.Paced (nap.take 3) ∧
      ((bedroom.play (nap.take 3)).pulse .standard).attachments <
        (bedroom.play (nap.take 3)).attachments + 0x1_0000_0000 ∧
      (bedroom.play (nap.take 3)).engine.pulseCount + 1 < lastPulse := by decide +kernel
  obtain ⟨hexact, hwait⟩ := pulse_exact {} ((∅ : Registry).register napping)
    (({} : World).addRoom 100 "bedroom").2
  refine ⟨hnap.1, (hexact _ hops hnap.2.1).1 .standard hnap.2.2.1 hnap.2.2.2, ?_⟩
  obtain ⟨p, p1, a, i, hc, hn, hs, ha, hi, hp1, hcount⟩ := nap_begins
  refine ⟨p, p1, a, i, hc, hn, ha, hi, hp1, fun p2 hp2 => ?_⟩
  have h := hwait p p1 a [] i 1 2 .wait hc hn hs hi hp1 (by rw [hcount]; decide) p2 hp2
  rw [hcount] at h
  rcases h with ⟨-, h⟩ | ⟨q1, q2, h1, -, h3, h4, h5, -⟩
  · exact .inl h
  · exact .inr ⟨q1, q2, h1, h3, h4, h5⟩

end MudTrigger
