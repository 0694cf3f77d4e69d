import MudTrigger.Proofs.Wait.Frame
import MudTrigger.Proofs.Wait.Ledger

/-!
# The turns of a pulse

A pulse takes up runs one at a time, and each of them may suspend others, attach, detach and purge.
`Turns` is what should come of this: the continuations that are due at the beginning have their turns
one after the other, and one is taken up at its turn unless its trigger was removed meanwhile. That is
what the loop of a pulse does, and it does nothing else (`Settled.turns`).

The argument is that what happens during a run is tame, so that it leaves the other runs that wait as
they are or removes their triggers (`Fate`), and adds nothing that is due.
-/

set_option autoImplicit false

namespace MudTrigger

open Game

/-! ## The queue is in order -/

/-- The pending entries are in the order in which they have their turns. -/
structure WaitQueue.InTurn (q : WaitQueue) : Prop where
  turn : q.pending.Pairwise fun a b => a.before b = true
  below : ∀ w ∈ q.pending, w.id < q.nextId

theorem QueueEffect.inTurn {m m' : Moment} (h : QueueEffect m m') (hq : m.game.engine.waits.InTurn) :
    m'.game.engine.waits.InTurn := by
  cases h with
  | shrinks hs =>
    exact ⟨hq.turn.sublist hs.pending, fun w hw => hs.nextId ▸ hq.below w (hs.pending.subset hw)⟩
  | schedule line delay kind _ _ _ he =>
    rw [he]
    refine ⟨WaitQueue.turn_insertWait hq.turn hq.below, fun w hw => ?_⟩
    rcases WaitQueue.mem_schedule.1 hw with rfl | hw
    · exact Nat.lt_succ_self _
    · exact Nat.lt_succ_of_lt (hq.below w hw)

theorem Course.inTurn {may : Game → Operation → Prop} {p p' : Stage} (h : Course may p p')
    (hq : p.game.engine.waits.InTurn) : p'.game.engine.waits.InTurn := by
  induction h with
  | refl => exact hq
  | tail _ h ih => exact h.queueEffect.inTurn ih

/-! ## What becomes of an entry -/

/-- A trigger that is gone stays gone, as long as its handle is not issued again. -/
theorem Effect.gone {m m' : Moment} (he : Effect m m') (hs : m.game.engine.triggers.Sound)
    {h : Handle} (hnone : m.game.instance? h = none)
    (hfresh : ∀ target p, m'.game.attachments = m.game.attachments + 1 →
      h ≠ m.game.nextHandle target p) : m'.game.instance? h = none := by
  have other : ∀ {x i}, m.game.instance? x = some i → h ≠ x := fun hi he => by
    rw [← he, hnone] at hi
    cases hi
  cases he with
  | spare _ _ hx =>
    rcases hx h with he | he
    · exact he.trans hnone
    · exact he
  | @attach vnum target position _ _ ha =>
    obtain ⟨p, -, hg⟩ := attach_ok ha
    rw [hg, instance?_attachTo target vnum p position hs, if_neg]
    · exact hnone
    · exact hfresh target p (by rw [hg, attachments_attachTo])
  | @work a s n _ _ _ hx hself | @leave a s _ _ _ hx hself =>
    by_cases he : h = a.trigger
    · cases hj : m'.game.instance? h with
      | none => rfl
      | some j =>
        obtain ⟨i, hi, -⟩ := hself j (he ▸ hj)
        exact absurd he (other hi)
    · exact (hx h he).trans hnone
  | enter _ _ hx hi => exact (hx h (other hi)).trans hnone
  | refuse _ _ hx hi => exact (hx h (other hi)).trans hnone

namespace Settled

variable {m m' : Moment} {s : List Activation} {g : Game} {w : Wait} {i : Instance}

theorem upright (hm : Settled m) : Upright m where
  depth := hm.depth
  nodup := hm.nodup
  running ha hi := by
    obtain ⟨hr, ho⟩ := hm.running ha hi
    exact ⟨beq_eq_false_iff_ne.2 (Nat.ne_of_gt hr.depth), hr.wait, ho⟩
  resting hn hi := by
    rcases hm.idle hi hn with hr | ⟨w, -, hw⟩
    · exact ⟨fun _ => hr.wait, fun _ => beq_iff_eq.2 hr.depth⟩
    · refine ⟨fun hidle => ?_, fun hnone => ?_⟩
      · have hd := hw.depth
        rw [beq_iff_eq.1 hidle] at hd
        cases hd
      · rw [hw.wait] at hnone
        cases hnone

/-- What a trigger still waits for is still pending. -/
theorem still_pending (hm : Settled m) (hm' : Settled m') (hq : QueueEffect m m')
    (hw : w ∈ m.game.engine.waits.pending) {h : Handle} (hi : m'.game.instance? h = some i)
    (hiw : i.wait = some w.id) : w ∈ m'.game.engine.waits.pending := by
  obtain ⟨-, v, hv, -, hid⟩ := hm'.waits hi hiw
  have hold : v ∈ m.game.engine.waits.pending := by
    cases hq with
    | shrinks hs => exact hs.pending.subset hv
    | schedule line delay kind _ _ _ he =>
      rw [he] at hv
      refine (WaitQueue.mem_schedule.1 hv).resolve_left fun hnew => ?_
      have hlt := hm.ordered.below w hw
      rw [← hid, hnew] at hlt
      exact absurd hlt (Nat.lt_irrefl _)
  exact hm.ordered.eq_of_id hold hw hid ▸ hv

end Settled

/-- An entry of the queue that is pending, or whose trigger is gone for good. -/
structure Fate (n : Nat) (w : Wait) (m : Moment) : Prop where
  within : m.game.engine.triggers.Within w.continuation.trigger (m.game.attachments - n)
  fate : w ∈ m.game.engine.waits.pending ∨ m.game.instance? w.continuation.trigger = none

namespace Fate

variable {n : Nat} {w : Wait} {m m' : Moment}

theorem of_pending (hm : Settled m) (hw : w ∈ m.game.engine.waits.pending) :
    Fate m.game.attachments w m := by
  obtain ⟨i, hi, -⟩ := hm.pending hw
  exact ⟨Arena.within_of_get? hi _, .inl hw⟩

theorem change (hf : Fate n w m) (h : Change m m') (hm : Settled m) (hm' : Settled m')
    (ht : Tracked n m) (hs : m.game.engine.triggers.Sound)
    (hn : m'.game.attachments < n + 0x1_0000_0000)
    (hfree : w ∈ m.game.engine.waits.pending → w.continuation.trigger ∉ m'.handles) :
    Fate n w m' := by
  have hle := ht.le
  constructor
  · exact h.within hs hle hn hf.within
  · rcases hf.fate with hw | hnone
    · obtain ⟨-, i, hi, hiw⟩ := hm.waits_of_mem hw
      rcases hm.upright.suspended_effect h.effect hs hi (by rw [hiw.wait]; rfl) with he | he | ⟨he, -⟩
      · exact .inl (hm.still_pending hm' h.queueEffect hw he hiw.wait)
      · exact .inr he
      · exact absurd he (hfree hw)
    · refine .inr (h.effect.gone hs hnone fun target p ha => ?_)
      exact (hf.within.insert hs (by omega) { proto := p, owner := target }).1.symm

/-- What is tame leaves the runs that wait as they are, or removes their triggers. -/
theorem tame (hf : Fate n w m) (h : Relation.ReflTransGen Tame m m') (hm : Settled m)
    (hg : m.game.Coherent) (ht : Tracked n m) (hn : m'.game.attachments < n + 0x1_0000_0000) :
    Fate n w m' := by
  induction h with
  | refl => exact hf
  | @tail m1 m2 hc h ih =>
    have hn1 := Nat.lt_of_le_of_lt h.change.attachments_le hn
    obtain ⟨hm1, ht1⟩ := Settled.changes (changes_of_tame hc) hm hg ht hn1
    have hg1 := Coherent.changes (changes_of_tame hc) hg
    refine (ih hn1).change h.change hm1 (hm1.change h.change hg1 ht1 hn) ht1 hg1.sound hn
      fun hw hmem => ?_
    -- The trigger of a run that waits is not idle.
    obtain ⟨hnot, i, hi, hiw⟩ := hm1.waits_of_mem hw
    obtain ⟨j, hj, hidle⟩ := h.starts _ hmem hnot
    have hj : m1.game.instance? w.continuation.trigger = some j := hj
    have hi : m1.game.instance? w.continuation.trigger = some i := hi
    rw [hi, Option.some.injEq] at hj
    have hd := hiw.depth
    rw [hj, beq_iff_eq.1 hidle] at hd
    cases hd

end Fate

/-! ## Turns -/

/-- The game when a continuation is taken out of the queue to be taken up. -/
def Game.called (g : Game) (w : Wait) (q : WaitQueue) : Game :=
  (g.withWaits q).report (.resuming w.continuation.owner w.continuation.resumeAt)

/-- The continuations `ws` have their turns one after the other, and `rs` of them are taken up. -/
inductive Turns (host : Host) : Game → List Wait → List Wait → Game → Prop
  | done {g} : Turns host g [] [] g
  /-- The first one in the queue, for which its trigger still waits, is taken up; the run is not
  refused. -/
  | takenUp {g g' w ws rs q i} : g.engine.waits.popDue? g.engine.pulseCount = some (w, q) →
    g.instance? w.continuation.trigger = some i → i.Waits w.continuation.trigger w →
    g.engine.depth ≤ g.engine.config.maxScriptDepth →
    Turns host (run host (g.called w q) w.continuation.trigger .resume).2 ws rs g' →
    Turns host g (w :: ws) (w :: rs) g'
  /-- The trigger was removed, and what it waited for was cancelled. -/
  | cancelled {g g' w ws rs} : w ∉ g.engine.waits.pending →
    g.hasTrigger w.continuation.trigger = false → Turns host g ws rs g' →
    Turns host g (w :: ws) rs g'

/-- Each continuation is taken up once at most, and in turn. -/
theorem Turns.sublist {host : Host} {g g' : Game} {ws rs : List Wait} (h : Turns host g ws rs g') :
    rs.Sublist ws := by
  induction h with
  | done => exact .slnil
  | takenUp _ _ _ _ _ ih => exact ih.cons_cons _
  | cancelled _ _ _ ih => exact ih.cons _

namespace Game

variable {g : Game} {w : Wait} {q : WaitQueue} {i : Instance}

/-- A run that is taken up begins, and from there on everything is tame. -/
theorem called_tame (host : Host) (hi : g.instance? w.continuation.trigger = some i)
    (hd : g.engine.depth ≤ g.engine.config.maxScriptDepth) :
    Relation.ReflTransGen Tame
      ⟨[⟨w.continuation.trigger, i.owner, i.proto, 0, false⟩],
        ((g.called w q).enter w.continuation.trigger i.owner).takeUp w.continuation.trigger⟩
      ⟨[], (run host (g.called w q) w.continuation.trigger .resume).2⟩ := by
  have hi : (g.called w q).instance? w.continuation.trigger = some i := hi
  have hrun := Operation.runOpening_leads (g := g.called w q) host w.continuation.trigger .resume
  rwa [Operation.runOpening_entered .resume hi hd] at hrun

end Game

/-- What one turn leaves: a game of the same kind, in which nothing new is due and the other entries
are pending or gone for good. -/
structure Round (n : Nat) (w : Wait) (q : WaitQueue) (g g' : Game) : Prop where
  settled : Settled ⟨[], g'⟩
  coherent : g'.Coherent
  tracked : Tracked n ⟨[], g'⟩
  recedes : Recedes (g.withWaits q) g'
  fate : ∀ v, v ≠ w → Fate n v ⟨[], g⟩ → Fate n v ⟨[], g'⟩

namespace Settled

variable {g : Game} {w : Wait} {q : WaitQueue} {n fuel : Nat}

/-- The first entry that is due is what its trigger waits for, and its run is not refused. -/
theorem ready (hm : Settled ⟨[], g⟩)
    (hq : g.engine.waits.popDue? g.engine.pulseCount = some (w, q)) :
    ∃ i, g.instance? w.continuation.trigger = some i ∧ i.Waits w.continuation.trigger w ∧
      g.engine.depth ≤ g.engine.config.maxScriptDepth := by
  obtain ⟨-, hp, -⟩ := WaitQueue.popDue?_eq_some_iff.1 hq
  obtain ⟨-, i, hi, hw⟩ := hm.waits_of_mem (w := w) (hp ▸ List.mem_cons_self)
  exact ⟨i, hi, hw, Nat.le_trans (Nat.le_of_eq hm.depth) (Nat.zero_le _)⟩

theorem resumeDue_succ (hm : Settled ⟨[], g⟩) (host : Host)
    (hq : g.engine.waits.popDue? g.engine.pulseCount = some (w, q)) :
    resumeDue (run host) (fuel + 1) g =
      resumeDue (run host) fuel (run host (g.called w q) w.continuation.trigger .resume).2 := by
  obtain ⟨i, hi, hw, -⟩ := hm.ready hq
  have hcur : ((g.withWaits q).instance? w.continuation.trigger).any (·.wait = some w.id) = true := by
    rw [instance?_withWaits, hi, Option.any_some, hw.wait, decide_eq_true rfl]
  rw [resumeDue, hq]
  simp only [if_pos hcur]
  rfl

theorem round (hm : Settled ⟨[], g⟩) (hg : g.Coherent) (ht : Tracked n ⟨[], g⟩) (host : Host)
    (hq : g.engine.waits.popDue? g.engine.pulseCount = some (w, q))
    (hn : (run host (g.called w q) w.continuation.trigger .resume).2.attachments <
      n + 0x1_0000_0000) :
    Round n w q g (run host (g.called w q) w.continuation.trigger .resume).2 := by
  obtain ⟨i, hi, hw, hd⟩ := hm.ready hq
  have hfirst : Change ⟨[], g⟩ ⟨[⟨w.continuation.trigger, i.owner, i.proto, 0, false⟩],
      ((g.called w q).enter w.continuation.trigger i.owner).takeUp w.continuation.trigger⟩ :=
    .resume hq hi hw.wait hd
  have hrest := called_tame (q := q) host hi hd
  have hc := changes_of_tame hrest
  have hn0 := Nat.lt_of_le_of_lt hc.attachments_le hn
  have hm0 := hm.change hfirst hg ht hn0
  have hg0 := hg.change hfirst
  have ht0 := ht.change hfirst hg.sound hn0
  obtain ⟨hm1, ht1⟩ := Settled.changes hc hm0 hg0 ht0 hn
  have hr : Recedes (g.withWaits q)
      (((g.called w q).enter w.continuation.trigger i.owner).takeUp w.continuation.trigger) :=
    recedes_of_eq rfl rfl
  refine ⟨hm1, Coherent.changes hc hg0, ht1, hr.trans hc.recedes, fun v hvw hf => ?_⟩
  refine (hf.change hfirst hm hm0 ht hg.sound hn0 fun hv hmem => hvw ?_).tame hrest hm0 hg0 ht0 hn
  -- Two entries are not of one trigger.
  have hiv := (hm.wait_iff hi hv).2 (List.mem_singleton.1 hmem)
  rw [hw.wait, Option.some.injEq] at hiv
  obtain ⟨-, hp, -⟩ := WaitQueue.popDue?_eq_some_iff.1 hq
  exact (hm.ordered.eq_of_id (hp ▸ List.mem_cons_self) hv hiv).symm

/-- The continuations that are due have their turns, and the loop does nothing else; it comes to an
end when it has made as many rounds as entries were due. -/
theorem turns (host : Host) {ws : List Wait} (hm : Settled ⟨[], g⟩) (hg : g.Coherent)
    (ht : Tracked n ⟨[], g⟩)
    (hn : (resumeDue (run host) fuel g).attachments < n + 0x1_0000_0000)
    (hp : g.engine.pulseCount < lastPulse) (hf : g.overdue.length ≤ fuel)
    (hws : ws.Nodup) (hdue : ∀ w ∈ ws, w.due ≤ g.engine.pulseCount)
    (hfate : ∀ w ∈ ws, Fate n w ⟨[], g⟩) (hs : g.overdue.Sublist ws) :
    ∃ rs, Turns host g ws rs (resumeDue (run host) fuel g) := by
  induction ws generalizing g fuel with
  | nil =>
    have hnil : g.overdue = [] := List.sublist_nil.1 hs
    have hpop : g.engine.waits.popDue? g.engine.pulseCount = none := by
      cases hq : g.engine.waits.popDue? g.engine.pulseCount with
      | none => rfl
      | some p =>
        rw [Game.overdue, WaitQueue.overdue_popDue? hq] at hnil
        cases hnil
    refine ⟨[], ?_⟩
    cases fuel with
    | zero => exact .done
    | succ fuel =>
      rw [resumeDue, hpop]
      exact .done
  | cons v ws ih =>
    obtain ⟨hnv, hws⟩ := List.nodup_cons.1 hws
    have hdue' : ∀ w ∈ ws, w.due ≤ g.engine.pulseCount := fun w hw => hdue w (List.mem_cons_of_mem v hw)
    have hfate' : ∀ w ∈ ws, Fate n w ⟨[], g⟩ := fun w hw => hfate w (List.mem_cons_of_mem v hw)
    rcases List.sublist_cons_iff.1 hs with hs | ⟨rest, hrest, hs⟩
    · -- It was cancelled, and with it went its trigger.
      have hv : v ∉ g.engine.waits.pending := fun hv =>
        hnv (hs.subset (WaitQueue.mem_overdue.2 ⟨hv, hdue v List.mem_cons_self⟩))
      have hgone : g.instance? v.continuation.trigger = none :=
        (hfate v List.mem_cons_self).fate.resolve_left hv
      obtain ⟨rs, hr⟩ := ih hm hg ht hn hp hf hws hdue' hfate' hs
      exact ⟨rs, .cancelled hv (by rw [hasTrigger_eq, hgone]; rfl) hr⟩
    · -- It is the first one in the queue, and its turn has come.
      rw [hrest] at hf
      obtain ⟨fuel, rfl⟩ := Nat.exists_eq_succ_of_ne_zero (Nat.ne_zero_of_lt hf)
      cases hq : g.engine.waits.popDue? g.engine.pulseCount with
      | none =>
        have hnil : g.overdue = [] := hm.ordered.overdue_eq_nil hq
        rw [hrest] at hnil
        cases hnil
      | some found =>
        obtain ⟨w, q⟩ := found
        have hover := WaitQueue.overdue_popDue? hq
        rw [← Game.overdue, hrest] at hover
        obtain ⟨rfl, rfl⟩ := List.cons.inj hover
        rw [hm.resumeDue_succ host hq] at hn ⊢
        have hle := Changes.attachments_le (resumeDue_evolves host fuel
          (g := (run host (g.called v q) v.continuation.trigger .resume).2))
        have hr := hm.round hg ht host hq (Nat.lt_of_le_of_lt hle hn)
        have hover := hr.recedes.overdue hp
        have hp1 := hr.recedes.pulseCount
        obtain ⟨i, hi, hw, hd⟩ := hm.ready hq
        obtain ⟨rs, hrs⟩ := ih hr.settled hr.coherent hr.tracked hn (hp1 ▸ hp)
          (Nat.le_trans hover.length_le (Nat.le_of_succ_le_succ hf)) hws
          (fun w hw => hp1 ▸ hdue' w hw)
          (fun w hw => hr.fate w (fun he => hnv (he ▸ hw)) (hfate' w hw)) (hover.trans hs)
        exact ⟨v :: rs, .takenUp hq hi hw hd hrs⟩

end Settled

end MudTrigger
