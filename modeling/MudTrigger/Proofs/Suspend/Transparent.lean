import MudTrigger.Proofs.Flow.Refine
import MudTrigger.Proofs.Store.Reach
import MudTrigger.Proofs.Suspend.Calm
import MudTrigger.Proofs.Suspend.Trek

/-!
# Suspension is transparent

A run that is begun, or taken up by a pulse, goes on along its trek until it is over or suspended
(`run_new_finish`, `run_resume_finish`). While it is suspended and the clock stands still, pulses do
nothing but take it up when it is due. So a run that gets pulses until it is over has gone its whole
trek (`suspended_trek`). Editions of a script in which waits are comments, or whose loops yield after
another number of repetitions, have treks that end alike, and what they leave behind is the same
(`suspension_transparent`): for triggers of rooms and objects whose lines stay within their script, in
a game at rest, however many pulses each edition takes.
-/

set_option autoImplicit false

namespace MudTrigger

open Game

namespace Run

variable {r : Run} {c : Config} {s : Script} {g g' g1 p : Game} {line : Nat}

/-! ## A run between its passes -/

/-- The trigger of the run is attached, in this edition, to a game that is calm. -/
structure Ready (r : Run) (c : Config) (s : Script) (g : Game) : Prop where
  coherent : g.Coherent
  calm : g.Calm
  config : g.engine.config = c
  attached : ∃ i, g.instance? r.trigger = some i ∧ i.owner = r.owner ∧
    i.proto = { r.proto with script := s }

theorem Ready.of_same (h : r.Ready c s g) (hs : Same g g')
    (hc : g'.engine.config = g.engine.config) (hh : g'.engine.lastHour = g.engine.lastHour)
    (ht : g'.world.time = g.world.time) : r.Ready c s g' := by
  obtain ⟨i, hi, ho, hp⟩ := h.attached
  obtain ⟨j, hj, hjo, hjp⟩ := hs.instance hi
  exact ⟨h.coherent.of_same hs, h.calm.of_same hs hh ht, hc.trans h.config, j, hj, hjo.trans ho,
    hjp.trans hp⟩

theorem Ready.keeps (h : r.Ready c s g) (hk : Keeps g g') : r.Ready c s g' :=
  h.of_same hk.same hk.quiet.config hk.lastHour hk.time

theorem Ready.of_still (h : r.Ready c s g) (hs : g'.still = g.still)
    (hclock : g'.engine.lastHour.all (· = g'.world.time.hours) = true) : r.Ready c s g' := by
  obtain ⟨i, hi, ho, hp⟩ := h.attached
  exact ⟨h.coherent.of_same (same_of_still hs), h.calm.of_still hs hclock,
    (show g'.engine.config = g.engine.config from congrArg (·.engine.config) hs).trans h.config,
    i, (instance?_of_still hs _).trans hi, ho, hp⟩

theorem Ready.begun (h : r.Ready c s g) :
    r.Ready c s ((g.enter r.trigger r.owner).begin r.trigger) := by
  obtain ⟨q, hq⟩ := exists_begin (g.enter r.trigger r.owner) r.trigger
  have hs : Same g ((g.enter r.trigger r.owner).begin r.trigger) :=
    (same_enter _ _).trans (same_begin _)
  rw [hq] at hs ⊢
  exact h.of_same hs rfl rfl rfl

/-- The run is suspended, and nothing else is pending. -/
structure Suspended (r : Run) (line : Nat) (g : Game) : Prop where
  pending : ∃ i w, g.instance? r.trigger = some i ∧ 0 < i.depth ∧ i.resumeAt = some line ∧
    i.wait = some w.id ∧ w.continuation.trigger = r.trigger ∧ g.engine.waits.pending = [w]

theorem Suspended.of_still (h : r.Suspended line g) (hs : g'.still = g.still) :
    r.Suspended line g' := by
  obtain ⟨i, w, hi, hd, hat, hw, ht, hq⟩ := h.pending
  exact ⟨i, w, (instance?_of_still hs _).trans hi, hd, hat, hw, ht, by rw [waits_of_still hs]; exact hq⟩

theorem Suspended.depthOf (h : r.Suspended line g) : 0 < g.depthOf r.trigger := by
  obtain ⟨i, w, hi, hd, -⟩ := h.pending
  rw [Game.depthOf, hi]
  exact hd

theorem suspended_suspend (hd : 0 < g.depthOf r.trigger) (hq : g.engine.waits.pending = [])
    (line delay : Nat) (kind : WaitKind) :
    r.Suspended line (g.suspend r.trigger r.owner line delay kind) := by
  obtain ⟨i, hi, hid⟩ := instance_of_depthOf hd
  have hpending : (g.suspend r.trigger r.owner line delay kind).engine.waits.pending =
      [⟨Width.saturate64 (g.engine.pulseCount + max delay 1), g.engine.waits.nextId,
        ⟨r.trigger, r.owner, line, kind⟩⟩] := by
    rw [suspend_eq hi]
    show WaitQueue.insertWait _ g.engine.waits.pending = _
    rw [hq]
    rfl
  refine ⟨{ i with resumeAt := some line, wait := some g.engine.waits.nextId }, _, ?_, hid, rfl, rfl,
    rfl, hpending⟩
  rw [suspend_eq hi, instance?_report, instance?_modifyInstance_self, instance?_withWaits, hi]
  rfl

theorem Trek.of_alike (h : r.Trek c s line g1 g') (ha : Alike r.trigger g g1) :
    r.Trek c s line g g' := by
  cases h with
  | ended hl hend => exact .ended hl (ha.finish.trans hend)
  | stop st hland hend => exact .stop { st with alike := ha.trans st.alike } hland hend
  | pass st hland ht => exact .pass { st with alike := ha.trans st.alike } hland ht

/-- The run of an attached trigger is a run of this edition. -/
theorem exists_runOf {i : Instance} (m : RunMode) (ho : i.owner = r.owner)
    (hp : i.proto = { r.proto with script := s }) :
    ∃ n, g.runOf r.host r.trigger i m = r.recut (Game.perform r.host (runWithin n .standard)) s m := by
  refine ⟨g.engine.config.maxScriptDepth + 1 - g.engine.depth, ?_⟩
  unfold runOf recut
  rw [ho, hp]

section

variable (hscript : s.IsScripted) (hfwd : s.Forward) (hu : r.proto.isGuarded = false)
include hscript hfwd hu

/-- The passes of a run go along its trek. -/
theorem ready_finish (h : r.Ready c s g) (hd : 0 < g.depthOf r.trigger) (run : Runner)
    (hrun : Fires run) (m : RunMode) (line : Nat) :
    let r' := r.recut (Game.perform r.host run) s m
    r.Finish c s line g (r'.conclude (r'.passes (r'.patience g) { line } g)).2 := by
  obtain ⟨i, hi, hid⟩ := instance_of_depthOf hd
  have hsteady : (r.recut (Game.perform r.host run) s m).Steady g 0 0 g :=
    ⟨⟨h.coherent, rfl, Nat.le_refl _⟩, i, hi, hid, Nat.zero_le _⟩
  refine passes_finish (executes_perform hrun r.host)
    (fun _ _ htext => perform_echo r.host run r.owner htext) hscript hu hfwd _ { line } .refl h.config
    hsteady ?_
  have hroom := Nat.mul_le_mul_left s.length
    (show g.engine.config.loopAbortAfter - 1 + 1 ≤ max 1 g.engine.config.loopAbortAfter by omega)
  rw [Nat.mul_succ, Nat.mul_comm] at hroom
  show (g.engine.config.loopAbortAfter - 1 - 0) * s.length + (s.length - line) ≤
    s.length * max 1 g.engine.config.loopAbortAfter + 0x1_0000_0000
  exact Nat.le_trans (Nat.add_le_add (Nat.le_refl _) (Nat.sub_le _ _)) (Nat.le_add_right_of_le hroom)

theorem run_new_finish (h : r.Ready c s g) (hd : g.engine.depth = 0) :
    ∃ G, (run r.host g r.trigger .new).2 = G.leave ∧
      r.Finish c s 0 ((g.enter r.trigger r.owner).begin r.trigger) G := by
  obtain ⟨i, hi, ho, hp⟩ := h.attached
  obtain ⟨n, hrun⟩ := exists_runOf (g := g) .new ho hp
  have hlive : 0 < ((g.enter r.trigger r.owner).begin r.trigger).depthOf r.trigger := by
    rw [depthOf, instance?_begin, if_pos rfl, instance?_enter, hi]
    exact Nat.one_pos
  refine ⟨_, ?_, ready_finish hscript hfwd hu h.begun hlive _ (fires_runWithin n .standard) .new 0⟩
  rw [run_entered r.host .new hi (by rw [hd]; exact Nat.zero_le _), hrun, ho, Run.drive_new rfl]
  rfl

theorem run_resume_finish (h : r.Ready c s g) (hd : g.engine.depth = 0) {i : Instance}
    (hi : g.instance? r.trigger = some i) (hat : i.resumeAt = some line) :
    ∃ G, (run r.host g r.trigger .resume).2 = G.leave ∧
      r.Finish c s line ((g.enter r.trigger r.owner).takeUp r.trigger) G := by
  obtain ⟨j, hj, ho, hp⟩ := h.attached
  obtain rfl : i = j := Option.some.inj (hi.symm.trans hj)
  obtain ⟨n, hrun⟩ := exists_runOf (g := g) .resume ho hp
  have hready : r.Ready c s ((g.enter r.trigger r.owner).takeUp r.trigger) :=
    h.of_same ((same_enter _ _).trans (same_takeUp _)) rfl rfl rfl
  have hlive : 0 < ((g.enter r.trigger r.owner).takeUp r.trigger).depthOf r.trigger := by
    rw [depthOf, takeUp, instance?_modifyInstance_self, instance?_enter, hi]
    exact Nat.le_max_right _ _
  refine ⟨_, ?_, ready_finish hscript hfwd hu hready hlive _ (fires_runWithin n .standard) .resume
    line⟩
  rw [run_entered r.host .resume hi (by rw [hd]; exact Nat.zero_le _), hrun, ho, Run.drive_resume rfl,
    hat]
  rfl

end

/-! ## Pulses until the run is over -/

theorem ready_suspend (h : r.Ready c s g) (line delay : Nat) (kind : WaitKind) :
    r.Ready c s (g.suspend r.trigger r.owner line delay kind) := by
  obtain ⟨i, hi, -⟩ := h.attached
  have hs : Same g (g.suspend r.trigger r.owner line delay kind) := same_suspend _ _ _ _ _
  rw [suspend_eq hi] at hs ⊢
  exact h.of_same hs rfl rfl rfl

/-- What the passes of a run leave is as calm, and as nested, as it was. -/
theorem Finish.ready {G : Game} (hf : r.Finish c s line g G) (h : r.Ready c s g) :
    r.Ready c s G ∧ G.engine.depth = g.engine.depth := by
  cases hf with
  | ended hk _ => exact ⟨(h.keeps hk).keeps (keeps_finish _), hk.depth⟩
  | @left g1 there delay hk hd _ =>
    obtain ⟨i, hi, -⟩ := instance_of_depthOf hd
    refine ⟨ready_suspend (h.keeps hk) _ _ _, ?_⟩
    rw [suspend_eq hi]
    exact hk.depth
  | @halted g1 times hk =>
    have hl : r.Ready c s (g1.report (.looped r.proto.vnum r.proto.name times)) :=
      (h.keeps hk).of_same (same_of_eq rfl rfl) rfl rfl rfl
    exact ⟨hl.keeps (keeps_finish _), hk.depth⟩

/-- A run that is over or suspended, and pulses until it is over. -/
theorem Finish.trek {g2 G q : Game} (hf : r.Finish c s line g2 G) (hr : r.Ready c s g2)
    (hq : g2.engine.waits.pending = []) (hs : p.still = G.still)
    (hclock : p.engine.lastHour.all (· = p.world.time.hours) = true) (n : Nat)
    (hplay : q = p.play (List.replicate n (.pulse r.host))) (hrec : q.records = g2.records)
    (ih : ∀ there, r.Ready c s p → r.Suspended there p → q.records = p.records →
      r.Trek c s there p q) : r.Trek c s line g2 q := by
  have hready : r.Ready c s p := (hf.ready hr).1.of_still hs hclock
  have hnone : ∀ {g3 : Game}, Keeps g2 g3 → g3.engine.waits.pending = [] := fun hk =>
    (congrArg WaitQueue.pending hk.waits).trans hq
  -- Once nothing is pending the pulses do nothing.
  have hrest : G.engine.waits.pending = [] → q.still = G.still := fun hpending => by
    rw [hplay, still_pulses r.host n hready.calm (by rw [waits_of_still hs]; exact hpending), hs]
  cases hf with
  | ended hk h =>
    have hpending := hnone hk
    exact h q (alike_of_still (hrest hpending))
  | @left g3 there delay hk hlive h =>
    have hsusp := (suspended_suspend hlive (hnone hk) there delay .wait).of_still hs
    have hsame : p.records = g2.records := by
      rw [records_of_still hs, (quiet_suspend _ _ _ _ _).records, hk.quiet.records]
    exact h q ((ih there hready hsusp (hrec.trans hsame.symm)).of_alike (alike_of_still hs))
  | @halted g3 times hk =>
    -- What is on record stays there, so this is not how the run has ended.
    have hpending := hnone hk
    have hrecords := records_of_still (hrest hpending)
    rw [(quiet_finish _).records, records_report, hk.quiet.records, hrec] at hrecords
    simp [Notice.isRecord] at hrecords

/-- The game of a pulse when a continuation is taken from the queue. -/
def taken (g : Game) (w : Wait) : Game :=
  (g.tick.withWaits { g.engine.waits with pending := [] }).report
    (.resuming w.continuation.owner w.continuation.resumeAt)

/-- Taking the run up is not seen by it, and not put on record. -/
theorem taken_up (w : Wait) (hd : 0 < g.depthOf r.trigger) :
    Alike r.trigger g (((taken g w).enter r.trigger r.owner).takeUp r.trigger) ∧
      Quiet g (((taken g w).enter r.trigger r.owner).takeUp r.trigger) := by
  have hw : Alike r.trigger g (g.tick.withWaits { g.engine.waits with pending := [] }) :=
    alike_of_eq rfl rfl rfl rfl rfl rfl rfl
  have hq : Quiet g (g.tick.withWaits { g.engine.waits with pending := [] }) :=
    quiet_of_eq rfl rfl rfl
  have hd' : 0 < ((taken g w).enter r.trigger r.owner).depthOf r.trigger := hd
  exact ⟨((hw.trans (alike_report rfl)).trans (alike_enter _ _)).trans (alike_takeUp hd'),
    ((hq.report rfl).trans (quiet_enter _ _)).trans (quiet_takeUp _)⟩

theorem resumeDue_taken (host : Host) {w : Wait} (hdue : w.due ≤ g.engine.pulseCount + 1)
    (hpending : g.engine.waits.pending = [w]) (ht : w.continuation.trigger = r.trigger) {i : Instance}
    (hi : g.instance? r.trigger = some i) (hw : i.wait = some w.id) :
    resumeDue (Game.run host) g.engine.waits.size g.tick =
      (Game.run host (taken g w) r.trigger .resume).2 := by
  have hsize : g.engine.waits.size = 1 := by rw [WaitQueue.size, hpending]; rfl
  have hpop : g.tick.engine.waits.popDue? g.tick.engine.pulseCount =
      some (w, { g.engine.waits with pending := [] }) := by
    show g.engine.waits.popDue? (g.engine.pulseCount + 1) = _
    rw [WaitQueue.popDue?, hpending]
    exact if_pos hdue
  have hlive : ((g.tick.withWaits { g.engine.waits with pending := [] }).instance?
      w.continuation.trigger).any (·.wait = some w.id) = true := by
    show (g.instance? w.continuation.trigger).any _ = true
    rw [ht, hi, Option.any_some, hw]
    simp
  rw [hsize, resumeDue, hpop]
  simp only [hlive, if_true]
  rw [ht]
  rfl

section

variable (hscript : s.IsScripted) (hfwd : s.Forward) (hu : r.proto.isGuarded = false)
include hscript hfwd hu

/-- A suspended run that is over after some pulses has gone its trek. -/
theorem suspended_trek (n : Nat) (hr : r.Ready c s g) (hd : g.engine.depth = 0)
    (hs : r.Suspended line g)
    (hidle : ((g.play (List.replicate n (.pulse r.host))).instance? r.trigger).any (·.isIdle) = true)
    (hrec : (g.play (List.replicate n (.pulse r.host))).records = g.records) :
    r.Trek c s line g (g.play (List.replicate n (.pulse r.host))) := by
  induction n generalizing g line with
  | zero =>
    obtain ⟨i, w, hi, hdepth, -⟩ := hs.pending
    have hidle : (g.instance? r.trigger).any (·.isIdle) = true := hidle
    rw [hi, Option.any_some, Instance.isIdle, beq_iff_eq] at hidle
    omega
  | succ n ih =>
    have hplay : g.play (List.replicate (n + 1) (.pulse r.host)) =
        (g.pulse r.host).play (List.replicate n (.pulse r.host)) := rfl
    rw [hplay] at hidle hrec ⊢
    obtain ⟨i, w, hi, hdepth, hat, hw, htrigger, hpending⟩ := hs.pending
    by_cases hdue : w.due ≤ g.engine.pulseCount + 1
    · -- The pulse takes the run up, and nothing else is due then.
      have hready : r.Ready c s (taken g w) := hr.of_same (same_of_eq rfl rfl) rfl rfl rfl
      have hready' : r.Ready c s (((taken g w).enter r.trigger r.owner).takeUp r.trigger) :=
        hready.of_same ((same_enter _ _).trans (same_takeUp _)) rfl rfl rfl
      obtain ⟨G, hG, hfinish⟩ := run_resume_finish hscript hfwd hu hready hd hi hat
      obtain ⟨hafter, hdepthG⟩ := hfinish.ready hready'
      have hpulse : g.pulse r.host = G.leave.noteHour G.leave.world.time.hours := by
        have hresume := resumeDue_taken r.host hdue hpending htrigger hi hw
        rw [hG] at hresume
        have hcalm : G.leave.Calm := ⟨hafter.calm.random, hafter.calm.clock⟩
        rw [pulse_calm r.host (by rw [hresume]; exact hcalm), hresume]
      have hzero : (g.pulse r.host).engine.depth = 0 := by
        rw [hpulse]
        show G.engine.depth - 1 = 0
        rw [hdepthG]
        show g.engine.depth + 1 - 1 = 0
        rw [hd]
      have hclock : (g.pulse r.host).engine.lastHour.all (· = (g.pulse r.host).world.time.hours) =
          true := by
        rw [hpulse]
        simp [noteHour]
      obtain ⟨ha, hquiet⟩ := taken_up (g := g) w (hs.depthOf)
      have htrek := hfinish.trek hready' rfl (by rw [hpulse]; rfl) hclock n rfl
        (hrec.trans hquiet.records.symm) fun there hrp hsp hrecp => ih hrp hzero hsp hidle hrecp
      exact htrek.of_alike ha
    · have hnone : g.engine.waits.popDue? (g.engine.pulseCount + 1) = none := by
        rw [WaitQueue.popDue?, hpending]
        exact if_neg hdue
      obtain ⟨hstill, hdepth', hhour⟩ := still_pulse r.host hr.calm hnone
      have hclock : (g.pulse r.host).engine.lastHour.all (· = (g.pulse r.host).world.time.hours) =
          true := by
        rw [hhour, Option.all_some]
        simp
      exact (ih (hr.of_still hstill hclock) (hdepth'.trans hd) (hs.of_still hstill) hidle
        (hrec.trans (records_of_still hstill).symm)).of_alike (alike_of_still hstill)

end

end Run

/-- The trigger with the script that a text writes. -/
def Instance.edition (body : String) (i : Instance) : Instance :=
  { i with proto := { i.proto with script := Script.compile body } }

namespace Game

variable {g : Game} {h : Handle} {i : Instance}

/-- The game with another edition of a trigger's script, whose loops yield after so many
repetitions. -/
def edition (g : Game) (h : Handle) (body : String) (deferAfter : Nat) : Game :=
  { g with
    engine := { g.engine with
      config := { g.engine.config with loopDeferAfter := deferAfter }
      triggers := g.engine.triggers.modify h (Instance.edition body) } }

/-- Nothing happens in the game by itself: no run is pending or under way, no trigger is woken by the
scan for random triggers, and the clock has not moved since the last pulse. -/
structure AtRest (g : Game) : Prop where
  coherent : g.Coherent
  calm : g.Calm
  idle : g.engine.depth = 0
  pending : g.engine.waits.pending = []

/-- A run that is begun, and so many pulses after it. -/
def runFor (host : Host) (h : Handle) (pulses : Nat) : List Operation :=
  .run host h .new :: List.replicate pulses (.pulse host)

theorem instance?_edition (body : String) (n : Nat) (h' : Handle) :
    (g.edition h body n).instance? h' =
      if h' = h then (g.instance? h).map (Instance.edition body) else g.instance? h' :=
  Arena.get?_modify _ h h' _

theorem alike_edition (body : String) (n : Nat) : Alike h g (g.edition h body n) := by
  refine ⟨rfl, rfl, rfl, rfl, rfl, rfl, ?_⟩
  rw [instance?_edition, if_pos rfl, Option.map_map]
  rfl

/-- What the containers know of a trigger is the same in every edition of its script. -/
theorem edition_knows (body : String) (n : Nat) (h' : Handle) :
    ((g.edition h body n).instance? h').map (fun i => (i.owner, i.proto.events)) =
      (g.instance? h').map fun i => (i.owner, i.proto.events) := by
  rw [instance?_edition]
  split
  · rename_i he
    rw [he, Option.map_map]
    rfl
  · rfl

theorem exists_of_knows {g g' : Game} {h' : Handle} {j : Instance}
    (hk : (g'.instance? h').map (fun i => (i.owner, i.proto.events)) =
      (g.instance? h').map fun i => (i.owner, i.proto.events)) (hj : g'.instance? h' = some j) :
    ∃ i, g.instance? h' = some i ∧ i.owner = j.owner ∧ i.proto.events = j.proto.events := by
  rw [hj, Option.map_some, eq_comm, Option.map_eq_some_iff] at hk
  obtain ⟨i, hi, he⟩ := hk
  exact ⟨i, hi, congrArg Prod.fst he, congrArg Prod.snd he⟩

theorem Coherent.edition (hg : g.Coherent) (body : String) (n : Nat) :
    (g.edition h body n).Coherent where
  sound := hg.sound.modify h _
  nonempty hc := hg.nonempty hc
  nodup hc := hg.nodup hc
  live hc hm := by
    obtain ⟨i, hi, ho⟩ := hg.live hc hm
    obtain ⟨j, hj, hjo, -⟩ := exists_of_knows (edition_knows (h := h) body n _).symm hi
    exact ⟨j, hj, hjo.trans ho⟩
  listed hi := by
    obtain ⟨j, hj, hjo, -⟩ := exists_of_knows (edition_knows body n _) hi
    exact hjo ▸ hg.listed hj
  types hc := by
    refine (hg.types hc).trans (eq_eventsOf fun k => testBit_eventsOf.trans ?_)
    constructor
    · rintro ⟨x, hm, i, hi, hk⟩
      obtain ⟨j, hj, -, he⟩ := exists_of_knows (edition_knows (h := h) body n x).symm hi
      exact ⟨x, hm, j, hj, he ▸ hk⟩
    · rintro ⟨x, hm, j, hj, hk⟩
      obtain ⟨i, hi, -, he⟩ := exists_of_knows (edition_knows body n x) hj
      exact ⟨x, hm, i, hi, he ▸ hk⟩

theorem AtRest.edition (hg : g.AtRest) (body : String) (n : Nat) :
    (g.edition h body n).AtRest where
  coherent := hg.coherent.edition body n
  calm := by
    refine ⟨fun x j hj => ?_, hg.calm.clock⟩
    obtain ⟨i, hi, -, he⟩ := exists_of_knows (edition_knows body n x) hj
    exact he ▸ hg.calm.random x i hi
  idle := hg.idle
  pending := hg.pending

/-- The run that an edition makes of a trigger. -/
def baseRun (host : Host) (h : Handle) (i : Instance) : Run where
  host
  execute := fun g _ _ => g
  trigger := h
  owner := i.owner
  proto := i.proto
  mode := .new

/-- A run that is over after some pulses has gone its trek. -/
theorem AtRest.edition_trek (hg : g.AtRest) (hi : g.instance? h = some i)
    (hu : i.proto.isGuarded = false) (host : Host) {body : String}
    (hscript : (Script.compile body).IsScripted) (n k : Nat)
    (hidle : (((g.edition h body n).play (runFor host h k)).instance? h).any (·.isIdle) = true)
    (hrec : ((g.edition h body n).play (runFor host h k)).records = g.records) :
    (baseRun host h i).Trek { g.engine.config with loopDeferAfter := n } (Script.compile body) 0
      (((g.edition h body n).enter h i.owner).begin h)
      ((g.edition h body n).play (runFor host h k)) := by
  have hrest := hg.edition (h := h) body n
  have hfwd : (Script.compile body).Forward := by
    rw [Script.compile]
    exact Script.ofLines_forward _
  have hready : (baseRun host h i).Ready { g.engine.config with loopDeferAfter := n }
      (Script.compile body) (g.edition h body n) := by
    refine ⟨hrest.coherent, hrest.calm, rfl, i.edition body, ?_, rfl, rfl⟩
    rw [instance?_edition, if_pos (show (baseRun host h i).trigger = h from rfl), hi, Option.map_some]
  obtain ⟨G, hG, hfinish⟩ := Run.run_new_finish hscript hfwd hu hready hrest.idle
  have hbegun := hready.begun
  obtain ⟨hafter, hdepth⟩ := hfinish.ready hbegun
  have hquiet : Quiet (g.edition h body n) (((g.edition h body n).enter h i.owner).begin h) :=
    (quiet_enter _ _).trans (quiet_begin _)
  have hpending : (((g.edition h body n).enter h i.owner).begin h).engine.waits.pending = [] := by
    rw [waits_begin]
    show ((g.engine.waits).release _).pending = []
    unfold WaitQueue.release
    split
    · rw [WaitQueue.cancel, hg.pending]
      rfl
    · exact hg.pending
  have hzero : (run host (g.edition h body n) h .new).2.engine.depth = 0 := by
    rw [show (run host (g.edition h body n) h .new).2 = G.leave from hG]
    show G.engine.depth - 1 = 0
    rw [hdepth, depth_begin]
    show g.engine.depth + 1 - 1 = 0
    rw [hg.idle]
  refine hfinish.trek hbegun hpending (p := (run host (g.edition h body n) h .new).2) ?_ ?_ k rfl
    (hrec.trans hquiet.records.symm) fun there hrp hsp hrecp => ?_
  · rw [show (run host (g.edition h body n) h .new).2 = G.leave from hG]
    rfl
  · rw [show (run host (g.edition h body n) h .new).2 = G.leave from hG]
    exact hafter.calm.clock
  · exact Run.suspended_trek hscript hfwd hu k hrp hzero hsp hidle hrecp

/-- Two editions of a script, which differ in valid waits that are comments and in the limit after which
loops yield, leave the same world with the same messages, answers, story, dice and containers behind, if
both are run until they are over and neither is cut short. -/
theorem suspension_transparent (hg : g.AtRest) (hi : g.instance? h = some i)
    (hu : i.proto.isGuarded = false) (host : Host)
    (hhost : ∀ e e' u line, host.answer e u line = host.answer e' u line) {body body' : String}
    (hlines : ∀ line ∈ Script.bodyLines body, Text.IsScripted line)
    (hcut : List.Forall₂ (Text.Recut g.engine.config) (Script.bodyLines body) (Script.bodyLines body'))
    (n n' k k' : Nat) :
    let a := (g.edition h body n).play (runFor host h k)
    let b := (g.edition h body' n').play (runFor host h k')
    (a.instance? h).any (·.isIdle) = true → (b.instance? h).any (·.isIdle) = true →
    a.records = g.records → b.records = g.records →
    b.world = a.world ∧ b.notes = a.notes ∧ b.story = a.story ∧ b.engine.dice = a.engine.dice ∧
      b.engine.containers = a.engine.containers := by
  intro a b hidle hidle' hrec hrec'
  have hscript := Script.isScripted_compile hlines
  have hconfig : Config.unhurried { g.engine.config with loopDeferAfter := n } =
      g.engine.config.unhurried := rfl
  have hrecut : Script.Recut { g.engine.config with loopDeferAfter := n } (Script.compile body)
      (Script.compile body') := Script.recut_compile (hcut.imp fun _ _ => Text.Recut.unhurried hconfig)
  have htrek := hg.edition_trek hi hu host hscript n k hidle hrec
  have htrek' := hg.edition_trek hi hu host (hrecut.isScripted hscript) n' k' hidle' hrec'
  have hstart : Alike h (g.edition h body n) (g.edition h body' n') :=
    (alike_edition body n).symm.trans (alike_edition body' n')
  have hbegun : Alike h (((g.edition h body n).enter h i.owner).begin h)
      (((g.edition h body' n').enter h i.owner).begin h) :=
    (((alike_enter h i.owner).symm.trans hstart).trans (alike_enter h i.owner)).begin
  have hend := htrek.alike hrecut hscript hu hhost htrek' hbegun
  exact ⟨hend.world, hend.notes, hend.story, hend.dice, hend.containers⟩

/-- Tosses a coin twice, and pauses when it shows tails. -/
def tossing : String :=
  "set n 0\nwhile %n% < 2\neval n %n% + 1\nif %random.2% == 2\nwait 2\nend\necho %n%\ndone\nglobal n\n"

/-- The same without the pause. -/
def tossingOn : String :=
  "set n 0\nwhile %n% < 2\neval n %n% + 1\nif %random.2% == 2\n* wait\nend\necho %n%\ndone\nglobal n\n"

/-- A game with a room and a trigger that tosses coins. -/
def parlour : Game :=
  (start {} ((∅ : Registry).register
      { vnum := 1, name := "toss", kind := .room, script := Script.compile tossing })
    (({} : World).addRoom 100 "parlour").2).play [.attach 1 (Uid.room 0) none]

theorem parlour_atRest : parlour.AtRest where
  coherent := play_coherent _ _ _ _
  calm := by
    have hrandom : ∀ i ∈ parlour.engine.triggers.values, i.proto.events.meets randomBits = false := by
      decide +kernel
    exact ⟨fun _ i hi => hrandom i (Arena.mem_values_of_get? hi), by decide +kernel⟩
  idle := by decide +kernel
  pending := by decide +kernel

theorem bodyLines_tossing : Script.bodyLines tossing =
    ["set n 0", "while %n% < 2", "eval n %n% + 1", "if %random.2% == 2", "wait 2", "end", "echo %n%",
      "done", "global n"] := by decide +kernel

theorem bodyLines_tossingOn : Script.bodyLines tossingOn =
    ["set n 0", "while %n% < 2", "eval n %n% + 1", "if %random.2% == 2", "* wait", "end", "echo %n%",
      "done", "global n"] := by decide +kernel

theorem tossing_recut :
    List.Forall₂ (Text.Recut {}) (Script.bodyLines tossing) (Script.bodyLines tossingOn) := by
  have hwait : Text.IsFixedWait {} "wait 2" :=
    ⟨by decide +kernel, by decide +kernel, 0, 0, 2, by decide +kernel⟩
  have hcomment : Keyword.ofText "* wait" = .comment := by decide +kernel
  rw [bodyLines_tossing, bodyLines_tossingOn]
  exact .cons (.inl rfl) <| .cons (.inl rfl) <| .cons (.inl rfl) <| .cons (.inl rfl) <|
    .cons (.inr ⟨hwait, hcomment⟩) <| .cons (.inl rfl) <| .cons (.inl rfl) <| .cons (.inl rfl) <|
    .cons (.inl rfl) .nil

/-- A run that is suspended three times and one that never is leave the same. -/
theorem parlour_transparent :
    let a := (parlour.edition ⟨0, 0⟩ tossing 1).play (runFor .standard ⟨0, 0⟩ 5)
    let b := (parlour.edition ⟨0, 0⟩ tossingOn 30).play (runFor .standard ⟨0, 0⟩ 0)
    (a.log.filter (·.isTiming)).length = 10 ∧ (b.log.filter (·.isTiming)).length = 1 ∧
      a.world.messages = ["1", "2"] ∧
      b.world = a.world ∧ b.notes = a.notes ∧ b.story = a.story ∧ b.engine.dice = a.engine.dice ∧
      b.engine.containers = a.engine.containers := by
  have hroom : (parlour.instance? ⟨0, 0⟩).any (!·.proto.isGuarded) = true := by decide +kernel
  obtain ⟨i, hi, hu⟩ := (Option.any_eq_true _ _).1 hroom
  have hlines : ∀ line ∈ Script.bodyLines tossing, Text.IsScripted line := by
    rw [bodyLines_tossing]
    decide +kernel
  have hruns :
      let a := (parlour.edition ⟨0, 0⟩ tossing 1).play (runFor .standard ⟨0, 0⟩ 5)
      let b := (parlour.edition ⟨0, 0⟩ tossingOn 30).play (runFor .standard ⟨0, 0⟩ 0)
      (a.instance? ⟨0, 0⟩).any (·.isIdle) = true ∧ (b.instance? ⟨0, 0⟩).any (·.isIdle) = true ∧
        a.records = parlour.records ∧ b.records = parlour.records ∧
        (a.log.filter (·.isTiming)).length = 10 ∧ (b.log.filter (·.isTiming)).length = 1 ∧
        a.world.messages = ["1", "2"] := by
    decide +kernel
  obtain ⟨hidle, hidle', hrec, hrec', ha, hb, hmessages⟩ := hruns
  exact ⟨ha, hb, hmessages,
    suspension_transparent parlour_atRest hi (by simpa using hu) .standard (fun _ _ _ _ => rfl) hlines
      tossing_recut 1 30 5 0 hidle hidle' hrec hrec'⟩

end Game

end MudTrigger
