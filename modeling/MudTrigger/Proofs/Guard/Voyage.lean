import MudTrigger.Proofs.Flow.Bounded
import MudTrigger.Proofs.Guard.Pass

/-!
# Runs over all their invocations

A run is called once when it is begun, and again each time it is taken up. `Run.Invocation` is one such
call, from the stage of the game at which it is made to a stage at which the run stands before a line.
`Voyage` strings the invocations of a run together: between them its trigger stays as the one left it.
Over a whole voyage the lines that the trigger reaches are one way through its script, which goes on at
the line before which the run stands (`Voyage.path`). So no line is left out or done twice where
a run is put off.
-/

set_option autoImplicit false

namespace MudTrigger

open Game

/-- A run that is called at stage `q`, for a trigger that is `i` there, stands before a line at stage
`p`. -/
structure Run.Invocation (may : Game → Operation → Prop) (r : Run) (i : Instance) (g : Game)
    (q : Stage) (f : Frame) (p : Stage) : Prop where
  live : q.game.instance? r.trigger = some i
  owner : r.owner = i.owner
  proto : r.proto = i.proto
  executes : Executes r.execute
  opens : Stage.Next may q ⟨⟨r.activation 0 :: q.moment.stack, (r.entry i g).2⟩, p.issued⟩
  comes : r.Comes (r.entry i g).1 (r.entry i g).2 f p.game
  stack : p.moment.stack = r.activation f.loops :: q.moment.stack
  few : p.game.attachments < p.issued + 0x1_0000_0000

/-- The run enters its script at the first line. -/
def Run.Begins (r : Run) (g : Game) : Prop :=
  r.mode = .resume → ∀ i, g.instance? r.trigger = some i → i.resumeAt = none

namespace Stage

/-- The trigger stays as it is from one stage to another. -/
inductive Untouched (may : Game → Operation → Prop) (h : Handle) (i : Instance) (p : Stage) :
    Stage → Prop
  | refl : Untouched may h i p p
  | tail {q q' : Stage} : Untouched may h i p q → Next may q q' →
    q'.game.instance? h = some i → Untouched may h i p q'

/-- The stage at which a run is left that was called at stage `q`. -/
def leave (p q : Stage) (g : Game) : Stage := ⟨⟨q.moment.stack, g.leave⟩, p.issued⟩

end Stage

/-- The run is called at this stage, as an invocation of the run that was begun at stage `b`. -/
inductive Voyage (may : Game → Operation → Prop) (start b : Stage) : Run → Stage → Prop
  | begin {r : Run} : Course may start b → r.Begins b.game → Voyage may start b r b
  | resume {r r' : Run} {q p q' : Stage} {f : Frame} {i i' : Instance} {g g1 : Game} {result : Int} :
    Voyage may start b r q → r.Invocation may i g q f p → f.line < r.proto.script.length →
    r.pass f p.game = (.left result, g1) → g1.instance? r.trigger = some i' →
    Stage.Untouched may r.trigger i' (p.leave q g1) q' → r'.trigger = r.trigger →
    r'.mode = .resume → Voyage may start b r' q'

namespace Stage

variable {may : Game → Operation → Prop} {p p' q : Stage} {h : Handle} {i : Instance}
  {a : Activation} {u : Uid}

/-- What holds of the stages of a course. -/
structure Firm (p : Stage) : Prop where
  sane : p.Sane
  branded : Branded p.moment

theorem firm_start (config : Config) (registry : Registry) (world : World) :
    (start (Game.start config registry world)).Firm :=
  ⟨sane_start config registry world, fun _ ha => absurd ha List.not_mem_nil⟩

theorem Firm.course (hp : p.Firm) (hc : Course may p p') : p'.Firm :=
  ⟨hp.sane.course hc, hp.sane.branded_course hp.branded hc⟩

/-- When a run is entered, its trigger is attached and not idle. -/
theorem Next.entered (hn : Next may p p') (hst : p'.moment.stack = a :: p.moment.stack) :
    ∃ j, p'.game.instance? a.trigger = some j ∧ j.isIdle = false := by
  cases hn.effect with
  | spare hst' | attach hst' | refuse hst' =>
    exact absurd (hst.symm.trans hst') (List.cons_ne_self _ _)
  | work n hs hst' =>
    rw [hs, hst'] at hst
    have hlength := congrArg List.length hst
    simp only [List.length_cons] at hlength
    omega
  | leave hs hst' =>
    rw [hs, hst'] at hst
    have hlength := congrArg List.length hst
    simp only [List.length_cons] at hlength
    omega
  | enter hst' _ _ _ _ _ hself =>
    obtain rfl := (List.cons.inj (hst.symm.trans hst')).1
    obtain ⟨j, hj, -, hidle, -⟩ := hself
    exact ⟨j, hj, hidle⟩

/-- Entering a run reaches no line. -/
theorem Next.lines_entered (hn : Next may p p') (hst : p'.moment.stack = a :: p.moment.stack)
    (h : Handle) (u : Uid) : p'.game.lines h u = p.game.lines h u := by
  refine (hn.lines h u).resolve_right ?_
  rintro ⟨line, hreach⟩
  exact absurd (hst.symm.trans hreach.stack) (List.cons_ne_self _ _)

namespace Untouched

theorem course (hu : Untouched may h i p p') : Course may p p' := by
  induction hu with
  | refl => exact .refl
  | tail _ hn _ ih => exact ih.tail hn

theorem live (hu : Untouched may h i p p') (hi : p.game.instance? h = some i) :
    p'.game.instance? h = some i := by
  cases hu with
  | refl => exact hi
  | tail _ _ hi => exact hi

/-- A trigger that waits reaches no line. -/
theorem lines (hu : Untouched may h i p p') (hp : p.Sane) (hi : p.game.instance? h = some i)
    (hw : i.wait.isSome = true) (u : Uid) : p'.game.lines h u = p.game.lines h u := by
  induction hu with
  | refl => rfl
  | @tail q q' hu hn _ ih =>
    refine Eq.trans ((hn.lines h u).resolve_right ?_) ih
    rintro ⟨line, hreach⟩
    obtain ⟨a, s, hst, rfl, -⟩ := hreach.top
    have hwaits := (hp.course hu.course).upright.waiting (hu.live hi) hw
    exact hwaits.1 (List.mem_map.2 ⟨a, hst ▸ List.mem_cons_self, rfl⟩)

end Untouched

/-- A run that waits is left alone until something frees it. -/
theorem Sane.untouched_or_freed (hp : p.Sane) (hi : p.game.instance? h = some i)
    (hw : i.wait.isSome = true) (hc : Course may p p') :
    Untouched may h i p p' ∨ ∃ q q', Untouched may h i p q ∧ Next may q q' ∧ Frees h q q' ∧
      Course may q' p' := by
  induction hc with
  | refl => exact .inl .refl
  | @tail p1 p2 hc hn ih =>
    rcases ih with hu | ⟨q, q', hu, hq, hf, hq'⟩
    · rcases (hp.course hc).suspended_next hn (hu.live hi) hw with h2 | hf
      · exact .inl (hu.tail hn h2)
      · exact .inr ⟨p1, p2, hu, hn, hf, .refl⟩
    · exact .inr ⟨q, q', hu, hq, hf, hq'.tail hn⟩

end Stage

namespace Run

variable {may : Game → Operation → Prop} {r : Run} {i i' : Instance} {g g1 : Game} {q p : Stage}
  {f : Frame} {result : Int}

theorem loops_entry (r : Run) (i : Instance) (g : Game) : (r.entry i g).1.loops = 0 := by
  unfold entry
  cases r.mode <;> rfl

theorem entry_resume (hmode : r.mode = .resume) (i : Instance) (g : Game) :
    (r.entry i g).1 = { line := i.resumeAt.getD 0 } := by
  unfold entry
  rw [hmode]

theorem Begins.line_entry (hr : r.Begins g) (hi : g.instance? r.trigger = some i) (g1 : Game) :
    (r.entry i g1).1.line = 0 := by
  cases hmode : r.mode with
  | new =>
    unfold entry
    rw [hmode]
  | resume => rw [entry_resume hmode, hr hmode i hi, Option.getD_none]

/-- A pass that suspends a run leads to the line at which it is to go on, and has reached the lines
between. -/
theorem exists_of_left (he : r.pass f g = (.left result, g1)) (hg : g.hasTrigger r.trigger = true)
    (hi : g1.instance? r.trigger = some i') :
    ∃ j ls line, g.instance? r.trigger = some j ∧ i'.owner = j.owner ∧ i'.proto = j.proto ∧
      i'.wait.isSome = true ∧ i'.resumeAt = some line ∧ r.proto.script.Path f.line ls line ∧
      g1.lines r.trigger r.owner = g.lines r.trigger r.owner ++ ls ∧ Quiet g g1 := by
  cases pass_parts he hg with
  | off =>
    obtain ⟨j, hj, rfl⟩ := exists_of_suspend hi
    refine ⟨j, [], f.line, hj, rfl, rfl, rfl, rfl, .here, ?_, quiet_suspend _ _ _ _ _⟩
    rw [(silent_suspend _ _ _ _ _).lines, List.append_nil]
  | @done g2 line delay hleads hsame hquiet hlines =>
    obtain ⟨k, hk, rfl⟩ := exists_of_suspend hi
    obtain ⟨j, hj, howner, hproto⟩ := hsame.symm_instance hk
    refine ⟨j, [f.line], line, hj, howner.symm, hproto.symm, rfl, rfl, .step hleads .here, ?_,
      hquiet.trans (quiet_suspend _ _ _ _ _)⟩
    rw [(silent_suspend _ _ _ _ _).lines, hlines]

namespace Invocation

variable (hv : r.Invocation may i g q f p)
include hv

theorem course : Course may q p := by
  have hchanges := hv.comes.changes hv.executes (q.moment.stack ++ [.host])
  rw [loops_entry, ← List.cons_append, ← List.cons_append] at hchanges
  have htame := Changes.tame_of_host hchanges
  have hp : p = ⟨⟨r.activation f.loops :: q.moment.stack, p.game⟩, p.issued⟩ := by
    rw [← hv.stack]
  have hcourse : Course may ⟨⟨r.activation 0 :: q.moment.stack, (r.entry i g).2⟩, p.issued⟩
      ⟨⟨r.activation f.loops :: q.moment.stack, p.game⟩, p.issued⟩ :=
    course_of_fair (fair_of_tame htame) hv.few
  rw [← hp] at hcourse
  exact .head hv.opens hcourse

/-- The run has just been entered. -/
theorem entered (hq : q.Firm) : r.Steady (r.entry i g).2 0 0 (r.entry i g).2 ∧
    FewSince (r.entry i g).2 p.game := by
  have hentered := (hq.course (.single hv.opens)).sane
  obtain ⟨j, hj, hidle⟩ := hv.opens.entered rfl
  refine ⟨⟨⟨hentered.coherent, rfl, Nat.le_refl _⟩, j, hj,
    Nat.pos_of_ne_zero (beq_eq_false_iff_ne.1 hidle), Nat.zero_le _⟩, ?_⟩
  exact Nat.lt_of_lt_of_le hv.few (Nat.add_le_add_right hentered.tracked.le _)

theorem hasTrigger (hq : q.Firm) : p.game.hasTrigger r.trigger = true := by
  obtain ⟨hs, hfew⟩ := hv.entered hq
  exact (hv.comes.path hv.executes hs hfew).1.hasTrigger

/-- The lines that an invocation reaches are a way through the script. -/
theorem path (hq : q.Firm) : ∃ ls, r.proto.script.Path (r.entry i g).1.line ls f.line ∧
    p.game.lines r.trigger r.owner = q.game.lines r.trigger r.owner ++ ls := by
  obtain ⟨hs, hfew⟩ := hv.entered hq
  obtain ⟨-, ls, hpath, hlines⟩ := hv.comes.path hv.executes hs hfew
  refine ⟨ls, hpath, hlines.trans ?_⟩
  exact congrArg (· ++ ls) (hv.opens.lines_entered rfl _ _)

/-- The trigger is still of the same prototype and owner. -/
theorem origin (hq : q.Firm) {j : Instance} (hj : p.game.instance? r.trigger = some j) :
    j.owner = i.owner ∧ j.proto = i.proto := by
  have hp := hq.course hv.course
  have hmem : r.activation f.loops ∈ p.moment.stack := hv.stack ▸ List.mem_cons_self
  exact ⟨(hp.sane.upright.running hmem hj).2.2.trans hv.owner,
    (hp.branded _ hmem j hj).trans hv.proto⟩

/-- Where a pass leaves the run, the game goes on. -/
theorem course_leave (he : r.pass f p.game = (.left result, g1))
    (hquiet : Quiet p.game g1) : Course may p (p.leave q g1) := by
  have hleads := pass_leads hv.executes f (s := q.moment.stack ++ [.host]) (g := p.game)
  rw [he] at hleads
  cases hleads with
  | left hc =>
    rw [← List.cons_append] at hc
    have htame := Changes.tame_of_host hc
    rw [← hv.stack] at htame
    refine course_of_fair (fair_of_tame htame) ?_
    rw [(hquiet.trans quiet_leave).attachments]
    exact hv.few

/-- A compiled script whose run ends or is left in a pass has its answer there. -/
theorem drive_of_passes {body : String} (hq : q.Firm) (hbody : r.proto.script = Script.compile body)
    (he : r.passes 1 f p.game = (some result, g1)) (hquiet : Quiet p.game g1) :
    r.drive i g = (result, g1) := by
  have hforward : r.proto.script.Forward := hbody ▸ Script.compile_forward body
  obtain ⟨hs, hfew⟩ := hv.entered hq
  obtain ⟨k, hk⟩ := hv.comes.passes
  have hend : r.passes (1 + k) (r.entry i g).1 (r.entry i g).2 = (some result, g1) :=
    (hk 1).trans he
  have hspared : r.Spared (r.entry i g).1 (r.entry i g).2 := by
    refine spared_of_passes hv.executes hforward hs (congrArg Prod.fst hend) ?_
    rw [hend, FewSince, hquiet.attachments]
    exact hfew
  have hleft : r.proto.script.left (r.entry i g).1.line (r.tally (r.entry i g).2) ≤
      r.patience (r.entry i g).2 :=
    Nat.le_trans (r.proto.script.left_le _ _) (Nat.le_add_right _ _)
  rw [drive_eq, passes_enough hforward hspared hleft hend]
  rfl

end Invocation

/-! ## Calls of runs -/

variable {h : Handle} {mode : RunMode} {n : Nat}

/-- A run that the host calls is an invocation. -/
theorem invocation_of_call (host : Host) (hmay : may g (.run host h mode))
    (hi : g.instance? h = some i) (hd : g.engine.depth ≤ g.engine.config.maxScriptDepth)
    (hc : (g.runOf host h i mode).Comes ((g.runOf host h i mode).entry i (g.enter h i.owner)).1
      ((g.runOf host h i mode).entry i (g.enter h i.owner)).2 f g1)
    (hn : g1.attachments < g.attachments + 0x1_0000_0000) :
    (g.runOf host h i mode).Invocation may i (g.enter h i.owner) ⟨⟨[], g⟩, n⟩ f
      ⟨⟨[(g.runOf host h i mode).activation f.loops], g1⟩, g.attachments⟩ := by
  refine ⟨hi, rfl, rfl, executes_runOf host mode, ?_, hc, rfl, hn⟩
  have hcall := Stage.Next.call (n := n) (.run host h mode) hmay
  rw [Operation.opening, Operation.runOpening_entered mode hi hd] at hcall
  cases mode with
  | new => exact hcall
  | resume => exact hcall

/-- A run that a pulse takes up is an invocation. -/
theorem invocation_of_due {w : Wait} {waits : WaitQueue} (host : Host)
    (hq : g.engine.waits.popDue? g.engine.pulseCount = some (w, waits))
    (hi : g.instance? w.continuation.trigger = some i) (hw : i.wait = some w.id)
    (hd : g.engine.depth ≤ g.engine.config.maxScriptDepth) :
    let g0 := (g.withWaits waits).report
      (.resuming w.continuation.owner w.continuation.resumeAt)
    let r := g0.runOf host w.continuation.trigger i .resume
    let g2 := g0.enter w.continuation.trigger i.owner
    r.Comes (r.entry i g2).1 (r.entry i g2).2 f g1 → g1.attachments < n + 0x1_0000_0000 →
      r.Invocation may i g2 ⟨⟨[], g⟩, n⟩ f ⟨⟨[r.activation f.loops], g1⟩, n⟩ := by
  intro g0 r g2 hc hn
  have hx : Executes r.execute := executes_runOf host .resume
  have hle : (r.entry i g2).2.attachments ≤ g1.attachments := (hc.changes hx []).attachments_le
  refine ⟨hi, rfl, rfl, hx, ?_, hc, rfl, hn⟩
  refine .change ⟨.resume hq hi hw hd, fun x hx _ => .inr ⟨rfl, ?_⟩⟩ (Nat.lt_of_le_of_lt hle hn)
  obtain rfl := List.mem_singleton.1 hx
  exact ⟨w, waits, i, hq, rfl, hi, hw⟩

end Run

/-- The lines that the run has reached since it was begun at stage `b` are a way to the line at which it
is called at stage `q`. -/
def Run.KeepsWay (r : Run) (b q : Stage) : Prop :=
  ∀ i, q.game.instance? r.trigger = some i → ∃ ls, ∀ g,
    q.game.lines r.trigger i.owner = b.game.lines r.trigger i.owner ++ ls ∧
      i.proto.script.Path 0 ls (r.entry i g).1.line

section

variable {may : Game → Operation → Prop} {start b q p : Stage} {r : Run} {i : Instance} {g : Game}
  {f : Frame}

/-- From there an invocation goes on. -/
theorem Run.Invocation.onward (hinv : r.Invocation may i g q f p) (hq : q.Firm)
    (hr : r.KeepsWay b q) :
    ∃ ls, p.game.lines r.trigger r.owner = b.game.lines r.trigger r.owner ++ ls ∧
      r.proto.script.Path 0 ls f.line := by
  obtain ⟨ls, hls⟩ := hr i hinv.live
  obtain ⟨hb, hpath⟩ := hls g
  obtain ⟨ls1, hpath1, hlines1⟩ := hinv.path hq
  rw [← hinv.owner] at hb
  rw [← hinv.proto] at hpath
  exact ⟨ls ++ ls1, by rw [hlines1, hb, List.append_assoc], hpath.append hpath1⟩

namespace Voyage

theorem keepsWay (hv : Voyage may start b r q) (hs : start.Firm) :
    Course may start q ∧ r.KeepsWay b q := by
  induction hv with
  | begin hc hr =>
    refine ⟨hc, fun i hi => ⟨[], fun g => ⟨(List.append_nil _).symm, ?_⟩⟩⟩
    rw [hr.line_entry hi g]
    exact .here
  | @resume r r' q p q' f i i' g g1 result _ hinv hin he hi' hu htrigger hmode ih =>
    obtain ⟨hcourse, hway⟩ := ih
    have hq := hs.course hcourse
    obtain ⟨ls, hlines, hpath⟩ := hinv.onward hq hway
    obtain ⟨j, ls1, line, hj, howner, hproto, hwait, hat, hpath1, hlines1, hquiet⟩ :=
      Run.exists_of_left he (hinv.hasTrigger hq) hi'
    have hleave := hinv.course_leave he hquiet
    refine ⟨((hcourse.trans hinv.course).trans hleave).trans hu.course, fun i2 hi2 => ?_⟩
    obtain rfl : i' = i2 := by
      rw [htrigger, hu.live hi', Option.some.injEq] at hi2
      exact hi2
    have horigin := hinv.origin hq hj
    have howner : i'.owner = r.owner := howner.trans (horigin.1.trans hinv.owner.symm)
    have hproto : i'.proto = r.proto := hproto.trans (horigin.2.trans hinv.proto.symm)
    have hsane := ((hq.course hinv.course).course hleave).sane
    have hlast : (p.leave q g1).game.lines r.trigger r.owner = g1.lines r.trigger r.owner := rfl
    refine ⟨ls ++ ls1, fun g' => ?_⟩
    rw [htrigger, howner, hproto, Run.entry_resume hmode, hat]
    refine ⟨?_, hpath.append hpath1⟩
    rw [hu.lines hsane hi' hwait, hlast, hlines1, hlines, List.append_assoc]

/-- The lines that a run has reached, over all its invocations, are a way through its script. -/
theorem path (hv : Voyage may start b r q) (hs : start.Firm) (hinv : r.Invocation may i g q f p) :
    ∃ ls, p.game.lines r.trigger r.owner = b.game.lines r.trigger r.owner ++ ls ∧
      r.proto.script.Path 0 ls f.line := by
  obtain ⟨hcourse, hway⟩ := hv.keepsWay hs
  exact hinv.onward (hs.course hcourse) hway

end Voyage

end

end MudTrigger
