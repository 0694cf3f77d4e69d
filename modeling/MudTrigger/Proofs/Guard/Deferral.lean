import MudTrigger.Proofs.Guard.Voyage
import MudTrigger.Proofs.Wait.Exact

/-!
# Lines that are put off

A run whose owner casts, or sleeps when it was taken up, puts off the line before which it stands. What
holds of that is `Run.Deferral`: no line is reached, the run waits to go on at this very line, nothing but
its continuation, its removal or the host ends that, and what goes on is an invocation of the same run,
which has reached the same lines. A run that begins while its owner sleeps is over
(`Run.Invocation.sleeps`). The calls of the host are carried out along courses, and whenever a run stands
before a line, the lines that it has reached are one way through its script, up to this line
(`guarded_lines`).
-/

set_option autoImplicit false

namespace MudTrigger

open Game

/-! ## Continuations of a course -/

section

variable {may : Game → Operation → Prop} {p p' : Stage} {h : Handle} {i : Instance} {w : Wait}

/-- If the host makes no run go on by itself, the runs that wait are those that are pending. -/
theorem Settled.course (hm : Settled p.moment) (hp : p.Sane)
    (hmay : ∀ g op, may g op → op.resumes = false) (hc : Course may p p') : Settled p'.moment := by
  induction hc with
  | refl => exact hm
  | tail hc hn ih =>
    have hq := hp.course hc
    cases hn with
    | change hf hlt => exact ih.change hf.change hq.coherent hq.tracked hlt
    | call op hop => exact ih.opening hq.coherent (hmay _ _ hop)

theorem Stage.Untouched.pending (hu : Untouched may h i p p') (hm : Settled p.moment) (hp : p.Sane)
    (hmay : ∀ g op, may g op → op.resumes = false) (hw : w ∈ p.game.engine.waits.pending)
    (hi : i.wait = some w.id) : w ∈ p'.game.engine.waits.pending := by
  induction hu with
  | refl => exact hw
  | tail hu hn hlive ih =>
    have hq := hm.course hp hmay hu.course
    have hq' := hm.course hp hmay (hu.course.tail hn)
    exact hq.still_pending hq' hn.queueEffect ih hlive hi

end

/-! ## Deferrals -/

/-- The line before which the run stands at stage `p` is put off: the trigger is now `j`, and waits for
the entry `w` of the queue. -/
structure Run.Deferral (may : Game → Operation → Prop) (start b : Stage) (r : Run) (q : Stage)
    (f : Frame) (p p1 : Stage) (j : Instance) (w : Wait) : Prop where
  course : Course may p p1
  lines : ∀ h u, p1.game.lines h u = p.game.lines h u
  suspended : p1.game.instance? r.trigger = some j
  resumeAt : j.resumeAt = some f.line
  wait : j.wait = some w.id
  pending : w ∈ p1.game.engine.waits.pending
  continuation : w.continuation = ⟨r.trigger, r.owner, f.line, .casting⟩
  /-- The run waits until something frees it. -/
  stays : ∀ p2, Course may p1 p2 → Stage.Untouched may r.trigger j p1 p2 ∨
    ∃ q1 q2, Stage.Untouched may r.trigger j p1 q1 ∧ Stage.Next may q1 q2 ∧
      Stage.Frees r.trigger q1 q2 ∧ Course may q2 p2
  /-- Its continuation is pending as long, if the host makes no run go on by itself. -/
  queued : (∀ g op, may g op → op.resumes = false) → ∀ p2, Stage.Untouched may r.trigger j p1 p2 →
    w ∈ p2.game.engine.waits.pending
  /-- Taken up, it is the same run, at the line that was put off, and no line has been reached. -/
  continues : ∀ q1 r', Stage.Untouched may r.trigger j p1 q1 → r'.trigger = r.trigger →
    r'.mode = .resume → Voyage may start b r' q1 ∧ (∀ g, (r'.entry j g).1 = { line := f.line }) ∧
      q1.game.lines r.trigger r.owner = p.game.lines r.trigger r.owner

section

variable {may : Game → Operation → Prop} {start b q p : Stage} {r : Run} {i : Instance}
  {g : Game} {f : Frame}

theorem Voyage.deferral (hv : Voyage may start b r q) (hs : start.Firm) (hm : Settled start.moment)
    (hinv : r.Invocation may i g q f p) (hin : f.line < r.proto.script.length)
    (hd : r.Defers p.game) :
    ∃ j w, r.Deferral may start b q f p (p.leave q (r.putOff f p.game).2) j w := by
  have hcourse := (hv.keepsWay hs).1
  have hq := hs.course hcourse
  have hlive := hinv.hasTrigger hq
  have he := Run.pass_of_defers (f := f) hd hlive
  obtain ⟨i0, hi0⟩ := (hasTrigger_iff _ _).1 hlive
  let delay := p.game.engine.config.castRetryPulses
  let j : Instance :=
    { i0 with resumeAt := some f.line, wait := some p.game.engine.waits.nextId }
  let w : Wait := ⟨Width.saturate64 (p.game.engine.pulseCount + max delay 1),
    p.game.engine.waits.nextId, ⟨r.trigger, r.owner, f.line, .casting⟩⟩
  have hput : (r.putOff f p.game).2 = p.game.suspend r.trigger r.owner f.line delay .casting := rfl
  have hj : (r.putOff f p.game).2.instance? r.trigger = some j := by
    rw [hput, suspend_eq hi0, instance?_report, instance?_modifyInstance_self, instance?_withWaits,
      hi0]
    rfl
  have hw : w ∈ (r.putOff f p.game).2.engine.waits.pending := by
    rw [hput, suspend_eq hi0]
    exact WaitQueue.mem_schedule.2 (.inl rfl)
  have hlines : ∀ h u, (p.leave q (r.putOff f p.game).2).game.lines h u = p.game.lines h u :=
    fun _ _ => (silent_suspend _ _ _ _ _).lines
  have hleave : Course may p (p.leave q (r.putOff f p.game).2) :=
    hinv.course_leave he (quiet_suspend _ _ _ _ _)
  have hto := (hcourse.trans hinv.course).trans hleave
  have hsane := hs.sane.course hto
  refine ⟨j, w, hleave, hlines, hj, rfl, rfl, hw, rfl,
    fun p2 => hsane.untouched_or_freed hj rfl, fun hmay p2 hu => ?_,
    fun q1 r' hu htrigger hmode => ⟨?_, fun g => ?_, ?_⟩⟩
  · exact hu.pending (hm.course hs.sane hmay hto) hsane hmay hw rfl
  · exact .resume hv hinv hin he hj hu htrigger hmode
  · rw [Run.entry_resume hmode]
    rfl
  · exact (hu.lines hsane hj rfl _).trans (hlines _ _)

namespace Run.Invocation

variable (hinv : r.Invocation may i g q f p)
include hinv

/-- A run that stands before a line waits for nothing. -/
theorem not_queued (hm : Settled p.moment) {w : Wait} (hw : w ∈ p.game.engine.waits.pending) :
    w.continuation.trigger ≠ r.trigger := by
  intro he
  obtain ⟨j, hj, hwait⟩ := hm.pending hw
  rw [he] at hj
  have hmem : r.activation f.loops ∈ p.moment.stack := hinv.stack ▸ List.mem_cons_self
  have hnone := (hm.running hmem hj).1.wait
  rw [hwait] at hnone
  cases hnone

/-- A run that begins while its owner sleeps has the answer 0, and its trigger is at rest. -/
theorem sleeps {body : String} {c : Character} (hq : q.Firm)
    (hbody : r.proto.script = Script.compile body) (hin : f.line < r.proto.script.length)
    (hguard : r.proto.isGuarded = true) (hnew : r.mode = .new)
    (hc : p.game.world.character? r.owner = some c) (hasleep : c.isAwake = false) :
    r.drive i g = (0, p.game.finish r.trigger) ∧
      ∃ j, (p.game.finish r.trigger).instance? r.trigger = some j ∧ j.Rests := by
  have hlive := hinv.hasTrigger hq
  obtain ⟨i0, hi0⟩ := (hasTrigger_iff _ _).1 hlive
  refine ⟨hinv.drive_of_passes hq hbody ?_ (quiet_finish _), i0.reset, ?_, i0.rests_reset⟩
  · rw [passes, if_neg (Nat.not_le.2 hin), pass_of_asleep hguard hnew hc hasleep hlive]
  · rw [finish, instance?_modifyInstance_self, hi0, Option.map_some]

/-- A run that puts its line off has the answer that it has so far. -/
theorem puts_off {body : String} (hq : q.Firm) (hbody : r.proto.script = Script.compile body)
    (hin : f.line < r.proto.script.length) (hd : r.Defers p.game) :
    r.drive i g = (f.result, (r.putOff f p.game).2) := by
  refine hinv.drive_of_passes hq hbody ?_ (quiet_suspend _ _ _ _ _)
  rw [passes, if_neg (Nat.not_le.2 hin), pass_of_defers hd (hinv.hasTrigger hq)]
  rfl

end Run.Invocation

end

/-- A guarded line is reached only while the owner is there, awake and not casting. A run that stands
before a line while its owner may not act puts off this very line, in whatever invocation; a new run of
a sleeper is over with the answer 0, and nothing is left of it. -/
theorem guarded_lines (may : Game → Operation → Prop) (config : Config) (registry : Registry)
    (world : World) :
    let begun := Stage.start (Game.start config registry world)
    (∀ g op, Relation.ReflTransGen Fair (Operation.opening g op) ⟨[], op.apply g⟩) ∧
    (∀ p p' h u, Course may begun p → Stage.Next may p p' →
      p'.game.lines h u ≠ p.game.lines h u →
      ∃ i line, p.game.instance? h = some i ∧ i.owner = u ∧
        p'.game.lines h u = p.game.lines h u ++ [line] ∧
        (i.proto.isGuarded = true → p.game.world.CanAct u)) ∧
    ∀ b r q i g f p, Voyage may begun b r q → r.Invocation may i g q f p →
      (∃ ls, p.game.lines r.trigger r.owner = b.game.lines r.trigger r.owner ++ ls ∧
        r.proto.script.Path 0 ls f.line) ∧
      ∀ body, r.proto.script = Script.compile body → f.line < r.proto.script.length →
        (r.Defers p.game → r.drive i g = (f.result, (r.putOff f p.game).2) ∧
          ∃ j w, r.Deferral may begun b q f p (p.leave q (r.putOff f p.game).2) j w) ∧
        ∀ c, r.proto.isGuarded = true → r.mode = .new →
          p.game.world.character? r.owner = some c → c.isAwake = false →
          r.drive i g = (0, p.game.finish r.trigger) ∧
            (∃ j, (p.game.finish r.trigger).instance? r.trigger = some j ∧ j.Rests) ∧
            ((∀ g op, may g op → op.resumes = false) →
              ∀ w ∈ (p.game.finish r.trigger).engine.waits.pending,
                w.continuation.trigger ≠ r.trigger) := by
  intro begun
  have hs : begun.Firm := Stage.firm_start config registry world
  have hm : Settled begun.moment := settled_start config registry world
  refine ⟨Operation.opening_leads, fun p p' h u hc hn hne => ?_, fun b r q i g f p hv hinv => ?_⟩
  · have hp := hs.course hc
    exact hp.sane.able_of_lines hp.branded hn hne
  · have hcourse := (hv.keepsWay hs).1
    have hq := hs.course hcourse
    refine ⟨hv.path hs hinv, fun body hbody hin => ⟨fun hd => ⟨?_, ?_⟩,
      fun c hguard hnew hc hasleep => ?_⟩⟩
    · exact hinv.puts_off hq hbody hin hd
    · exact hv.deferral hs hm hinv hin hd
    · obtain ⟨hdrive, hrests⟩ := hinv.sleeps hq hbody hin hguard hnew hc hasleep
      refine ⟨hdrive, hrests, fun hmay w hw => ?_⟩
      exact hinv.not_queued (hm.course hs.sane hmay (hcourse.trans hinv.course)) hw

/-! ## A sentry -/

/-- A trigger of mobiles that waits. -/
def Prototype.watch : Prototype :=
  { vnum := 1, name := "watch", kind := .mobile
    script := Script.compile "wait 1\necho All is well." }

/-- A gate with a sentry. -/
def World.gate : World := ((({} : World).addRoom 100 "gate").2.addMobile 7 "sentry" (Uid.room 0)).2

/-- The sentry has fallen asleep. -/
def World.drowsy : World :=
  World.gate.modifyCharacter ⟨Uid.firstMobile⟩ fun c => { c with position := .sleeping }

namespace Game

def beforeWatch (world : World) : Game := start {} ((∅ : Registry).register .watch) world

/-- The sentry is on watch. -/
def onWatch (world : World) : Game :=
  (beforeWatch world).play [.attach 1 ⟨Uid.firstMobile⟩ none]

def watcher (g : Game) : Instance := (g.instance? ⟨0, 0⟩).getD default

theorem instance?_watcher {g : Game} (h : g.hasTrigger ⟨0, 0⟩ = true) :
    g.instance? ⟨0, 0⟩ = some g.watcher := by
  obtain ⟨i, hi⟩ := (hasTrigger_iff g _).1 h
  rw [watcher, hi, Option.getD_some]

def watchRun (g : Game) : Run := g.runOf .standard ⟨0, 0⟩ g.watcher .new

/-- The watch has begun. -/
def inWatch (g : Game) : Game := (g.watchRun.entry g.watcher (g.enter ⟨0, 0⟩ g.watcher.owner)).2

/-- The watch is suspended for one pulse. -/
def afterWatch (g : Game) : Game := (g.watchRun.pass { line := 0 } g.inWatch).2

end Game

section

variable {g : Game} {h : Handle} {i : Instance} {n : Nat}

/-- The world changes and a pulse is counted while a trigger waits. -/
theorem untouched_tick (hi : g.instance? h = some i) (world : World) :
    Stage.Untouched (fun _ _ => True) h i ⟨⟨[], g⟩, n⟩
      ⟨⟨[], (g.withWorld world).tick⟩, g.attachments⟩ :=
  (Stage.Untouched.refl.tail (.call (.replaceWorld world) trivial) hi).tail
    (.call (.pulse .standard) trivial) hi

/-- The watch begins. -/
theorem watch_begins (world : World)
    (hpaced : (beforeWatch world).Paced [.attach 1 ⟨Uid.firstMobile⟩ none])
    (hlive : (onWatch world).hasTrigger ⟨0, 0⟩ = true)
    (hd : (onWatch world).engine.depth ≤ (onWatch world).engine.config.maxScriptDepth)
    (hn : (onWatch world).inWatch.attachments < (onWatch world).attachments + 0x1_0000_0000) :
    ∃ k, Voyage (fun _ _ => True) (Stage.start (beforeWatch world)) ⟨⟨[], onWatch world⟩, k⟩
        (onWatch world).watchRun ⟨⟨[], onWatch world⟩, k⟩ ∧
      (onWatch world).watchRun.Invocation (fun _ _ => True) (onWatch world).watcher
        ((onWatch world).enter ⟨0, 0⟩ (onWatch world).watcher.owner) ⟨⟨[], onWatch world⟩, k⟩
        { line := 0 } ⟨⟨[(onWatch world).watchRun.activation 0], (onWatch world).inWatch⟩,
          (onWatch world).attachments⟩ := by
  obtain ⟨k, hc⟩ : ∃ k, Course (fun _ _ => True) (Stage.start (beforeWatch world))
      ⟨⟨[], onWatch world⟩, k⟩ := play_course (by exact ⟨trivial, trivial⟩) hpaced _
  refine ⟨k, .begin hc (fun he => by cases he), ?_⟩
  exact Run.invocation_of_call .standard trivial (instance?_watcher hlive) hd .here hn

end

/-- The watch is taken up while the sentry sleeps, and does not go on. -/
theorem watch_taken_up :
    ∃ b r q i g p, Voyage (fun _ _ => True) (Stage.start (beforeWatch .gate)) b r q ∧
      r.Invocation (fun _ _ => True) i g q { line := 1 } p ∧
      r.proto.script = Script.compile "wait 1\necho All is well." ∧ r.Defers p.game := by
  obtain ⟨k, hv, hinv⟩ := watch_begins .gate (by decide +kernel) (by decide +kernel)
    (by decide +kernel) (by decide +kernel)
  have he : (onWatch .gate).watchRun.pass { line := 0 } (onWatch .gate).inWatch =
      (.left 1, (onWatch .gate).afterWatch) := Prod.ext (by decide +kernel) rfl
  have hi : (onWatch .gate).afterWatch.instance? ⟨0, 0⟩ = some (onWatch .gate).afterWatch.watcher :=
    instance?_watcher (by decide +kernel)
  -- The sentry falls asleep, and the pulse comes at which the watch is to go on.
  let g1 := ((onWatch .gate).afterWatch.leave.withWorld .drowsy).tick
  obtain ⟨⟨w, waits⟩, hq⟩ := Option.isSome_iff_exists.1
    (show (g1.engine.waits.popDue? g1.engine.pulseCount).isSome = true by decide +kernel)
  have hdue : ((g1.engine.waits.popDue? g1.engine.pulseCount).map
      fun x => (x.1.continuation.trigger, some x.1.id)) =
        some (⟨0, 0⟩, (onWatch .gate).afterWatch.watcher.wait) := by decide +kernel
  rw [hq, Option.map_some, Option.some.injEq, Prod.mk.injEq] at hdue
  obtain ⟨htrigger, hwait⟩ := hdue
  have htrigger : w.continuation.trigger = ⟨0, 0⟩ := htrigger
  have hu := untouched_tick (g := (onWatch .gate).afterWatch.leave) (n := (onWatch .gate).attachments)
    hi .drowsy
  let g2 := (g1.withWaits waits).report (.resuming w.continuation.owner w.continuation.resumeAt)
  let r := g2.runOf .standard w.continuation.trigger (onWatch .gate).afterWatch.watcher .resume
  let g3 := g2.enter w.continuation.trigger (onWatch .gate).afterWatch.watcher.owner
  have hentry : (r.entry (onWatch .gate).afterWatch.watcher g3).1 = { line := 1 } := by
    rw [Run.entry_resume rfl, show (onWatch .gate).afterWatch.watcher.resumeAt = some 1 by
      decide +kernel, Option.getD_some]
  have hquiet : Quiet g1 (r.entry (onWatch .gate).afterWatch.watcher g3).2 :=
    ((quiet_of_eq rfl rfl rfl : Quiet g1 (g1.withWaits waits)).trans (quiet_report rfl)).trans
      ((quiet_enter _ _).trans (quiet_takeUp _))
  have hcomes : r.Comes (r.entry (onWatch .gate).afterWatch.watcher g3).1
      (r.entry (onWatch .gate).afterWatch.watcher g3).2 { line := 1 }
      (r.entry (onWatch .gate).afterWatch.watcher g3).2 := by
    rw [hentry]
    exact .here
  have hlive : g1.instance? w.continuation.trigger = some (onWatch .gate).afterWatch.watcher := by
    rw [htrigger]
    exact hi
  have hfew : (r.entry (onWatch .gate).afterWatch.watcher g3).2.attachments <
      (onWatch .gate).afterWatch.leave.attachments + 0x1_0000_0000 := by
    rw [hquiet.attachments]
    exact Nat.lt_add_of_pos_right (by decide)
  have hasleep : (World.drowsy.character? (onWatch .gate).afterWatch.watcher.owner).any
      (!·.isAwake) = true := by decide +kernel
  obtain ⟨c, hc, hasleep⟩ := (Option.any_eq_true _ _).1 hasleep
  have hproto : (onWatch .gate).afterWatch.watcher.proto = .watch := by decide +kernel
  refine ⟨_, r, _, _, _, _, .resume hv hinv (by decide +kernel) he hi hu htrigger rfl,
    Run.invocation_of_due .standard hq hlive hwait.symm (by decide +kernel) hcomes hfew,
    congrArg Prototype.script hproto, ?_, c, hc, .inr ⟨by simpa using hasleep, rfl⟩⟩
  exact (congrArg Prototype.isGuarded hproto).trans rfl

/-- The watch reaches its first line. -/
theorem watch_reaches :
    ∃ p p' i, Course (fun _ _ => True) (Stage.start (beforeWatch .gate)) p ∧
      Stage.Next (fun _ _ => True) p p' ∧ p.game.instance? ⟨0, 0⟩ = some i ∧
      i.proto.isGuarded = true ∧
      p'.game.lines ⟨0, 0⟩ ⟨Uid.firstMobile⟩ = p.game.lines ⟨0, 0⟩ ⟨Uid.firstMobile⟩ ++ [0] := by
  obtain ⟨k, hv, hinv⟩ := watch_begins .gate (by decide +kernel) (by decide +kernel)
    (by decide +kernel) (by decide +kernel)
  have hc := ((hv.keepsWay (Stage.firm_start {} _ .gate)).1).trans hinv.course
  have hlive : (onWatch .gate).inWatch.hasTrigger ⟨0, 0⟩ = true := by decide +kernel
  have howner : (onWatch .gate).watcher.owner = ⟨Uid.firstMobile⟩ := by decide +kernel
  have hable : ((onWatch .gate).inWatch.world.character? (onWatch .gate).watcher.owner).any
      (fun c => c.isAwake && !c.casting) = true := by decide +kernel
  obtain ⟨c, hc', hable⟩ := (Option.any_eq_true _ _).1 hable
  simp only [Bool.and_eq_true, Bool.not_eq_true'] at hable
  have hreach : Tame ⟨[(onWatch .gate).watchRun.activation 0], (onWatch .gate).inWatch⟩
      ⟨[(onWatch .gate).watchRun.activation 0], (onWatch .gate).inWatch.report
        (.reached ⟨0, 0⟩ (onWatch .gate).watcher.owner 0)⟩ :=
    tame_of_stack (.reach 0 hlive (fun _ => ⟨c, hc', hable⟩)) fun _ hx => hx
  refine ⟨_, _, _, hc, .change hreach.fair hinv.few, instance?_watcher hlive, by decide +kernel, ?_⟩
  rw [← howner]
  exact lines_reached 0

/-- The watch does not begin while the sentry sleeps. -/
theorem watch_asleep :
    ∃ b r q i g p c, Voyage (fun _ _ => True) (Stage.start (beforeWatch .drowsy)) b r q ∧
      r.Invocation (fun _ _ => True) i g q { line := 0 } p ∧
      r.proto.script = Script.compile "wait 1\necho All is well." ∧ r.proto.isGuarded = true ∧
      r.mode = .new ∧ p.game.world.character? r.owner = some c ∧ c.isAwake = false := by
  obtain ⟨k, hv, hinv⟩ := watch_begins .drowsy (by decide +kernel) (by decide +kernel)
    (by decide +kernel) (by decide +kernel)
  have hasleep : ((onWatch .drowsy).inWatch.world.character? (onWatch .drowsy).watchRun.owner).any
      (!·.isAwake) = true := by decide +kernel
  obtain ⟨c, hc, hasleep⟩ := (Option.any_eq_true _ _).1 hasleep
  have hproto : (onWatch .drowsy).watcher.proto = .watch := by decide +kernel
  exact ⟨_, _, _, _, _, _, c, hv, hinv, congrArg Prototype.script hproto,
    (congrArg Prototype.isGuarded hproto).trans rfl, rfl, hc, by simpa using hasleep⟩

/-- A sentry who is awake waits one pulse; asleep by then, the watch goes on with its second line later.
If the sentry sleeps before, the watch has the answer 0. -/
theorem guarded_lines_watch :
    (∃ p p', Course (fun _ _ => True) (Stage.start (beforeWatch .gate)) p ∧
      Stage.Next (fun _ _ => True) p p' ∧
      p'.game.lines ⟨0, 0⟩ ⟨Uid.firstMobile⟩ ≠ p.game.lines ⟨0, 0⟩ ⟨Uid.firstMobile⟩ ∧
      p.game.world.CanAct ⟨Uid.firstMobile⟩) ∧
    (∃ b r q i g p j w, Voyage (fun _ _ => True) (Stage.start (beforeWatch .gate)) b r q ∧
      r.Invocation (fun _ _ => True) i g q { line := 1 } p ∧ r.Defers p.game ∧
      (∃ ls, p.game.lines r.trigger r.owner = b.game.lines r.trigger r.owner ++ ls ∧
        r.proto.script.Path 0 ls 1) ∧
      r.drive i g = (1, (r.putOff { line := 1 } p.game).2) ∧
      r.Deferral (fun _ _ => True) (Stage.start (beforeWatch .gate)) b q { line := 1 } p
        (p.leave q (r.putOff { line := 1 } p.game).2) j w) ∧
    ∃ b r q i g p, Voyage (fun _ _ => True) (Stage.start (beforeWatch .drowsy)) b r q ∧
      r.Invocation (fun _ _ => True) i g q { line := 0 } p ∧
      r.drive i g = (0, p.game.finish r.trigger) ∧
      (∃ j, (p.game.finish r.trigger).instance? r.trigger = some j ∧ j.Rests) := by
  have hlength : (Script.compile "wait 1\necho All is well.").length = 2 := by decide +kernel
  refine ⟨?_, ?_, ?_⟩
  · obtain ⟨p, p', i, hc, hn, hi, hguard, hlines⟩ := watch_reaches
    have hne : p'.game.lines ⟨0, 0⟩ ⟨Uid.firstMobile⟩ ≠ p.game.lines ⟨0, 0⟩ ⟨Uid.firstMobile⟩ := by
      rw [hlines]
      simp
    obtain ⟨j, -, hj, -, -, hable⟩ := (guarded_lines (fun _ _ => True) {}
      ((∅ : Registry).register .watch) .gate).2.1 p p' _ _ hc hn hne
    rw [hi, Option.some.injEq] at hj
    exact ⟨p, p', hc, hn, hne, hable (hj ▸ hguard)⟩
  · obtain ⟨b, r, q, i, g, p, hv, hinv, hbody, hd⟩ := watch_taken_up
    obtain ⟨hpath, hrest⟩ := (guarded_lines (fun _ _ => True) {} ((∅ : Registry).register .watch)
      .gate).2.2 b r q i g { line := 1 } p hv hinv
    obtain ⟨hdrive, j, w, hdeferral⟩ := (hrest _ hbody (by rw [hbody, hlength]; decide)).1 hd
    exact ⟨b, r, q, i, g, p, j, w, hv, hinv, hd, hpath, hdrive, hdeferral⟩
  · obtain ⟨b, r, q, i, g, p, c, hv, hinv, hbody, hguard, hnew, hc, hasleep⟩ := watch_asleep
    obtain ⟨-, hrest⟩ := (guarded_lines (fun _ _ => True) {} ((∅ : Registry).register .watch)
      .drowsy).2.2 b r q i g { line := 0 } p hv hinv
    obtain ⟨hdrive, hrests, -⟩ := (hrest _ hbody (by rw [hbody, hlength]; decide)).2 c hguard hnew
      hc hasleep
    exact ⟨b, r, q, i, g, p, hv, hinv, hdrive, hrests⟩

end MudTrigger
