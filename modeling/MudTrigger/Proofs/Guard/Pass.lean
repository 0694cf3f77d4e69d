import MudTrigger.Proofs.Flow.Ends
import MudTrigger.Proofs.Guard.Lines
import MudTrigger.Proofs.Trace.Inward

/-!
# What a pass does to the lines of its run

A pass after which a run goes on, or which suspends the run in its line, adds that line to the trace of
the run, and leads to a line that may follow it (`Run.pass_onward`, `Run.pass_parts`). A pass that puts
its line off adds nothing, and the run is to go on at this very line. So the lines that passes add are a way
through the script (`Script.Path`, `Run.Comes.path`).
-/

set_option autoImplicit false

namespace MudTrigger

open Game

namespace Script

/-- Line `i` may lead to line `j`. -/
def Leads (s : Script) (i j : Nat) : Prop := ∃ t u, s.Moves i t j u

/-- A way through a script: doing these lines leads from line `i` to line `k`. -/
inductive Path (s : Script) : Nat → List Nat → Nat → Prop
  | here {i : Nat} : Path s i [] i
  | step {i j k : Nat} {ls : List Nat} : s.Leads i j → Path s j ls k → Path s i (i :: ls) k

variable {s : Script} {i j k : Nat} {ls ks : List Nat}

theorem Path.append (h : s.Path i ls j) (h' : s.Path j ks k) : s.Path i (ls ++ ks) k := by
  induction h with
  | here => exact h'
  | step hl _ ih => exact .step hl (ih h')

end Script

/-! ## Lines in the trace of a run -/

/-- While a run is held, its trigger reaches no line. -/
theorem Held.lines {b : Activation} {i : Instance} {n : Nat} {m m' : Moment} (hm : Held b i n m)
    (hb : b.held = true) (hi : i.isIdle = false) (hc : Changes m m')
    (hn : m'.game.attachments < n + 0x1_0000_0000) (u : Uid) :
    m'.game.lines b.trigger u = m.game.lines b.trigger u := by
  induction hc with
  | refl => rfl
  | @tail m1 m2 hc h ih =>
    have hn1 := Nat.lt_of_le_of_lt h.attachments_le hn
    refine Eq.trans ((h.deedEffect.lines b.trigger u).resolve_right ?_) (ih hn1)
    rintro ⟨line, hreach⟩
    obtain ⟨a, s, hst, htrigger, -, hfree, -⟩ := hreach.top
    have hm1 := hm.changes hb hi hc hn1
    obtain ⟨stack, g⟩ := m1
    cases hst
    exact (hm1.other hb hfree).1 htrigger.symm

namespace Run

variable {r : Run} {f f' f1 : Frame} {g g' g0 g1 : Game} {i : Instance} {u : Uid} {h : Handle}

/-- What a run does by itself reaches no line. -/
theorem Works.lines (hw : r.Works g g') : g'.lines h u = g.lines h u := by
  induction hw with
  | refl => rfl
  | tail _ hw ih =>
    refine Eq.trans ?_ ih
    cases hw with
    | evaluate => exact lines_report rfl
    | blame faults => exact (silent_blame _ faults).lines
    | unset name => exact (silent_unset _ name).lines
    | roll | deepen | rise | countLoop | setLocal | makeGlobal =>
      exact (silent_of_eq rfl rfl).lines

/-- What a run does by itself attaches nothing. -/
theorem Works.quiet (hw : r.Works g g') : Quiet g g' := by
  induction hw with
  | refl => exact .refl
  | tail _ hw ih =>
    refine ih.trans ?_
    cases hw with
    | roll => exact quiet_of_eq rfl rfl rfl
    | blame faults => exact quiet_blame _ faults
    | evaluate => exact quiet_report rfl
    | deepen | rise | countLoop | setLocal => exact quiet_modifyInstance _ _
    | makeGlobal v => exact quiet_makeGlobal _ _ v
    | unset name => exact quiet_unset _ _ name

theorem Follows.leads {line j : Nat} (h : r.Follows line j) : r.proto.script.Leads line j := by
  rcases h with ⟨hop, rfl⟩ | ⟨head, hop, rfl⟩
  · exact ⟨⟨0, 0, 0⟩, _, .onward hop rfl⟩
  · exact ⟨⟨0, 0, 2⟩, _, .back hop (Nat.lt_succ_self 1)⟩

/-! ## The guard -/

/-- The line is put off until the owner is able to act again: the owner casts, or sleeps in a run that
was taken up. -/
def Defers (r : Run) (g : Game) : Prop :=
  r.proto.isGuarded = true ∧ ∃ c, g.world.character? r.owner = some c ∧
    (c.isAwake = true ∧ c.casting = true ∨ c.isAwake = false ∧ r.mode = .resume)

theorem pass_of_defers (hd : r.Defers g) (hg : g.hasTrigger r.trigger = true) :
    r.pass f g = r.putOff f g := by
  obtain ⟨hguard, c, hc, ⟨hawake, hcasting⟩ | ⟨hasleep, hmode⟩⟩ := hd
  · simp only [pass, hg, hguard, hc, hawake, hcasting, Bool.not_true, Bool.false_eq_true, if_false,
      if_true]
  · simp only [pass, hg, hguard, hc, hasleep, hmode, Bool.not_true, Bool.not_false,
      Bool.false_eq_true, if_false, if_true]

/-- A run that begins while its owner sleeps is over. -/
theorem pass_of_asleep (hguard : r.proto.isGuarded = true) (hnew : r.mode = .new) {c : Character}
    (hc : g.world.character? r.owner = some c) (hasleep : c.isAwake = false)
    (hg : g.hasTrigger r.trigger = true) : r.pass f g = (.ended 0, g) := by
  simp only [pass, hg, hguard, hc, hasleep, hnew, Bool.not_true, Bool.not_false, Bool.false_eq_true,
    if_false, if_true]

/-- A pass that leaves a run whose trigger is there puts its line off, or does it. -/
theorem putOff_or_doLine {result : Int} (he : r.pass f g = (.left result, g'))
    (hg : g.hasTrigger r.trigger = true) :
    r.Defers g ∧ r.putOff f g = (.left result, g') ∨ r.doLine f g = (.left result, g') := by
  have hlive : ¬ (!g.hasTrigger r.trigger) = true := by simpa using hg
  rw [pass, if_neg hlive] at he
  split at he
  · exact .inr he
  · rename_i hguard
    have hguard : r.proto.isGuarded = true := by simpa using hguard
    split at he
    · cases he
    · rename_i c hc
      split at he
      · rename_i hasleep
        split at he
        · cases he
        · rename_i hmode
          exact .inl ⟨⟨hguard, c, hc, .inr ⟨by simpa using hasleep, hmode⟩⟩, he⟩
      · rename_i hawake
        split at he
        · rename_i hcasting
          exact .inl ⟨⟨hguard, c, hc, .inl ⟨by simpa using hawake, hcasting⟩⟩, he⟩
        · exact .inr he

end Run

/-! ## Passes -/

namespace Game

variable {g : Game} {h : Handle} {i : Instance} {line delay : Nat} {kind : WaitKind} {u : Uid}

/-- What a trigger becomes when its run is suspended. -/
theorem exists_of_suspend (hi : (g.suspend h u line delay kind).instance? h = some i) :
    ∃ j, g.instance? h = some j ∧
      i = { j with resumeAt := some line, wait := some g.engine.waits.nextId } := by
  obtain ⟨j, hj, -⟩ := (same_suspend h u line delay kind).symm_instance hi
  rw [suspend_eq hj, instance?_report, instance?_modifyInstance_self, instance?_withWaits, hj,
    Option.map_some, Option.some.injEq] at hi
  exact ⟨j, hj, hi.symm⟩

end Game

namespace Run

variable {r : Run} {f f' f1 : Frame} {g g' g0 g1 : Game} {i : Instance}

/-- How a pass leaves a run: suspended at the line of the pass if this is put off, and at one that may
follow it if it is done. -/
inductive Parts (r : Run) (f : Frame) (g : Game) : Game → Prop
  | off {delay : Nat} : r.Defers g →
    Parts r f g (g.suspend r.trigger r.owner f.line delay .casting)
  | done {g1 : Game} {line delay : Nat} : r.proto.script.Leads f.line line → Same g g1 → Quiet g g1 →
    g1.lines r.trigger r.owner = g.lines r.trigger r.owner ++ [f.line] →
    Parts r f g (g1.suspend r.trigger r.owner line delay .wait)

theorem pass_parts {result : Int} (he : r.pass f g = (.left result, g'))
    (hg : g.hasTrigger r.trigger = true) : r.Parts f g g' := by
  rcases putOff_or_doLine he hg with ⟨hd, he⟩ | he
  · cases he
    exact .off hd
  · cases hline : r.proto.script.line? f.line with
    | none =>
      rw [doLine, hline] at he
      cases he
    | some line =>
      have hdoes := doLine_does hline hg
      rw [he] at hdoes
      cases hdoes with
      | suspended j delay hw hj =>
        refine .done hj.leads ?_ ?_ ?_
        · have hnote : Same g (g.report (.reached r.trigger r.owner f.line)) := same_of_eq rfl rfl
          exact hnote.trans hw.inward.same
        · exact (quiet_report rfl).trans hw.quiet
        · rw [hw.lines, lines_reached]

section

variable (hx : Executes r.execute)
include hx

/-- A command of a run reaches no line of its own trigger. -/
theorem carryOut_lines {d k : Nat} {text : String} (hs : r.Steady g0 d k g)
    (hn : FewSince g0 (r.carryOut text g)) (u : Uid) :
    (r.carryOut text g).lines r.trigger u = g.lines r.trigger u := by
  obtain ⟨i, hi, hdeep, -⟩ := hs.live
  have hidle : i.isIdle = false := beq_eq_false_iff_ne.2 (Nat.ne_of_gt (Nat.zero_lt_of_lt hdeep))
  have hquiet : Quiet g (g.report (.executed r.owner text)) := quiet_report rfl
  have hnote : (g.report (.executed r.owner text)).Coherent :=
    hs.since.coherent.of_same (same_of_eq rfl rfl)
  have hle : g0.attachments ≤ (g.report (.executed r.owner text)).attachments :=
    hquiet.attachments ▸ hs.since.attachments
  have hheld := Held.of_instance hnote hi r.owner
  have hc := hx ⟨r.trigger, r.owner, i.proto, 0, true⟩ [] (g.report (.executed r.owner text)) text
  have hlines := hheld.lines rfl hidle hc (Nat.lt_of_lt_of_le hn (Nat.add_le_add_right hle _)) u
  exact hlines.trans (lines_report rfl)

/-- A pass after which a run goes on adds its line to the trace, and leads on from there. -/
theorem pass_onward (hs : r.Steady g0 0 0 g) (hn : FewSince g0 g')
    (he : r.pass f g = (.next f', g')) :
    r.Steady g0 0 0 g' ∧ r.proto.script.Leads f.line f'.line ∧
      g'.lines r.trigger r.owner = g.lines r.trigger r.owner ++ [f.line] := by
  have hmoves := pass_moves (pass_undisturbed hx hs hn he) he
  refine ⟨steady_of_tally (hs.since_pass hx he) (hmoves.depth_pos hs.depthOf) (Nat.zero_le _),
    ⟨_, _, hmoves⟩, ?_⟩
  obtain ⟨hlive, hdo⟩ := doLine_of_pass he
  cases hline : r.proto.script.line? f.line with
  | none =>
    rw [doLine, hline] at hdo
    cases hdo
  | some line =>
    have hdoes := doLine_does hline hlive
    rw [hdo] at hdoes
    cases hdoes with
    | next hw => rw [hw.lines, lines_reached]
    | command text read hcarried =>
      have hread := (hs.note f.line).look read
      exact (carryOut_lines hx hread hn _).trans ((look_works read).lines.trans (lines_reached _))

/-! ## Passes one after another -/

/-- Passes are changes of a run that stays under way. -/
theorem Comes.changes (hc : r.Comes f g f1 g1) (s : List Activation) :
    Changes ⟨r.activation f.loops :: s, g⟩ ⟨r.activation f1.loops :: s, g1⟩ := by
  induction hc with
  | here => exact .refl
  | @pass f f2 f1 g g2 g1 _ he _ ih =>
    have hleads := pass_leads hx f (s := s) (g := g)
    rw [he] at hleads
    cases hleads with
    | next hpass => exact hpass.trans ih

/-- The lines that passes add to the trace are a way through the script. -/
theorem Comes.path (hc : r.Comes f g f1 g1) (hs : r.Steady g0 0 0 g) (hn : FewSince g0 g1) :
    r.Steady g0 0 0 g1 ∧ ∃ ls, r.proto.script.Path f.line ls f1.line ∧
      g1.lines r.trigger r.owner = g.lines r.trigger r.owner ++ ls := by
  induction hc with
  | here => exact ⟨hs, [], .here, (List.append_nil _).symm⟩
  | @pass f f2 f1 g g2 g1 _ he hc ih =>
    have hle : g2.attachments ≤ g1.attachments := (hc.changes hx []).attachments_le
    obtain ⟨hs2, hleads, hline⟩ := pass_onward hx hs (hn.of_le hle) he
    obtain ⟨hs1, ls, hpath, hlines⟩ := ih hs2 hn
    refine ⟨hs1, f.line :: ls, .step hleads hpath, ?_⟩
    rw [hlines, hline, List.append_assoc, List.singleton_append]

end

/-- Passes that were made already are made again when a run is given enough of them. -/
theorem Comes.passes (hc : r.Comes f g f1 g1) :
    ∃ k, ∀ n, r.passes (n + k) f g = r.passes n f1 g1 := by
  induction hc with
  | here => exact ⟨0, fun _ => rfl⟩
  | pass hin he _ ih =>
    obtain ⟨k, hk⟩ := ih
    refine ⟨k + 1, fun n => ?_⟩
    rw [← Nat.add_assoc, Run.passes, if_neg (Nat.not_le.2 hin), he]
    exact hk n

end Run

end MudTrigger
