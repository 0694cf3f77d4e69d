import MudTrigger.Proofs.Suspend.Alike

/-!
# Two editions of a script in lockstep

`r.recut x s m` is a run of another edition of the script of `r`. Where the editions differ only in
that some waits are comments, one pass of each in games that are alike comes to the same: both runs
are over, or go on at the same line of games that are alike again, one of them perhaps after a
suspension (`Run.Agree`). The exception is a run that is cut short because it has repeated loop bodies
too often.
-/

set_option autoImplicit false

namespace MudTrigger

open Game

namespace Run

/-- A run of another edition of the script, with other means to carry commands out. -/
def recut (r : Run) (x : Executor) (s : Script) (m : RunMode) : Run :=
  { r with execute := x, proto := { r.proto with script := s }, mode := m }

/-- The line at which a run goes on after a pass, at once or when it is taken up. -/
def landing (h : Handle) : Step × Game → Option Nat
  | (.next f, _) => some f.line
  | (.left _, g) => (g.instance? h).bind (·.resumeAt)
  | (.ended _, _) => none
  | (.endless, _) => none

/-- What is done from `g` and from `g'` on comes to the same, unless it is put on record that a run
is cut short (module doc). -/
def Agree (r : Run) (g g' : Game) (p p' : Step × Game) : Prop :=
  p.2.records ≠ g.records ∨ p'.2.records ≠ g'.records ∨
    landing r.trigger p' = landing r.trigger p ∧ Alike r.trigger p.2 p'.2

variable {r : Run} {f f' : Frame} {g g' g1 g1' : Game} {x : Executor} {s : Script} {m : RunMode}

theorem agree_next {f1 f1' : Frame} (hf : f1'.line = f1.line) (ha : Alike r.trigger g1 g1') :
    r.Agree g g' (.next f1, g1) (.next f1', g1') := .inr (.inr ⟨congrArg some hf, ha⟩)

theorem agree_ended {result result' : Int} (ha : Alike r.trigger g1 g1') :
    r.Agree g g' (.ended result, g1) (.ended result', g1') := .inr (.inr ⟨rfl, ha⟩)

theorem agree_endless (ha : Alike r.trigger g1 g1') : r.Agree g g' (.endless, g1) (.endless, g1') :=
  .inr (.inr ⟨rfl, ha⟩)

theorem landing_suspend {i : Instance} {result : Int} (hi : g.instance? r.trigger = some i)
    (line delay : Nat) (kind : WaitKind) :
    landing r.trigger (.left result, g.suspend r.trigger r.owner line delay kind) = some line := by
  rw [landing, suspend_eq hi, instance?_report, instance?_modifyInstance_self, instance?_withWaits, hi]
  rfl

/-- A run that is suspended goes on at its line as one that is not. -/
theorem agree_suspend {result : Int} {f : Frame} (ha : Alike r.trigger g1 g1')
    (hd : g1.hasTrigger r.trigger = true) (delay : Nat) (kind : WaitKind) :
    r.Agree g g' (.left result, g1.suspend r.trigger r.owner f.line delay kind) (.next f, g1') := by
  obtain ⟨i, hi⟩ := (hasTrigger_iff g1 r.trigger).1 hd
  exact .inr (.inr ⟨(landing_suspend hi _ _ _).symm, (alike_suspend _ _ _ _ _).symm.trans ha⟩)

theorem Agree.symm {p p' : Step × Game} (h : r.Agree g g' p p') : r.Agree g' g p' p := by
  rcases h with h | h | ⟨hl, ha⟩
  · exact .inr (.inl h)
  · exact .inl h
  · exact .inr (.inr ⟨hl.symm, ha.symm⟩)

theorem Agree.from_same {p p' : Step × Game} (h : r.Agree g1 g1' p p') (hg : Keeps g g1)
    (hg' : Keeps g' g1') : r.Agree g g' p p' := by
  unfold Agree at h ⊢
  rwa [hg.quiet.records, hg'.quiet.records] at h

theorem agree_suspend_suspend {result result' : Int} (ha : Alike r.trigger g1 g1')
    (hd : g1.hasTrigger r.trigger = true) (line delay delay' : Nat) (kind : WaitKind) :
    r.Agree g g' (.left result, g1.suspend r.trigger r.owner line delay kind)
      (.left result', g1'.suspend r.trigger r.owner line delay' kind) := by
  obtain ⟨i, hi⟩ := (hasTrigger_iff g1 r.trigger).1 hd
  obtain ⟨j, hj, -⟩ := ha.exists_standing hi
  refine .inr (.inr ⟨?_, ?_⟩)
  · rw [landing_suspend hj, landing_suspend hi]
  · exact ((alike_suspend _ _ _ _ _).symm.trans ha).trans (alike_suspend _ _ _ _ _)

/-! ## Choosing a branch -/

theorem clauseWithin_alike {c : Config} (hs : Script.Recut c r.proto.script s) (fuel : Nat)
    (line : Option Nat) (ha : Alike r.trigger g g') :
    ((r.recut x s m).clauseWithin fuel line g').1 = (r.clauseWithin fuel line g).1 ∧
      Alike r.trigger (r.clauseWithin fuel line g).2
        ((r.recut x s m).clauseWithin fuel line g').2 := by
  induction fuel generalizing line g g' with
  | zero =>
    cases line with
    | none => exact ⟨rfl, ha.fault _⟩
    | some line => exact ⟨rfl, ha⟩
  | succ fuel ih =>
    cases line with
    | none => exact ⟨rfl, ha.fault _⟩
    | some line =>
      have hop : (r.recut x s m).proto.script.op? line = s.op? line := rfl
      unfold clauseWithin
      rw [hop]
      rcases hs.op line with he | ⟨he, he'⟩
      · rw [he]
        cases r.proto.script.op? line with
        | none => exact ⟨rfl, ha.fault _⟩
        | some o =>
          cases o with
          | elseIf c next close =>
            obtain ⟨hv, hh⟩ := ha.holds (r := r) c
            have hv' : ((r.recut x s m).holds g' c).1 = (r.holds g c).1 := hv
            simp only [hv']
            split
            · exact ⟨rfl, hh.deepen⟩
            · exact ih next hh
          | elseThen close => exact ⟨rfl, ha.deepen⟩
          | _ => exact ⟨rfl, ha⟩
      · rw [he, he']
        exact ⟨rfl, ha⟩

theorem findArm_alike {c : Config} (hs : Script.Recut c r.proto.script s) (subject : String)
    (arms : List Nat) (ha : Alike r.trigger g g') :
    ((r.recut x s m).findArm subject arms g').1 = (r.findArm subject arms g).1 ∧
      Alike r.trigger (r.findArm subject arms g).2
        ((r.recut x s m).findArm subject arms g').2 := by
  induction arms generalizing g g' with
  | nil => exact ⟨rfl, ha⟩
  | cons arm arms ih =>
    have hop : (r.recut x s m).proto.script.op? arm = s.op? arm := rfl
    unfold findArm
    rw [hop]
    rcases hs.op arm with he | ⟨he, he'⟩
    · rw [he]
      cases r.proto.script.op? arm with
      | none => exact ih ha
      | some o =>
        cases o with
        | caseOf e =>
          obtain ⟨hv, hg⟩ := ha.evaluate (r := r) e
          have hv' : ((r.recut x s m).evaluate g' e).1 = (r.evaluate g e).1 := hv
          simp only [hv']
          split
          · exact ⟨rfl, hg⟩
          · exact ih hg
        | default => exact ⟨rfl, ha⟩
        | _ => exact ih ha
    · rw [he, he']
      exact ih ha

theorem follow_agree {p p' : Clause × Game} (hp : p'.1 = p.1)
    (ha : Alike r.trigger p.2 p'.2) : r.Agree g g' (f.follow p) (f'.follow p') := by
  obtain ⟨clause, g1⟩ := p
  obtain ⟨clause', g1'⟩ := p'
  obtain rfl : clause' = clause := hp
  cases clause' with
  | found line => exact agree_next rfl ha
  | unclosed => exact agree_ended ha
  | endless => exact agree_endless ha

/-! ## Commands and loops -/

section

variable (hx : r.Echoes) (hx' : (r.recut x s m).Echoes)
  (hhost : ∀ e e' u line, r.host.answer e u line = r.host.answer e' u line)
include hx hx' hhost

theorem command_agree {text : String} (ht : Text.command text ∈ Text.scripted)
    (hf : f'.line = f.line) (ha : Alike r.trigger g g') (hd : g.hasTrigger r.trigger = true) :
    r.Agree g g' (r.command f text g) ((r.recut x s m).command f' text g') := by
  have hnext : (f'.after f'.line).line = (f.after f.line).line := congrArg (· + 1) hf
  unfold command
  simp only
  split
  · split
    · exact agree_next hnext (ha.fault _)
    · obtain ⟨hv, hg⟩ := ha.evaluate (r := r) (Text.splitWord (Text.splitWord text).2).2
      refine agree_next hnext ?_
      have hset := hg.setLocal (Text.splitWord (Text.splitWord text).2).1
        (r.evaluate g (Text.splitWord (Text.splitWord text).2).2).1
      rw [← hv] at hset ⊢
      exact hset
  · exact agree_ended ha
  · split
    · exact agree_next hnext ((ha.fault _).moveGlobals _)
    · exact agree_next hnext (ha.moveGlobals _)
  · split
    · exact agree_ended (ha.fault _)
    · exact agree_ended ha
  · split
    · exact agree_next hnext (ha.fault _)
    · exact agree_next hnext (ha.setLocal _ _)
  · split
    · exact agree_next hnext (ha.fault _)
    · exact agree_next hnext (ha.unset _ _)
  · rw [ha.pulses]
    rcases Delay.pulses_cases g.engine.config g.engine.pulseCount g.world.time.hours
      g'.engine.pulseCount g'.world.time.hours (Text.splitWord text).2 with
      ⟨n, n', hn, hn'⟩ | ⟨e, he, he'⟩
    · rw [hn, hn', hf]
      exact agree_suspend_suspend ha hd _ _ _ _
    · rw [he, he']
      exact agree_next hnext (ha.fault _)
  · rename_i h1 h2 h3 h4 h5 h6 h7
    have hecho : Text.command text = "echo" := Text.echo_of_scripted ht h1 h2 h3 h4 h5 h6 h7
    have he := (ha.report (.executed r.owner text)).echo hhost r.owner text
    have hrun : (r.recut x s m).execute
        (g'.report (.executed (r.recut x s m).owner text)) (r.recut x s m).owner text =
          (g'.report (.executed r.owner text)).echo r.host r.owner text := hx' _ text hecho
    have hlive : ((g'.report (.executed r.owner text)).echo r.host r.owner text).hasTrigger
        (r.recut x s m).trigger =
          ((g.report (.executed r.owner text)).echo r.host r.owner text).hasTrigger r.trigger :=
      he.hasTrigger
    rw [hx _ text hecho, hrun, hlive]
    split
    · exact agree_next hnext he
    · exact agree_ended (he.report _)

end

/-- At the end of a loop body whose condition holds again the run yields, is cut short or goes on. -/
theorem loopBack_cases (f : Frame) (head : Nat) {c : String} (hc : (r.holds g c).1 = true)
    (hd : g.hasTrigger r.trigger = true) :
    r.loopBack f head c g = (.left f.result,
      ((r.holds g c).2.countLoop r.trigger).suspend r.trigger r.owner (head + 1) 1 .wait) ∨
    (r.loopBack f head c g).2.records ≠ g.records ∨
    r.loopBack f head c g =
      (.next { f.after head with loops := f.loops + 1 }, (r.holds g c).2.countLoop r.trigger) := by
  have hlive : (r.holds g c).2.hasTrigger r.trigger = true := by
    rw [hasTrigger_holds]
    exact hd
  obtain ⟨i, hi⟩ := (hasTrigger_iff _ _).1 hlive
  have hci : ((r.holds g c).2.countLoop r.trigger).instance? r.trigger =
      some { i with loops := i.loops + 1 } := by
    rw [Game.countLoop, instance?_modifyInstance_self, hi, Option.map_some]
  unfold loopBack
  simp only [hc, hci, Bool.not_true, Bool.false_eq_true, if_false]
  split
  · exact .inl rfl
  · split
    · have hq : Quiet g ((r.holds g c).2.countLoop r.trigger) :=
        (keeps_holds c).quiet.trans (quiet_countLoop _)
      refine .inr (.inl ?_)
      rw [records_report, hq.records]
      simp [Notice.isRecord]
    · exact .inr (.inr rfl)

theorem loopBack_agree (head : Nat) (c : String) (hf : f'.line = f.line)
    (ha : Alike r.trigger g g') (hd : g.hasTrigger r.trigger = true) :
    r.Agree g g' (r.loopBack f head c g) ((r.recut x s m).loopBack f' head c g') := by
  obtain ⟨hv, hh⟩ := ha.holds (r := r) c
  have hd' : g'.hasTrigger r.trigger = true := ha.hasTrigger.trans hd
  cases hc : (r.holds g c).1 with
  | false =>
    have hgo : r.loopBack f head c g = (.next (f.after f.line), (r.holds g c).2) := by
      unfold loopBack
      simp only [hc]
      rfl
    have hgo' : (r.recut x s m).loopBack f' head c g' = (.next (f'.after f'.line), (r.holds g' c).2) := by
      have hc' : ((r.recut x s m).holds g' c).1 = false := hv.trans hc
      unfold loopBack
      simp only [hc']
      rfl
    rw [hgo, hgo']
    exact agree_next (congrArg (· + 1) hf) hh
  | true =>
    have hcount := hh.countLoop
    have hlive : ((r.holds g c).2.countLoop r.trigger).hasTrigger r.trigger = true := by
      rw [Game.hasTrigger_eq, Game.countLoop, instance?_modifyInstance_self, Option.isSome_map,
        ← Game.hasTrigger_eq, hasTrigger_holds]
      exact hd
    have hlive' := hcount.hasTrigger.trans hlive
    have hrun' := loopBack_cases (r := r.recut x s m) (g := g') f' head (c := c) (hv.trans hc) hd'
    rcases loopBack_cases f head hc hd with he | hhalt | he
    · rcases hrun' with he' | hhalt' | he'
      · rw [he, he']
        exact agree_suspend_suspend hcount hlive _ _ _ _
      · exact .inr (.inl hhalt')
      · rw [he, he']
        exact agree_suspend (f := { f'.after head with loops := f'.loops + 1 }) hcount hlive _ _
    · exact .inl hhalt
    · rcases hrun' with he' | hhalt' | he'
      · rw [he, he']
        exact (agree_suspend (f := { f.after head with loops := f.loops + 1 }) hcount.symm hlive'
          _ _).symm
      · exact .inr (.inl hhalt')
      · rw [he, he']
        exact agree_next rfl hcount

/-! ## A pass -/

section

variable (hx : r.Echoes) (hx' : (r.recut x s m).Echoes)
  (hhost : ∀ e e' u line, r.host.answer e u line = r.host.answer e' u line)
include hx hx' hhost

/-- The same line in both editions. -/
theorem perform_agree {c : Config} (hs : Script.Recut c r.proto.script s) {line : Line}
    (hl : line.op = .command → Text.command line.text ∈ Text.scripted) (hf : f'.line = f.line)
    (ha : Alike r.trigger g g') (hd : 0 < g.depthOf r.trigger) :
    r.Agree g g' (r.perform f line g) ((r.recut x s m).perform f' line g') := by
  have hnext : (f'.after f'.line).line = (f.after f.line).line := congrArg (· + 1) hf
  have hdepth : g'.depthOf (r.recut x s m).trigger = g.depthOf r.trigger := ha.depthOf
  obtain ⟨i, hi, -⟩ := instance_of_depthOf hd
  have hlive : g.hasTrigger r.trigger = true := (hasTrigger_iff _ _).2 ⟨i, hi⟩
  unfold perform
  simp only
  split
  · exact agree_next hnext ha
  · exact agree_next hnext ha
  · exact agree_next hnext ha
  · exact agree_next hnext ha
  · rename_i c clause _
    obtain ⟨hv, hh⟩ := ha.holds (r := r) c
    have hv' : ((r.recut x s m).holds g' c).1 = (r.holds g c).1 := hv
    have hpatience : (r.recut x s m).patience ((r.recut x s m).holds g' c).2 =
        r.patience (r.holds g c).2 := by
      show s.length * max 1 (r.holds g' c).2.engine.config.loopAbortAfter + _ = _
      rw [hs.length, hh.abortAfter]
      rfl
    rw [hv']
    split
    · exact agree_next hnext hh.deepen
    · obtain ⟨hcl, hg⟩ := clauseWithin_alike (x := x) (m := m) hs (r.patience (r.holds g c).2)
        clause hh
      rw [hpatience]
      exact follow_agree hcl hg
  · rename_i close _
    rw [hdepth]
    split
    · exact agree_next hnext (ha.fault _)
    · split
      · exact agree_next rfl ha.rise
      · exact agree_ended (ha.rise.fault _)
  · rename_i close _
    rw [hdepth]
    split
    · exact agree_next hnext (ha.fault _)
    · split
      · exact agree_next rfl ha.rise
      · exact agree_ended (ha.rise.fault _)
  · rw [hdepth]
    split
    · exact agree_next hnext (ha.fault _)
    · exact agree_next hnext ha.rise
  · rename_i c done _
    split
    · exact agree_ended (ha.fault _)
    · obtain ⟨hv, hh⟩ := ha.holds (r := r) c
      have hv' : ((r.recut x s m).holds g' c).1 = (r.holds g c).1 := hv
      rw [hv']
      split
      · exact agree_next hnext hh
      · exact agree_next rfl hh
  · rename_i head _
    have hop : (r.recut x s m).proto.script.op? head = s.op? head := rfl
    rw [hop]
    rcases hs.op head with he | ⟨he, he'⟩
    · rw [he]
      split
      · exact loopBack_agree _ _ hf ha hlive
      · exact agree_next hnext ha
    · rw [he, he']
      exact agree_next hnext ha
  · rename_i subject arms done _
    obtain ⟨hv, hg⟩ := ha.evaluate (r := r) subject
    have hv' : ((r.recut x s m).evaluate g' subject).1 = (r.evaluate g subject).1 := hv
    have hg' : Alike r.trigger (r.evaluate g subject).2 ((r.recut x s m).evaluate g' subject).2 := hg
    rw [hv']
    obtain ⟨harm, hg⟩ := findArm_alike (x := x) (m := m) hs (r.evaluate g subject).1 arms hg'
    generalize r.findArm (r.evaluate g subject).1 arms (r.evaluate g subject).2 = p at harm hg ⊢
    generalize (r.recut x s m).findArm (r.evaluate g subject).1 arms
      ((r.recut x s m).evaluate g' subject).2 = p' at harm hg ⊢
    obtain ⟨arm, g1⟩ := p
    obtain ⟨arm', g1'⟩ := p'
    obtain rfl : arm' = arm := harm
    cases arm' with
    | some arm => exact agree_next rfl hg
    | none =>
      simp only
      split
      · exact agree_next rfl hg
      · exact agree_ended hg
  · split
    · exact agree_next rfl ha
    · exact agree_next hnext (ha.fault _)
  · rename_i hop
    obtain ⟨hv, hg⟩ := ha.look (r := r) (·.expand line.text)
    have hword : Text.command (r.look g (·.expand line.text)).1 ∈ Text.scripted := by
      rw [command_look (hl hop) hd]
      exact hl hop
    have hv' : ((r.recut x s m).look g' (·.expand line.text)).1 =
        (r.look g (·.expand line.text)).1 := hv
    rw [hv']
    have hagree := command_agree hx hx' hhost hword hf hg (by rw [hasTrigger_look]; exact hlive)
    exact hagree.from_same (keeps_look _) (keeps_look _)

omit hx hx' hhost in
/-- A wait in the one edition, and a comment in its place in the other. -/
theorem perform_cut {line line' : Line} (hop : line.op = .command) (hop' : line'.op = .comment)
    (hw : Text.IsFixedWait g.engine.config line.text) (hf : f'.line = f.line)
    (ha : Alike r.trigger g g') (hd : 0 < g.depthOf r.trigger) :
    r.Agree g g' (r.perform f line g) ((r.recut x s m).perform f' line' g') := by
  obtain ⟨i, hi, -⟩ := instance_of_depthOf hd
  have hlive : g.hasTrigger r.trigger = true := (hasTrigger_iff _ _).2 ⟨i, hi⟩
  obtain ⟨sc, hsc⟩ : ∃ sc, r.scene? g = some sc := ⟨_, by rw [scene?, hi, Option.map_some]⟩
  obtain ⟨delay, hdelay⟩ := Delay.pulses_ok hw.valid g.engine.pulseCount g.world.time.hours
  have hcommand : r.command f line.text g =
      (.left f.result, g.suspend r.trigger r.owner (f'.after f'.line).line delay .wait) := by
    have hword : Text.fold (Text.splitWord line.text).1 = "wait" := hw.command
    unfold command
    simp only [hword, hdelay]
    rw [show (f'.after f'.line).line = f.line + 1 from congrArg (· + 1) hf]
  have hperform : r.perform f line g =
      (.left f.result, g.suspend r.trigger r.owner (f'.after f'.line).line delay .wait) := by
    unfold perform
    simp only [hop]
    rw [look_pure hsc fun d => hw.expand sc d]
    exact hcommand
  have hperform' : (r.recut x s m).perform f' line' g' = (.next (f'.after f'.line), g') := by
    unfold perform
    simp only [hop']
  rw [hperform, hperform']
  exact agree_suspend ha hlive _ _

/-- One pass of each edition (module doc). -/
theorem pass_agree (hs : Script.Recut g.engine.config r.proto.script s)
    (hscript : r.proto.script.IsScripted) (hu : r.proto.isGuarded = false) (hf : f'.line = f.line)
    (ha : Alike r.trigger g g') (hd : 0 < g.depthOf r.trigger) :
    r.Agree g g' (r.pass f g) ((r.recut x s m).pass f' g') := by
  obtain ⟨i, hi, -⟩ := instance_of_depthOf hd
  have hlive : g.hasTrigger r.trigger = true := (hasTrigger_iff _ _).2 ⟨i, hi⟩
  have hpass : r.pass f g = r.doLine f g := by
    rw [pass, hlive, hu]
    rfl
  have hpass' : (r.recut x s m).pass f' g' = (r.recut x s m).doLine f' g' := by
    have hlive' : g'.hasTrigger (r.recut x s m).trigger = true := ha.hasTrigger.trans hlive
    have hu' : (r.recut x s m).proto.isGuarded = false := hu
    rw [pass, hlive', hu']
    rfl
  have hnote := ha.report (.reached r.trigger r.owner f.line)
  have hline' : (r.recut x s m).proto.script.line? f'.line = s.line? f.line := by
    rw [hf]
    rfl
  rw [hpass, hpass', doLine, doLine, hline']
  cases hl : r.proto.script.line? f.line with
  | none =>
    have hle : r.proto.script.length ≤ f.line := List.getElem?_eq_none_iff.1 hl
    have hl' : s.line? f.line = none :=
      List.getElem?_eq_none_iff.2 (Nat.le_trans (Nat.le_of_eq hs.length) hle)
    rw [hl']
    exact agree_ended ha
  | some line =>
    rw [hf]
    have hkeeps : ∀ g : Game, Keeps g (g.report (.reached r.trigger r.owner f.line)) := fun _ =>
      keeps_report rfl
    refine Agree.from_same ?_ (hkeeps g) (hkeeps g')
    rcases hs.line hl with hl' | ⟨hop, hw, line', hl', hop'⟩
    · rw [hl']
      exact perform_agree hx hx' hhost hs (hscript f.line line hl) hf hnote hd
    · rw [hl']
      exact perform_cut hop hop' hw hf hnote hd

end

end Run

end MudTrigger
