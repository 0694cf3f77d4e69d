import MudTrigger.Proofs.Blocks.Shown
import MudTrigger.Proofs.Flow.Bounded

/-!
# An empty line at the end of a script

Two scripts that differ in an empty last line do the same, line by line, as far as both have lines
(`Run.pass_prolonged`). What is left is the pass of the empty line. It does nothing but tell that the
line is reached, if the run may make it: a guarded run comes to no line while its owner sleeps or casts.
So the runs have the same answer and leave the same game (`Run.drive_prolonged`), their traces apart,
unless one of them is over while its owner is not able to act (`Run.EndsFree`). Such are a script and what
is shown of it (`Script.compile_shown`): its source loses an empty last line, and the line feed with
which the text of a prototype ends is a line of its own only where there are no others.
-/

set_option autoImplicit false

namespace MudTrigger

open Game

namespace Script

variable {s : Script} {i : Nat}

theorem length_blankEnd (s : Script) : s.blankEnd.length = s.length + 1 := List.length_append

theorem line?_blankEnd (hi : i < s.length) : s.blankEnd.line? i = s.line? i :=
  List.getElem?_append_left hi

theorem line?_blankEnd_length (s : Script) :
    s.blankEnd.line? s.length = some ⟨"", .comment⟩ := List.getElem?_concat_length

theorem op?_blankEnd (hi : i < s.length) : s.blankEnd.op? i = s.op? i := by
  rw [op?, line?_blankEnd hi, op?]

/-- Beyond the script there is the comment, and then nothing. -/
theorem op?_blankEnd_of_le (hi : s.length ≤ i) :
    s.op? i = none ∧ (s.blankEnd.op? i = some .comment ∨ s.blankEnd.op? i = none) := by
  have hnone : s.line? i = none := List.getElem?_eq_none hi
  refine ⟨by rw [op?, hnone, Option.map_none], ?_⟩
  rcases Nat.eq_or_lt_of_le hi with rfl | hlt
  · exact .inl (by rw [op?, line?_blankEnd_length, Option.map_some])
  · have hend : s.blankEnd.line? i = none :=
      List.getElem?_eq_none (by rw [← length, length_blankEnd]; exact hlt)
    exact .inr (by rw [op?, hend, Option.map_none])

end Script

namespace Game

variable {g : Game} {h : Handle}

/-- The game without the trace of its runs. -/
def untraced (g : Game) : Game := { g with log := g.log.filter (·.level ≠ .trace) }

theorem untraced_report {n : Notice} (hn : n.level = .trace) :
    (g.report n).untraced = g.untraced := by
  rw [untraced, report, List.filter_append, List.filter_singleton, hn, untraced]
  simp

theorem finish_of_gone (hg : g.hasTrigger h = false) : g.finish h = g := by
  have hnone : g.engine.triggers.get? h = none :=
    Option.isNone_iff_eq_none.1 (Option.isSome_eq_false_iff.1 hg)
  rw [finish, modifyInstance, Arena.modify_of_stale _ hnone]
  rfl

end Game

namespace Run

/-- The run with another script in place of its own. -/
def rescripted (r : Run) (s : Script) : Run := { r with proto := { r.proto with script := s } }

/-- The run with an empty line more at the end of its script. -/
def prolonged (r : Run) : Run := r.rescripted r.proto.script.blankEnd

/-- The run does not wait for its owner: it is not guarded, or its owner neither sleeps nor casts. -/
def IsFree (r : Run) (w : World) : Prop :=
  r.proto.isGuarded = true →
    ∀ c, w.character? r.owner = some c → c.isAwake = true ∧ c.casting = false

instance (r : Run) (w : World) : Decidable (r.IsFree w) :=
  decidable_of_iff (r.proto.isGuarded = true →
    (w.character? r.owner).all (fun c => c.isAwake && !c.casting) = true) (by
      simp only [IsFree, Option.all_eq_true, Bool.and_eq_true, Bool.not_eq_true'])

variable {r : Run} {f f1 : Frame} {g g' g1 : Game} {n fuel : Nat} {a : Int}

theorem rescripted_self {s : Script} (hs : r.proto.script = s) : r.rescripted s = r := by
  subst hs
  rfl

/-! ## Lines that both scripts have -/

theorem length_prolonged (r : Run) :
    r.prolonged.proto.script.length = r.proto.script.length + 1 := Script.length_blankEnd _

theorem op?_prolonged {i : Nat} (hi : i < r.proto.script.length) :
    r.prolonged.proto.script.op? i = r.proto.script.op? i := Script.op?_blankEnd hi

theorem op?_prolonged_of_le {i : Nat} (hi : r.proto.script.length ≤ i) :
    r.proto.script.op? i = none ∧ (r.prolonged.proto.script.op? i = some .comment ∨
      r.prolonged.proto.script.op? i = none) := Script.op?_blankEnd_of_le hi

theorem holds_prolonged (c : String) : r.prolonged.holds g c = r.holds g c := rfl

theorem evaluate_prolonged (e : String) : r.prolonged.evaluate g e = r.evaluate g e := rfl

theorem fault_prolonged (fault : Fault) : r.prolonged.fault g fault = r.fault g fault := rfl

theorem moveGlobals_prolonged (names : List String) :
    r.prolonged.moveGlobals g names = r.moveGlobals g names := rfl

theorem command_prolonged (text : String) :
    r.prolonged.command f text g = r.command f text g := by
  have htrigger : r.prolonged.trigger = r.trigger := rfl
  have howner : r.prolonged.owner = r.owner := rfl
  have hvnum : r.prolonged.proto.vnum = r.proto.vnum := rfl
  have hexecute : r.prolonged.execute = r.execute := rfl
  simp only [command, fault_prolonged, evaluate_prolonged, moveGlobals_prolonged, htrigger, howner,
    hvnum, hexecute]

theorem clauseWithin_prolonged (hf : r.proto.script.Forward) {next : Option Nat}
    (hnext : ∀ j ∈ next, j < r.proto.script.length) :
    r.prolonged.clauseWithin fuel next g = r.clauseWithin fuel next g := by
  induction fuel generalizing next g with
  | zero => cases next <;> rfl
  | succ fuel ih =>
    cases next with
    | none => rfl
    | some j =>
      unfold clauseWithin
      rw [op?_prolonged (hnext j rfl)]
      split
      · rfl
      · rename_i c next close hop
        have hrest : ∀ x ∈ next, x < r.proto.script.length := fun x hx =>
          (hf.ahead hop (List.mem_append_left _ (Option.mem_toList.2 hx))).2
        dsimp only
        rw [holds_prolonged, ih hrest]
        rfl
      · rfl
      · rfl

/-- The empty line is no arm, and where there is none it makes no difference. -/
theorem findArm_prolonged (subject : String) (arms : List Nat) :
    r.prolonged.findArm subject arms g = r.findArm subject arms g := by
  induction arms generalizing g with
  | nil => rfl
  | cons arm arms ih =>
    unfold findArm
    by_cases harm : arm < r.proto.script.length
    · rw [op?_prolonged harm]
      split
      · dsimp only
        rw [evaluate_prolonged, ih]
      · rfl
      · exact ih
    · obtain ⟨hnone, hcomment | hend⟩ := op?_prolonged_of_le (Nat.not_lt.1 harm)
      · rw [hnone, hcomment]
        exact ih
      · rw [hnone, hend]
        exact ih

theorem loopBack_prolonged (head : Nat) (c : String) :
    r.prolonged.loopBack f head c g = r.loopBack f head c g := by
  have htrigger : r.prolonged.trigger = r.trigger := rfl
  have howner : r.prolonged.owner = r.owner := rfl
  have hvnum : r.prolonged.proto.vnum = r.proto.vnum := rfl
  have hname : r.prolonged.proto.name = r.proto.name := rfl
  simp only [loopBack, holds_prolonged, htrigger, howner, hvnum, hname]

theorem patience_le_prolonged (r : Run) (g : Game) :
    r.patience g + 1 ≤ r.prolonged.patience g := by
  rw [patience, patience, length_prolonged, Nat.succ_mul]
  omega

/-- A line does the same in both scripts: it leads to lines that both have. -/
theorem perform_prolonged (hf : r.proto.script.Forward) {line : Line}
    (hline : r.proto.script.line? f.line = some line) :
    r.prolonged.perform f line g = r.perform f line g := by
  have hop : r.proto.script.op? f.line = some line.op := by
    rw [Script.op?, hline, Option.map_some]
  cases hl : line.op with
  | ifThen c next =>
    have hnext : ∀ j ∈ next, f.line < j ∧ j < r.proto.script.length := fun j hj =>
      hf.ahead (hop.trans (congrArg some hl)) (Option.mem_toList.2 hj)
    have hsearch : ∀ g, r.prolonged.clauseWithin (r.prolonged.patience g) next g =
        r.clauseWithin (r.patience g) next g := by
      intro g
      obtain ⟨more, hmore⟩ := Nat.exists_eq_add_of_le (r.patience_le_prolonged g)
      have hfuel : r.proto.script.length ≤ f.line + 1 + r.patience g :=
        Nat.le_add_left_of_le (r.length_le_patience g)
      rw [clauseWithin_prolonged hf fun j hj => (hnext j hj).2, hmore, Nat.add_assoc,
        (clauseWithin_ends hf hnext hfuel).2]
    simp only [perform, hl, hsearch, holds_prolonged]
    rfl
  | switchOn subject arms done =>
    simp only [perform, hl, evaluate_prolonged, findArm_prolonged]
  | done head =>
    cases head with
    | none => simp only [perform, hl]
    | some head =>
      simp only [perform, hl]
      by_cases hhead : head < r.proto.script.length
      · simp only [op?_prolonged hhead, loopBack_prolonged]
      · obtain ⟨hnone, hcomment | hend⟩ := op?_prolonged_of_le (Nat.not_lt.1 hhead)
        · rw [hnone, hcomment]
        · rw [hnone, hend]
  | command =>
    simp only [perform, hl, command_prolonged]
    rfl
  | comment | caseOf | default => simp only [perform, hl]
  | elseIf | elseThen | endIf | whileDo | breakOut =>
    simp only [perform, hl]
    rfl

theorem pass_prolonged (hf : r.proto.script.Forward) (hin : f.line < r.proto.script.length) :
    r.prolonged.pass f g = r.pass f g := by
  obtain ⟨line, hline⟩ : ∃ line, r.proto.script.line? f.line = some line :=
    ⟨_, List.getElem?_eq_getElem hin⟩
  have hline' : r.prolonged.proto.script.line? f.line = some line :=
    (Script.line?_blankEnd hin).trans hline
  have hdo : ∀ g, r.prolonged.doLine f g = r.doLine f g := by
    intro g
    rw [doLine, hline', doLine, hline]
    exact perform_prolonged hf hline
  unfold pass
  rw [hdo]
  rfl

/-! ## The empty line -/

/-- Wherever the passes come to the end of the script, the run does not wait for its owner. -/
def EndsFree (r : Run) (f : Frame) (g : Game) : Prop :=
  ∀ f1 g1, r.Comes f g f1 g1 → r.proto.script.length ≤ f1.line → r.IsFree g1.world

theorem passes_of_le (hend : r.proto.script.length ≤ f.line) (n : Nat) (g : Game) :
    r.passes n f g = (some f.result, g.finish r.trigger) := by
  cases n <;> rw [passes, if_pos hend]

/-- What the pass of the empty line comes to: the run goes on behind it, with a mark in its trace, or
ends because its trigger or its owner is gone. -/
theorem pass_blank (hline : f.line = r.proto.script.length) (hfree : r.IsFree g.world) :
    r.prolonged.pass f g =
        (.next (f.after f.line), g.report (.reached r.trigger r.owner f.line)) ∨
      r.prolonged.pass f g = (.ended f.result, g) ∨
      r.prolonged.pass f g = (.left f.result, g) ∧ g.finish r.trigger = g := by
  have hdo : r.prolonged.doLine f g =
      (.next (f.after f.line), g.report (.reached r.trigger r.owner f.line)) := by
    have hblank : r.prolonged.proto.script.line? f.line = some ⟨"", .comment⟩ := by
      rw [hline]
      exact Script.line?_blankEnd_length _
    rw [doLine, hblank]
    rfl
  have htrigger : r.prolonged.trigger = r.trigger := rfl
  have howner : r.prolonged.owner = r.owner := rfl
  have hguard : r.prolonged.proto.isGuarded = r.proto.isGuarded := rfl
  rw [pass, hdo, htrigger, howner, hguard]
  cases hlive : g.hasTrigger r.trigger with
  | false => exact .inr (.inr ⟨rfl, finish_of_gone hlive⟩)
  | true =>
    cases hg : r.proto.isGuarded with
    | false => exact .inl rfl
    | true =>
      cases hc : g.world.character? r.owner with
      | none => exact .inr (.inl rfl)
      | some c =>
        obtain ⟨hawake, hcasting⟩ := hfree hg c hc
        simp [hawake, hcasting]

/-- A run that is over without the empty line is over with it, after one pass more. -/
theorem passes_blank (hend : r.proto.script.length ≤ f.line) (hfree : r.IsFree g.world) (n : Nat) :
    ∃ g1, r.prolonged.passes (n + 1) f g = (some f.result, g1) ∧
      g1.untraced = (g.finish r.trigger).untraced := by
  rcases Nat.eq_or_lt_of_le hend with hline | hlt
  · have hlength : r.prolonged.proto.script.length = f.line + 1 := by rw [length_prolonged, hline]
    have hin : ¬ r.prolonged.proto.script.length ≤ f.line := by
      rw [hlength]
      exact Nat.not_succ_le_self _
    rw [passes, if_neg hin]
    rcases pass_blank hline.symm hfree with hpass | hpass | ⟨hpass, hgone⟩
    · have htrace : ((g.finish r.trigger).report (.reached r.trigger r.owner f.line)).untraced =
          (g.finish r.trigger).untraced := untraced_report rfl
      rw [hpass]
      exact ⟨_, passes_of_le (Nat.le_of_eq hlength) n _, htrace⟩
    · rw [hpass]
      exact ⟨_, rfl, rfl⟩
    · rw [hpass]
      exact ⟨g, rfl, by rw [hgone]⟩
  · have hend' : r.prolonged.proto.script.length ≤ f.line := by rwa [length_prolonged]
    exact ⟨_, passes_of_le hend' _ g, rfl⟩

/-! ## Whole runs -/

/-- The drive of the run comes to an end by itself, and is not cut off; so does every drive whose own
commands spare it (`drive_bounded`). -/
def Ends (r : Run) (i : Instance) (g : Game) : Prop :=
  ∃ a, (r.passes (r.patience (r.entry i g).2) (r.entry i g).1 (r.entry i g).2).1 = some a

/-- With an empty line more, a run has the answer that it had without, after one pass more. -/
theorem passes_prolonged (hf : r.proto.script.Forward) (hfree : r.EndsFree f g)
    (he : r.passes n f g = (some a, g')) :
    ∃ g1, r.prolonged.passes (n + 1) f g = (some a, g1) ∧ g1.untraced = g'.untraced := by
  induction n generalizing f g with
  | zero =>
    rw [passes] at he
    split at he
    · cases he
      exact passes_blank ‹_› (hfree f g .here ‹_›) 0
    · cases he
  | succ n ih =>
    by_cases hend : r.proto.script.length ≤ f.line
    · rw [passes_of_le hend] at he
      cases he
      exact passes_blank hend (hfree f g .here hend) (n + 1)
    · have hin : f.line < r.proto.script.length := Nat.not_le.1 hend
      have hin' : ¬ r.prolonged.proto.script.length ≤ f.line := by
        rw [length_prolonged]
        omega
      rw [passes, if_neg hend] at he
      rw [passes, if_neg hin', pass_prolonged hf hin]
      generalize hp : r.pass f g = p at he
      obtain ⟨step, g1⟩ := p
      cases step with
      | next f1 => exact ih (fun f2 g2 hc => hfree f2 g2 (.pass hin hp hc)) he
      | ended result | left result =>
        cases he
        exact ⟨_, rfl, rfl⟩
      | endless => cases he

theorem entry_prolonged (i : Instance) (g : Game) : r.prolonged.entry i g = r.entry i g := rfl

/-- With an empty line more, a run has the same answer and leaves the same game, its trace apart. -/
theorem drive_prolonged (hf : r.proto.script.Forward) {i : Instance} (he : r.Ends i g)
    (hfree : r.EndsFree (r.entry i g).1 (r.entry i g).2) :
    (r.prolonged.drive i g).1 = (r.drive i g).1 ∧
      (r.prolonged.drive i g).2.untraced = (r.drive i g).2.untraced := by
  obtain ⟨a, g', he⟩ : ∃ a g', r.passes (r.patience (r.entry i g).2) (r.entry i g).1
      (r.entry i g).2 = (some a, g') := he.imp fun a ha => ⟨_, Prod.ext ha rfl⟩
  obtain ⟨g1, hpasses, htrace⟩ := passes_prolonged hf hfree he
  have hmore := passes_more hpasses (r.patience_le_prolonged (r.entry i g).2)
  rw [drive_eq, drive_eq, entry_prolonged, hmore, he]
  exact ⟨rfl, htrace⟩

theorem ends_of_passes {i : Instance}
    (he : (r.passes n (r.entry i g).1 (r.entry i g).2).1 = some a)
    (hle : n ≤ r.patience (r.entry i g).2) : r.Ends i g :=
  ⟨a, congrArg Prod.fst (passes_more (Prod.ext he rfl) hle)⟩

/-- A run of a script without lines ends at once. -/
theorem ends_of_isEmpty (h : r.proto.script.isEmpty = true) (i : Instance) (g : Game) :
    r.Ends i g := by
  have hend : r.proto.script.length ≤ (r.entry i g).1.line := by
    rw [Script.length, List.isEmpty_iff.1 h]
    exact Nat.zero_le _
  exact ⟨_, congrArg Prod.fst (passes_of_le hend _ _)⟩

/-- A run that has its answer is free at the end of its script if its owner is able to act after it. -/
theorem endsFree_of_passes (he : (r.passes n f g).1 = some a)
    (hfree : r.IsFree (r.passes n f g).2.world) : r.EndsFree f g := by
  intro f1 g1 hc hend
  induction hc generalizing n with
  | here => rwa [passes_of_le hend] at hfree
  | pass hin hp _ ih =>
    cases n with
    | zero =>
      rw [passes, if_neg (Nat.not_le.2 hin)] at he
      cases he
    | succ n =>
      rw [passes, if_neg (Nat.not_le.2 hin), hp] at he hfree
      exact ih he hfree hend

end Run

namespace Script

/-- A text that shows the script: its source, or what is shown of it with the prototype. -/
def IsShownAs (s : Script) (text : String) : Prop := text = s.source ∨ text = s.source ++ "\n"

/-- What is shown of a script compiles to the script, but for an empty line at the end of one of them. -/
theorem IsShownAs.compile {body text : String} (h : (compile body).IsShownAs text) :
    compile text = compile body ∨ compile body = (compile text).blankEnd ∨
      (compile body).isEmpty = true ∧ compile text = (compile body).blankEnd := by
  rcases h with rfl | rfl
  · by_cases hblank : (Script.compile body).EndsBlank
    · exact .inr (.inl (eq_blankEnd hblank))
    · exact .inl (compile_source hblank)
  · rw [compile_source_lineFeed]
    cases hempty : (Script.compile body).isEmpty with
    | false => exact .inl rfl
    | true => exact .inr (.inr ⟨rfl, rfl⟩)

/-- The source of a script compiles to the script again, but for an empty last line, which is lost. A
run of what is shown has the same answer and leaves the same game, its trace apart, unless a guarded
owner cannot act at the empty line. -/
theorem compile_shown (body : String) :
    (¬ (compile body).EndsBlank → compile (compile body).source = compile body) ∧
    ((compile body).EndsBlank →
      (compile (compile body).source).lines = (compile body).lines.dropLast) ∧
    (∀ (e : Engine) (vnum : Vnum) (p : Prototype), e.registry.get? vnum = some p →
      p.script = compile body →
        ∃ head, e.statTrigger? vnum =
          some (head ++ ("Commands:\n" ++ ((compile body).source ++ "\n")))) ∧
    (compile ((compile body).source ++ "\n") =
      if (compile body).isEmpty then (compile body).blankEnd else compile body) ∧
    ∀ text, (compile body).IsShownAs text →
      ∀ (r r' : Run) (i : Instance) (g : Game), r.proto.script = compile body →
        r' = r.rescripted (compile text) → r'.Ends i g →
        r.EndsFree (r.entry i g).1 (r.entry i g).2 →
        r'.EndsFree (r'.entry i g).1 (r'.entry i g).2 →
          (r'.drive i g).1 = (r.drive i g).1 ∧
            (r'.drive i g).2.untraced = (r.drive i g).2.untraced := by
  refine ⟨compile_source, fun hblank => ?_, fun e vnum p hp hs => ?_, compile_source_lineFeed body,
    fun text htext r r' i g hs hr' hends hfree hfree' => ?_⟩
  · have hlines := congrArg Script.lines (eq_blankEnd hblank)
    rw [hlines, blankEnd, List.dropLast_concat]
  · obtain ⟨head, hhead⟩ := Inspect.prototypeText_eq p
    exact ⟨head, by rw [Engine.statTrigger?, hp, Option.map_some, hhead, hs]⟩
  · have hf : (compile body).Forward := compile_forward body
    have hf' : (compile text).Forward := compile_forward text
    rcases htext.compile with hsame | hshorter | ⟨hempty, hlonger⟩
    · rw [hr', Run.rescripted_self (hs.trans hsame.symm)]
      exact ⟨rfl, rfl⟩
    · have hr : r = r'.prolonged := by
        rw [Run.prolonged, hr']
        exact (Run.rescripted_self (hs.trans hshorter)).symm
      have hscript : r'.proto.script.Forward := by
        rw [hr']
        exact hf'
      obtain ⟨hanswer, htrace⟩ := Run.drive_prolonged hscript hends hfree'
      rw [hr]
      exact ⟨hanswer.symm, htrace.symm⟩
    · have hr : r' = r.prolonged := by rw [hr', hlonger, Run.prolonged, hs]
      rw [hr]
      exact Run.drive_prolonged (hs ▸ hf) (Run.ends_of_isEmpty (hs ▸ hempty) i g) hfree

end Script

/-! ## A herald -/

/-- A trigger of mobiles. -/
def Prototype.heralding (body : String) : Prototype :=
  { vnum := 1, name := "herald", kind := .mobile, script := Script.compile body }

/-- A court with a herald, awake or asleep. -/
def World.court (position : Position) : World :=
  ((({} : World).addRoom 100 "court").2.addMobile 7 "herald" (Uid.room 0)).2.modifyCharacter
    ⟨Uid.firstMobile⟩ fun c => { c with position }

namespace Game

/-- The herald has the trigger. -/
def court (position : Position) (body : String) : Game :=
  (start {} ((∅ : Registry).register (.heralding body)) (.court position)).play
    [.attach 1 ⟨Uid.firstMobile⟩ none]

/-- The herald is awake, and the script ends with an empty line. -/
def morning : Game := court .standing "echo Hear me!\n "

def herald (g : Game) : Instance := (g.instance? ⟨0, 0⟩).getD default

def heralding (g : Game) : Run := g.runOf .standard ⟨0, 0⟩ g.herald .new

end Game

/-- The run in the morning. -/
def Run.crying : Run := Game.morning.heralding

/-- The run in the morning with what is shown of its script. -/
def Run.cried : Run := crying.rescripted (Script.compile (Script.compile "echo Hear me!\n ").source)

/-- A herald who is awake does the same with and without the empty line. -/
theorem Script.compile_shown_herald :
    (¬ (compile "echo Hear me!").EndsBlank ∧
      compile (compile "echo Hear me!").source = compile "echo Hear me!") ∧
    ((compile "echo Hear me!\n ").EndsBlank ∧
      (compile (compile "echo Hear me!\n ").source).lines =
        (compile "echo Hear me!\n ").lines.dropLast) ∧
    (Game.morning.engine.registry.get? 1 = some (.heralding "echo Hear me!\n ") ∧
      ∃ head, Game.morning.engine.statTrigger? 1 =
        some (head ++ ("Commands:\n" ++ ((compile "echo Hear me!\n ").source ++ "\n")))) ∧
    Run.crying.proto.script = compile "echo Hear me!\n " ∧ Run.crying.proto.isGuarded = true ∧
    Run.cried.Ends Game.morning.herald Game.morning ∧
    Run.crying.EndsFree (Run.crying.entry Game.morning.herald Game.morning).1
      (Run.crying.entry Game.morning.herald Game.morning).2 ∧
    Run.cried.EndsFree (Run.cried.entry Game.morning.herald Game.morning).1
      (Run.cried.entry Game.morning.herald Game.morning).2 ∧
    (Run.cried.drive Game.morning.herald Game.morning).1 =
      (Run.crying.drive Game.morning.herald Game.morning).1 ∧
    (Run.cried.drive Game.morning.herald Game.morning).2.untraced =
      (Run.crying.drive Game.morning.herald Game.morning).2.untraced := by
  have hplain : ¬ (compile "echo Hear me!").EndsBlank := by decide +kernel
  have hblank : (compile "echo Hear me!\n ").EndsBlank := by decide +kernel
  have hget : Game.morning.engine.registry.get? 1 = some (.heralding "echo Hear me!\n ") := by
    decide +kernel
  have hs : Run.crying.proto.script = compile "echo Hear me!\n " := by decide +kernel
  have hend : (Run.crying.passes 2 (Run.crying.entry Game.morning.herald Game.morning).1
      (Run.crying.entry Game.morning.herald Game.morning).2).1 = some 1 := by decide +kernel
  have hend' : (Run.cried.passes 1 (Run.cried.entry Game.morning.herald Game.morning).1
      (Run.cried.entry Game.morning.herald Game.morning).2).1 = some 1 := by decide +kernel
  have hends : Run.cried.Ends Game.morning.herald Game.morning :=
    Run.ends_of_passes hend' (by decide +kernel)
  have hfree : Run.crying.EndsFree (Run.crying.entry Game.morning.herald Game.morning).1
      (Run.crying.entry Game.morning.herald Game.morning).2 :=
    Run.endsFree_of_passes hend (by decide +kernel)
  have hfree' : Run.cried.EndsFree (Run.cried.entry Game.morning.herald Game.morning).1
      (Run.cried.entry Game.morning.herald Game.morning).2 :=
    Run.endsFree_of_passes hend' (by decide +kernel)
  have hcried : Run.cried =
      Run.crying.rescripted (compile (compile "echo Hear me!\n ").source) := by rw [Run.cried]
  have hruns := (compile_shown "echo Hear me!\n ").2.2.2.2 (compile "echo Hear me!\n ").source
    (.inl rfl) Run.crying Run.cried Game.morning.herald Game.morning hs hcried hends hfree hfree'
  exact ⟨⟨hplain, (compile_shown "echo Hear me!").1 hplain⟩,
    ⟨hblank, (compile_shown "echo Hear me!\n ").2.1 hblank⟩,
    ⟨hget, (compile_shown "echo Hear me!\n ").2.2.1 _ 1 _ hget rfl⟩,
    hs, by decide +kernel, hends, hfree, hfree', hruns⟩

/-- While the herald sleeps, a script of an empty line blocks the event, and what is shown of it does
not. -/
theorem Script.compile_shown_asleep :
    (compile " ").lines = [⟨"", .comment⟩] ∧ compile (compile " ").source = {} ∧
      (Game.run .standard (Game.court .sleeping " ") ⟨0, 0⟩ .new).1 = 0 ∧
      (Game.run .standard (Game.court .sleeping (compile " ").source) ⟨0, 0⟩ .new).1 = 1 :=
  ⟨by decide +kernel, by decide +kernel, by decide +kernel, by decide +kernel⟩

end MudTrigger
