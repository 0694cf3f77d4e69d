import MudTrigger.Proofs.Trace.Drive

/-!
# What a line can do

`Run.Work` lists what a run does by itself: it rolls dice, puts faults and values on record, counts its
ifs and its loops, and sets variables. `Run.Does` says what a line can come to: some work, after which
the run goes on, is over or is suspended, or some work and a command that is carried out
(`perform_does`). What is kept by each piece of work is thus kept by all that a run does, but for its
commands.
-/

set_option autoImplicit false

namespace MudTrigger

namespace Run

variable {r : Run} {f : Frame} {g : Game}

/-- A piece of work that a run does by itself. -/
inductive Work (r : Run) : Game → Game → Prop
  | roll {g : Game} (d : Dice) : Work r g (g.withDice d)
  | blame {g : Game} (faults : List Fault) : Work r g (g.blame r.proto faults)
  | evaluate {g : Game} (expression value : String) :
    Work r g (g.report (.evaluated r.trigger r.owner expression value))
  | deepen {g : Game} : Work r g (g.deepen r.trigger)
  | rise {g : Game} : Work r g (g.rise r.trigger)
  | countLoop {g : Game} : Work r g (g.countLoop r.trigger)
  | setLocal {g : Game} (name value : String) : Work r g (g.setLocal r.trigger name value)
  | makeGlobal {g : Game} (v : Variable) : Work r g (g.makeGlobal r.trigger r.owner v)
  | unset {g : Game} (name : String) : Work r g (g.unset r.trigger r.owner name)

/-- One piece of work after another. -/
abbrev Works (r : Run) : Game → Game → Prop := Relation.ReflTransGen r.Work

/-- The line at which a run goes on that a line has suspended: the next one if it is a wait, and the
first of its body if it is the end of a loop. -/
def Follows (r : Run) (line j : Nat) : Prop :=
  r.proto.script.op? line = some .command ∧ j = line + 1 ∨
    ∃ head, r.proto.script.op? line = some (.done (some head)) ∧ j = head + 1

/-- The game when a command has been carried out. -/
def carryOut (r : Run) (text : String) (g : Game) : Game :=
  r.execute (g.report (.executed r.owner text)) r.owner text

/-- What a line can come to (module doc). -/
inductive Does (r : Run) (f : Frame) (g : Game) : Step × Game → Prop
  | next {f' : Frame} {g' : Game} : r.Works g g' → Does r f g (.next f', g')
  | ended {result : Int} {g' : Game} : r.Works g g' → Does r f g (.ended result, g')
  | endless {g' : Game} : r.Works g g' → Does r f g (.endless, g')
  | halted {g' : Game} (times : Nat) : r.Works g g' →
    Does r f g (.ended f.result, g'.report (.looped r.proto.vnum r.proto.name times))
  | suspended {g' : Game} (j delay : Nat) : r.Works g g' → r.Follows f.line j →
    Does r f g (.left f.result, g'.suspend r.trigger r.owner j delay .wait)
  | command (text : String) (read : Scene → Expand String) :
    (r.carryOut text (r.look g read).2).hasTrigger r.trigger = true →
    Does r f g (.next (f.after f.line), r.carryOut text (r.look g read).2)
  | removed (text : String) (read : Scene → Expand String) :
    (r.carryOut text (r.look g read).2).hasTrigger r.trigger = false →
    Does r f g (.ended f.result,
      (r.carryOut text (r.look g read).2).report (.removedByOwnCommand r.proto.vnum r.owner))

/-! ## Looking and choosing -/

theorem look_works (read : Scene → Expand String) : r.Works g (r.look g read).2 := by
  unfold look
  split
  · exact .refl
  · exact .tail (.single (.roll _)) (.blame _)

theorem evaluate_works (e : String) : r.Works g (r.evaluate g e).2 :=
  (look_works (·.evaluate e)).tail (.evaluate e _)

theorem holds_works (e : String) : r.Works g (r.holds g e).2 := evaluate_works e

theorem fault_works (x : Fault) : r.Works g (r.fault g x) := .single (.blame [x])

theorem clauseWithin_works (fuel : Nat) (line : Option Nat) :
    r.Works g (r.clauseWithin fuel line g).2 := by
  induction fuel generalizing line g with
  | zero =>
    cases line with
    | none => exact fault_works _
    | some line => exact .refl
  | succ fuel ih =>
    cases line with
    | none => exact fault_works _
    | some line =>
      unfold clauseWithin
      split
      · exact fault_works _
      · rename_i condition next _ _
        have hh := holds_works (r := r) (g := g) condition
        simp only
        split
        · exact hh.tail .deepen
        · exact hh.trans (ih next)
      · exact .single .deepen
      · exact .refl

theorem findArm_works (subject : String) (arms : List Nat) :
    r.Works g (r.findArm subject arms g).2 := by
  induction arms generalizing g with
  | nil => exact .refl
  | cons arm arms ih =>
    unfold findArm
    split
    · rename_i expression _
      have he := evaluate_works (r := r) (g := g) expression
      simp only
      split
      · exact he
      · exact he.trans ih
    · exact .refl
    · exact ih

theorem moveGlobals_works (names : List String) : r.Works g (r.moveGlobals g names) := by
  unfold moveGlobals
  induction names generalizing g with
  | nil => exact .refl
  | cons name names ih =>
    rw [List.foldl_cons]
    split
    · rename_i v _
      exact .head (.makeGlobal v) ih
    · exact (fault_works _).trans ih

/-! ## Lines -/

theorem follow_does {p : Clause × Game} (hp : r.Works g p.2) : r.Does f g (f.follow p) := by
  obtain ⟨clause, g'⟩ := p
  cases clause with
  | found line => exact .next hp
  | unclosed => exact .ended hp
  | endless => exact .endless hp

theorem loopBack_does {head : Nat} (hop : r.proto.script.op? f.line = some (.done (some head)))
    (condition : String) (hg : g.hasTrigger r.trigger = true) :
    r.Does f g (r.loopBack f head condition g) := by
  have hw := holds_works (r := r) (g := g) condition
  have hlive : (r.holds g condition).2.hasTrigger r.trigger = true := by rwa [hasTrigger_holds]
  unfold loopBack
  generalize r.holds g condition = p at hw hlive
  obtain ⟨truth, g1⟩ := p
  simp only at hw hlive ⊢
  obtain ⟨i, hi⟩ := (Game.hasTrigger_iff _ _).1 hlive
  have hc : (g1.countLoop r.trigger).instance? r.trigger = some { i with loops := i.loops + 1 } := by
    rw [Game.countLoop, Game.instance?_modifyInstance_self, hi, Option.map_some]
  have hw' : r.Works g (g1.countLoop r.trigger) := hw.tail .countLoop
  split
  · exact .next hw
  · rw [hc]
    simp only
    split
    · exact .suspended _ _ hw' (.inr ⟨head, hop, rfl⟩)
    · split
      · exact .halted _ hw'
      · exact .next hw'

/-- A command, once its text is read. -/
theorem command_does (hop : r.proto.script.op? f.line = some .command) (text : String)
    (read : Scene → Expand String) : r.Does f g (r.command f text (r.look g read).2) := by
  have hw := look_works (r := r) (g := g) read
  unfold command
  simp only
  split
  · split
    · exact .next (hw.trans (fault_works _))
    · exact .next ((hw.trans (evaluate_works _)).tail (.setLocal _ _))
  · exact .ended hw
  · split
    · exact .next ((hw.trans (fault_works _)).trans (moveGlobals_works _))
    · exact .next (hw.trans (moveGlobals_works _))
  · split
    · exact .ended (hw.trans (fault_works _))
    · exact .ended hw
  · split
    · exact .next (hw.trans (fault_works _))
    · exact .next (hw.tail (.setLocal _ _))
  · split
    · exact .next (hw.trans (fault_works _))
    · exact .next (hw.tail (.unset _))
  · split
    · exact .suspended _ _ hw (.inl ⟨hop, rfl⟩)
    · exact .next (hw.trans (fault_works _))
  · split
    · rename_i hlive
      exact .command text read hlive
    · rename_i hgone
      exact .removed text read (Bool.eq_false_iff.2 hgone)

/-- One case for each kind of line. -/
theorem perform_does {line : Line} (hline : r.proto.script.line? f.line = some line)
    (hg : g.hasTrigger r.trigger = true) : r.Does f g (r.perform f line g) := by
  have hop : r.proto.script.op? f.line = some line.op := congrArg (Option.map Line.op) hline
  obtain ⟨text, op⟩ := line
  dsimp only at hop
  cases op with
  | comment | caseOf _ | default => exact .next .refl
  | ifThen c next =>
    simp only [perform]
    split
    · exact .next ((holds_works c).tail .deepen)
    · exact follow_does ((holds_works c).trans (clauseWithin_works _ next))
  | elseIf _ _ close | elseThen close =>
    simp only [perform]
    split
    · exact .next (fault_works _)
    · cases close with
      | some close => exact .next (.single .rise)
      | none => exact .ended (.head .rise (fault_works _))
  | endIf =>
    simp only [perform]
    split
    · exact .next (fault_works _)
    · exact .next (.single .rise)
  | whileDo c out =>
    cases out with
    | none => exact .ended (fault_works _)
    | some out =>
      simp only [perform]
      split
      · exact .next (holds_works c)
      · exact .next (holds_works c)
  | done head =>
    cases head with
    | none => exact .next .refl
    | some head =>
      simp only [perform]
      split
      · exact loopBack_does hop _ hg
      · exact .next .refl
  | switchOn subject arms out =>
    have hw := (evaluate_works (r := r) (g := g) subject).trans
      (findArm_works (r.evaluate g subject).1 arms)
    simp only [perform]
    generalize r.findArm (r.evaluate g subject).1 arms (r.evaluate g subject).2 = p at hw
    obtain ⟨arm, g1⟩ := p
    cases arm with
    | some arm => exact .next hw
    | none =>
      cases out with
      | some out => exact .next hw
      | none => exact .ended hw
  | breakOut out =>
    cases out with
    | some out => exact .next .refl
    | none => exact .next (fault_works _)
  | command =>
    simp only [perform]
    exact command_does hop _ _

/-- A line is put on the trace and then done. -/
theorem doLine_does {line : Line} (hline : r.proto.script.line? f.line = some line)
    (hg : g.hasTrigger r.trigger = true) :
    r.Does f (g.report (.reached r.trigger r.owner f.line)) (r.doLine f g) := by
  rw [doLine, hline]
  exact perform_does hline hg

end Run

end MudTrigger
