import MudTrigger.Game.Run

/-!
# Structured programs

A `Program` is a script as a tree: comments, commands, `if` chains, `while` loops, `switch` blocks
and, inside some loop or switch, `break`. Every line stands in it as it is written, with any blanks
around it (`Wording`). `Program.text` writes the tree down, a line to a line.

`Program.meaning` is what a program does, by recursion on the tree: which of its conditions are
evaluated, which commands are carried out, and how it ends. It knows of no jumps; the number of a
line is there for the trace only, and for where a run is taken up after a wait.
-/

set_option autoImplicit false

namespace MudTrigger

/-- A way to write a line with a certain keyword. -/
structure Wording (k : Keyword) where
  text : String
  oneLine : '\n' ∉ text.toList
  reads : Keyword.ofText (Text.trim text) = k

/-- The line without the blanks around it. -/
def Wording.line {k : Keyword} (w : Wording k) : String := Text.trim w.text

theorem Wording.ofText_line {k : Keyword} (w : Wording k) : Keyword.ofText w.line = k := w.reads

/-- The line that begins an arm of a `switch`. -/
inductive ArmHead where
  | caseOf {value : String} (w : Wording (.caseOf value))
  | default (w : Wording .default)

mutual

/-- Lines one after another; `break` may stand in a program of `true`, inside a loop or switch. -/
inductive Program : Bool → Type
  | nil {b} : Program b
  | comment {b} (w : Wording .comment) (rest : Program b) : Program b
  | command {b} (w : Wording .command) (rest : Program b) : Program b
  | ifThen {b condition} (w : Wording (.ifThen condition)) (body : Program b) (clauses : Clauses b)
    (last : Wording .endIf) (rest : Program b) : Program b
  | whileDo {b condition} (w : Wording (.whileDo condition)) (body : Program true)
    (last : Wording .done) (rest : Program b) : Program b
  /-- `lead` stands before the first arm, where no run ever comes. -/
  | switchOn {b subject} (w : Wording (.switchOn subject)) (lead : Program true) (arms : Arms)
    (last : Wording .done) (rest : Program b) : Program b
  | breakOut (w : Wording .breakOut) (rest : Program true) : Program true

/-- The clauses of an `if` after the first. -/
inductive Clauses : Bool → Type
  | nil {b} : Clauses b
  | elseIf {b condition} (w : Wording (.elseIf condition)) (body : Program b)
    (more : Clauses b) : Clauses b
  | elseThen {b} (w : Wording .elseThen) (body : Program b) : Clauses b

/-- The arms of a `switch`. -/
inductive Arms : Type
  | nil : Arms
  | arm (head : ArmHead) (body : Program true) (more : Arms) : Arms

end

/-! ## How a program is written -/

/-- A line as it is written, with its keyword. -/
abbrev Written := Σ k, Wording k

def ArmHead.written : ArmHead → Written
  | caseOf w => ⟨_, w⟩
  | default w => ⟨_, w⟩

mutual

def Program.lines : {b : Bool} → Program b → List Written
  | _, .nil => []
  | _, .comment w rest => ⟨_, w⟩ :: rest.lines
  | _, .command w rest => ⟨_, w⟩ :: rest.lines
  | _, .ifThen w body clauses last rest =>
    ⟨_, w⟩ :: (body.lines ++ (clauses.lines ++ ⟨_, last⟩ :: rest.lines))
  | _, .whileDo w body last rest => ⟨_, w⟩ :: (body.lines ++ ⟨_, last⟩ :: rest.lines)
  | _, .switchOn w lead arms last rest =>
    ⟨_, w⟩ :: (lead.lines ++ (arms.lines ++ ⟨_, last⟩ :: rest.lines))
  | _, .breakOut w rest => ⟨_, w⟩ :: rest.lines

def Clauses.lines : {b : Bool} → Clauses b → List Written
  | _, .nil => []
  | _, .elseIf w body more => ⟨_, w⟩ :: (body.lines ++ more.lines)
  | _, .elseThen w body => ⟨_, w⟩ :: body.lines

def Arms.lines : Arms → List Written
  | .nil => []
  | .arm head body more => head.written :: (body.lines ++ more.lines)

end

def Program.size {b : Bool} (p : Program b) : Nat := p.lines.length

def Clauses.size {b : Bool} (p : Clauses b) : Nat := p.lines.length

def Arms.size (p : Arms) : Nat := p.lines.length

section

variable {b : Bool} {c : String}

theorem Program.size_comment (w : Wording .comment) (rest : Program b) :
    (Program.comment w rest).size = 1 + rest.size := Nat.add_comm _ _

theorem Program.size_command (w : Wording .command) (rest : Program b) :
    (Program.command w rest).size = 1 + rest.size := Nat.add_comm _ _

theorem Program.size_ifThen (w : Wording (.ifThen c)) (body : Program b) (clauses : Clauses b)
    (last : Wording .endIf) (rest : Program b) :
    (Program.ifThen w body clauses last rest).size =
      1 + body.size + clauses.size + 1 + rest.size := by
  simp only [size, lines, Clauses.size, List.length_cons, List.length_append]
  omega

theorem Program.size_whileDo (w : Wording (.whileDo c)) (body : Program true)
    (last : Wording .done) (rest : Program b) :
    (Program.whileDo w body last rest).size = 1 + body.size + 1 + rest.size := by
  simp only [size, lines, List.length_cons, List.length_append]
  omega

theorem Program.size_switchOn (w : Wording (.switchOn c)) (lead : Program true) (arms : Arms)
    (last : Wording .done) (rest : Program b) :
    (Program.switchOn w lead arms last rest).size =
      1 + lead.size + arms.size + 1 + rest.size := by
  simp only [size, lines, Arms.size, List.length_cons, List.length_append]
  omega

theorem Clauses.size_elseIf (w : Wording (.elseIf c)) (body : Program b) (more : Clauses b) :
    (Clauses.elseIf w body more).size = 1 + body.size + more.size := by
  simp only [size, lines, Program.size, List.length_cons, List.length_append]
  omega

theorem Clauses.size_elseThen (w : Wording .elseThen) (body : Program b) :
    (Clauses.elseThen w body).size = 1 + body.size := by
  simp only [size, lines, Program.size, List.length_cons]
  omega

theorem Arms.size_arm (head : ArmHead) (body : Program true) (more : Arms) :
    (Arms.arm head body more).size = 1 + body.size + more.size := by
  simp only [size, lines, Program.size, List.length_cons, List.length_append]
  omega

end

/-- The text of a program, each line with a line feed after it. -/
def Program.text {b : Bool} (p : Program b) : String :=
  String.ofList (p.lines.flatMap fun x => x.2.text.toList ++ ['\n'])

/-! ## What a program does -/

/-- How a part of a program comes to its end. -/
inductive Ending where
  | onward
  /-- At a `break`, which leaves the nearest loop or switch. -/
  | broken
  /-- The run is over, with an answer. -/
  | ended (result : Int)
  /-- The run is suspended. -/
  | left (result : Int)
  deriving DecidableEq

/-- How a part of a program comes to its end, how often loop bodies have been repeated, and the
game. -/
structure Outcome where
  ending : Ending
  loops : Nat
  game : Game

namespace Outcome

/-- What comes next is done unless the program is left before. -/
def andThen (o : Outcome) (next : Nat → Game → Outcome) : Outcome :=
  match o.ending with
  | .onward => next o.loops o.game
  | _ => o

/-- A `break` leads behind the loop or switch. -/
def uptoBreak (o : Outcome) : Outcome :=
  match o.ending with
  | .broken => { o with ending := .onward }
  | _ => o

/-- The answer of a run that has come to this, and the game after it. -/
def answer (o : Outcome) (h : Handle) : Int × Game :=
  match o.ending with
  | .onward => (1, o.game.finish h)
  | .broken => (1, o.game.finish h)
  | .ended result => (result, o.game.finish h)
  | .left result => (result, o.game)

end Outcome

/-- How a command line ends. No search for a clause is made there. -/
def Step.ending : Step → Ending
  | next _ => .onward
  | ended result => .ended result
  | left result => .left result
  | endless => .ended 1

namespace Run

/-- Notes in the trace that the run is at a line. -/
def note (r : Run) (line : Nat) (g : Game) : Game := g.report (.reached r.trigger r.owner line)

/-- How often the run has repeated loop bodies in all. -/
def repeated (r : Run) (g : Game) : Nat := ((g.instance? r.trigger).map (·.loops)).getD 0

/-- Carries out a command line. -/
def obey (r : Run) (line : Nat) (text : String) (n : Nat) (g : Game) : Outcome :=
  let seen := r.look g (·.expand text)
  let done := r.command { line, loops := n } seen.1 seen.2
  ⟨done.1.ending, n, done.2⟩

/-- Goes behind an `if` from the end of the clause that was entered, which is before this line. -/
def leaveIf (r : Run) (line n : Nat) (g : Game) : Outcome :=
  ⟨.onward, n, (r.note line g).rise r.trigger⟩

/-- What follows on a loop body: the body is gone through again if the condition holds. A run that
has repeated bodies too often yields for a pulse or is over. -/
def again (r : Run) (condition : String) (head last : Nat) (body : Nat → Game → Outcome) (n : Nat)
    (g : Game) : Outcome :=
  let (truth, g) := r.holds (r.note last g) condition
  if !truth then ⟨.onward, n, g⟩
  else
    let g := g.countLoop r.trigger
    if g.engine.config.loopDeferAfter ≤ n + 1 then
      ⟨.left 1, n, g.suspend r.trigger r.owner (head + 1) 1 .wait⟩
    else if g.engine.config.loopAbortAfter ≤ r.repeated g then
      ⟨.ended 1, n, g.report (.looped r.proto.vnum r.proto.name (r.repeated g))⟩
    else body (n + 1) g

/-- Goes through a loop body as long as the condition holds, `fuel` times at most. The fuel outlasts
the repetitions that a run is allowed. -/
def iterate (r : Run) (condition : String) (head last : Nat) (body : Nat → Game → Outcome) :
    Nat → Nat → Game → Outcome
  | 0, n, g => ⟨.ended 1, n, g⟩
  | fuel + 1, n, g =>
    (body n g).andThen (r.again condition head last (r.iterate condition head last body fuel))

end Run

/-- Whether an arm is the one for the subject of its switch. -/
def ArmHead.fits (r : Run) (subject : String) (g : Game) : ArmHead → Bool × Game
  | @caseOf value _ =>
    let (value, g) := r.evaluate g value
    (Text.isTruthy (Operator.apply .eq subject value), g)
  | .default _ => (true, g)

mutual

/-- What a program does that is written from line `i` on, in a run that has repeated loop bodies `n`
times since it was begun. -/
def Program.meaning (r : Run) : {b : Bool} → Program b → Nat → Nat → Game → Outcome
  | _, .nil, _, n, g => ⟨.onward, n, g⟩
  | _, .comment _ rest, i, n, g => rest.meaning r (i + 1) n (r.note i g)
  | _, .command w rest, i, n, g =>
    (r.obey i w.line n (r.note i g)).andThen (rest.meaning r (i + 1))
  | _, @Program.ifThen _ c _ body clauses _ rest, i, n, g =>
    let j := i + 1 + body.size
    let (truth, g) := r.holds (r.note i g) c
    let o := if truth then (body.meaning r (i + 1) n (g.deepen r.trigger)).andThen (r.leaveIf j)
      else clauses.meaning r j n g
    o.andThen (rest.meaning r (j + clauses.size + 1))
  | _, @Program.whileDo _ c _ body _ rest, i, n, g =>
    let j := i + 1 + body.size
    let (truth, g) := r.holds (r.note i g) c
    let o := if truth then
        r.iterate c i j (body.meaning r (i + 1)) (g.engine.config.loopAbortAfter + 1) n g
      else ⟨.onward, 0, g⟩
    o.uptoBreak.andThen (rest.meaning r (j + 1))
  | _, @Program.switchOn _ s _ lead arms _ rest, i, n, g =>
    let (subject, g) := r.evaluate (r.note i g) s
    (arms.choose r subject (i + 1 + lead.size) n g).uptoBreak.andThen
      (rest.meaning r (i + 1 + lead.size + arms.size + 1))
  | _, .breakOut _ _, i, n, g => ⟨.broken, n, r.note i g⟩

/-- The first clause that fits is gone through, and no other. -/
def Clauses.meaning (r : Run) : {b : Bool} → Clauses b → Nat → Nat → Game → Outcome
  | _, .nil, _, n, g => ⟨.onward, n, g⟩
  | _, @Clauses.elseIf _ c _ body more, i, n, g =>
    let j := i + 1 + body.size
    let (truth, g) := r.holds g c
    if truth then (body.meaning r (i + 1) n (g.deepen r.trigger)).andThen (r.leaveIf j)
    else more.meaning r j n g
  | _, .elseThen _ body, i, n, g =>
    (body.meaning r (i + 1) n (g.deepen r.trigger)).andThen (r.leaveIf (i + 1 + body.size))

/-- The first arm that fits is entered. -/
def Arms.choose (r : Run) (subject : String) : Arms → Nat → Nat → Game → Outcome
  | .nil, _, n, g => ⟨.onward, n, g⟩
  | .arm head body more, i, n, g =>
    let j := i + 1 + body.size
    let (fits, g) := head.fits r subject g
    if fits then (body.meaning r (i + 1) n g).andThen (more.fallThrough r j)
    else more.choose r subject j n g

/-- The arms are gone through one after another, up to the `done`. -/
def Arms.fallThrough (r : Run) : Arms → Nat → Nat → Game → Outcome
  | .nil, i, n, g => ⟨.onward, n, r.note i g⟩
  | .arm _ body more, i, n, g =>
    (body.meaning r (i + 1) n (r.note i g)).andThen (more.fallThrough r (i + 1 + body.size))

end

end MudTrigger
