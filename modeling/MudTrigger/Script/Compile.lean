import MudTrigger.Data.Column
import MudTrigger.Script.Op

/-!
# Compiling a script

`Script.compile` goes through the lines of a text once. A `Compiler` holds the lines it has read and
one stack of open blocks, of whichever kind: `end` closes the nearest open `if`, `done` the nearest
open `while` or `switch`, wherever on the stack that is. A `case` or `default` belongs to the nearest
open `switch`, a `break` to the nearest open `while` or `switch`. A line does not know where it leads
when it is read; the line it leads to writes that into it (`Compiler.patch`).
-/

set_option autoImplicit false

namespace MudTrigger

/-- What the first word of a line says, with the text after it where that matters. -/
inductive Keyword where
  | comment
  | ifThen (condition : String)
  | elseIf (condition : String)
  | elseThen
  | endIf
  | whileDo (condition : String)
  | switchOn (subject : String)
  | caseOf (subject : String)
  | default
  | breakOut
  | done
  | command
  deriving DecidableEq, Inhabited

/-- The keyword of a line; blank lines and those that start with a star are comments. -/
def Keyword.ofText (text : String) : Keyword :=
  if text = "" ∨ text.toList.head? = some '*' then .comment
  else
    let rest := (Text.splitWord text).2
    match Text.fold (Text.splitWord text).1 with
    | "if" => .ifThen rest
    | "elseif" => .elseIf rest
    | "else" => .elseThen
    | "end" => .endIf
    | "while" => .whileDo rest
    | "switch" => .switchOn rest
    | "case" => .caseOf rest
    | "default" => .default
    | "break" => .breakOut
    | "done" => .done
    | _ => .command

/-! ## Lines that are led on -/

namespace Op

/-- An `if` or `elseif` leads to its next clause. -/
def leadNext (j : Nat) : Op → Op
  | ifThen c _ => ifThen c (some j)
  | elseIf c _ close => elseIf c (some j) close
  | op => op

/-- An `elseif` or `else` leads to the `end` of its block. -/
def leadClose (j : Nat) : Op → Op
  | elseIf c next _ => elseIf c next (some j)
  | elseThen _ => elseThen (some j)
  | op => op

/-- A `while` or `switch` leads to its `done`. -/
def leadDone (j : Nat) : Op → Op
  | whileDo c _ => whileDo c (some j)
  | switchOn s arms _ => switchOn s arms (some j)
  | op => op

/-- A `break` leads to the `done` of its block. -/
def leadOut (j : Nat) : Op → Op
  | breakOut _ => breakOut (some j)
  | op => op

/-- A `switch` has one more arm. -/
def addArm (j : Nat) : Op → Op
  | switchOn s arms out => switchOn s (arms ++ [j]) out
  | op => op

end Op

/-! ## Open blocks -/

/-- An open `if`: its latest clause, and its `elseif` and `else` lines. -/
structure IfBlock where
  latest : Nat
  clauses : List Nat := []
  deriving DecidableEq

/-- An open `while` or `switch`: its first line, and the `break` lines that belong to it. -/
structure LoopBlock where
  head : Nat
  isWhile : Bool
  breaks : List Nat := []
  deriving DecidableEq

inductive Block where
  | ofIf (b : IfBlock)
  | ofLoop (b : LoopBlock)
  deriving DecidableEq

namespace Block

def if? : Block → Option IfBlock
  | ofIf b => some b
  | ofLoop _ => none

def loop? : Block → Option LoopBlock
  | ofIf _ => none
  | ofLoop b => some b

/-- The first line of an open `switch`. -/
def switch? : Block → Option Nat
  | ofIf _ => none
  | ofLoop b => if b.isWhile then none else some b.head

/-- The nearest block that `kind` takes, between those opened within it and those around it. -/
def nearest {α : Type} (kind : Block → Option α) :
    List Block → Option (List Block × α × List Block)
  | [] => none
  | b :: outer => match kind b with
    | some x => some ([], x, outer)
    | none => (nearest kind outer).map fun (inner, x, outer) => (b :: inner, x, outer)

end Block

/-! ## Reading line by line -/

/-- The lines that have been read, and the blocks that are open after them. -/
structure Compiler where
  lines : Column Line := ∅
  /-- The innermost block first. -/
  blocks : List Block := []

namespace Compiler

/-- The index of the line that is read next. -/
def here (c : Compiler) : Nat := c.lines.size

/-- Changes what line `i` does. -/
def patch (c : Compiler) (f : Op → Op) (i : Nat) : Compiler :=
  { c with lines := c.lines.modify i fun l => { l with op := f l.op } }

def openBlock (c : Compiler) (b : Block) : Compiler := { c with blocks := b :: c.blocks }

/-- This line is the next clause of the nearest open `if`. -/
def addClause (c : Compiler) : Compiler :=
  match Block.nearest Block.if? c.blocks with
  | none => c
  | some (inner, b, outer) =>
    { c.patch (.leadNext c.here) b.latest with
      blocks := inner ++ .ofIf { latest := c.here, clauses := b.clauses ++ [c.here] } :: outer }

/-- This line closes the nearest open `if`. -/
def closeIf (c : Compiler) : Compiler :=
  match Block.nearest Block.if? c.blocks with
  | none => c
  | some (inner, b, outer) =>
    b.clauses.foldl (patch · (.leadClose c.here))
      { c.patch (.leadNext c.here) b.latest with blocks := inner ++ outer }

/-- This line is an arm of the nearest open `switch`. -/
def addArm (c : Compiler) : Compiler :=
  match c.blocks.findSome? Block.switch? with
  | none => c
  | some head => c.patch (.addArm c.here) head

/-- This line leaves the nearest open `while` or `switch`. -/
def addBreak (c : Compiler) : Compiler :=
  match Block.nearest Block.loop? c.blocks with
  | none => c
  | some (inner, b, outer) =>
    { c with blocks := inner ++ .ofLoop { b with breaks := b.breaks ++ [c.here] } :: outer }

/-- This line closes the nearest open `while` or `switch`, and leads back to the `while`. -/
def closeLoop (c : Compiler) : Compiler × Option Nat :=
  match Block.nearest Block.loop? c.blocks with
  | none => (c, none)
  | some (inner, b, outer) =>
    (b.breaks.foldl (patch · (.leadOut c.here))
      { c.patch (.leadDone c.here) b.head with blocks := inner ++ outer },
      if b.isWhile then some b.head else none)

/-- What a line with this keyword does, after what it does to the open blocks and the lines before it. -/
def read (c : Compiler) : Keyword → Compiler × Op
  | .comment => (c, .comment)
  | .ifThen cond => (c.openBlock (.ofIf { latest := c.here }), .ifThen cond none)
  | .elseIf cond => (c.addClause, .elseIf cond none none)
  | .elseThen => (c.addClause, .elseThen none)
  | .endIf => (c.closeIf, .endIf)
  | .whileDo cond =>
    (c.openBlock (.ofLoop { head := c.here, isWhile := true }), .whileDo cond none)
  | .switchOn subject =>
    (c.openBlock (.ofLoop { head := c.here, isWhile := false }), .switchOn subject [] none)
  | .caseOf subject => (c.addArm, .caseOf subject)
  | .default => (c.addArm, .default)
  | .breakOut => (c.addBreak, .breakOut none)
  | .done => (c.closeLoop.1, .done c.closeLoop.2)
  | .command => (c, .command)

/-- Reads a line. -/
def line (c : Compiler) (text : String) : Compiler :=
  let (c, op) := c.read (.ofText text)
  { c with lines := c.lines.push ⟨text, op⟩ }

end Compiler

/-- The script with these lines. -/
def Script.ofLines (texts : List String) : Script :=
  ⟨(texts.foldl Compiler.line {}).lines.toList⟩

/-- The script that a text writes, a command to a line. -/
def Script.compile (body : String) : Script := Script.ofLines ((Text.lines body).map Text.trim)

end MudTrigger
