import MudTrigger.Text.Letter

/-!
# Scripts

A script is a list of lines. Each line has its text and what it does: the lines of a block name the
lines they may lead to, by index, so that a run never has to search the text for them. A target is
missing where the block was never closed or the keyword stands outside any block.
-/

set_option autoImplicit false

namespace MudTrigger

/-- What a line of a script does. -/
inductive Op where
  /-- A blank line or a comment. -/
  | comment
  /-- `if`; `next` is the next `elseif`, `else` or `end` of its block. -/
  | ifThen (condition : String) (next : Option Nat)
  /-- `elseif`; `close` is the `end` of its block. -/
  | elseIf (condition : String) (next close : Option Nat)
  | elseThen (close : Option Nat)
  | endIf
  /-- `while`; `done` is its `done`. -/
  | whileDo (condition : String) (done : Option Nat)
  /-- `switch`; `arms` are its `case` and `default` lines in order. -/
  | switchOn (subject : String) (arms : List Nat) (done : Option Nat)
  | caseOf (subject : String)
  | default
  | breakOut (done : Option Nat)
  /-- `done`; `head` is the `while` it closes, and is missing where it closes a `switch`. -/
  | done (head : Option Nat)
  /-- A line that is expanded and then run as a command. -/
  | command
  deriving DecidableEq, Inhabited

/-- A line without its indentation, and what it does. -/
structure Line where
  text : String
  op : Op
  deriving DecidableEq, Inhabited

structure Script where
  lines : List Line := []
  deriving DecidableEq, Inhabited

namespace Script

def length (s : Script) : Nat := s.lines.length

def isEmpty (s : Script) : Bool := s.lines.isEmpty

def line? (s : Script) (i : Nat) : Option Line := s.lines[i]?

def op? (s : Script) (i : Nat) : Option Op := (s.line? i).map (·.op)

/-- The texts of the lines, one under the other. -/
def source (s : Script) : String := Text.join "\n" (s.lines.map (·.text))

end Script

end MudTrigger
