import MudTrigger.Text.Letter
import MudTrigger.Text.Numeral
import MudTrigger.Data.Width

/-!
# Operators

Operands and results are texts. A comparison is between integers if both sides are numerals, and
between texts otherwise; arithmetic takes the integers at the start of both sides and wraps around
at 64 bits.
-/

set_option autoImplicit false

namespace MudTrigger

inductive Operator where
  | or
  | and
  | eq
  | ne
  | le
  | ge
  | lt
  | gt
  | contains
  | sub
  | add
  | div
  | mul
  | not
  deriving DecidableEq, Inhabited

/-- The text of a truth value. -/
def truthText (b : Bool) : String := if b then "1" else "0"

namespace Operator

/-- The operators, the one that binds least first. -/
def all : List Operator := [or, and, eq, ne, le, ge, lt, gt, contains, sub, add, div, mul, not]

def symbol : Operator → String
  | or => "||"
  | and => "&&"
  | eq => "=="
  | ne => "!="
  | le => "<="
  | ge => ">="
  | lt => "<"
  | gt => ">"
  | contains => "/="
  | sub => "-"
  | add => "+"
  | div => "/"
  | mul => "*"
  | not => "!"

def ofSymbol? (s : String) : Option Operator := all.find? (·.symbol = s)

/-- The relation between two integers that an operator tests. -/
def onInts (l r : Int) : Operator → Bool
  | eq => l == r
  | ne => l != r
  | le => l ≤ r
  | ge => r ≤ l
  | lt => l < r
  | gt => r < l
  | _ => false

/-- The relation between two texts that an operator tests. -/
def onTexts (l r : String) : Operator → Bool
  | eq => l == r
  | ne => l != r
  | le => !(r < l)
  | ge => !(l < r)
  | lt => l < r
  | gt => r < l
  | _ => false

/-- Compares as integers if both texts are numerals. -/
def compare (op : Operator) (l r : String) : Bool :=
  if Text.isNumeral l && Text.isNumeral r then op.onInts (Text.leadingInt l) (Text.leadingInt r)
  else op.onTexts l r

/-- The 64-bit result of an arithmetic operator; a division by zero gives zero. -/
def arithmetic (l r : Int) : Operator → Int
  | sub => Width.wrap64 (l - r)
  | add => Width.wrap64 (l + r)
  | div => Width.wrap64 (Int.tdiv l r)
  | mul => Width.wrap64 (l * r)
  | _ => 0

/-- The value of a text under `!`: a number counts by its value, other text by being empty. -/
def negate (r : String) : Bool :=
  if Text.isNumeral r then Text.leadingInt r == 0 else r == ""

/-- The result for operands without blanks around them. -/
def applyTrimmed (op : Operator) (l r : String) : String :=
  match op with
  | or => truthText (Text.isTruthy l || Text.isTruthy r)
  | and => truthText (Text.isTruthy l && Text.isTruthy r)
  | contains => truthText (Text.indexOf? l r).isSome
  | not => truthText (negate r)
  | sub | add | div | mul => toString (op.arithmetic (Text.leadingInt l) (Text.leadingInt r))
  | eq | ne | le | ge | lt | gt => truthText (op.compare l r)

/-- The result of an operator; blanks around the operands do not count. -/
def apply (op : Operator) (l r : String) : String := op.applyTrimmed (Text.trim l) (Text.trim r)

/-- The result of the operator with this symbol; any other symbol gives the left operand. -/
def applySymbol (symbol l r : String) : String :=
  match ofSymbol? symbol with
  | some op => op.apply l r
  | none => Text.trim l

end Operator

end MudTrigger
