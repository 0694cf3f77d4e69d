import MudTrigger.Text.Blank

/-!
# Numbers and truth in texts

Script values are texts. `Text.leadingInt` reads the integer at the start of a text into the
symmetric 64-bit range, `Text.isNumeral` tells the texts that are one numeral and nothing else,
and `Text.isTruthy` reads a text as a condition. The bounded readers refuse what does not fit.
-/

set_option autoImplicit false

namespace MudTrigger

namespace Chars

/-- The number that a run of decimal digits writes. -/
def value (digits : List Char) : Nat :=
  digits.foldl (fun n c => 10 * n + (c.toNat - '0'.toNat)) 0

def digits (cs : List Char) : List Char := cs.takeWhile Char.isDigit

def allDigits (cs : List Char) : Bool := !cs.isEmpty && cs.all Char.isDigit

/-- The sign and what follows it; no sign counts as plus. -/
def splitSign : List Char → Bool × List Char
  | '-' :: cs => (true, cs)
  | '+' :: cs => (false, cs)
  | cs => (false, cs)

/-- Blanks, a sign, digits; the value is held to 2^63 - 1 on both sides. -/
def leadingInt (cs : List Char) : Int :=
  let (negative, rest) := splitSign (trimStart cs)
  let n := min (value (digits rest)) 0x7FFF_FFFF_FFFF_FFFF
  if negative then -(n : Int) else n

/-- One optional sign and at least one digit. -/
def isNumeral (cs : List Char) : Bool := allDigits (splitSign cs).2

/-- Neither empty nor starting with a zero, leading blanks apart. -/
def isTruthy (cs : List Char) : Bool :=
  match trimStart cs with
  | [] => false
  | c :: _ => c != '0'

/-- A run of digits whose value is below `bound`. -/
def natBelow? (bound : Nat) (cs : List Char) : Option Nat :=
  if allDigits cs && value cs < bound then some (value cs) else none

/-- A numeral whose value is at least `-bound` and below `bound`. -/
def intWithin? (bound : Nat) (cs : List Char) : Option Int :=
  let (negative, rest) := splitSign cs
  if !allDigits rest then none
  else if negative then (if value rest ≤ bound then some (-(value rest : Int)) else none)
  else if value rest < bound then some (value rest) else none

end Chars

namespace Text

/-- Blanks, a sign, digits; the value is held to 2^63 - 1 on both sides. -/
def leadingInt (s : String) : Int := Chars.leadingInt s.toList

/-- One optional sign and at least one digit. -/
def isNumeral (s : String) : Bool := Chars.isNumeral s.toList

/-- Neither empty nor starting with a zero, leading blanks apart. -/
def isTruthy (s : String) : Bool := Chars.isTruthy s.toList

/-- A numeral that fits 32 bits with sign. -/
def int32? (s : String) : Option Int := Chars.intWithin? 0x8000_0000 s.toList

end Text

end MudTrigger
