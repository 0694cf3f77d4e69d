import MudTrigger.Text.Numeral
import MudTrigger.Text.Letter

/-!
# Bit sets

Flags are sets of bit numbers kept as one number below 2^64. A table of names gives each bit its
name. In a definition file a set is written with a letter for each bit, `a` to `z` and then `A` to
`Z`, or as the number itself.
-/

set_option autoImplicit false

namespace MudTrigger

/-- A set of bit numbers. -/
abbrev Bits := Nat

namespace Bits

/-- The set of one bit. -/
def bit (n : Nat) : Bits := 1 <<< n

def union (a b : Bits) : Bits := a ||| b

/-- The sets have a bit in common. -/
def meets (a b : Bits) : Bool := a &&& b != 0

/-- Every bit of `b` is in `a`. -/
def contains (a b : Bits) : Bool := a &&& b == b

/-- The name of a bit; the table may be too short to have one. -/
def name (names : List String) (n : Nat) : String := names.getD n "UNDEFINED"

/-- The names of the bits in the set, in order. -/
def describe (b : Bits) (names : List String) : String :=
  if b = 0 then "NOBITS"
  else Text.join " " (((List.range 64).filter b.testBit).map (name names))

/-- The bit that a letter stands for. -/
def letterBit? (c : Char) : Option Nat :=
  if 'a' ≤ c ∧ c ≤ 'z' then some (c.toNat - 'a'.toNat)
  else if 'A' ≤ c ∧ c ≤ 'Z' then some (26 + (c.toNat - 'A'.toNat))
  else none

/-- The set of the bits whose letters occur. -/
def ofLetters (cs : List Char) : Bits :=
  cs.foldl (fun b c => match letterBit? c with | some n => union b (bit n) | none => b) 0

/-- A field of digits is the number itself, or 0 if it takes more than 64 bits. -/
def ofField (field : String) : Bits :=
  if Chars.allDigits field.toList then (Chars.natBelow? 0x1_0000_0000_0000_0000 field.toList).getD 0
  else ofLetters field.toList

end Bits

end MudTrigger
