import MudTrigger.Text.HiddenTable

/-!
# Quoted texts in messages

A message that cites a text puts it between double quotes. Inside, the quote and the backslash have
a backslash before them, tab, line feed, carriage return and NUL have their letters, and a character
without a form of its own is shown by its number.
-/

set_option autoImplicit false

namespace MudTrigger

namespace Chars

/-- The digits of `n` to base sixteen, in lower case. -/
def hexDigits (n : Nat) : List Char := Nat.toDigits 16 n

def isHidden (c : Char) : Bool := HiddenTable.ranges.any fun r => r.1 ≤ c.toNat && c.toNat ≤ r.2

/-- One character as it stands between quotes. -/
def quotedChar (c : Char) : List Char :=
  if c = '"' ∨ c = '\\' then ['\\', c]
  else if c = '\t' then ['\\', 't']
  else if c = '\n' then ['\\', 'n']
  else if c = '\r' then ['\\', 'r']
  else if c = '\x00' then ['\\', '0']
  else if isHidden c then ['\\', 'u', '\x7b'] ++ hexDigits c.toNat ++ ['\x7d']
  else [c]

end Chars

namespace Text

/-- The text between double quotes. -/
def quoted (s : String) : String :=
  String.ofList (['"'] ++ s.toList.flatMap Chars.quotedChar ++ ['"'])

end Text

end MudTrigger
