import MudTrigger.Text.CaseTable

/-!
# Upper and lower case of whole texts

The full case mappings of Unicode, without tailoring to a language: one letter may become several
(`ß` in upper case is `SS`). A capital sigma becomes a final one at the end of a word: a cased
letter comes before it and none after it, where characters that are ignorable for case are skipped.
-/

set_option autoImplicit false

namespace MudTrigger

namespace CaseTable

/-- What the run makes of the code point `n`, if it covers it. -/
def Run.caseOf? (r : Run) (n : Nat) : Option Nat :=
  if r.first ≤ n ∧ n ≤ r.last ∧ (n - r.first) % r.stride = 0 then some (n + r.offset).toNat else none

def inRanges (ranges : List (Nat × Nat)) (n : Nat) : Bool :=
  ranges.any fun r => r.1 ≤ n && n ≤ r.2

end CaseTable

namespace Chars

open CaseTable

/-- The mapping of one character: the long forms first, then the runs, else itself. -/
def mapCase (long : List (Nat × List Nat)) (runs : List Run) (c : Char) : List Char :=
  match long.lookup c.toNat with
  | some ns => ns.map Char.ofNat
  | none => match runs.findSome? (·.caseOf? c.toNat) with
    | some n => [Char.ofNat n]
    | none => [c]

def upper (c : Char) : List Char :=
  if c.toNat < 0x80 then [c.toUpper] else mapCase upperLong upperRuns c

def lower (c : Char) : List Char :=
  if c.toNat < 0x80 then [c.toLower] else mapCase lowerLong lowerRuns c

/-- The first character that is not ignorable for case is cased. -/
def meetsCased (cs : List Char) : Bool :=
  match cs.dropWhile fun c => inRanges caseIgnorable c.toNat with
  | [] => false
  | c :: _ => inRanges cased c.toNat

/-- The lower case of what follows `before`, which is kept in reverse. -/
def lowerAfter (before : List Char) : List Char → List Char
  | [] => []
  | c :: cs =>
    let mapped :=
      if c = 'Σ' then (if meetsCased before && !meetsCased cs then ['ς'] else ['σ']) else lower c
    mapped ++ lowerAfter (c :: before) cs

end Chars

namespace Text

def toUpper (s : String) : String := String.ofList (s.toList.flatMap Chars.upper)

def toLower (s : String) : String := String.ofList (Chars.lowerAfter [] s.toList)

/-- The text with its first character in upper case. -/
def capitalize (s : String) : String :=
  match s.toList with
  | [] => ""
  | c :: cs => String.ofList (Chars.upper c ++ cs)

end Text

end MudTrigger
