import MudTrigger.Text.Blank

/-!
# Texts up to the case of their ASCII letters

Keywords, names and flags are compared after `Chars.fold`, which lowers A to Z and nothing else.
An abbreviation test cuts the longer text after as many bytes of UTF-8 as the shorter one has;
where that cut does not fall between two characters there is no match.
-/

set_option autoImplicit false

namespace MudTrigger

namespace Chars

/-- Lowers the letters A to Z. -/
def fold (cs : List Char) : List Char := cs.map Char.toLower

def sameLetters (a b : List Char) : Bool := fold a == fold b

/-- The length in bytes of UTF-8. -/
def byteSize (cs : List Char) : Nat := cs.foldr (fun c n => c.utf8Size + n) 0

/-- The first `n` bytes and the rest, if the cut falls between two characters. -/
def cut? : Nat → List Char → Option (List Char × List Char)
  | 0, cs => some ([], cs)
  | _ + 1, [] => none
  | n + 1, c :: cs =>
    if c.utf8Size ≤ n + 1 then
      (cut? (n + 1 - c.utf8Size) cs).map fun p => (c :: p.1, p.2)
    else none

/-- `word` is the beginning of `entry`. -/
def abbreviates (word entry : List Char) : Bool :=
  match cut? (byteSize word) entry with
  | some (front, _) => sameLetters front word
  | none => false

def startsWith (front cs : List Char) : Bool := (fold front).isPrefixOf (fold cs)

/-- Where `needle` first occurs, counted in bytes. -/
def indexOf? (needle : List Char) : List Char → Option Nat
  | [] => if needle = [] then some 0 else none
  | c :: cs =>
    if startsWith needle (c :: cs) then some 0
    else (indexOf? needle cs).map (· + c.utf8Size)

end Chars

namespace Text

/-- Lowers the letters A to Z. -/
def fold (s : String) : String := String.ofList (Chars.fold s.toList)

def sameLetters (a b : String) : Bool := Chars.sameLetters a.toList b.toList

/-- The order of the folded texts, character by character. -/
def compareLetters (a b : String) : Ordering :=
  if fold a < fold b then .lt else if fold a = fold b then .eq else .gt

/-- Where `needle` first occurs, counted in bytes. -/
def indexOf? (haystack needle : String) : Option Nat :=
  Chars.indexOf? needle.toList haystack.toList

/-- `word` is the beginning of `entry`. -/
def abbreviates (word entry : String) : Bool := Chars.abbreviates word.toList entry.toList

/-- `word` is not empty and abbreviates one of the words of `names`. -/
def isName (word names : String) : Bool :=
  word != "" && (words names).any (abbreviates word)

/-- The position of the first entry that `arg` names, whole or, unless `exact`, in part. -/
def position? (arg : String) (entries : List String) (exact : Bool) : Option Nat :=
  if arg = "" then none
  else entries.findIdx? fun entry => if exact then sameLetters entry arg else abbreviates arg entry

end Text

end MudTrigger
