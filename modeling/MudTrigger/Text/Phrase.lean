import MudTrigger.Text.Letter

/-!
# Words and phrases that wake a trigger

A phrase occurs in a text where it stands between two boundaries: an end of the text, an ASCII
blank or an ASCII punctuation mark. A word list holds bare words and phrases in double quotes; one
that starts with `*` matches every text.
-/

set_option autoImplicit false

namespace MudTrigger

namespace Chars

def isPunctuation (c : Char) : Bool :=
  let n := c.toNat
  (33 ≤ n && n ≤ 47) || (58 ≤ n && n ≤ 64) || (91 ≤ n && n ≤ 96) || (123 ≤ n && n ≤ 126)

/-- Characters at which a phrase may begin or end. -/
def isBoundary (c : Char) : Bool := isAsciiBlank c || isPunctuation c

/-- No character, or one at which a phrase may begin or end. -/
def endsAt (cs : List Char) : Bool :=
  match cs with
  | [] => true
  | c :: _ => isBoundary c

/-- `phrase` occurs between boundaries; `bounded` tells whether one stands just before the text. -/
def occursFrom (phrase : List Char) (bounded : Bool) : List Char → Bool
  | [] => false
  | c :: cs =>
    (bounded && startsWith phrase (c :: cs) && endsAt ((c :: cs).drop phrase.length)) ||
      occursFrom phrase (isBoundary c) cs

/-- A phrase that is not empty occurs between boundaries. -/
def hasPhrase (phrase cs : List Char) : Bool := !phrase.isEmpty && occursFrom phrase true cs

/-- The phrases of a word list; each takes a character or more, so its length is enough `fuel`. -/
def phrasesWithin : Nat → List Char → List (List Char)
  | 0, _ => []
  | fuel + 1, cs =>
    match trimStart cs with
    | [] => []
    | '"' :: rest =>
      let phrase := rest.takeWhile (· != '"')
      let others := phrasesWithin fuel ((rest.dropWhile (· != '"')).drop 1)
      if phrase.isEmpty then others else phrase :: others
    | c :: rest => firstWord (c :: rest) :: phrasesWithin fuel (afterWord (c :: rest))

/-- The bare words and the quoted phrases of a word list, those of no character left out. -/
def phrases (list : List Char) : List (List Char) := phrasesWithin list.length list

end Chars

namespace Text

/-- `phrase` is not empty and occurs in `text` between boundaries. -/
def hasPhrase (phrase text : String) : Bool := Chars.hasPhrase phrase.toList text.toList

def isStar (s : String) : Bool := s.toList.head? == some '*'

/-- One of the phrases of `list` occurs in `text`, or `list` starts with a star. -/
def matchesList (text list : String) : Bool :=
  isStar list || (Chars.phrases list.toList).any (Chars.hasPhrase · text.toList)

/-- The typed command abbreviates `arg`, or `arg` starts with a star. -/
def matchesCommand (arg command : String) : Bool :=
  isStar arg || (trim command != "" && abbreviates (trim command) arg)

end Text

end MudTrigger
