/-!
# Blanks, words and lines

`Chars.isBlank` is the `White_Space` property of Unicode. Trimming and cutting into words go by
it; lines end at a line feed, with or without a carriage return before it. The operations are
defined on lists of characters (`Chars`) and offered on strings (`Text`).
-/

set_option autoImplicit false

namespace MudTrigger

namespace Chars

/-- White space: the twenty-five characters of the `White_Space` property. -/
def isBlank (c : Char) : Bool :=
  let n := c.toNat
  (9 ≤ n && n ≤ 13) || n == 0x20 || n == 0x85 || n == 0xA0 || n == 0x1680 ||
    (0x2000 ≤ n && n ≤ 0x200A) || n == 0x2028 || n == 0x2029 || n == 0x202F || n == 0x205F ||
    n == 0x3000

/-- The blanks among the ASCII characters that separate words in every notation here. -/
def isAsciiBlank (c : Char) : Bool :=
  c == ' ' || c == '\t' || c == '\n' || c == '\x0c' || c == '\r'

def trimStart (cs : List Char) : List Char := cs.dropWhile isBlank

def trimEnd (cs : List Char) : List Char := (cs.reverse.dropWhile isBlank).reverse

def trim (cs : List Char) : List Char := trimEnd (trimStart cs)

/-- The leading run of characters that are no blanks. -/
def firstWord (cs : List Char) : List Char := cs.takeWhile (!isBlank ·)

/-- What follows the leading run of characters that are no blanks. -/
def afterWord (cs : List Char) : List Char := cs.dropWhile (!isBlank ·)

/-- The first word, and what follows it without its leading blanks. -/
def splitWord (cs : List Char) : List Char × List Char :=
  (firstWord (trimStart cs), trimStart (afterWord (trimStart cs)))

/-- The maximal runs of characters that are no blanks. -/
def words : List Char → List (List Char)
  | [] => []
  | c :: cs =>
    if isBlank c then words cs
    else if firstWord cs = [] then [c] :: words cs
    else match words cs with
      | [] => [[c]]
      | w :: ws => (c :: w) :: ws

/-- The lines, each without its end; the last one may lack an end. -/
def lines : List Char → List (List Char)
  | [] => []
  | '\r' :: '\n' :: cs => [] :: lines cs
  | c :: cs =>
    if c = '\n' then [] :: lines cs
    else match lines cs with
      | [] => [[c]]
      | l :: ls => (c :: l) :: ls

end Chars

namespace Text

def trimStart (s : String) : String := String.ofList (Chars.trimStart s.toList)

def trimEnd (s : String) : String := String.ofList (Chars.trimEnd s.toList)

def trim (s : String) : String := String.ofList (Chars.trim s.toList)

/-- True of a text that is empty or holds blanks only. -/
def isBlank (s : String) : Bool := s.toList.all Chars.isBlank

/-- The first word, and what follows it without its leading blanks. -/
def splitWord (s : String) : String × String :=
  (String.ofList (Chars.splitWord s.toList).1, String.ofList (Chars.splitWord s.toList).2)

/-- The maximal runs of characters that are no blanks. -/
def words (s : String) : List String := (Chars.words s.toList).map String.ofList

/-- The lines, each without its end; the last one may lack an end. -/
def lines (s : String) : List String := (Chars.lines s.toList).map String.ofList

/-- The texts one after another, with `separator` between neighbours. -/
def join (separator : String) (texts : List String) : String := separator.intercalate texts

end Text

end MudTrigger
