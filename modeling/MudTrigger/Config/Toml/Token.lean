import MudTrigger.Text.Numeral

/-!
# The words of a TOML document

Blanks, comments, strings, keys, and the values that are written without brackets. A reader takes
the characters and gives what it read with the rest, or nothing if they break a rule. Of the values
only integers are kept; of the others it is enough that they are well formed.
-/

set_option autoImplicit false

namespace MudTrigger.Toml

def isSpace (c : Char) : Bool := c == ' ' || c == '\t'

def skipSpace (cs : List Char) : List Char := cs.dropWhile isSpace

/-- Characters that may not stand in comments and strings. -/
def isControl (c : Char) : Bool := (c.toNat < 0x20 && c != '\t') || c.toNat == 0x7F

/-- Drops a comment up to the end of its line. -/
def dropComment : List Char → Option (List Char)
  | [] => some []
  | '\n' :: cs => some ('\n' :: cs)
  | '\r' :: '\n' :: cs => some ('\n' :: cs)
  | c :: cs => if isControl c then none else dropComment cs

def skipComment (cs : List Char) : Option (List Char) :=
  match skipSpace cs with
  | '#' :: cs => dropComment cs
  | cs => some cs

/-- What follows the end of the current line, which holds nothing more but blanks or a comment. -/
def endLine (cs : List Char) : Option (List Char) :=
  (skipComment cs).bind fun cs =>
    match cs with
    | [] => some []
    | '\n' :: cs => some cs
    | '\r' :: '\n' :: cs => some cs
    | _ => none

/-- Drops blanks, comments and line ends; `fuel` bounds the number of lines. -/
def skipLines : Nat → List Char → Option (List Char)
  | 0, cs => some cs
  | fuel + 1, cs => (skipComment cs).bind fun cs =>
    match cs with
    | '\n' :: cs => skipLines fuel cs
    | '\r' :: '\n' :: cs => skipLines fuel cs
    | cs => some cs

def hexDigit? (c : Char) : Option Nat :=
  if c.isDigit then some (c.toNat - '0'.toNat)
  else if 'a' ≤ c ∧ c ≤ 'f' then some (c.toNat - 'a'.toNat + 10)
  else if 'A' ≤ c ∧ c ≤ 'F' then some (c.toNat - 'A'.toNat + 10)
  else none

/-- The character whose number the digits write. -/
def numberedChar? (ds : List Char) : Option Char :=
  (ds.mapM hexDigit?).bind fun ns =>
    let n := ns.foldl (fun a d => 16 * a + d) 0
    if n.isValidChar then some (Char.ofNat n) else none

/-- The character that a letter after a backslash stands for. -/
def escape? : Char → Option Char
  | 'b' => some '\x08'
  | 't' => some '\t'
  | 'n' => some '\n'
  | 'f' => some '\x0c'
  | 'r' => some '\r'
  | '"' => some '"'
  | '\\' => some '\\'
  | _ => none

/-- A text read and what follows it. -/
abbrev Read := Option (List Char × List Char)

def Read.push (c : Option Char) (r : Read) : Read :=
  match c, r with
  | some c, some (text, rest) => some (c :: text, rest)
  | _, _ => none

/-- A string in double quotes, after the first of them. -/
def basicString : List Char → Read
  | [] => none
  | '"' :: cs => some ([], cs)
  | '\\' :: 'u' :: a :: b :: c :: d :: cs => (basicString cs).push (numberedChar? [a, b, c, d])
  | '\\' :: 'U' :: a :: b :: c :: d :: e :: f :: g :: h :: cs =>
    (basicString cs).push (numberedChar? [a, b, c, d, e, f, g, h])
  | '\\' :: c :: cs => (basicString cs).push (escape? c)
  | c :: cs => if isControl c then none else (basicString cs).push (some c)

/-- A string in single quotes, after the first of them. -/
def literalString : List Char → Read
  | [] => none
  | '\'' :: cs => some ([], cs)
  | c :: cs => if isControl c then none else (literalString cs).push (some c)

/-- The line ends after some blanks. -/
def endsAfterBlanks (cs : List Char) : Bool :=
  match skipSpace cs with
  | '\n' :: _ => true
  | '\r' :: '\n' :: _ => true
  | _ => false

/-- What follows a string in three double quotes, after the first of them. -/
def afterBasicLines : List Char → Option (List Char)
  | [] => none
  | '"' :: '"' :: '"' :: '"' :: '"' :: cs => some cs
  | '"' :: '"' :: '"' :: '"' :: cs => some cs
  | '"' :: '"' :: '"' :: cs => some cs
  | '\\' :: 'u' :: a :: b :: c :: d :: cs =>
    if (numberedChar? [a, b, c, d]).isSome then afterBasicLines cs else none
  | '\\' :: 'U' :: a :: b :: c :: d :: e :: f :: g :: h :: cs =>
    if (numberedChar? [a, b, c, d, e, f, g, h]).isSome then afterBasicLines cs else none
  | '\\' :: c :: cs =>
    if (escape? c).isSome || endsAfterBlanks (c :: cs) then afterBasicLines cs else none
  | '\r' :: '\n' :: cs => afterBasicLines cs
  | c :: cs => if isControl c && c != '\n' then none else afterBasicLines cs

/-- What follows a string in three single quotes, after the first of them. -/
def afterLiteralLines : List Char → Option (List Char)
  | [] => none
  | '\'' :: '\'' :: '\'' :: '\'' :: '\'' :: cs => some cs
  | '\'' :: '\'' :: '\'' :: '\'' :: cs => some cs
  | '\'' :: '\'' :: '\'' :: cs => some cs
  | '\r' :: '\n' :: cs => afterLiteralLines cs
  | c :: cs => if isControl c && c != '\n' then none else afterLiteralLines cs

/-- What follows a string of either kind of quotes, on one line or on several. -/
def afterString? : List Char → Option (List Char)
  | '"' :: '"' :: '"' :: cs => afterBasicLines cs
  | '\'' :: '\'' :: '\'' :: cs => afterLiteralLines cs
  | '"' :: cs => (basicString cs).map (·.2)
  | '\'' :: cs => (literalString cs).map (·.2)
  | _ => none

/-! ## Keys -/

def isBareKey (c : Char) : Bool := c.isAlphanum || c == '_' || c == '-'

def keyPart (cs : List Char) : Read :=
  match cs with
  | '"' :: cs => basicString cs
  | '\'' :: cs => literalString cs
  | cs =>
    if (cs.takeWhile isBareKey).isEmpty then none
    else some (cs.takeWhile isBareKey, cs.dropWhile isBareKey)

/-- The parts of a key, which dots separate; `fuel` bounds their number. -/
def keyParts : Nat → List Char → Option (List String × List Char)
  | 0, _ => none
  | fuel + 1, cs =>
    (keyPart (skipSpace cs)).bind fun (part, rest) =>
      match skipSpace rest with
      | '.' :: rest => (keyParts fuel rest).map fun (parts, rest) => (String.ofList part :: parts, rest)
      | rest => some ([String.ofList part], rest)

/-- The number of parts of a key, and of brackets around a value, stays below this. -/
def depthLimit : Nat := 80

/-- A key, without the blanks around it. -/
def key (cs : List Char) : Option (List String × List Char) := keyParts (depthLimit - 1) cs

/-! ## Numbers and dates -/

/-- Digits, single underscores between them. -/
def groupedDigits (isDigit : Char → Bool) : List Char → Option (List Char)
  | [] => none
  | [c] => if isDigit c then some [c] else none
  | c :: '_' :: cs => if isDigit c then (groupedDigits isDigit cs).map (c :: ·) else none
  | c :: cs => if isDigit c then (groupedDigits isDigit cs).map (c :: ·) else none

/-- Decimal digits without a leading zero. -/
def plainDigits (cs : List Char) : Option (List Char) :=
  match cs with
  | ['0'] => some ['0']
  | '0' :: _ => none
  | cs => groupedDigits Char.isDigit cs

def fit64? (i : Int) : Option Int :=
  if -0x8000_0000_0000_0000 ≤ i ∧ i < 0x8000_0000_0000_0000 then some i else none

def ofBase (base : Nat) (isDigit : Char → Bool) (cs : List Char) : Option Int :=
  (groupedDigits isDigit cs).bind fun ds =>
    (ds.mapM hexDigit?).bind fun ns => fit64? (ns.foldl (fun a d => base * a + d) 0 : Nat)

/-- An integer of 64 bits: decimal with an optional sign, or with the mark of another base. -/
def integer? (cs : List Char) : Option Int :=
  match cs with
  | '0' :: 'x' :: cs => ofBase 16 (fun c => (hexDigit? c).isSome) cs
  | '0' :: 'o' :: cs => ofBase 8 (fun c => '0' ≤ c && c ≤ '7') cs
  | '0' :: 'b' :: cs => ofBase 2 (fun c => c == '0' || c == '1') cs
  | cs =>
    let (negative, rest) := Chars.splitSign cs
    (plainDigits rest).bind fun ds =>
      fit64? (if negative then -(Chars.value ds : Int) else (Chars.value ds : Int))

/-- The digits stand for a number below the first one that a double rounds to infinity. -/
def isFiniteDouble (digits : List Char) (exponent : Int) : Bool :=
  let n := Chars.value digits
  let top := exponent + digits.length
  n == 0 || top < 300 ||
    (top < 700 &&
      n * Nat.pow 10 (exponent + 400).toNat < (1 <<< 1024 - 1 <<< 970) * Nat.pow 10 400)

/-- The exponent of a float after its `e`. -/
def exponent? (cs : List Char) : Option Int :=
  let (negative, rest) := Chars.splitSign cs
  (groupedDigits Char.isDigit rest).map fun ds =>
    if negative then -(Chars.value ds : Int) else (Chars.value ds : Int)

def isExponentMark (c : Char) : Bool := c == 'e' || c == 'E'

/-- A float is well formed; one that is too great for a double is not. -/
def isFloat (cs : List Char) : Bool :=
  let (negative, rest) := Chars.splitSign cs
  if rest = ['i', 'n', 'f'] ∨ rest = ['n', 'a', 'n'] then true
  else
    let mantissa := rest.takeWhile (!isExponentMark ·)
    let power := (rest.dropWhile (!isExponentMark ·)).drop 1
    let hasPower := rest.any isExponentMark
    let whole := mantissa.takeWhile (· != '.')
    let fraction := (mantissa.dropWhile (· != '.')).drop 1
    let hasFraction := mantissa.any (· == '.')
    if !hasPower && !hasFraction then false
    else
      match plainDigits whole,
        (if hasFraction then groupedDigits Char.isDigit fraction else some []),
        (if hasPower then exponent? power else some 0) with
      | some ws, some fs, some e => negative || isFiniteDouble (ws ++ fs) (e - fs.length)
      | _, _, _ => false

/-- Two digits whose value is at most `most`. -/
def twoDigits? (most : Nat) (a b : Char) : Option Nat :=
  if a.isDigit && b.isDigit && Chars.value [a, b] ≤ most then some (Chars.value [a, b]) else none

def isLeapYear (y : Nat) : Bool := (y % 4 == 0 && y % 100 != 0) || y % 400 == 0

def daysIn (year month : Nat) : Nat :=
  if month = 2 then (if isLeapYear year then 29 else 28)
  else if month = 4 ∨ month = 6 ∨ month = 9 ∨ month = 11 then 30
  else 31

/-- `YYYY-MM-DD`, and what follows it. -/
def date? : List Char → Option (List Char)
  | y1 :: y2 :: y3 :: y4 :: '-' :: m1 :: m2 :: '-' :: d1 :: d2 :: cs =>
    if !Chars.allDigits [y1, y2, y3, y4] then none
    else match twoDigits? 12 m1 m2, twoDigits? 31 d1 d2 with
      | some m, some d =>
        if 1 ≤ m ∧ 1 ≤ d ∧ d ≤ daysIn (Chars.value [y1, y2, y3, y4]) m then some cs else none
      | _, _ => none
  | _ => none

/-- `HH:MM:SS` with an optional fraction, and what follows it. -/
def time? : List Char → Option (List Char)
  | h1 :: h2 :: ':' :: m1 :: m2 :: ':' :: s1 :: s2 :: cs =>
    if (twoDigits? 23 h1 h2).isNone || (twoDigits? 59 m1 m2).isNone || (twoDigits? 60 s1 s2).isNone
    then none
    else match cs with
      | '.' :: cs => if (Chars.digits cs).isEmpty then none else some (cs.dropWhile Char.isDigit)
      | cs => some cs
  | _ => none

/-- `Z`, or a sign and `HH:MM`, or nothing. -/
def isOffset : List Char → Bool
  | [] => true
  | [c] => c == 'Z' || c == 'z'
  | [sign, h1, h2, ':', m1, m2] =>
    (sign == '+' || sign == '-') && (twoDigits? 23 h1 h2).isSome && (twoDigits? 59 m1 m2).isSome
  | _ => false

/-- A date, a time, or both with an optional offset. -/
def isMoment (cs : List Char) : Bool :=
  match date? cs with
  | some [] => true
  | some (c :: cs) =>
    (c == 'T' || c == 't' || c == ' ') && (match time? cs with
      | some rest => isOffset rest
      | none => false)
  | none => time? cs == some []

def isWordChar (c : Char) : Bool :=
  c.isAlphanum || c == '+' || c == '-' || c == '.' || c == ':' || c == '_'

/-- The run of a bare value; a time may follow a date after one blank. -/
def bareRun (cs : List Char) : List Char × List Char :=
  let run := cs.takeWhile isWordChar
  let rest := cs.dropWhile isWordChar
  match date? run, rest with
  | some [], ' ' :: c :: more =>
    if c.isDigit then
      (run ++ ' ' :: (c :: more).takeWhile isWordChar, (c :: more).dropWhile isWordChar)
    else (run, rest)
  | _, _ => (run, rest)

/-- A value without brackets and quotes: an integer is kept, anything else is `none`. -/
def bareValue? (run : List Char) : Option (Option Int) :=
  match integer? run with
  | some i => some (some i)
  | none =>
    if run = ['t', 'r', 'u', 'e'] ∨ run = ['f', 'a', 'l', 's', 'e'] then some none
    else if isFloat run || isMoment run then some none
    else none

end MudTrigger.Toml
