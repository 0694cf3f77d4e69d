import MudTrigger.Script.Operator

/-!
# Expressions

An expression is split at the first token that starts with the operator that binds least among those
present; what holds no operator is an operand. A token is a span in parentheses, a span in double
quotes, a run of letters, digits and blanks, or a single character, so an operator inside
parentheses or quotes is never a place to split.

`Expression.parse` gives the tree and `Expression.eval` its value, operands first, from left to
right.
-/

set_option autoImplicit false

namespace MudTrigger

namespace Chars

/-- The rest of a span in double quotes, its closing quote included, and what follows it. -/
def throughQuote? : List Char → Option (List Char × List Char)
  | [] => none
  | '"' :: cs => some (['"'], cs)
  | '\\' :: c :: cs => (throughQuote? cs).map fun p => ('\\' :: c :: p.1, p.2)
  | '\\' :: [] => none
  | c :: cs => (throughQuote? cs).map fun p => (c :: p.1, p.2)

/-- The rest of a span in parentheses, `depth` more of which are open inside, its closing
parenthesis included, and what follows it; `quoted` inside double quotes. -/
def throughParen? : Nat → Bool → List Char → Option (List Char × List Char)
  | _, _, [] => none
  | depth, true, '\\' :: c :: cs =>
    (throughParen? depth true cs).map fun p => ('\\' :: c :: p.1, p.2)
  | depth, quoted, c :: cs =>
    if quoted then (throughParen? depth (c != '"') cs).map fun p => (c :: p.1, p.2)
    else if c = ')' ∧ depth = 0 then some ([')'], cs)
    else
      let inner := if c = '(' then depth + 1 else if c = ')' then depth - 1 else depth
      (throughParen? inner (c == '"') cs).map fun p => (c :: p.1, p.2)

def isRunChar (c : Char) : Bool := c.isAlphanum || isAsciiBlank c

/-- The token that starts with `c` before `cs`, and what follows it. -/
def firstToken (c : Char) (cs : List Char) : List Char × List Char :=
  if c = '(' then match throughParen? 0 false cs with
    | some (span, rest) => (c :: span, rest)
    | none => (c :: cs, [])
  else if c = '"' then match throughQuote? cs with
    | some (span, rest) => (c :: span, rest)
    | none => (c :: cs, [])
  else if c.isAlphanum then (c :: cs.takeWhile isRunChar, cs.dropWhile isRunChar)
  else ([c], cs)

/-- The tokens of a text; each has a character or more, so its length is enough `fuel`. -/
def tokensWithin : Nat → List Char → List (List Char)
  | 0, _ => []
  | _, [] => []
  | fuel + 1, c :: cs => (firstToken c cs).1 :: tokensWithin fuel (firstToken c cs).2

def tokens (cs : List Char) : List (List Char) := tokensWithin cs.length cs

/-- The two halves of a text around the first token that starts with `symbol`. -/
def splitAt? (symbol : List Char) : List (List Char) → Option (List Char × List Char)
  | [] => none
  | t :: ts =>
    if symbol.isPrefixOf (t ++ ts.flatten) then some ([], (t ++ ts.flatten).drop symbol.length)
    else (splitAt? symbol ts).map fun p => (t ++ p.1, p.2)

end Chars

/-- An operand as it is written, or an operator between two expressions. -/
inductive Expression where
  | operand (text : String)
  | apply (op : Operator) (left right : Expression)
  deriving DecidableEq, Inhabited

namespace Expression

/-- Where a text is split: at the operator that binds least, where that first starts a token. -/
def split? (cs : List Char) : Option (Operator × List Char × List Char) :=
  Operator.all.findSome? fun op =>
    (Chars.splitAt? op.symbol.toList (Chars.tokens cs)).map fun p => (op, p.1, p.2)

/-- The inside of the parentheses that a text starts with. -/
def inParens? : List Char → Option (List Char)
  | '(' :: cs => (Chars.throughParen? 0 false cs).map (·.1.dropLast)
  | _ => none

/-- The tree of a text; every step takes a character or more, so its length is enough `fuel`. -/
def parseWithin : Nat → List Char → Expression
  | 0, cs => .operand (String.ofList (Chars.trimStart cs))
  | fuel + 1, cs =>
    match split? (Chars.trimStart cs) with
    | some (op, l, r) => .apply op (parseWithin fuel l) (parseWithin fuel r)
    | none => match inParens? (Chars.trimStart cs) with
      | some inside => parseWithin fuel inside
      | none => .operand (String.ofList (Chars.trimStart cs))

/-- The tree of an expression. -/
def parse (text : String) : Expression := parseWithin text.toList.length text.toList

/-- The value of a tree whose operands `value` expands, from left to right. -/
def eval {m : Type → Type} [Monad m] (value : String → m String) : Expression → m String
  | .operand text => value text
  | .apply op left right => do
    let l ← left.eval value
    let r ← right.eval value
    return op.apply l r

end Expression

end MudTrigger
