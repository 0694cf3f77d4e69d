/-!
# Templates

A line of a script is literal text with tokens in it: `%name%`, `%name.field%` and
`%name.field[value]%`, where the value is a template again, and `%%` for a percent sign. A token
need not be closed at the end of the line.
-/

set_option autoImplicit false

namespace MudTrigger

/-- A part of a template. -/
inductive Segment where
  | literal (text : String)
  | percent
  /-- A name, a field that may be empty, and the template between the brackets. -/
  | token (name field : String) (value : List Segment)

abbrev Template := List Segment

namespace Template

/-- The field and the value after a dot, and what follows them. -/
def splitField (cs : List Char) : List Char × List Char × List Char :=
  let field := cs.takeWhile fun c => c != '%' && c != '['
  match cs.dropWhile fun c => c != '%' && c != '[' with
  | '[' :: rest => (field, rest.takeWhile (· != ']'), (rest.dropWhile (· != ']')).drop 1)
  | rest => (field, [], rest)

/-- The name, the field and the value after a percent sign, and what follows the token. -/
def splitToken (cs : List Char) : List Char × List Char × List Char × List Char :=
  let name := cs.takeWhile fun c => c != '%' && c != '.'
  match cs.dropWhile fun c => c != '%' && c != '.' with
  | '.' :: rest =>
    let (field, value, rest) := splitField rest
    match rest with
    | '%' :: rest => (name, field, value, rest)
    | rest => (name, field, value, rest)
  | '%' :: rest => (name, [], [], rest)
  | rest => (name, [], [], rest)

/-- The literal text before the first percent sign. -/
def literalPart (cs : List Char) : Template :=
  let text := cs.takeWhile (· != '%')
  if text.isEmpty then [] else [.literal (String.ofList text)]

/-- The parts of a text; every token takes a character or more, so its length is enough `fuel`. -/
def parseWithin : Nat → List Char → Template
  | 0, cs => literalPart cs
  | fuel + 1, cs =>
    literalPart cs ++
      match cs.dropWhile (· != '%') with
      | '%' :: '%' :: rest => .percent :: parseWithin fuel rest
      | '%' :: rest =>
        let (name, field, value, rest) := splitToken rest
        .token (String.ofList name) (String.ofList field) (parseWithin fuel value) ::
          parseWithin fuel rest
      | _ => []

/-- The parts of a line. -/
def parse (line : String) : Template := parseWithin line.toList.length line.toList

end Template

end MudTrigger
