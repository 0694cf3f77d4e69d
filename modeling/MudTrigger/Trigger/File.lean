import MudTrigger.Trigger.Prototype
import MudTrigger.Text.Quoted
import MudTrigger.Data.Width

/-!
# Trigger files

A trigger file is a list of records and ends with a line that holds `$`. A record is a line `#` with
the vnum, the name, a line with the kind, the event flags and the numeric argument, the text argument,
and the script. The name, the text argument and the script run over as many lines as they need and
end at a line whose last character is `~`.
-/

set_option autoImplicit false

namespace MudTrigger

/-- Why a trigger file was not loaded. -/
inductive LoadError where
  | unreadable (path reason : String)
  | expectedVnum (line : Nat) (found : String)
  | unterminatedString (vnum : Vnum)
  | badHeader (vnum : Vnum) (header : String)
  | duplicate (vnum : Vnum)
  | unexpectedEnd
  deriving DecidableEq

def LoadError.message : LoadError → String
  | unreadable path reason => s!"failed to read {path}: {reason}"
  | expectedVnum line found =>
    s!"line {line}: expected '#<vnum>' or '$', found " ++ Text.quoted found
  | unterminatedString vnum => s!"trigger {vnum}: string not terminated by '~'"
  | badHeader vnum header => s!"trigger {vnum}: bad header " ++ Text.quoted header
  | duplicate vnum => s!"duplicate trigger vnum {vnum}"
  | unexpectedEnd => "unexpected end of file before '$'"

namespace TriggerFile

/-- The text before a last character `~`. -/
def beforeTilde? (line : String) : Option String :=
  match line.toList.reverse with
  | '~' :: cs => some (String.ofList cs.reverse)
  | _ => none

/-- The text up to the next line that ends with `~`, and the lines after it. -/
def tildeText? : List String → Option (String × List String)
  | [] => none
  | l :: ls =>
    match beforeTilde? (Text.trimEnd l) with
    | some last => some (last, ls)
    | none => (tildeText? ls).map fun p => (Text.trimEnd l ++ "\n" ++ p.1, p.2)

/-- The kind, the flags and the numeric argument of a header line. -/
def header? (line : String) : Option (Kind × Bits × Int) :=
  match Text.words line with
  | attach :: flags :: rest =>
    let kind := if Text.isNumeral attach then Kind.ofCode? (Text.leadingInt attach) else none
    let narg := match rest with
      | [] => some 0
      | n :: _ => if Text.isNumeral n then Width.fit32? (Text.leadingInt n) else none
    match kind, narg with
    | some kind, some narg => some (kind, Bits.ofField flags, narg)
    | _, _ => none
  | _ => none

/-- The vnum of a record's first line. -/
def vnum? (line : String) : Option Vnum :=
  match line.toList with
  | '#' :: cs =>
    if Chars.isNumeral (Chars.trim cs) then Width.fit32? (Chars.leadingInt cs) else none
  | _ => none

/-- A record after its first line, and the lines after it. -/
def record (vnum : Vnum) (lines : List String) : Except LoadError (Prototype × List String) :=
  match tildeText? lines with
  | none => .error (.unterminatedString vnum)
  | some (_, []) => .error .unexpectedEnd
  | some (name, header :: lines) => match header? header with
    | none => .error (.badHeader vnum header)
    | some (kind, events, narg) => match tildeText? lines with
      | none => .error (.unterminatedString vnum)
      | some (arg, lines) => match tildeText? lines with
        | none => .error (.unterminatedString vnum)
        | some (body, lines) =>
          .ok ({ vnum, name, kind, events, narg, arg, script := Script.compile body }, lines)

/-- The records from here on, `read` ones being before them in a file of `total` lines. Every
record takes a line or more, so the number of lines is enough `fuel`. -/
def recordsWithin (total : Nat) : Nat → List Prototype → List String →
    Except LoadError (List Prototype)
  | 0, _, _ => .error .unexpectedEnd
  | fuel + 1, read, lines =>
    match lines.dropWhile Text.isBlank with
    | [] => .error .unexpectedEnd
    | line :: rest =>
      let line := Text.trim line
      if line = "$" then .ok read
      else match vnum? line with
        | none => .error (.expectedVnum (total - rest.length) line)
        | some vnum =>
          if read.any (·.vnum = vnum) then .error (.duplicate vnum)
          else match record vnum rest with
            | .error e => .error e
            | .ok (p, rest) => recordsWithin total fuel (read ++ [p]) rest

/-- The prototypes of a trigger file, in order. -/
def parse (text : String) : Except LoadError (List Prototype) :=
  let lines := Text.lines text
  recordsWithin lines.length (lines.length + 1) [] lines

end TriggerFile

end MudTrigger
