import MudTrigger.Game.Basic

/-!
# Inspecting triggers

The texts that show administrators a prototype, or what is attached to an entity. Identities in the
values of variables are shown with `#` in place of the sigil.
-/

set_option autoImplicit false

namespace MudTrigger

namespace Inspect

/-- A number at the right end of a field of five characters. -/
def padded (vnum : Vnum) : String :=
  let text := (toString vnum).toList
  String.ofList (List.replicate (5 - text.length) ' ' ++ text)

/-- The events, the numeric and the text argument. -/
def typeText (p : Prototype) : String :=
  s!"Type: {p.events.describe p.kind.eventNames}, Numeric Arg: {p.narg}, Arg list: {p.argText}"

/-- The text of a prototype. -/
def prototypeText (p : Prototype) : String :=
  s!"Name: '{p.name}',  VNum: [{padded p.vnum}]\n" ++
    s!"Trigger Intended Assignment: {p.kind.name}\n" ++
    s!"Trigger {typeText p}\n" ++
    s!"Commands:\n{p.script.source}\n"

def shownValue (value : String) : String :=
  String.ofList (value.toList.map fun c => if c = Uid.sigil then '#' else c)

/-- Variables under a heading. -/
def variablesText (heading : String) (vs : Variables) : String :=
  if vs.isEmpty then s!"{heading}: None\n"
  else s!"{heading}:\n" ++
    String.join (vs.toList.map fun v => s!"      {v.name}:[{shownValue v.value}]\n")

/-- When a suspended run goes on, and at which line. -/
def waitText (e : Engine) (p : Prototype) (id : WaitId) (line : Nat) : String :=
  let due := ((e.waits.dueAt? id).map toString).getD "?"
  let current := ((p.script.line? line).map fun l => Text.trim l.text).getD ""
  s!"    Wait: pulse {due} (now {e.pulseCount}), Current line: {current}\n"

/-- The text of an attached trigger. -/
def instanceText (e : Engine) (i : Instance) : String :=
  s!"  Trigger: {i.proto.name}, VNum: [{padded i.proto.vnum}], {typeText i.proto}\n" ++
    match i.wait, i.resumeAt with
    | some id, some line => waitText e i.proto id line ++ variablesText "    Variables" i.locals
    | _, _ => if i.isIdle then "" else "    Running\n"

end Inspect

namespace Engine

/-- The text that shows a prototype. -/
def statTrigger? (e : Engine) (vnum : Vnum) : Option String :=
  (e.registry.get? vnum).map Inspect.prototypeText

/-- The text that shows what is attached to an entity. -/
def statScript (e : Engine) (u : Uid) : String :=
  match e.containers.get? u with
  | none => "Script information: None.\n"
  | some c =>
    s!"Script information: {c.triggers.length} trigger(s), types: " ++
      s!"{c.types.describe c.kind.eventNames}\n" ++
      Inspect.variablesText "Global Variables" c.globals ++
      String.join ((c.triggers.filterMap e.triggers.get?).map (Inspect.instanceText e))

end Engine

end MudTrigger
