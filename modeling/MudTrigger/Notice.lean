import MudTrigger.Script.WaitQueue
import MudTrigger.Trigger.Kind

/-!
# Notices

What the engine and the world report besides their answers. Mistakes of script authors are no
errors: they are reported as a `Fault` with the vnum and the name of the trigger, and the construct
at fault has no effect or an empty value.
-/

set_option autoImplicit false

namespace MudTrigger

/-- A script command that needs an argument. -/
inductive ArgCommand where
  | eval
  | global
  | return
  | set
  | unset
  | wait
  deriving DecidableEq

def ArgCommand.name : ArgCommand → String
  | eval => "eval"
  | global => "global"
  | .return => "return"
  | set => "set"
  | unset => "unset"
  | wait => "wait"

/-- Why a variable has no fields. -/
inductive NoEntity where
  | empty
  | extracted
  | notUid
  deriving DecidableEq

def NoEntity.text : NoEntity → String
  | empty => "empty"
  | extracted => "previously extracted UID"
  | notUid => "non-UID"

/-- A mistake of a script's author. -/
inductive Fault where
  /-- A field was read of a variable that stands for no entity. -/
  | fieldOf (field : String) (why : NoEntity) (name : String)
  /-- The entity or pseudo-object has no such field. -/
  | unknownField (owner field : String)
  | unknownFlag (flag : String)
  | noTextArgument
  | elseWithoutIf
  | endWithoutIf
  | ifWithoutEnd
  | whileWithoutDone
  | breakOutsideLoop
  | missingArgument (name : ArgCommand) (command : String)
  | badWaitArgument (command : String)
  | badWaitTime (command : String)
  | unknownLocal (name : String)
  deriving DecidableEq

def Fault.message : Fault → String
  | fieldOf field why name =>
    s!"attempt to access field '{field}' on {why.text} variable '{name}'"
  | unknownField owner field => s!"unknown {owner} field '{field}'"
  | unknownFlag flag => s!"unrecognized flag '{flag}'"
  | noTextArgument => "trigger has no text argument"
  | elseWithoutIf => "'else' without 'if'"
  | endWithoutIf => "'end' without 'if'"
  | ifWithoutEnd => "'if' without 'end'"
  | whileWithoutDone => "'while' without 'done'"
  | breakOutsideLoop => "'break' outside a loop"
  | missingArgument name command => s!"{name.name} w/o an arg: '{command}'"
  | badWaitArgument command => s!"bad wait argument: '{command}'"
  | badWaitTime command => s!"bad wait time: '{command}'"
  | unknownLocal name => s!"local var '{name}' not found in global call"

/-- Why a trigger was not attached. -/
inductive AttachError where
  | unknownTrigger (vnum : Vnum)
  | noSuchTarget (target : Uid)
  | wrongKind (vnum : Vnum) (expected found : Kind)
  | playerTarget (target : Uid)
  deriving DecidableEq

def AttachError.message : AttachError → String
  | unknownTrigger vnum => s!"no trigger with vnum {vnum}"
  | noSuchTarget target => s!"no entity with UID {target.raw}"
  | wrongKind vnum expected found =>
    s!"trigger {vnum} is a {expected.name} trigger and cannot attach to a {found.name}"
  | playerTarget target => s!"mobile triggers cannot attach to players (UID {target.raw})"

/-- A thing reported. The last four are the trace of a run, step by step. -/
inductive Notice where
  | authoring (vnum : Vnum) (name : String) (fault : Fault)
  | recursionCeiling (vnum : Vnum) (name : String)
  | looped (vnum : Vnum) (name : String) (times : Nat)
  | attached (vnum : Vnum) (owner : Uid)
  | detached (vnum : Vnum) (owner : Uid)
  | detachedAll (owner : Uid)
  | freedContainer (owner : Uid)
  | cancelledWaits (owner : Uid) (count : Nat)
  | resuming (owner : Uid) (line : Nat)
  | suspended (vnum : Vnum) (owner : Uid) (line delay : Nat) (kind : WaitKind)
  | removedByOwnCommand (vnum : Vnum) (owner : Uid)
  | purgeTargetMissing (arg : String)
  | attachWithoutVnum (arg : String)
  | attachTargetMissing (arg : String)
  | attachRefused (error : AttachError)
  | detachTargetMissing (arg : String)
  | gotoTargetMissing (arg : String)
  | unknownCommand (actor : Uid) (command : String)
  | started (trigger : Handle) (owner : Uid)
  | reached (trigger : Handle) (owner : Uid) (line : Nat)
  | evaluated (trigger : Handle) (owner : Uid) (expression value : String)
  | executed (actor : Uid) (command : String)
  deriving DecidableEq

inductive Level where
  | trace
  | debug
  | warn
  | error
  deriving DecidableEq, Inhabited

def Level.name : Level → String
  | trace => "TRACE"
  | debug => "DEBUG"
  | warn => "WARN"
  | error => "ERROR"

namespace Notice

def level : Notice → Level
  | authoring .. => .warn
  | recursionCeiling .. => .error
  | looped .. => .error
  | started .. => .trace
  | reached .. => .trace
  | evaluated .. => .trace
  | executed .. => .trace
  | _ => .debug

/-- The part of the program that a notice comes from. -/
def target : Notice → String
  | purgeTargetMissing _ => "world"
  | attachWithoutVnum _ => "world"
  | attachTargetMissing _ => "world"
  | attachRefused _ => "world"
  | detachTargetMissing _ => "world"
  | gotoTargetMissing _ => "world"
  | unknownCommand .. => "world"
  | _ => "scripts"

def message : Notice → String
  | authoring _ _ fault => fault.message
  | recursionCeiling .. => "triggers recursed beyond maximum allowed depth"
  | looped _ _ times => s!"looped {times} times"
  | attached .. => "attached trigger"
  | detached .. => "detached trigger"
  | detachedAll _ => "detached all triggers"
  | freedContainer _ => "freed empty script container"
  | cancelledWaits .. => "cancelled waits of extracted entity"
  | resuming .. => "resuming trigger"
  | suspended .. => "suspended trigger"
  | removedByOwnCommand .. => "trigger removed by its own command"
  | purgeTargetMissing _ => "purge target not found"
  | attachWithoutVnum _ => "attach needs a trigger vnum"
  | attachTargetMissing _ => "attach target not found"
  | attachRefused _ => "attach failed"
  | detachTargetMissing _ => "detach target not found"
  | gotoTargetMissing _ => "goto destination not found"
  | unknownCommand .. => "unknown command"
  | started .. => "started run"
  | reached .. => "reached line"
  | evaluated .. => "evaluated expression"
  | executed .. => "executed command"

/-- What the notice is about, by name. -/
def fields : Notice → List (String × String)
  | authoring vnum name _ => [("vnum", toString vnum), ("name", name)]
  | recursionCeiling vnum name => [("vnum", toString vnum), ("name", name)]
  | looped vnum name _ => [("vnum", toString vnum), ("name", name)]
  | attached vnum owner => [("vnum", toString vnum), ("owner", toString owner.raw)]
  | detached vnum owner => [("vnum", toString vnum), ("owner", toString owner.raw)]
  | detachedAll owner => [("owner", toString owner.raw)]
  | freedContainer owner => [("owner", toString owner.raw)]
  | cancelledWaits owner count =>
    [("owner", toString owner.raw), ("cancelled", toString count)]
  | resuming owner line => [("owner", toString owner.raw), ("line", toString line)]
  | suspended vnum owner line delay kind =>
    [("vnum", toString vnum), ("owner", toString owner.raw), ("line", toString line),
      ("delay", toString delay), ("kind", match kind with | .wait => "Wait" | .casting => "Casting")]
  | removedByOwnCommand vnum owner =>
    [("vnum", toString vnum), ("owner", toString owner.raw)]
  | purgeTargetMissing arg => [("arg", arg)]
  | attachWithoutVnum arg => [("arg", arg)]
  | attachTargetMissing arg => [("arg", arg)]
  | attachRefused error => [("err", error.message)]
  | detachTargetMissing arg => [("arg", arg)]
  | gotoTargetMissing arg => [("arg", arg)]
  | unknownCommand actor command => [("actor", toString actor.raw), ("command", command)]
  | started trigger owner => [("trigger", trigger.text), ("owner", toString owner.raw)]
  | reached trigger owner line =>
    [("trigger", trigger.text), ("owner", toString owner.raw), ("line", toString line)]
  | evaluated trigger owner expression value =>
    [("trigger", trigger.text), ("owner", toString owner.raw), ("expression", expression),
      ("value", value)]
  | executed actor command => [("actor", toString actor.raw), ("command", command)]

/-- The line of a log: level, target, message, and the fields between braces. -/
def text (n : Notice) : String :=
  n.level.name ++ " " ++ n.target ++ ": " ++ n.message ++ " \x7b" ++
    Text.join ", " (n.fields.map fun f => f.1 ++ "=" ++ f.2) ++ "\x7d"

end Notice

end MudTrigger
