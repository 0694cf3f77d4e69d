import MudTrigger.Game.Delay
import MudTrigger.Game.Expand

/-!
# Running a script

A run goes through its script pass by pass: each pass does one line and tells where the run goes on.
A run ends at the end of its script, at `halt` or `return`, when it has repeated loops too often, or
when its owner is gone; it is left without ending when it is suspended or its trigger is detached.

Before every line of a mobile's trigger its owner has to be able to act: the run is put off while
the owner casts, or sleeps in the middle of it, and a run that would begin while the owner sleeps is
refused. Death triggers are exempt.
-/

set_option autoImplicit false

namespace MudTrigger

/-- Carries out a command for an actor; this may fire triggers and run their scripts. -/
abbrev Executor := Game → Uid → String → Game

/-- What stays the same during a run. -/
structure Run where
  host : Host
  execute : Executor
  trigger : Handle
  owner : Uid
  proto : Prototype
  mode : RunMode

/-- Where a run stands. -/
structure Frame where
  line : Nat
  /-- The answer to the event: zero blocks it. -/
  result : Int := 1
  /-- Repetitions of loop bodies since the run was begun or taken up. -/
  loops : Nat := 0
  deriving DecidableEq

/-- How a run goes on after a pass. -/
inductive Step where
  | next (frame : Frame)
  /-- The run is over, with an answer. -/
  | ended (result : Int)
  /-- The run is not carried on now: it is suspended, or its trigger is gone. -/
  | left (result : Int)
  /-- A search along the clauses of a block never comes to an end. -/
  | endless
  deriving DecidableEq

/-- Where a failed `if` goes on. -/
inductive Clause where
  | found (line : Nat)
  | unclosed
  | endless
  deriving DecidableEq

/-- The frame at the line after `line`. -/
def Frame.after (f : Frame) (line : Nat) : Frame := { f with line := line + 1 }

/-- Goes on at the clause to which a failed `if` has led. -/
def Frame.follow (f : Frame) : Clause × Game → Step × Game
  | (.found line, g) => (.next (f.after line), g)
  | (.unclosed, g) => (.ended f.result, g)
  | (.endless, g) => (.endless, g)

/-- Runs of this trigger stop while its owner cannot act. -/
def Prototype.isGuarded (p : Prototype) : Bool := p.kind == .mobile && !p.isDeathTrigger

namespace Run

/-! ## Looking at the world -/

/-- What the script sees; nothing when its trigger is gone. -/
def scene? (r : Run) (g : Game) : Option Scene :=
  (g.instance? r.trigger).map fun i =>
    { host := r.host, world := g.world, owner := i.owner, locals := i.locals,
      globals := ((g.container? i.owner).map (·.globals)).getD ∅ }

/-- The text of an expansion; its draws and its faults stay in the game. -/
def look (r : Run) (g : Game) (read : Scene → Expand String) : String × Game :=
  match r.scene? g with
  | none => ("", g)
  | some s =>
    let (text, d) := read s { dice := g.engine.dice }
    (text, (g.withDice d.dice).blame r.proto d.faults)

/-- The value of an expression. -/
def evaluate (r : Run) (g : Game) (expression : String) : String × Game :=
  let (value, g) := r.look g (·.evaluate expression)
  (value, g.report (.evaluated r.trigger r.owner expression value))

/-- The truth of a condition. -/
def holds (r : Run) (g : Game) (condition : String) : Bool × Game :=
  let (value, g) := r.evaluate g condition
  (Text.isTruthy value, g)

def fault (r : Run) (g : Game) (f : Fault) : Game := g.blame r.proto [f]

/-! ## Choosing a branch -/

/-- Looks from clause to clause of a block, `fuel` of them at most, for the one to be entered: an
`elseif` that holds, an `else`, or else the `end`. -/
def clauseWithin (r : Run) : Nat → Option Nat → Game → Clause × Game
  | _, none, g => (.unclosed, r.fault g .ifWithoutEnd)
  | 0, some _, g => (.endless, g)
  | fuel + 1, some line, g =>
    match r.proto.script.op? line with
    | none => (.unclosed, r.fault g .ifWithoutEnd)
    | some (.elseIf condition next _) =>
      let (truth, g) := r.holds g condition
      if truth then (.found line, g.deepen r.trigger) else r.clauseWithin fuel next g
    | some (.elseThen _) => (.found line, g.deepen r.trigger)
    | some _ => (.found line, g)

/-- The first of the arms that is a `default`, or a `case` whose value equals the subject's. -/
def findArm (r : Run) (subject : String) : List Nat → Game → Option Nat × Game
  | [], g => (none, g)
  | arm :: arms, g =>
    match r.proto.script.op? arm with
    | some (.caseOf expression) =>
      let (value, g) := r.evaluate g expression
      if Text.isTruthy (Operator.apply .eq subject value) then (some arm, g)
      else r.findArm subject arms g
    | some .default => (some arm, g)
    | _ => r.findArm subject arms g

/-- More than the passes of any run whose loops are bounded. -/
def patience (r : Run) (g : Game) : Nat :=
  r.proto.script.length * max 1 g.engine.config.loopAbortAfter + 0x1_0000_0000

/-! ## Commands of scripts -/

/-- Moves local variables to the globals of the owner. -/
def moveGlobals (r : Run) (g : Game) (names : List String) : Game :=
  names.foldl (fun g name =>
    match (g.instance? r.trigger).bind (·.locals.find? name) with
    | some v => g.makeGlobal r.trigger r.owner v
    | none => r.fault g (.unknownLocal name)) g

/-- The fault of a wait with a bad argument. -/
def waitFault (command : String) : Delay.Error → Fault
  | .missing => .missingArgument .wait command
  | .badArgument => .badWaitArgument command
  | .badTime => .badWaitTime command

/-- Runs an expanded line: a command of scripts, or one for the world. -/
def command (r : Run) (f : Frame) (text : String) (g : Game) : Step × Game :=
  let next : Step := .next (f.after f.line)
  let (word, rest) := Text.splitWord text
  let (name, value) := Text.splitWord rest
  match Text.fold word with
  | "eval" =>
    if name = "" then (next, r.fault g (.missingArgument .eval text))
    else
      let (value, g) := r.evaluate g value
      (next, g.setLocal r.trigger name value)
  | "halt" => (.ended f.result, g)
  | "global" =>
    let g := if rest = "" then r.fault g (.missingArgument .global text) else g
    (next, r.moveGlobals g (Text.words rest))
  | "return" =>
    if rest = "" then (.ended 1, r.fault g (.missingArgument .return text))
    else (.ended ((Width.fit32? (Text.leadingInt rest)).getD 1), g)
  | "set" =>
    if name = "" then (next, r.fault g (.missingArgument .set text))
    else (next, g.setLocal r.trigger name value)
  | "unset" =>
    if Text.trim rest = "" then (next, r.fault g (.missingArgument .unset text))
    else (next, g.unset r.trigger r.owner (Text.trim rest))
  | "wait" =>
    match Delay.pulses g.engine.config g.engine.pulseCount g.world.time.hours rest with
    | .ok delay => (.left f.result, g.suspend r.trigger r.owner (f.line + 1) delay .wait)
    | .error e => (next, r.fault g (waitFault text e))
  | _ =>
    let g := r.execute (g.report (.executed r.owner text)) r.owner text
    if g.hasTrigger r.trigger then (next, g)
    else (.ended f.result, g.report (.removedByOwnCommand r.proto.vnum r.owner))

/-! ## A pass -/

/-- The end of a loop body: back to the first line of the body if the condition holds again, unless
the run has to yield for a pulse or has repeated loops too often. -/
def loopBack (r : Run) (f : Frame) (head : Nat) (condition : String) (g : Game) : Step × Game :=
  let (truth, g) := r.holds g condition
  if !truth then (.next (f.after f.line), g)
  else
    let g := g.countLoop r.trigger
    match g.instance? r.trigger with
    | none => (.left f.result, g)
    | some i =>
      if g.engine.config.loopDeferAfter ≤ f.loops + 1 then
        (.left f.result, g.suspend r.trigger r.owner (head + 1) 1 .wait)
      else if g.engine.config.loopAbortAfter ≤ i.loops then
        (.ended f.result, g.report (.looped r.proto.vnum r.proto.name i.loops))
      else (.next { f.after head with loops := f.loops + 1 }, g)

/-- Does what a line says. -/
def perform (r : Run) (f : Frame) (line : Line) (g : Game) : Step × Game :=
  let next : Step := .next (f.after f.line)
  match line.op with
  | .comment | .caseOf _ | .default | .done none => (next, g)
  | .ifThen condition clause =>
    let (truth, g) := r.holds g condition
    if truth then (next, g.deepen r.trigger)
    else f.follow (r.clauseWithin (r.patience g) clause g)
  | .elseIf _ _ close | .elseThen close =>
    if g.depthOf r.trigger ≤ 1 then (next, r.fault g .elseWithoutIf)
    else match close with
      | some close => (.next (f.after close), g.rise r.trigger)
      | none => (.ended f.result, r.fault (g.rise r.trigger) .ifWithoutEnd)
  | .endIf =>
    if g.depthOf r.trigger ≤ 1 then (next, r.fault g .endWithoutIf)
    else (next, g.rise r.trigger)
  | .whileDo condition done =>
    match done with
    | none => (.ended f.result, r.fault g .whileWithoutDone)
    | some done =>
      let (truth, g) := r.holds g condition
      if truth then (next, g) else (.next { f.after done with loops := 0 }, g)
  | .done (some head) =>
    match r.proto.script.op? head with
    | some (.whileDo condition _) => r.loopBack f head condition g
    | _ => (next, g)
  | .switchOn subject arms done =>
    let (value, g) := r.evaluate g subject
    match r.findArm value arms g with
    | (some arm, g) => (.next (f.after arm), g)
    | (none, g) => match done with
      | some done => (.next (f.after done), g)
      | none => (.ended f.result, g)
  | .breakOut done =>
    match done with
    | some done => (.next (f.after done), g)
    | none => (next, r.fault g .breakOutsideLoop)
  | .command =>
    let (text, g) := r.look g (·.expand line.text)
    r.command f text g

/-- Does the line at which the run stands. -/
def doLine (r : Run) (f : Frame) (g : Game) : Step × Game :=
  match r.proto.script.line? f.line with
  | none => (.ended f.result, g)
  | some line => r.perform f line (g.report (.reached r.trigger r.owner f.line))

/-- Puts the line off until the owner may act again. -/
def putOff (r : Run) (f : Frame) (g : Game) : Step × Game :=
  (.left f.result, g.suspend r.trigger r.owner f.line g.engine.config.castRetryPulses .casting)

/-- One pass: does a line if the trigger is still there and its owner can act. -/
def pass (r : Run) (f : Frame) (g : Game) : Step × Game :=
  if !g.hasTrigger r.trigger then (.left f.result, g)
  else if !r.proto.isGuarded then r.doLine f g
  else match g.world.character? r.owner with
    | none => (.ended f.result, g)
    | some c =>
      if !c.isAwake then
        match r.mode with
        | .new => (.ended 0, g)
        | .resume => r.putOff f g
      else if c.casting then r.putOff f g
      else r.doLine f g

/-! ## A run -/

/-- Passes until the script ends, `fuel` of them at most; no answer if they were not enough. -/
def passes (r : Run) : Nat → Frame → Game → Option Int × Game
  | 0, f, g =>
    if r.proto.script.length ≤ f.line then (some f.result, g.finish r.trigger) else (none, g)
  | fuel + 1, f, g =>
    if r.proto.script.length ≤ f.line then (some f.result, g.finish r.trigger)
    else match r.pass f g with
      | (.next f, g) => r.passes fuel f g
      | (.ended result, g) => (some result, g.finish r.trigger)
      | (.left result, g) => (some result, g)
      | (.endless, g) => (none, g)

/-- The answer of a run; one that was not let come to an end is over. -/
def conclude (r : Run) : Option Int × Game → Int × Game
  | (some result, g) => (result, g)
  | (none, g) => (1, g.finish r.trigger)

/-- Enters the script and goes through it. A script that never comes to an end is cut off. -/
def drive (r : Run) (i : Instance) (g : Game) : Int × Game :=
  let (line, g) := match r.mode with
    | .new => (0, g.begin r.trigger)
    | .resume => (i.resumeAt.getD 0, g.takeUp r.trigger)
  r.conclude (r.passes (r.patience g) { line } g)

end Run

end MudTrigger
