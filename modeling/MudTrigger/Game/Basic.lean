import MudTrigger.Config.Basic
import MudTrigger.Notice
import MudTrigger.Trigger.Instance
import MudTrigger.Trigger.Registry
import MudTrigger.World.Search

/-!
# Games

A `Game` is everything that changes while scripts run: the engine with its triggers, the world, and
the log. A `Host` decides what scripts may see of the world. The functions below are the elementary
changes of the engine; runs, events and commands are made of them.
-/

set_option autoImplicit false

namespace MudTrigger

/-- The state of the script engine. -/
structure Engine where
  config : Config := {}
  registry : Registry := ∅
  /-- The containers of the scripted entities. -/
  containers : Table Uid Container := ∅
  triggers : Arena Instance := ∅
  waits : WaitQueue := ∅
  dice : Dice := Dice.ofSeed 0
  pulseCount : Nat := 0
  /-- How many runs are under way, one inside another. -/
  depth : Nat := 0
  /-- The hour at the last pulse. -/
  lastHour : Option Nat := none

/-- An engine without triggers over a registry. -/
def Engine.new (config : Config) (registry : Registry) : Engine :=
  { config, registry, dice := Dice.ofSeed config.rngSeed }

structure Game where
  engine : Engine
  world : World := {}
  log : List Notice := []
  /-- What the host answered to commands that it handles itself. -/
  notes : List String := []

/-- How the host limits and extends what scripts see and do. -/
structure Host where
  canSee : World → Uid → Uid → Bool
  zoneIsActive : World → Nat → Bool
  randomRoom : World → Dice → Option Nat → Option Uid × Dice
  findByName : World → Uid → String → EntityRef
  /-- The note that answers a command; commands without one go to the world. -/
  answer : Engine → Uid → String → Option String

/-- The host that lets the world decide. -/
def Host.standard : Host where
  canSee := World.canSee
  zoneIsActive := World.zoneIsActive
  randomRoom := World.randomRoom
  findByName := World.findByName
  answer := fun _ _ _ => none

/-- A host under which everyone is seen, every zone is active, and nothing is found or drawn. -/
def Host.plain (answer : Engine → Uid → String → Option String) : Host where
  canSee := fun _ _ _ => true
  zoneIsActive := fun _ _ => true
  randomRoom := fun _ dice _ => (none, dice)
  findByName := fun _ _ _ => .nothing
  answer := answer

/-- How a run enters its script. -/
inductive RunMode where
  /-- At the first line. -/
  | new
  /-- Where it was suspended. -/
  | resume
  deriving DecidableEq, Inhabited

/-- Runs a trigger; zero means that the event which caused the run is blocked. -/
abbrev Runner := Game → Handle → RunMode → Int × Game

namespace Game

def instance? (g : Game) (h : Handle) : Option Instance := g.engine.triggers.get? h

def container? (g : Game) (u : Uid) : Option Container := g.engine.containers.get? u

def hasTrigger (g : Game) (h : Handle) : Bool := g.engine.triggers.contains h

/-! ## Elementary changes -/

def report (g : Game) (n : Notice) : Game := { g with log := g.log ++ [n] }

/-- Reports mistakes in the script of a trigger. -/
def blame (g : Game) (p : Prototype) (faults : List Fault) : Game :=
  { g with log := g.log ++ faults.map fun f => .authoring p.vnum p.name f }

def addNote (g : Game) (note : String) : Game := { g with notes := g.notes ++ [note] }

def withWorld (g : Game) (w : World) : Game := { g with world := w }

def withDice (g : Game) (d : Dice) : Game := { g with engine := { g.engine with dice := d } }

def withWaits (g : Game) (q : WaitQueue) : Game :=
  { g with engine := { g.engine with waits := q } }

def withDepth (g : Game) (depth : Nat) : Game :=
  { g with engine := { g.engine with depth := depth } }

def withContainers (g : Game) (cs : Table Uid Container) : Game :=
  { g with engine := { g.engine with containers := cs } }

def withTriggers (g : Game) (ts : Arena Instance) : Game :=
  { g with engine := { g.engine with triggers := ts } }

/-- Applies `f` to an attached trigger, if it still is attached. -/
def modifyInstance (g : Game) (h : Handle) (f : Instance → Instance) : Game :=
  g.withTriggers (g.engine.triggers.modify h f)

/-- Applies `f` to the container of an entity, if it has one. -/
def modifyContainer (g : Game) (u : Uid) (f : Container → Container) : Game :=
  g.withContainers (g.engine.containers.modify u f)

/-! ## Variables -/

def setLocal (g : Game) (h : Handle) (name value : String) : Game :=
  g.modifyInstance h fun i => { i with locals := i.locals.set name value }

/-- Sets the variables of an event before its run. -/
def bindLocals (g : Game) (h : Handle) (bindings : List (String × String)) : Game :=
  g.modifyInstance h fun i => { i with locals := i.locals.setAll bindings }

/-- Sets a global variable of an entity that has a container. -/
def setGlobal (g : Game) (u : Uid) (name value : String) : Game :=
  g.modifyContainer u fun c => { c with globals := c.globals.set name value }

/-- A global variable of an entity. -/
def global? (g : Game) (u : Uid) (name : String) : Option String :=
  (g.container? u).bind (·.globals.get? name)

/-- Moves a local variable of a trigger to the globals of its owner. -/
def makeGlobal (g : Game) (h : Handle) (owner : Uid) (v : Variable) : Game :=
  (g.modifyInstance h fun i => { i with locals := i.locals.erase v.name }).modifyContainer owner
    fun c => { c with globals := c.globals.insert v }

/-- Removes a global variable of the owner or, if there is none, a local one. -/
def unset (g : Game) (h : Handle) (owner : Uid) (name : String) : Game :=
  if (g.container? owner).any (·.globals.contains name) then
    g.modifyContainer owner fun c => { c with globals := c.globals.erase name }
  else g.modifyInstance h fun i => { i with locals := i.locals.erase name }

/-! ## The state of a run -/

/-- Begins a run: a wait that was pending is cancelled. -/
def begin (g : Game) (h : Handle) : Game :=
  let g := match (g.instance? h).bind (·.wait) with
    | some id => g.withWaits (g.engine.waits.cancel id)
    | none => g
  g.modifyInstance h fun i => { i with depth := 1, loops := 0, resumeAt := none, wait := none }

/-- Takes a suspended run up again. -/
def takeUp (g : Game) (h : Handle) : Game :=
  g.modifyInstance h fun i => { i with depth := max i.depth 1, resumeAt := none, wait := none }

/-- Ends a run: the trigger is idle and has no local variables. -/
def finish (g : Game) (h : Handle) : Game := g.modifyInstance h Instance.reset

/-- Suspends a run, to go on at a line after so many pulses. -/
def suspend (g : Game) (h : Handle) (owner : Uid) (line delay : Nat) (kind : WaitKind) : Game :=
  let (id, q) := g.engine.waits.schedule g.engine.pulseCount delay ⟨h, owner, line, kind⟩
  let g := g.withWaits q
  match g.instance? h with
  | none => g
  | some i =>
    (g.modifyInstance h fun i => { i with resumeAt := some line, wait := some id }).report
      (.suspended i.proto.vnum owner line delay kind)

/-- The nesting of the current run of a trigger. -/
def depthOf (g : Game) (h : Handle) : Nat := ((g.instance? h).map (·.depth)).getD 0

/-- Enters a block of the script. -/
def deepen (g : Game) (h : Handle) : Game :=
  g.modifyInstance h fun i => { i with depth := i.depth + 1 }

/-- Leaves a block of the script. -/
def rise (g : Game) (h : Handle) : Game :=
  g.modifyInstance h fun i => { i with depth := i.depth - 1 }

/-- Counts a repetition of a loop body. -/
def countLoop (g : Game) (h : Handle) : Game :=
  g.modifyInstance h fun i => { i with loops := i.loops + 1 }

end Game

end MudTrigger
