import MudTrigger.Game.Pulse
import MudTrigger.Proofs.Data.Arena
import Mathlib.Logic.Relation

/-!
# The elementary changes of a game

A `Moment` is a game together with the runs that are under way in it, the innermost first. `Change`
lists everything that can happen from one moment to the next: what may happen during any run or
between runs, what the innermost run does, how runs begin and end, and what a pulse does when no run
is under way. Events, commands, runs and pulses are made of these changes and of nothing else
(`Fires`, `Executes` and the modules that follow), so that whatever every `Change` keeps, the game
keeps.
-/

set_option autoImplicit false

namespace MudTrigger

/-- A run that is under way. -/
structure Activation where
  trigger : Handle
  owner : Uid
  proto : Prototype
  /-- Repetitions of loop bodies since the run was begun or taken up. -/
  loops : Nat
  /-- The run waits for a command of its own to be carried out; nothing else happens in it. -/
  held : Bool

/-- A game, and the runs under way in it, the innermost first. -/
structure Moment where
  stack : List Activation
  game : Game

/-- The owner of a guarded run is there, awake and not casting. -/
def Activation.CanAct (a : Activation) (w : World) : Prop :=
  a.proto.isGuarded = true →
    ∃ c, w.character? a.owner = some c ∧ c.isAwake = true ∧ c.casting = false

/-- Neither part of the trace of a run nor the record of an attachment or of a run cut short. -/
def Notice.isPlain : Notice → Bool
  | attached .. => false
  | looped .. => false
  | started .. => false
  | reached .. => false
  | evaluated .. => false
  | executed .. => false
  | _ => true

namespace Game

/-- Counts a run that begins or is taken up. -/
def enter (g : Game) (h : Handle) (owner : Uid) : Game :=
  (g.withDepth (g.engine.depth + 1)).report (.started h owner)

/-- Counts a run that is over or suspended. -/
def leave (g : Game) : Game := g.withDepth (g.engine.depth - 1)

def tick (g : Game) : Game :=
  { g with engine := { g.engine with pulseCount := g.engine.pulseCount + 1 } }

def noteHour (g : Game) (hour : Nat) : Game :=
  { g with engine := { g.engine with lastHour := some hour } }

end Game

/-- What can happen from one moment to the next. -/
inductive Change : Moment → Moment → Prop
  -- In any run, or between runs.
  | report {s g n} : n.isPlain = true → Change ⟨s, g⟩ ⟨s, g.report n⟩
  | blame {s g} (p : Prototype) (faults : List Fault) : Change ⟨s, g⟩ ⟨s, g.blame p faults⟩
  | addNote {s g} (note : String) : Change ⟨s, g⟩ ⟨s, g.addNote note⟩
  | roll {s g} (d : Dice) : Change ⟨s, g⟩ ⟨s, g.withDice d⟩
  | tell {s g} (message : String) : Change ⟨s, g⟩ ⟨s, g.withWorld (g.world.tell message)⟩
  | place {s g} (u room : Uid) :
    Change ⟨s, g⟩ ⟨s, g.withWorld (g.world.placeCharacter u room)⟩
  | purge {s g u} : Game.isPlayer g.world u = false → Change ⟨s, g⟩ ⟨s, g.purge u⟩
  | attach {s g g' vnum target position h} : g.attach vnum target position = .ok (h, g') →
    Change ⟨s, g⟩ ⟨s, g'⟩
  | detach {s g target c h} : g.container? target = some c → h ∈ c.triggers →
    Change ⟨s, g⟩ ⟨s, g.removeInstance target h⟩
  | detachAll {s g} (target : Uid) : Change ⟨s, g⟩ ⟨s, (g.detachAll target).2⟩
  -- In the innermost run.
  | reach {a s g} (line : Nat) (live : g.hasTrigger a.trigger = true) (able : a.CanAct g.world)
      (free : a.held = false := by rfl) :
    Change ⟨a :: s, g⟩ ⟨a :: s, g.report (.reached a.trigger a.owner line)⟩
  | evaluate {a s g} (expression value : String) (live : g.hasTrigger a.trigger = true)
      (free : a.held = false := by rfl) :
    Change ⟨a :: s, g⟩ ⟨a :: s, g.report (.evaluated a.trigger a.owner expression value)⟩
  | command {a s g} (text : String) (live : g.hasTrigger a.trigger = true)
      (free : a.held = false := by rfl) :
    Change ⟨a :: s, g⟩ ⟨a :: s, g.report (.executed a.owner text)⟩
  | setLocal {a s g} (name value : String) (free : a.held = false := by rfl) :
    Change ⟨a :: s, g⟩ ⟨a :: s, g.setLocal a.trigger name value⟩
  | makeGlobal {a s g} (v : Variable) (free : a.held = false := by rfl) :
    Change ⟨a :: s, g⟩ ⟨a :: s, g.makeGlobal a.trigger a.owner v⟩
  | unset {a s g} (name : String) (free : a.held = false := by rfl) :
    Change ⟨a :: s, g⟩ ⟨a :: s, g.unset a.trigger a.owner name⟩
  | deepen {a s g} (free : a.held = false := by rfl) :
    Change ⟨a :: s, g⟩ ⟨a :: s, g.deepen a.trigger⟩
  | rise {a s g} (nested : 1 < g.depthOf a.trigger) (free : a.held = false := by rfl) :
    Change ⟨a :: s, g⟩ ⟨a :: s, g.rise a.trigger⟩
  /-- A loop is over; repetitions are counted from zero again. -/
  | loopOver {a s g} (free : a.held = false := by rfl) :
    Change ⟨a :: s, g⟩ ⟨{ a with loops := 0 } :: s, g⟩
  /-- A loop body is repeated at once. -/
  | loopAgain {a s g i} (live : g.instance? a.trigger = some i)
      (soon : a.loops + 1 < g.engine.config.loopDeferAfter)
      (few : i.loops + 1 < g.engine.config.loopAbortAfter) (free : a.held = false := by rfl) :
    Change ⟨a :: s, g⟩ ⟨{ a with loops := a.loops + 1 } :: s, g.countLoop a.trigger⟩
  -- How runs end or are left.
  /-- A loop body is repeated after a pulse. -/
  | loopYield {a s g i} (line : Nat) (live : g.instance? a.trigger = some i)
      (late : g.engine.config.loopDeferAfter ≤ a.loops + 1) (free : a.held = false := by rfl) :
    Change ⟨a :: s, g⟩
      ⟨s, ((g.countLoop a.trigger).suspend a.trigger a.owner line 1 .wait).leave⟩
  /-- A run that has repeated loop bodies too often is over. -/
  | loopHalt {a s g i} (live : g.instance? a.trigger = some i)
      (soon : a.loops + 1 < g.engine.config.loopDeferAfter)
      (many : g.engine.config.loopAbortAfter ≤ i.loops + 1) (free : a.held = false := by rfl) :
    Change ⟨a :: s, g⟩
      ⟨s, (((g.countLoop a.trigger).report
        (.looped a.proto.vnum a.proto.name (i.loops + 1))).finish a.trigger).leave⟩
  | suspend {a s g} (line delay : Nat) (kind : WaitKind) (live : g.hasTrigger a.trigger = true)
      (free : a.held = false := by rfl) :
    Change ⟨a :: s, g⟩ ⟨s, (g.suspend a.trigger a.owner line delay kind).leave⟩
  | finish {a s g} (free : a.held = false := by rfl) :
    Change ⟨a :: s, g⟩ ⟨s, (g.finish a.trigger).leave⟩
  /-- The trigger of a run is gone. -/
  | vanish {a s g} (gone : g.hasTrigger a.trigger = false) (free : a.held = false := by rfl) :
    Change ⟨a :: s, g⟩ ⟨s, g.leave⟩
  -- How runs begin. Only the host runs a trigger that is not idle, and not from within a run.
  | start {s g h i} (bindings : List (String × String)) : g.instance? h = some i →
    i.isIdle = true ∨ s = [] → g.engine.depth ≤ g.engine.config.maxScriptDepth →
    Change ⟨s, g⟩
      ⟨⟨h, i.owner, i.proto, 0, false⟩ :: s, ((g.bindLocals h bindings).enter h i.owner).begin h⟩
  /-- A fresh run is refused. -/
  | refuse {s g h i j} (bindings : List (String × String)) : g.instance? h = some i →
    i.isIdle = true ∨ s = [] ∧ g.engine.config.maxScriptDepth < g.engine.depth →
    Change ⟨s, g⟩ ⟨s, (g.bindLocals h bindings).refuse h j .new⟩
  -- In a pulse, once it is counted.
  | noteHour {g} (hour : Nat) : Change ⟨[], g⟩ ⟨[], g.noteHour hour⟩
  /-- A continuation that is not the pending one of its trigger is dropped. -/
  | skip {g w q} : g.engine.waits.popDue? g.engine.pulseCount = some (w, q) →
    (g.instance? w.continuation.trigger).any (·.wait = some w.id) = false →
    Change ⟨[], g⟩ ⟨[], g.withWaits q⟩
  | resume {g w q i} : g.engine.waits.popDue? g.engine.pulseCount = some (w, q) →
    g.instance? w.continuation.trigger = some i → i.wait = some w.id →
    g.engine.depth ≤ g.engine.config.maxScriptDepth →
    Change ⟨[], g⟩
      ⟨[⟨w.continuation.trigger, i.owner, i.proto, 0, false⟩],
        ((((g.withWaits q).report (.resuming w.continuation.owner w.continuation.resumeAt)).enter
          w.continuation.trigger i.owner).takeUp w.continuation.trigger)⟩
  | refuseResume {g w q i} : g.engine.waits.popDue? g.engine.pulseCount = some (w, q) →
    g.instance? w.continuation.trigger = some i →
    g.engine.config.maxScriptDepth < g.engine.depth →
    Change ⟨[], g⟩
      ⟨[], ((g.withWaits q).report (.resuming w.continuation.owner w.continuation.resumeAt)).refuse
        w.continuation.trigger i .resume⟩

/-- One change after another. -/
abbrev Changes : Moment → Moment → Prop := Relation.ReflTransGen Change

/-- What happens while the same runs stay under way. -/
abbrev Evolves (s : List Activation) (g g' : Game) : Prop := Changes ⟨s, g⟩ ⟨s, g'⟩

/-- The runner makes changes when it is given an idle trigger. -/
def Fires (run : Runner) : Prop :=
  ∀ ⦃s g h i⦄ (bindings : List (String × String)), g.instance? h = some i → i.isIdle = true →
    Evolves s g (g.fire run h bindings).2

/-- The executor makes changes during a run of the actor's. -/
def Executes (execute : Executor) : Prop :=
  ∀ a s g text, Evolves (a :: s) g (execute g a.owner text)

namespace Game

/-! ## The triggers of a game -/

section

variable (g : Game) (h : Handle)

@[simp] theorem instance?_report (n : Notice) : (g.report n).instance? h = g.instance? h := rfl

@[simp] theorem instance?_blame (p : Prototype) (fs : List Fault) :
    (g.blame p fs).instance? h = g.instance? h := rfl

@[simp] theorem instance?_withDice (d : Dice) : (g.withDice d).instance? h = g.instance? h := rfl

@[simp] theorem instance?_withWorld (w : World) : (g.withWorld w).instance? h = g.instance? h := rfl

@[simp] theorem instance?_withWaits (q : WaitQueue) :
    (g.withWaits q).instance? h = g.instance? h := rfl

@[simp] theorem instance?_enter (h' : Handle) (u : Uid) :
    (g.enter h' u).instance? h = g.instance? h := rfl

@[simp] theorem instance?_leave : g.leave.instance? h = g.instance? h := rfl

theorem hasTrigger_eq : g.hasTrigger h = (g.instance? h).isSome := rfl

theorem hasTrigger_iff : g.hasTrigger h = true ↔ ∃ i, g.instance? h = some i := Arena.contains_iff

theorem instance?_modifyInstance (h' : Handle) (f : Instance → Instance) :
    (g.modifyInstance h' f).instance? h =
      if h = h' then (g.instance? h').map f else g.instance? h :=
  Arena.get?_modify _ h' h f

@[simp] theorem instance?_modifyInstance_self (f : Instance → Instance) :
    (g.modifyInstance h f).instance? h = (g.instance? h).map f := by
  rw [instance?_modifyInstance, if_pos rfl]

theorem instance?_modifyInstance_ne {h' : Handle} (f : Instance → Instance) (hne : h ≠ h') :
    (g.modifyInstance h' f).instance? h = g.instance? h := by
  rw [instance?_modifyInstance, if_neg hne]

end

end Game

theorem Evolves.refl {s : List Activation} {g : Game} : Evolves s g g :=
  Relation.ReflTransGen.refl

theorem Evolves.report {s : List Activation} {g : Game} {n : Notice} (hn : n.isPlain = true) :
    Evolves s g (g.report n) := .single (.report hn)

end MudTrigger
