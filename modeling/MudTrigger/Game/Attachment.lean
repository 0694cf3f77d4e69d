import MudTrigger.Game.Basic
import MudTrigger.World.Extract

/-!
# Attaching and detaching

Attaching a prototype to an entity makes an instance and lists it in the entity's container, which
is made with the first trigger and freed with the last. The event bits of a container are the union
of those of its triggers.
-/

set_option autoImplicit false

namespace MudTrigger

namespace Game

/-- The kind of trigger that an entity can have. -/
def kindOf (g : Game) (target : Uid) : Except AttachError Kind :=
  match g.world.resolve target with
  | .character _ => match g.world.character? target with
    | some c => if c.isMobile then .ok .mobile else .error (.playerTarget target)
    | none => .error (.noSuchTarget target)
  | .object _ => .ok .object
  | .room _ => .ok .room
  | .nothing => .error (.noSuchTarget target)

/-- Attaches a prototype at a position of the trigger list, or at its end. -/
def attach (g : Game) (vnum : Vnum) (target : Uid) (position : Option Nat) :
    Except AttachError (Handle × Game) :=
  match g.engine.registry.get? vnum with
  | none => .error (.unknownTrigger vnum)
  | some p => match g.kindOf target with
    | .error e => .error e
    | .ok kind =>
      if p.kind ≠ kind then .error (.wrongKind vnum p.kind kind)
      else
        let (h, triggers) := g.engine.triggers.insert { proto := p, owner := target }
        let c := ((g.container? target).getD { kind }).insert h position
        let c := { c with types := c.types.union p.events }
        .ok (h, ((g.withTriggers triggers).withContainers (g.engine.containers.set target c)).report
          (.attached vnum target))

/-- Removes an instance and cancels its wait. -/
def dropInstance (g : Game) (h : Handle) : Game :=
  match g.instance? h with
  | none => g
  | some i =>
    let g := g.withTriggers (g.engine.triggers.remove h).2
    let g := match i.wait with
      | some id => g.withWaits (g.engine.waits.cancel id)
      | none => g
    g.report (.detached i.proto.vnum i.owner)

/-- The union of the events of those triggers in a list that are attached. -/
def eventsOf (g : Game) (hs : List Handle) : Bits :=
  (hs.filterMap g.instance?).foldl (fun b i => b.union i.proto.events) 0

/-- Removes an instance and takes it off the list of its owner. -/
def removeInstance (g : Game) (owner : Uid) (h : Handle) : Game :=
  let g := g.dropInstance h
  match g.container? owner with
  | none => g
  | some c =>
    let c := c.erase h
    if c.isEmpty then
      (g.withContainers (g.engine.containers.erase owner)).report (.freedContainer owner)
    else
      g.withContainers (g.engine.containers.set owner { c with types := g.eventsOf c.triggers })

/-- What a detach command names: a number in the list of the triggers, or in the list of those with
a name. -/
def splitSpec (spec : String) : Int × Option String :=
  let cs := (Text.trim spec).toList
  let front := cs.takeWhile (· != '.')
  match cs.dropWhile (· != '.') with
  | _ :: name => (Chars.leadingInt front, some (String.ofList name))
  | [] =>
    if (cs.head?).any Char.isDigit then (Chars.leadingInt cs, none) else (1, some (String.ofList cs))

/-- The trigger of a container that a detach command names. -/
def findBySpec (g : Game) (c : Container) (spec : String) : Option Handle :=
  let (nth, name) := splitSpec spec
  let named := c.triggers.filter fun h =>
    name.all fun name => (g.instance? h).any fun i => Text.isName name i.proto.name
  named[max nth.toNat 1 - 1]?

/-- Detaches the trigger that `spec` names; tells whether there was one. -/
def detach (g : Game) (target : Uid) (spec : String) : Bool × Game :=
  match (g.container? target).bind (g.findBySpec · spec) with
  | none => (false, g)
  | some h => (true, g.removeInstance target h)

/-- Detaches all triggers of an entity and tells how many they were. -/
def detachAll (g : Game) (target : Uid) : Nat × Game :=
  match g.container? target with
  | none => (0, g)
  | some c =>
    let g := g.withContainers (g.engine.containers.erase target)
    (c.triggers.length, (c.triggers.foldl dropInstance g).report (.detachedAll target))

/-- Forgets an entity that leaves the world: its triggers, its variables and its waits. -/
def extractEntity (g : Game) (u : Uid) : Game :=
  let g := match g.container? u with
    | none => g
    | some c =>
      let g := g.withContainers (g.engine.containers.erase u)
      g.withTriggers (c.triggers.foldl (fun ts h => (ts.remove h).2) g.engine.triggers)
  let q := g.engine.waits.cancelOwner u
  let cancelled := g.engine.waits.size - q.size
  let g := g.withWaits q
  if 0 < cancelled then g.report (.cancelledWaits u cancelled) else g

/-- Extracts an entity from the world and makes the engine forget all that left with it. -/
def purge (g : Game) (u : Uid) : Game :=
  let (gone, w) := g.world.extract u
  gone.foldl extractEntity (g.withWorld w)

end Game

end MudTrigger
