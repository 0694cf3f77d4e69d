import MudTrigger.Game.Basic
import MudTrigger.Text.Phrase

/-!
# Offering an event

An event is offered to an entity: the first of its idle triggers that the event wakes and whose gate
passes is fired, with the variables of the event bound as its locals. Gates see the triggers in
firing order, and a gate that rolls dice rolls them for every trigger it sees.
-/

set_option autoImplicit false

namespace MudTrigger

/-- What a trigger has to pass to be fired. -/
inductive Gate where
  | always
  /-- A roll of a hundred is within the numeric argument. -/
  | chance
  /-- The numeric argument is at most this. -/
  | reached (value : Int)
  /-- The numeric argument is at least this. -/
  | within (value : Int)
  /-- The numeric argument is this. -/
  | exactly (value : Int)
  /-- The text argument starts with the typed command. -/
  | command (word : String)
  /-- The same for an object that listens from here. -/
  | heardFrom (scope : Scope) (word : String)
  /-- The text holds the argument: as a phrase if the numeric argument is 0, else one of its words. -/
  | hearing (text : String)
  /-- A roll as well, for triggers that greet everyone or whose owner sees the actor. -/
  | greeting (sees : Bool)
  deriving DecidableEq

/-- An event as it is put to the triggers of an entity. -/
structure Offer where
  events : Bits
  gate : Gate
  /-- The variables that tell the script about the event. -/
  bindings : List (String × String) := []

namespace Gate

/-- Refuses a trigger without a text argument, which is its author's fault. -/
def withTextArg (p : Prototype) (g : Game) (passed : Bool) : Bool × Game :=
  if Text.isBlank p.arg then (false, g.blame p [.noTextArgument]) else (passed, g)

def roll (p : Prototype) (g : Game) : Bool × Game :=
  let rolled := g.engine.dice.percent p.narg
  (rolled.1, g.withDice rolled.2)

/-- The text argument occurs in what was said or seen. -/
def heard (p : Prototype) (text : String) : Bool :=
  if p.narg ≠ 0 then Text.matchesList text p.arg else Text.hasPhrase p.arg text

/-- The trigger answers to what the actor does, seen or not. -/
def greets (p : Prototype) (sees : Bool) : Bool :=
  (sees && p.events.meets MobileEventBit.greet.bits) ||
    p.events.meets MobileEventBit.greetAll.bits

/-- Tells whether a trigger passes. -/
def passes (gate : Gate) (p : Prototype) (g : Game) : Bool × Game :=
  match gate with
  | .always => (true, g)
  | .chance => roll p g
  | .reached value => (decide (p.narg ≤ value), g)
  | .within value => (decide (value ≤ p.narg), g)
  | .exactly value => (decide (p.narg = value), g)
  | .command word => withTextArg p g (Text.matchesCommand p.arg word)
  | .heardFrom scope word =>
    if scope.isIn p.narg then withTextArg p g (Text.matchesCommand p.arg word) else (false, g)
  | .hearing text => withTextArg p g (heard p text)
  | .greeting sees => if greets p sees then roll p g else (false, g)

end Gate

namespace Game

/-- The first idle trigger in a list that the event wakes and whose gate passes. -/
def scan (o : Offer) : List Handle → Game → Option Handle × Game
  | [], g => (none, g)
  | h :: hs, g =>
    match g.instance? h with
    | none => scan o hs g
    | some i =>
      if i.proto.events.meets o.events && i.isIdle then
        match o.gate.passes i.proto g with
        | (true, g) => (some h, g)
        | (false, g) => scan o hs g
      else scan o hs g

/-- The trigger of an entity that an event fires. -/
def triggerFor (u : Uid) (o : Offer) (g : Game) : Option Handle × Game :=
  match g.container? u with
  | none => (none, g)
  | some c => if c.hasEvent o.events then scan o c.triggers g else (none, g)

/-- Binds the variables of an event and runs the script from its first line. -/
def fire (run : Runner) (h : Handle) (bindings : List (String × String)) (g : Game) : Int × Game :=
  run (g.bindLocals h bindings) h .new

/-- Offers an event to an entity; the answer is that of the run, if a trigger was fired. -/
def offer (run : Runner) (u : Uid) (o : Offer) (g : Game) : Option Int × Game :=
  match g.triggerFor u o with
  | (none, g) => (none, g)
  | (some h, g) =>
    let (result, g) := g.fire run h o.bindings
    (some result, g)

/-- Nothing was fired, or what was fired does not block. -/
def allows (answer : Option Int) : Bool := answer.all (· ≠ 0)

/-- Something was fired that does not decline. -/
def takes (answer : Option Int) : Bool := answer.any (· ≠ 0)

/-! ## Offers to several entities -/

/-- Offers to one after another of those that are able when their turn comes, until a trigger is
fired. -/
def offerUntilFired (run : Runner) (able : Game → Uid → Bool) (o : Offer) :
    List Uid → Game → Option Int × Game
  | [], g => (none, g)
  | u :: us, g =>
    if able g u then
      match g.offer run u o with
      | (some result, g) => (some result, g)
      | (none, g) => offerUntilFired run able o us g
    else offerUntilFired run able o us g

/-- Offers to one after another, until a trigger is fired that does not decline. -/
def offerUntilTaken (run : Runner) (o : Offer) : List Uid → Game → Bool × Game
  | [], g => (false, g)
  | u :: us, g =>
    match g.offer run u o with
    | (answer, g) => if takes answer then (true, g) else offerUntilTaken run o us g

/-- Offers to each of those that are able when their turn comes; any of them may block. -/
def offerEach (run : Runner) (able : Game → Uid → Bool) (o : Offer) :
    List Uid → Game → Bool × Game
  | [], g => (true, g)
  | u :: us, g =>
    if able g u then
      let (answer, g) := g.offer run u o
      let (allowed, g) := offerEach run able o us g
      (allows answer && allowed, g)
    else offerEach run able o us g

end Game

/-! ## Variables of events -/

/-- The variable of the one who acts. -/
def actorVar (u : Uid) : String × String := ("actor", u.text)

/-- The variables of a typed command. -/
def commandVars (actor : Uid) (word arg : String) : List (String × String) :=
  [actorVar actor, ("arg", Text.trimStart arg), ("cmd", Text.trimStart word)]

/-- A variable for an entity that may be missing. -/
def uidVar? (name : String) (u : Option Uid) : List (String × String) :=
  (u.map fun u => (name, u.text)).toList

/-- The variables of a spell. -/
def spellVars (number : Int) (name : String) : List (String × String) :=
  [("spellnum", toString number), ("spell", name)]

/-- What is done to a door. -/
inductive DoorAction where
  | openDoor
  | close
  | unlock
  | lock
  | pick
  deriving DecidableEq, Inhabited

namespace DoorAction

def all : List DoorAction := [openDoor, close, unlock, lock, pick]

def name : DoorAction → String
  | openDoor => "open"
  | close => "close"
  | unlock => "unlock"
  | lock => "lock"
  | pick => "pick"

end DoorAction

/-- How an object is consumed. -/
inductive ConsumeKind where
  | eat
  | drink
  | quaff
  deriving DecidableEq, Inhabited

namespace ConsumeKind

def all : List ConsumeKind := [eat, drink, quaff]

def name : ConsumeKind → String
  | eat => "eat"
  | drink => "drink"
  | quaff => "quaff"

end ConsumeKind

end MudTrigger
