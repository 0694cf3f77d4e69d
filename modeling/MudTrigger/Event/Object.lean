import MudTrigger.Event.Offer

/-!
# Events of objects

What is done with an object or near it. Where the actor was going to do something with the object,
the answer is false also if a script has taken the object out of the world meanwhile.
-/

set_option autoImplicit false

namespace MudTrigger

inductive ObjectEvent where
  | random (object : Uid)
  /-- The timer of the object ran out. -/
  | timer (object : Uid)
  | get (object actor : Uid)
  | command (actor : Uid) (word arg : String)
  /-- The actor hit a victim. -/
  | attack (actor victim : Uid) (damage : Int)
  | wear (object actor : Uid) (position : Nat)
  /-- The one who wears objects died. -/
  | death (actor : Uid)
  | drop (object actor : Uid)
  /-- The actor is taking the object off. -/
  | remove (object actor : Uid)
  | give (object actor victim : Uid)
  | load (object : Uid)
  | cast (actor object : Uid) (number : Int) (spell : String)
  /-- The actor is leaving the room in which objects lie. -/
  | leave (room actor : Uid) (heading : Option Direction)
  | consume (object actor : Uid) (kind : ConsumeKind)
  | time (object : Uid)
  deriving DecidableEq

namespace ObjectEvent

def isThere (w : World) (object : Uid) : Bool := (w.object? object).isSome

def isCarriedBy (w : World) (object actor : Uid) : Bool :=
  (w.object? object).any (·.location = .carried actor)

/-- What a character wears, in the order of the wear positions. -/
def wornBy (w : World) (u : Uid) : List Uid :=
  ((w.character? u).map (·.equipment.values)).getD []

def carriedBy (w : World) (u : Uid) : List Uid := ((w.character? u).map (·.inventory)).getD []

def lyingNear (w : World) (u : Uid) : List Uid := ((w.roomOf? u).map (·.contents)).getD []

/-- Offers what an actor does with an object: it may go on if nothing blocks it and, where a script
was run, what the actor needs still holds. -/
def onHandling (run : Runner) (object actor : Uid) (needs : World → Bool) (o : Offer) (g : Game) :
    Bool × Game :=
  if g.world.wakesTriggers actor then
    match g.offer run object o with
    | (none, g) => (true, g)
    | (some result, g) => (result ≠ 0 && needs g.world, g)
  else (true, g)

def onRandom (run : Runner) (object : Uid) (g : Game) : Game :=
  (g.offer run object ⟨ObjectEventBit.random.bits, .chance, []⟩).2

def onTimer (run : Runner) (object : Uid) (g : Game) : Bool × Game :=
  let (answer, g) := g.offer run object ⟨ObjectEventBit.timer.bits, .chance, []⟩
  (Game.allows answer, g)

def onGet (run : Runner) (object actor : Uid) (g : Game) : Bool × Game :=
  onHandling run object actor (isThere · object)
    ⟨ObjectEventBit.get.bits, .chance, [actorVar actor]⟩ g

def commandOffer (scope : Scope) (actor : Uid) (word arg : String) : Offer where
  events := ObjectEventBit.command.bits
  gate := .heardFrom scope word
  bindings := commandVars actor word arg

/-- Asks what the actor wears, then what it carries, then what lies around, all as they were at the
beginning, until an object takes the command. -/
def onCommand (run : Runner) (actor : Uid) (word arg : String) (g : Game) : Bool × Game :=
  if g.world.wakesTriggers actor then
    let worn := wornBy g.world actor
    let carried := carriedBy g.world actor
    let floor := lyingNear g.world actor
    match g.offerUntilTaken run (commandOffer .worn actor word arg) worn with
    | (true, g) => (true, g)
    | (false, g) =>
      match g.offerUntilTaken run (commandOffer .carried actor word arg) carried with
      | (true, g) => (true, g)
      | (false, g) => g.offerUntilTaken run (commandOffer .floor actor word arg) floor
  else (false, g)

def attackVars (actor victim : Uid) (damage : Int) : List (String × String) :=
  [("damage", toString damage), actorVar actor, ("victim", victim.text)]

/-- Offers the attack to what the actor wears, and then the defence to what the victim wears. -/
def onAttack (run : Runner) (actor victim : Uid) (damage : Int) (g : Game) : Game :=
  if g.world.wakesTriggers actor then
    let vars := attackVars actor victim damage
    let g := (g.offerEach run (fun _ _ => true) ⟨ObjectEventBit.attack.bits, .chance, vars⟩
      (wornBy g.world actor)).2
    (g.offerEach run (fun _ _ => true) ⟨ObjectEventBit.defend.bits, .chance, vars⟩
      (wornBy g.world victim)).2
  else g

def onWear (run : Runner) (object actor : Uid) (position : Nat) (g : Game) : Bool × Game :=
  onHandling run object actor (isThere · object)
    ⟨ObjectEventBit.wear.bits, .always, [("position", toString position), actorVar actor]⟩ g

/-- The first worn object that fires decides. -/
def onDeath (run : Runner) (actor : Uid) (g : Game) : Bool × Game :=
  let (answer, g) := g.offerUntilFired run (fun _ _ => true)
    ⟨ObjectEventBit.death.bits, .always, [actorVar actor]⟩ (wornBy g.world actor)
  (Game.allows answer, g)

def onDrop (run : Runner) (object actor : Uid) (g : Game) : Bool × Game :=
  onHandling run object actor (isThere · object)
    ⟨ObjectEventBit.drop.bits, .chance, [actorVar actor]⟩ g

def onRemove (run : Runner) (object actor : Uid) (g : Game) : Bool × Game :=
  onHandling run object actor (isThere · object)
    ⟨ObjectEventBit.remove.bits, .chance, [actorVar actor]⟩ g

def onGive (run : Runner) (object actor victim : Uid) (g : Game) : Bool × Game :=
  onHandling run object actor (isCarriedBy · object actor)
    ⟨ObjectEventBit.give.bits, .chance, [actorVar actor, ("victim", victim.text)]⟩ g

def onLoad (run : Runner) (object : Uid) (g : Game) : Game :=
  (g.offer run object ⟨ObjectEventBit.load.bits, .chance, []⟩).2

def onCast (run : Runner) (actor object : Uid) (number : Int) (spell : String) (g : Game) :
    Bool × Game :=
  onHandling run object actor (fun _ => true)
    ⟨ObjectEventBit.cast.bits, .chance, actorVar actor :: spellVars number spell⟩ g

def leaveOffer (actor : Uid) (heading : Option Direction) : Offer where
  events := ObjectEventBit.leave.bits
  gate := .chance
  bindings := [("direction", (heading.map Direction.name).getD "none"), actorVar actor]

/-- Any of the objects that lay in the room may block. -/
def onLeave (run : Runner) (room actor : Uid) (heading : Option Direction) (g : Game) :
    Bool × Game :=
  if g.world.wakesTriggers actor then
    g.offerEach run (fun _ _ => true) (leaveOffer actor heading)
      (((g.world.room? room).map (·.contents)).getD [])
  else (true, g)

def onConsume (run : Runner) (object actor : Uid) (kind : ConsumeKind) (g : Game) : Bool × Game :=
  onHandling run object actor (isThere · object)
    ⟨ObjectEventBit.consume.bits, .always, [actorVar actor, ("command", kind.name)]⟩ g

def onTime (run : Runner) (object : Uid) (g : Game) : Game :=
  let hour := g.world.time.hours
  (g.offer run object ⟨ObjectEventBit.time.bits, .exactly hour, [("time", toString hour)]⟩).2

/-- Lets an event happen; those that cannot be blocked or taken have no answer. -/
def dispatch (run : Runner) (e : ObjectEvent) (g : Game) : Option Bool × Game :=
  match e with
  | .random object => (none, onRandom run object g)
  | .timer object => (onTimer run object g).map some id
  | .get object actor => (onGet run object actor g).map some id
  | .command actor word arg => (onCommand run actor word arg g).map some id
  | .attack actor victim damage => (none, onAttack run actor victim damage g)
  | .wear object actor position => (onWear run object actor position g).map some id
  | .death actor => (onDeath run actor g).map some id
  | .drop object actor => (onDrop run object actor g).map some id
  | .remove object actor => (onRemove run object actor g).map some id
  | .give object actor victim => (onGive run object actor victim g).map some id
  | .load object => (none, onLoad run object g)
  | .cast actor object number spell => (onCast run actor object number spell g).map some id
  | .leave room actor heading => (onLeave run room actor heading g).map some id
  | .consume object actor kind => (onConsume run object actor kind g).map some id
  | .time object => (none, onTime run object g)

end ObjectEvent

end MudTrigger
