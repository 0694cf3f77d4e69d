import MudTrigger.Event.Object

/-!
# Events of rooms

What happens in a room. Where the event names no room it is that of the actor, and without one
nothing is fired.
-/

set_option autoImplicit false

namespace MudTrigger

inductive RoomEvent where
  | random (room : Uid)
  /-- The actor is about to come in, heading in a direction. -/
  | preentry (room actor : Uid) (heading : Direction)
  /-- The actor has come in. -/
  | postentry (actor : Uid) (heading : Direction)
  /-- The zone of the room was reset. -/
  | reset (room : Uid)
  | command (actor : Uid) (word arg : String)
  | speech (actor : Uid) (text : String)
  | drop (object actor : Uid)
  | cast (actor : Uid) (victim object : Option Uid) (number : Int) (spell : String)
  | leave (room actor : Uid) (heading : Direction)
  | door (actor : Uid) (action : DoorAction) (side : Direction)
  | time (room : Uid)
  deriving DecidableEq

namespace RoomEvent

/-- Offers what an actor does in a room. -/
def offerIn (run : Runner) (room actor : Uid) (o : Offer) (g : Game) : Option Int × Game :=
  if g.world.wakesTriggers actor then g.offer run room o else (none, g)

/-- Offers what an actor does in the room where it is. -/
def offerAround (run : Runner) (actor : Uid) (o : Offer) (g : Game) : Option Int × Game :=
  match g.world.roomOf? actor with
  | none => (none, g)
  | some room => offerIn run room.uid actor o g

def onRandom (run : Runner) (room : Uid) (g : Game) : Game :=
  (g.offer run room ⟨RoomEventBit.random.bits, .chance, []⟩).2

def entryVars (actor : Uid) (heading : Direction) : List (String × String) :=
  [("direction", heading.reverse.name), actorVar actor]

def onPreentry (run : Runner) (room actor : Uid) (heading : Direction) (g : Game) : Bool × Game :=
  (offerIn run room actor
    ⟨RoomEventBit.preentry.bits, .chance, entryVars actor heading⟩ g).map Game.allows id

def onPostentry (run : Runner) (actor : Uid) (heading : Direction) (g : Game) : Bool × Game :=
  (offerAround run actor
    ⟨RoomEventBit.postentry.bits, .chance, entryVars actor heading⟩ g).map Game.allows id

def onReset (run : Runner) (room : Uid) (g : Game) : Game :=
  (g.offer run room ⟨RoomEventBit.reset.bits, .chance, []⟩).2

def onCommand (run : Runner) (actor : Uid) (word arg : String) (g : Game) : Bool × Game :=
  (offerAround run actor
    ⟨RoomEventBit.command.bits, .command word, commandVars actor word arg⟩ g).map Game.takes id

def onSpeech (run : Runner) (actor : Uid) (text : String) (g : Game) : Game :=
  (offerAround run actor
    ⟨RoomEventBit.speech.bits, .hearing text, [actorVar actor, ("speech", text)]⟩ g).2

/-- Blocked also if the actor does not carry the object any more after the script. -/
def onDrop (run : Runner) (object actor : Uid) (g : Game) : Bool × Game :=
  match offerAround run actor
      ⟨RoomEventBit.drop.bits, .chance, [actorVar actor, ("object", object.text)]⟩ g with
  | (none, g) => (true, g)
  | (some result, g) => (ObjectEvent.isCarriedBy g.world object actor && result ≠ 0, g)

def castVars (actor : Uid) (victim object : Option Uid) (number : Int) (spell : String) :
    List (String × String) :=
  actorVar actor :: (uidVar? "victim" victim ++ uidVar? "object" object ++ spellVars number spell)

def onCast (run : Runner) (actor : Uid) (victim object : Option Uid) (number : Int)
    (spell : String) (g : Game) : Bool × Game :=
  (offerAround run actor
    ⟨RoomEventBit.cast.bits, .chance, castVars actor victim object number spell⟩ g).map
    Game.allows id

def onLeave (run : Runner) (room actor : Uid) (heading : Direction) (g : Game) : Bool × Game :=
  (offerIn run room actor
    ⟨RoomEventBit.leave.bits, .chance, [("direction", heading.name), actorVar actor]⟩ g).map
    Game.allows id

def onDoor (run : Runner) (actor : Uid) (action : DoorAction) (side : Direction) (g : Game) :
    Bool × Game :=
  (offerAround run actor
    ⟨RoomEventBit.door.bits, .chance,
      [("cmd", action.name), ("direction", side.name), actorVar actor]⟩ g).map Game.allows id

def onTime (run : Runner) (room : Uid) (g : Game) : Game :=
  let hour := g.world.time.hours
  (g.offer run room ⟨RoomEventBit.time.bits, .exactly hour, [("time", toString hour)]⟩).2

/-- Lets an event happen; those that cannot be blocked or taken have no answer. -/
def dispatch (run : Runner) (e : RoomEvent) (g : Game) : Option Bool × Game :=
  match e with
  | .random room => (none, onRandom run room g)
  | .preentry room actor heading => (onPreentry run room actor heading g).map some id
  | .postentry actor heading => (onPostentry run actor heading g).map some id
  | .reset room => (none, onReset run room g)
  | .command actor word arg => (onCommand run actor word arg g).map some id
  | .speech actor text => (none, onSpeech run actor text g)
  | .drop object actor => (onDrop run object actor g).map some id
  | .cast actor victim object number spell =>
    (onCast run actor victim object number spell g).map some id
  | .leave room actor heading => (onLeave run room actor heading g).map some id
  | .door actor action side => (onDoor run actor action side g).map some id
  | .time room => (none, onTime run room g)

end RoomEvent

end MudTrigger
