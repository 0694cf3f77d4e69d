import MudTrigger.Game.Run

/-!
# Pulses

The game's heartbeat. A pulse takes up the runs that are due, in the order of the queue; now and then
it offers the random event to every entity with such a trigger; and when the hour has changed it
offers the time event. Mobiles and rooms in zones without players are left out of the random scan
unless they have a global trigger.
-/

set_option autoImplicit false

namespace MudTrigger

/-- Anything that happens to mobiles, objects or rooms. -/
inductive Event where
  | mobile (e : MobileEvent)
  | object (e : ObjectEvent)
  | room (e : RoomEvent)
  deriving DecidableEq

/-- Lets an event happen; those that cannot be blocked or taken have no answer. -/
def Event.dispatch (host : Host) (run : Runner) (e : Event) (g : Game) : Option Bool × Game :=
  match e with
  | .mobile e => e.dispatch host run g
  | .object e => e.dispatch run g
  | .room e => e.dispatch run g

namespace Game

/-- Takes up runs that are due, `fuel` of them at most. -/
def resumeDue (run : Runner) : Nat → Game → Game
  | 0, g => g
  | fuel + 1, g =>
    match g.engine.waits.popDue? g.engine.pulseCount with
    | none => g
    | some (w, q) =>
      let g := g.withWaits q
      let c := w.continuation
      if (g.instance? c.trigger).any (·.wait = some w.id) then
        resumeDue run fuel (run (g.report (.resuming c.owner c.resumeAt)) c.trigger .resume).2
      else resumeDue run fuel g

/-- The entities that one of these events wakes, in the order of their identities. -/
def ownersWith (g : Game) (events : Bits) : List (Uid × Container) :=
  g.engine.containers.entries.filter fun e => e.2.hasEvent events

/-- The zone of an entity has players in it. -/
def zoneIsActive (host : Host) (g : Game) (u : Uid) (kind : Kind) : Bool :=
  let room := match kind with
    | .room => g.world.room? u
    | _ => g.world.roomOf? u
  room.any fun r => host.zoneIsActive g.world r.zone

/-- Offers the random event to an entity. -/
def rollRandom (host : Host) (run : Runner) (g : Game) (u : Uid) (c : Container) : Game :=
  let active := c.hasEvent MobileEventBit.global.bits || g.zoneIsActive host u c.kind
  match c.kind with
  | .mobile => if active then MobileEvent.onRandom run u g else g
  | .object => ObjectEvent.onRandom run u g
  | .room => if active then RoomEvent.onRandom run u g else g

def scanRandom (host : Host) (run : Runner) (g : Game) : Game :=
  (g.ownersWith MobileEventBit.random.bits).foldl (fun g e => rollRandom host run g e.1 e.2) g

/-- Offers the time event to an entity. -/
def strikeHour (run : Runner) (g : Game) (u : Uid) (c : Container) : Game :=
  match c.kind with
  | .mobile => MobileEvent.onTime run u g
  | .object => ObjectEvent.onTime run u g
  | .room => RoomEvent.onTime run u g

def scanTime (run : Runner) (g : Game) : Game :=
  (g.ownersWith MobileEventBit.time.bits).foldl (fun g e => strikeHour run g e.1 e.2) g

/-- Offers the time event if the hour is another one than at the last pulse. -/
def checkHour (run : Runner) (g : Game) : Game :=
  let hour := g.world.time.hours
  let changed := g.engine.lastHour.any (· ≠ hour)
  let g := { g with engine := { g.engine with lastHour := some hour } }
  if changed then scanTime run g else g

/-- Whether the scan for random triggers falls on this pulse. -/
def isScanPulse (g : Game) : Bool :=
  let interval := g.engine.config.randomCheckInterval
  interval ≠ 0 && g.engine.pulseCount % interval == 0

/-- Advances the game by one pulse. Runs that are suspended meanwhile are due later, so only as many
can be taken up as were pending. -/
def pulse (host : Host) (g : Game) : Game :=
  let g := { g with engine := { g.engine with pulseCount := g.engine.pulseCount + 1 } }
  let g := resumeDue (run host) g.engine.waits.size g
  let g := if g.isScanPulse then scanRandom host (run host) g else g
  checkHour (run host) g

end Game

end MudTrigger
