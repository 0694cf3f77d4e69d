import MudTrigger.Event.Offer

/-!
# Events of mobiles

What happens to a mobile or around it. Actors who are invisible to triggers wake none, and mobiles
that are barred from scripts run none. An event that can be blocked is answered with true if it may
happen; a command is answered with true if a mobile has taken it.
-/

set_option autoImplicit false

namespace MudTrigger

/-- Who and what an act message is about. -/
structure ActParties where
  actor : Uid
  victim : Option Uid := none
  object : Option Uid := none
  target : Option Uid := none
  arg : Option String := none
  arg2 : Option String := none
  deriving DecidableEq

inductive MobileEvent where
  | random (mob : Uid)
  /-- The mobile was given money. -/
  | bribe (mob actor : Uid) (coins : Coins)
  /-- The actor came in, heading in a direction. -/
  | greet (actor : Uid) (heading : Direction)
  /-- The mobile is about to enter a room. -/
  | entry (mob : Uid) (destination : Vnum)
  | command (actor : Uid) (word arg : String)
  | speech (actor : Uid) (text : String)
  /-- The actor spoke to the mobile alone. -/
  | speechTo (actor mob : Uid) (text : String)
  | act (mob : Uid) (text : String) (parties : ActParties)
  /-- A round of a fight. -/
  | fight (mob : Uid)
  | hitPercent (mob : Uid)
  /-- The mobile is being given an object. -/
  | receive (mob actor object : Uid)
  | death (mob : Uid) (actor : Option Uid)
  | load (mob : Uid)
  | cast (actor mob : Uid) (number : Int) (spell : String)
  | leave (actor : Uid) (heading : Option Direction)
  | door (actor : Uid) (action : DoorAction) (side : Direction)
  | time (mob : Uid)
  deriving DecidableEq

namespace MobileEvent

/-! ## Who notices -/

/-- The mobile runs scripts and is itself visible to triggers. -/
def isReady (w : World) (mob : Uid) : Bool := w.performsScripts mob && w.wakesTriggers mob

/-- The mobile runs scripts and is awake. -/
def isAttentive (w : World) (mob : Uid) : Bool :=
  (w.character? mob).any fun c => c.performsScripts && c.isAwake

/-- Another one than the actor who runs scripts, is awake and does not fight. -/
def isWatcher (w : World) (mob actor : Uid) : Bool :=
  mob ≠ actor && (w.character? mob).any fun c =>
    c.performsScripts && c.isAwake && c.fighting.isNone

/-- The one a mobile that runs scripts is fighting. -/
def opponent? (w : World) (mob : Uid) : Option Uid :=
  ((w.character? mob).filter (·.performsScripts)).bind (·.fighting)

/-- The hit points of a mobile in percent of their maximum. -/
def hitPercent? (w : World) (mob : Uid) : Option Int :=
  ((w.character? mob).filter (0 < ·.maxHit)).map fun c => (c.hit * 100).tdiv c.maxHit

/-! ## The events -/

def onRandom (run : Runner) (mob : Uid) (g : Game) : Game :=
  if isReady g.world mob then (g.offer run mob ⟨MobileEventBit.random.bits, .chance, []⟩).2 else g

def bribeOffer (actor : Uid) (coins : Coins) : Offer where
  events := MobileEventBit.bribe.bits
  gate := .reached coins.value
  bindings :=
    [("value", toString coins.value), ("platinum", toString coins.platinum),
      ("gold", toString coins.gold), ("silver", toString coins.silver),
      ("copper", toString coins.copper), actorVar actor]

def onBribe (run : Runner) (mob actor : Uid) (coins : Coins) (g : Game) : Game :=
  if isReady g.world mob && g.world.wakesTriggers actor then
    (g.offer run mob (bribeOffer actor coins)).2
  else g

def greetOffer (actor : Uid) (heading : Direction) (sees : Bool) : Offer where
  events := MobileEventBit.greet.bits.union MobileEventBit.greetAll.bits
  gate := .greeting sees
  bindings := [("direction", heading.reverse.name), actorVar actor]

/-- Lets one after another greet. If the one who greets or the actor is gone afterwards, the entry is
blocked and nobody else greets. -/
def greetEach (host : Host) (run : Runner) (actor : Uid) (heading : Direction) :
    List Uid → Game → Bool × Game
  | [], g => (true, g)
  | mob :: others, g =>
    if isWatcher g.world mob actor then
      match g.offer run mob (greetOffer actor heading (host.canSee g.world mob actor)) with
      | (none, g) => greetEach host run actor heading others g
      | (some result, g) =>
        if (g.world.character? mob).isSome && (g.world.character? actor).isSome then
          let (allowed, g) := greetEach host run actor heading others g
          (result ≠ 0 && allowed, g)
        else (false, g)
    else greetEach host run actor heading others g

def onGreet (host : Host) (run : Runner) (actor : Uid) (heading : Direction) (g : Game) :
    Bool × Game :=
  if g.world.wakesTriggers actor then
    greetEach host run actor heading (g.world.peopleWith actor) g
  else (true, g)

def onEntry (run : Runner) (mob : Uid) (destination : Vnum) (g : Game) : Bool × Game :=
  if isReady g.world mob then
    match g.offer run mob
        ⟨MobileEventBit.entry.bits, .chance, [("destination", toString destination)]⟩ with
    | (none, g) => (true, g)
    | (some result, g) => (result ≠ 0 && (g.world.character? mob).isSome, g)
  else (true, g)

def commandOffer (actor : Uid) (word arg : String) : Offer where
  events := MobileEventBit.command.bits
  gate := .command word
  bindings := commandVars actor word arg

/-- The first mobile that fires decides. -/
def onCommand (run : Runner) (actor : Uid) (word arg : String) (g : Game) : Bool × Game :=
  if g.world.wakesTriggers actor then
    let (answer, g) := g.offerUntilFired run (fun g mob => g.world.performsScripts mob)
      (commandOffer actor word arg) (g.world.peopleWith actor)
    (Game.takes answer, g)
  else (false, g)

def speechOffer (actor : Uid) (text : String) : Offer where
  events := MobileEventBit.speech.bits.union MobileEventBit.speechTo.bits
  gate := .hearing text
  bindings := [actorVar actor, ("speech", text)]

def onSpeech (run : Runner) (actor : Uid) (text : String) (g : Game) : Game :=
  if g.world.wakesTriggers actor then
    (g.offerEach run (fun g mob => mob ≠ actor && isAttentive g.world mob)
      (speechOffer actor text) (g.world.peopleWith actor)).2
  else g

def onSpeechTo (run : Runner) (actor mob : Uid) (text : String) (g : Game) : Game :=
  if g.world.wakesTriggers actor && g.world.wakesTriggers mob && actor ≠ mob &&
      isAttentive g.world mob then
    (g.offer run mob (speechOffer actor text)).2
  else g

def actOffer (text : String) (parties : ActParties) : Offer where
  events := MobileEventBit.act.bits
  gate := .hearing text
  bindings :=
    actorVar parties.actor ::
      (uidVar? "victim" parties.victim ++ uidVar? "object" parties.object ++
        uidVar? "target" parties.target ++
        (parties.arg.map fun a => ("arg", Text.trimStart a)).toList ++
        (parties.arg2.map fun a => ("arg2", Text.trimStart a)).toList ++ [("act", text)])

def onAct (run : Runner) (mob : Uid) (text : String) (parties : ActParties) (g : Game) : Game :=
  if g.world.wakesTriggers parties.actor && g.world.performsScripts mob then
    (g.offer run mob (actOffer text parties)).2
  else g

def onFight (run : Runner) (mob : Uid) (g : Game) : Game :=
  match opponent? g.world mob with
  | none => g
  | some opponent =>
    (g.offer run mob ⟨MobileEventBit.fight.bits, .chance, [actorVar opponent]⟩).2

def onHitPercent (run : Runner) (mob : Uid) (g : Game) : Game :=
  match opponent? g.world mob, hitPercent? g.world mob with
  | some opponent, some percent =>
    (g.offer run mob
      ⟨MobileEventBit.hitPercent.bits, .within percent, [actorVar opponent]⟩).2
  | _, _ => g

/-- Goes through the triggers that an offer wakes. One that is running refuses the object; the first
that passes the gate decides. -/
def receiveEach (run : Runner) (o : Offer) : List Handle → Game → Bool × Game
  | [], g => (true, g)
  | h :: hs, g =>
    match g.instance? h with
    | none => receiveEach run o hs g
    | some i =>
      if !i.proto.events.meets o.events then receiveEach run o hs g
      else if !i.isIdle then (false, g)
      else match o.gate.passes i.proto g with
        | (true, g) =>
          let (result, g) := g.fire run h o.bindings
          (result ≠ 0, g)
        | (false, g) => receiveEach run o hs g

def receiveOffer (actor object : Uid) : Offer where
  events := MobileEventBit.receive.bits
  gate := .chance
  bindings := [actorVar actor, ("object", object.text)]

/-- The triggers of a mobile, if any of them is woken by these events. -/
def triggersWith (g : Game) (mob : Uid) (events : Bits) : List Handle :=
  (((g.container? mob).filter (·.hasEvent events)).map (·.triggers)).getD []

def onReceive (run : Runner) (mob actor object : Uid) (g : Game) : Bool × Game :=
  if isReady g.world mob && g.world.wakesTriggers actor then
    receiveEach run (receiveOffer actor object) (triggersWith g mob MobileEventBit.receive.bits) g
  else (true, g)

/-- Runs those death triggers in a list that are attached and idle when their turn comes; the last
one decides. -/
def deathEach (run : Runner) (bindings : List (String × String)) :
    List Handle → Int → Game → Int × Game
  | [], result, g => (result, g)
  | h :: hs, result, g =>
    if (g.instance? h).any fun i =>
        i.proto.events.meets MobileEventBit.death.bits && i.isIdle then
      let (result, g) := g.fire run h bindings
      deathEach run bindings hs result g
    else deathEach run bindings hs result g

def onDeath (run : Runner) (mob : Uid) (actor : Option Uid) (g : Game) : Bool × Game :=
  if isReady g.world mob && actor.all g.world.wakesTriggers then
    let (result, g) := deathEach run (actor.map actorVar).toList
      (triggersWith g mob MobileEventBit.death.bits) 1 g
    (result ≠ 0, g)
  else (true, g)

def onLoad (run : Runner) (mob : Uid) (g : Game) : Game :=
  if g.world.wakesTriggers mob then
    (g.offer run mob ⟨MobileEventBit.load.bits, .chance, []⟩).2
  else g

def onCast (run : Runner) (actor mob : Uid) (number : Int) (spell : String) (g : Game) :
    Bool × Game :=
  if isReady g.world mob && g.world.wakesTriggers actor then
    let (answer, g) := g.offer run mob
      ⟨MobileEventBit.cast.bits, .chance, actorVar actor :: spellVars number spell⟩
    (Game.allows answer, g)
  else (true, g)

/-- A mobile that notices the actor and sees it. -/
def seesIt (host : Host) (actor : Uid) (g : Game) (mob : Uid) : Bool :=
  isWatcher g.world mob actor && host.canSee g.world mob actor

def leaveOffer (actor : Uid) (heading : Option Direction) : Offer where
  events := MobileEventBit.leave.bits
  gate := .chance
  bindings := [("direction", (heading.map Direction.name).getD "none"), actorVar actor]

def onLeave (host : Host) (run : Runner) (actor : Uid) (heading : Option Direction) (g : Game) :
    Bool × Game :=
  if g.world.wakesTriggers actor then
    let (answer, g) := g.offerUntilFired run (seesIt host actor) (leaveOffer actor heading)
      (g.world.peopleWith actor)
    (Game.allows answer, g)
  else (true, g)

def doorOffer (actor : Uid) (action : DoorAction) (side : Direction) : Offer where
  events := MobileEventBit.door.bits
  gate := .chance
  bindings := [("cmd", action.name), ("direction", side.name), actorVar actor]

def onDoor (host : Host) (run : Runner) (actor : Uid) (action : DoorAction) (side : Direction)
    (g : Game) : Bool × Game :=
  if g.world.wakesTriggers actor then
    let (answer, g) := g.offerUntilFired run (seesIt host actor) (doorOffer actor action side)
      (g.world.peopleWith actor)
    (Game.allows answer, g)
  else (true, g)

def onTime (run : Runner) (mob : Uid) (g : Game) : Game :=
  if isReady g.world mob then
    let hour := g.world.time.hours
    (g.offer run mob ⟨MobileEventBit.time.bits, .exactly hour, [("time", toString hour)]⟩).2
  else g

/-- Lets an event happen; those that cannot be blocked or taken have no answer. -/
def dispatch (host : Host) (run : Runner) (e : MobileEvent) (g : Game) : Option Bool × Game :=
  match e with
  | .random mob => (none, onRandom run mob g)
  | .bribe mob actor coins => (none, onBribe run mob actor coins g)
  | .greet actor heading => (onGreet host run actor heading g).map some id
  | .entry mob destination => (onEntry run mob destination g).map some id
  | .command actor word arg => (onCommand run actor word arg g).map some id
  | .speech actor text => (none, onSpeech run actor text g)
  | .speechTo actor mob text => (none, onSpeechTo run actor mob text g)
  | .act mob text parties => (none, onAct run mob text parties g)
  | .fight mob => (none, onFight run mob g)
  | .hitPercent mob => (none, onHitPercent run mob g)
  | .receive mob actor object => (onReceive run mob actor object g).map some id
  | .death mob actor => (onDeath run mob actor g).map some id
  | .load mob => (none, onLoad run mob g)
  | .cast actor mob number spell => (onCast run actor mob number spell g).map some id
  | .leave actor heading => (onLeave host run actor heading g).map some id
  | .door actor action side => (onDoor host run actor action side g).map some id
  | .time mob => (none, onTime run mob g)

end MobileEvent

end MudTrigger
