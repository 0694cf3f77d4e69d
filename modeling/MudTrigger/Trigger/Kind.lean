import MudTrigger.Bits

/-!
# Kinds of triggers and their events

A trigger belongs to mobiles, to objects or to rooms. The events that wake it are bits, and the
same bit means different events for different kinds: bit 3 is speech for a mobile and an attack for
an object. Random, time and global have one bit for all kinds.
-/

set_option autoImplicit false

namespace MudTrigger

/-- What a trigger attaches to. -/
inductive Kind where
  | mobile
  | object
  | room
  deriving DecidableEq, Inhabited

/-- The bits of the events that wake the triggers of mobiles. -/
inductive MobileEventBit where
  | global
  | random
  | command
  | speech
  | act
  | death
  | greet
  | greetAll
  | entry
  | receive
  | fight
  | hitPercent
  | bribe
  | speechTo
  | load
  | cast
  | leave
  | door
  | time
  deriving DecidableEq

/-- The bits of the events that wake the triggers of objects. -/
inductive ObjectEventBit where
  | global
  | random
  | command
  | attack
  | defend
  | timer
  | get
  | drop
  | give
  | wear
  | death
  | remove
  | load
  | cast
  | leave
  | consume
  | time
  deriving DecidableEq

/-- The bits of the events that wake the triggers of rooms. -/
inductive RoomEventBit where
  | global
  | random
  | command
  | speech
  | reset
  | preentry
  | drop
  | postentry
  | cast
  | leave
  | door
  | time
  deriving DecidableEq

namespace MobileEventBit

def all : List MobileEventBit :=
  [global, random, command, speech, act, death, greet, greetAll, entry, receive, fight, hitPercent,
    bribe, speechTo, load, cast, leave, door, time]

def number : MobileEventBit → Nat
  | global => 0
  | random => 1
  | command => 2
  | speech => 3
  | act => 4
  | death => 5
  | greet => 6
  | greetAll => 7
  | entry => 8
  | receive => 9
  | fight => 10
  | hitPercent => 11
  | bribe => 12
  | speechTo => 13
  | load => 14
  | cast => 15
  | leave => 16
  | door => 17
  | time => 19

def bits (e : MobileEventBit) : Bits := Bits.bit e.number

end MobileEventBit

namespace ObjectEventBit

def all : List ObjectEventBit :=
  [global, random, command, attack, defend, timer, get, drop, give, wear, death, remove, load, cast,
    leave, consume, time]

def number : ObjectEventBit → Nat
  | global => 0
  | random => 1
  | command => 2
  | attack => 3
  | defend => 4
  | timer => 5
  | get => 6
  | drop => 7
  | give => 8
  | wear => 9
  | death => 10
  | remove => 11
  | load => 14
  | cast => 15
  | leave => 16
  | consume => 18
  | time => 19

def bits (e : ObjectEventBit) : Bits := Bits.bit e.number

end ObjectEventBit

namespace RoomEventBit

def all : List RoomEventBit :=
  [global, random, command, speech, reset, preentry, drop, postentry, cast, leave, door, time]

def number : RoomEventBit → Nat
  | global => 0
  | random => 1
  | command => 2
  | speech => 3
  | reset => 5
  | preentry => 6
  | drop => 7
  | postentry => 8
  | cast => 15
  | leave => 16
  | door => 17
  | time => 19

def bits (e : RoomEventBit) : Bits := Bits.bit e.number

end RoomEventBit

/-- Where a command trigger of an object listens: a bit of its numeric argument. -/
inductive Scope where
  | worn
  | carried
  | floor
  deriving DecidableEq, Inhabited

namespace Scope

def all : List Scope := [worn, carried, floor]

def number : Scope → Nat
  | worn => 0
  | carried => 1
  | floor => 2

def bits (s : Scope) : Bits := Bits.bit s.number

/-- The scope is among the bits of a 32-bit numeric argument. -/
def isIn (s : Scope) (narg : Int) : Bool := (narg % 0x1_0000_0000).toNat.testBit s.number

end Scope

namespace Kind

/-- The number of a kind in definition files. -/
def code : Kind → Int
  | mobile => 0
  | object => 1
  | room => 2

def ofCode? (code : Int) : Option Kind :=
  if code = 0 then some mobile
  else if code = 1 then some object
  else if code = 2 then some room
  else none

def name : Kind → String
  | mobile => "Mobile"
  | object => "Object"
  | room => "Room"

/-- The kind that a keyword of the builders' commands names. -/
def ofKeyword? (word : String) : Option Kind :=
  match Text.fold word with
  | "mtr" => some mobile
  | "mob" => some mobile
  | "mobile" => some mobile
  | "otr" => some object
  | "obj" => some object
  | "object" => some object
  | "wtr" => some room
  | "room" => some room
  | "world" => some room
  | _ => none

/-- The names of the event bits. -/
def eventNames : Kind → List String
  | mobile =>
    ["Global", "Random", "Command", "Speech", "Act", "Death", "Greet", "Greet-All", "Entry",
      "Receive", "Fight", "HitPrcnt", "Bribe", "SpeechTo", "Load", "Cast", "Leave", "Door",
      "UNUSED", "Time"]
  | object =>
    ["Global", "Random", "Command", "Attack", "Defend", "Timer", "Get", "Drop", "Give", "Wear",
      "Death", "Remove", "UNUSED", "UNUSED", "Load", "Cast", "Leave", "UNUSED", "Consume", "Time"]
  | room =>
    ["Global", "Random", "Command", "Speech", "UNUSED", "Reset", "Preentry", "Drop", "Postentry",
      "UNUSED", "UNUSED", "UNUSED", "UNUSED", "UNUSED", "UNUSED", "Cast", "Leave", "Door",
      "UNUSED", "Time"]

/-- The event of an owner's death; rooms have none. -/
def deathBits : Kind → Bits
  | mobile => MobileEventBit.death.bits
  | object => ObjectEventBit.death.bits
  | room => 0

end Kind

end MudTrigger
