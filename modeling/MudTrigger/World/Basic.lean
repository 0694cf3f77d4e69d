import MudTrigger.Entity.Character
import MudTrigger.Entity.Object
import MudTrigger.Entity.Room

/-!
# The world

Rooms, characters and objects are kept in arenas, and an index leads from each identity to its
record. The identities of rooms count up from 50000; characters and objects share a counter that
starts at 100000 and never goes back.
-/

set_option autoImplicit false

namespace MudTrigger

/-- The game's calendar. -/
structure GameTime where
  hours : Nat := 0
  day : Nat := 0
  month : Nat := 0
  year : Nat := 0
  deriving DecidableEq, Inhabited

namespace GameTime

def hoursPerDay : Nat := 24

def daysPerMonth : Nat := 35

def monthsPerYear : Nat := 17

/-- The hours since the start of year zero. -/
def stamp (t : GameTime) : Nat :=
  ((t.year * monthsPerYear + t.month) * daysPerMonth + t.day) * hoursPerDay + t.hours

end GameTime

structure World where
  characters : Arena Character := ∅
  objects : Arena Object := ∅
  rooms : Arena Room := ∅
  index : Table Uid EntityRef := ∅
  roomVnums : Table Vnum Uid := ∅
  /-- The short description of each mobile prototype. -/
  mobileDescs : Table Vnum String := ∅
  /-- The short description of each object prototype. -/
  objectDescs : Table Vnum String := ∅
  nextUid : Nat := Uid.firstMobile
  nextRoom : Nat := 0
  time : GameTime := {}
  /-- What could be seen and heard, the oldest line first. -/
  messages : List String := []
  deriving Inhabited

namespace World

/-- Where the record of an entity is kept, if it is in the world. -/
def resolve (w : World) (u : Uid) : EntityRef := (w.index.get? u).getD .nothing

def character? (w : World) (u : Uid) : Option Character :=
  match w.resolve u with
  | .character h => w.characters.get? h
  | _ => none

def object? (w : World) (u : Uid) : Option Object :=
  match w.resolve u with
  | .object h => w.objects.get? h
  | _ => none

def room? (w : World) (u : Uid) : Option Room :=
  match w.resolve u with
  | .room h => w.rooms.get? h
  | _ => none

def roomByVnum? (w : World) (vnum : Vnum) : Option Room := (w.roomVnums.get? vnum).bind w.room?

/-- Applies `f` to a character, if there is such a one. -/
def modifyCharacter (w : World) (u : Uid) (f : Character → Character) : World :=
  match w.resolve u with
  | .character h => { w with characters := w.characters.modify h f }
  | _ => w

/-- Applies `f` to an object, if there is such a one. -/
def modifyObject (w : World) (u : Uid) (f : Object → Object) : World :=
  match w.resolve u with
  | .object h => { w with objects := w.objects.modify h f }
  | _ => w

/-- Applies `f` to a room, if there is such a one. -/
def modifyRoom (w : World) (u : Uid) (f : Room → Room) : World :=
  match w.resolve u with
  | .room h => { w with rooms := w.rooms.modify h f }
  | _ => w

/-- Adds a line to what could be seen and heard. -/
def tell (w : World) (message : String) : World := { w with messages := w.messages ++ [message] }

def clearMessages (w : World) : World := { w with messages := [] }

def setHour (w : World) (hour : Nat) : World :=
  { w with time := { w.time with hours := hour % GameTime.hoursPerDay } }

/-- What a character does may fire triggers; there has to be such a character. -/
def wakesTriggers (w : World) (u : Uid) : Bool := (w.character? u).any (·.wakesTriggers)

/-- A mobile that runs scripts; there has to be such a mobile. -/
def performsScripts (w : World) (u : Uid) : Bool := (w.character? u).any (·.performsScripts)

/-- The text by which an entity is called in messages. -/
def displayName (w : World) (u : Uid) : String :=
  match w.resolve u with
  | .character h => ((w.characters.get? h).map (·.name)).getD ""
  | .object h => ((w.objects.get? h).map (·.shortDesc)).getD ""
  | .room h => ((w.rooms.get? h).map (·.name)).getD ""
  | .nothing => ""

end World

end MudTrigger
