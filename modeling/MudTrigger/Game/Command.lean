import MudTrigger.Event.Mobile
import MudTrigger.Event.Room
import MudTrigger.Game.Attachment

/-!
# Commands of the world

What a character, an object or a room does with a line of text, and how a character walks from room
to room. Speaking, walking and typed lines fire triggers; the scripts are run by the runner that is
given.
-/

set_option autoImplicit false

namespace MudTrigger

namespace Game

/-! ## Commands -/

/-- Says a text aloud: first the mobiles hear it, then the room. -/
def doSay (run : Runner) (actor : Uid) (text : String) (g : Game) : Game :=
  let g := g.withWorld (g.world.tell s!"{g.world.displayName actor} says, '{text}'")
  RoomEvent.onSpeech run actor text (MobileEvent.onSpeech run actor text g)

def isPlayer (w : World) (u : Uid) : Bool := (w.character? u).any (!·.isMobile)

/-- What a purge command removes: what it names, or everything in the room but players and the
actor. -/
def purgeTargets (w : World) (actor : Uid) (arg : String) : Option (List Uid) :=
  if arg = "" then
    some <| match w.roomOf? actor with
      | none => []
      | some room => (room.people ++ room.contents).filter fun u => u ≠ actor && !isPlayer w u
  else match w.lookup? actor arg with
    | some u => if u.isRoomRange then none else some [u]
    | none => none

/-- Purges entities one after another, players excepted. -/
def purgeAll (g : Game) (us : List Uid) : Game :=
  us.foldl (fun g u => if isPlayer g.world u then g else g.purge u) g

def doPurge (actor : Uid) (arg : String) (g : Game) : Game :=
  match purgeTargets g.world actor arg with
  | none => g.report (.purgeTargetMissing arg)
  | some us => g.purgeAll us

def doAttach (actor : Uid) (arg : String) (g : Game) : Game :=
  let (number, name) := Text.splitWord arg
  match Text.int32? number with
  | none => g.report (.attachWithoutVnum arg)
  | some vnum => match g.world.lookup? actor name with
    | none => g.report (.attachTargetMissing arg)
    | some target => match g.attach vnum target none with
      | .error e => g.report (.attachRefused e)
      | .ok (_, g) => g

def doDetach (actor : Uid) (arg : String) (g : Game) : Game :=
  let (name, spec) := Text.splitWord arg
  match g.world.lookup? actor name with
  | none => g.report (.detachTargetMissing arg)
  | some target =>
    if Text.sameLetters spec "all" then (g.detachAll target).2 else (g.detach target spec).2

/-- The room that a vnum or else an identity names. -/
def destination? (w : World) (arg : String) : Option Uid :=
  match (Text.int32? (Text.trim arg)).bind w.roomVnums.get? with
  | some u => some u
  | none => (Uid.parse? arg).filter fun u => (w.room? u).isSome

def doGoto (actor : Uid) (arg : String) (g : Game) : Game :=
  match destination? g.world arg with
  | some room => g.withWorld (g.world.placeCharacter actor room)
  | none => g.report (.gotoTargetMissing arg)

/-- Carries out a line of text for an actor. -/
def execute (run : Runner) (g : Game) (actor : Uid) (line : String) : Game :=
  let (word, arg) := Text.splitWord line
  match Text.fold word with
  | "echo" => g.withWorld (g.world.tell arg)
  | "emote" => g.withWorld (g.world.tell s!"{g.world.displayName actor} {arg}")
  | "say" => g.doSay run actor arg
  | "purge" => g.doPurge actor arg
  | "attach" => g.doAttach actor arg
  | "detach" => g.doDetach actor arg
  | "goto" => g.doGoto actor arg
  | "" => g
  | _ => g.report (.unknownCommand actor line)

/-- Takes a line that an actor typed: the room, its mobiles and then objects may take the command,
and otherwise it is carried out. -/
def interpret (run : Runner) (actor : Uid) (line : String) (g : Game) : Game :=
  let (word, arg) := Text.splitWord (Text.trim line)
  if word = "" then g
  else match RoomEvent.onCommand run actor word arg g with
    | (true, g) => g
    | (false, g) => match MobileEvent.onCommand run actor word arg g with
      | (true, g) => g
      | (false, g) => match ObjectEvent.onCommand run actor word arg g with
        | (true, g) => g
        | (false, g) => g.execute run actor line

/-! ## Walking -/

/-- The room where an actor is, the vnum behind its exit in a direction, and the room there. -/
def wayOut? (w : World) (actor : Uid) (d : Direction) : Option (Uid × Vnum × Uid) := do
  let room ← w.roomOf? actor
  let vnum ← (← room.exits.get? d).toRoom
  let finish ← w.roomVnums.get? vnum
  return (room.uid, vnum, finish)

/-- The actor is a character in this room. -/
def isStillIn (w : World) (actor room : Uid) : Bool :=
  (w.character? actor).any (·.inRoom = some room)

/-- The events that may keep an actor from leaving: first those of the mobiles it leaves, then of the
room and of what lies there, then its own, and last those of the room ahead. After each of the first
three the actor still has to be where it was. -/
def mayLeave (run : Runner) (actor start : Uid) (vnum : Vnum) (finish : Uid) (d : Direction)
    (g : Game) : Bool × Game :=
  match MobileEvent.onLeave .standard run actor (some d) g with
  | (allowed, g) =>
    if !(allowed && isStillIn g.world actor start) then (false, g)
    else match RoomEvent.onLeave run start actor d g with
      | (allowed, g) =>
        if !(allowed && isStillIn g.world actor start) then (false, g)
        else match ObjectEvent.onLeave run start actor (some d) g with
          | (allowed, g) =>
            if !(allowed && isStillIn g.world actor start) then (false, g)
            else match MobileEvent.onEntry run actor vnum g with
              | (false, g) => (false, g)
              | (true, g) => RoomEvent.onPreentry run finish actor d g

/-- Puts the actor into the room ahead and lets it be greeted; one that is turned away goes back. -/
def arrive (run : Runner) (actor start finish : Uid) (d : Direction) (g : Game) : Bool × Game :=
  let g := g.withWorld (g.world.placeCharacter actor finish)
  match MobileEvent.onGreet .standard run actor d g with
  | (true, g) => (true, (RoomEvent.onPostentry run actor d g).2)
  | (false, g) => (false, g.withWorld (g.world.placeCharacter actor start))

/-- Walks through the exit in a direction; tells whether the actor went. -/
def walk (run : Runner) (actor : Uid) (d : Direction) (g : Game) : Bool × Game :=
  match wayOut? g.world actor d with
  | none => (false, g)
  | some (start, vnum, finish) =>
    match mayLeave run actor start vnum finish d g with
    | (false, g) => (false, g)
    | (true, g) => arrive run actor start finish d g

end Game

end MudTrigger
