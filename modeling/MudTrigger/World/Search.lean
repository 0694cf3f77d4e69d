import MudTrigger.World.Basic
import MudTrigger.Random.Dice

/-!
# Finding and seeing

The room an entity is in, what a keyword stands for near an entity, who sees whom, which zones have
players in them, and the prototypes in use.
-/

set_option autoImplicit false

namespace MudTrigger

namespace World

/-- The room an entity is in, when objects are followed to their holders `fuel` times at most. -/
def roomOfWithin (w : World) : Nat → Uid → Option Room
  | 0, _ => none
  | fuel + 1, u =>
    match w.resolve u with
    | .room h => w.rooms.get? h
    | .character h => ((w.characters.get? h).bind (·.inRoom)).bind w.room?
    | .object h =>
      match (w.objects.get? h).map Object.location with
      | some (.room room) => w.roomOfWithin fuel room
      | some (.carried holder) => w.roomOfWithin fuel holder
      | some (.worn holder _) => w.roomOfWithin fuel holder
      | some (.inside container) => w.roomOfWithin fuel container
      | some .nowhere => none
      | none => none
    | .nothing => none

/-- The deepest nesting of objects that is followed. -/
def maxNesting : Nat := 32

/-- The room an entity is in; objects are where their holders are. -/
def roomOf? (w : World) (u : Uid) : Option Room := w.roomOfWithin maxNesting u

/-- The people in the room of an entity. -/
def peopleWith (w : World) (u : Uid) : List Uid := ((w.roomOf? u).map (·.people)).getD []

def characterHasName (w : World) (name : String) (u : Uid) : Bool :=
  (w.character? u).any fun c => Text.isName name c.aliases

def objectHasName (w : World) (name : String) (u : Uid) : Bool :=
  (w.object? u).any fun o => Text.isName name o.aliases

/-- The entry with the smallest identity, the first of those that share it. -/
def leastUid {α : Type} (uid : α → Uid) : List (Handle × α) → Option (Handle × α)
  | [] => none
  | x :: xs =>
    match leastUid uid xs with
    | some y => if uid y.2 < uid x.2 then some y else some x
    | none => some x

/-- The character or else the object anywhere that a keyword stands for. -/
def findAnywhere (w : World) (name : String) : EntityRef :=
  match leastUid Character.uid
      (w.characters.toList.filter fun c => Text.isName name c.2.aliases) with
  | some c => .character c.1
  | none =>
    match leastUid Object.uid (w.objects.toList.filter fun o => Text.isName name o.2.aliases) with
    | some o => .object o.1
    | none => .nothing

/-- What a keyword stands for: among the people around `near`, then among what it carries and what
lies around, then anywhere. -/
def findByName (w : World) (near : Uid) (name : String) : EntityRef :=
  let name := Text.trim name
  match (w.peopleWith near).find? (w.characterHasName name) with
  | some u => w.resolve u
  | none =>
    let carried := ((w.character? near).map (·.inventory)).getD []
    let floor := ((w.roomOf? near).map (·.contents)).getD []
    match (carried ++ floor).find? (w.objectHasName name) with
    | some u => w.resolve u
    | none => w.findAnywhere name

/-- The identity in the record that a reference leads to. -/
def uidOf? (w : World) : EntityRef → Option Uid
  | .character h => (w.characters.get? h).map (·.uid)
  | .object h => (w.objects.get? h).map (·.uid)
  | .room h => (w.rooms.get? h).map (·.uid)
  | .nothing => none

/-- The entity that a text names: by identity, or by a keyword near `near`. -/
def lookup? (w : World) (near : Uid) (text : String) : Option Uid :=
  match Uid.parse? text with
  | some u => if w.index.contains u then some u else none
  | none => w.uidOf? (w.findByName near text)

/-- A viewer sees those whose invisibility does not exceed its level. -/
def canSee (w : World) (viewer target : Uid) : Bool :=
  let level := ((w.character? viewer).map (·.level)).getD 0
  match w.character? target with
  | some c => c.invisLevel ≤ level
  | none => true

/-- A player is in the zone. -/
def zoneIsActive (w : World) (zone : Nat) : Bool :=
  w.characters.values.any fun c =>
    !c.isMobile && (c.inRoom.bind w.room?).any (·.zone = zone)

/-- The identities in increasing order. -/
def sortUids (us : List Uid) : List Uid := us.mergeSort fun a b => !(b < a)

/-- A room drawn from those of a zone, or from all. -/
def randomRoom (w : World) (d : Dice) (zone : Option Nat) : Option Uid × Dice :=
  let rooms := w.rooms.values.filter fun r => zone.all (r.zone = ·)
  d.choose (sortUids (rooms.map (·.uid)))

/-- The short description of a mobile prototype, and how many of its mobiles there are. -/
def mobilePrototype? (w : World) (vnum : Vnum) : Option (String × Nat) :=
  (w.mobileDescs.get? vnum).map fun desc =>
    (desc, (w.characters.values.filter (·.vnum = some vnum)).length)

/-- The short description of an object prototype, and how many of its objects there are. -/
def objectPrototype? (w : World) (vnum : Vnum) : Option (String × Nat) :=
  (w.objectDescs.get? vnum).map fun desc =>
    (desc, (w.objects.values.filter (·.vnum = vnum)).length)

end World

end MudTrigger
