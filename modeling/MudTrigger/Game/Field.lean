import MudTrigger.Game.Basic
import MudTrigger.Script.Operator

/-!
# Fields

What `%name.field[value]%` reads of a character, an object or a room. Relations are given as
identities, so that they can be followed through another variable, and flags as their names.
-/

set_option autoImplicit false

namespace MudTrigger

/-- What a script may look at while a line is expanded. -/
structure Scene where
  host : Host
  world : World
  /-- The entity whose trigger runs. -/
  owner : Uid
  locals : Variables
  globals : Variables

/-- What reading a field gives. -/
inductive Reading where
  | value (text : String)
  /-- A flag was asked for that has no such name; it counts as not set. -/
  | unknownFlag (flag : String)
  | unknownField
  deriving DecidableEq

namespace Reading

/-- The integer as a text. -/
def int (i : Int) : Reading := value (toString i)

def nat (n : Nat) : Reading := value (toString n)

def truth (b : Bool) : Reading := value (truthText b)

def uid (u : Option Uid) : Reading := value (uidText u)

/-- Whether the flag with this name is set. -/
def flag (b : Bits) (names : List String) (name : String) : Reading :=
  match Text.position? (Text.trim name) names false with
  | some n => truth (b.testBit n)
  | none => unknownFlag name

end Reading

namespace Scene

/-- The object in a list that a value asks for: the first one, their number, or the first one with a
vnum or a name. -/
def itemIn (s : Scene) (items : List Uid) (value : String) : Reading :=
  let value := Text.trim value
  if value = "" then .uid items.head?
  else if Text.sameLetters value "count" then .nat items.length
  else .uid (items.find? fun u => (s.world.object? u).any fun o =>
    if Text.isNumeral value then o.vnum == Text.leadingInt value else Text.isName value o.aliases)

/-- The person in a list that a value asks for, in the same way. -/
def personIn (s : Scene) (people : List Uid) (value : String) : Reading :=
  let value := Text.trim value
  if value = "" then .uid people.head?
  else if Text.sameLetters value "count" then .nat people.length
  else .uid (people.find? fun u => (s.world.character? u).any fun c =>
    if Text.isNumeral value then c.vnum == some (Text.leadingInt value)
    else Text.isName value c.aliases)

/-- What a character wears at a position given by name or number, or how many things it wears. -/
def wornBy (c : Character) (value : String) : Reading :=
  let value := Text.trim value
  if value = "" ∨ Text.sameLetters value "count" then .nat c.equipment.size
  else
    let position :=
      if Text.isNumeral value then
        (if 0 ≤ Text.leadingInt value then some (Text.leadingInt value).toNat else none)
      else Text.position? value Character.wearPositions true
    .uid (position.bind c.equipment.get?)

/-- The members of the group that a character leads or else follows, the leader first. -/
def groupOf (s : Scene) (c : Character) : List Uid :=
  if c.group.isEmpty then ((c.master.bind s.world.character?).map (·.group)).getD []
  else c.group

/-- The one who follows a character in the list of the people of its room. -/
def nextInRoom (s : Scene) (c : Character) : Option Uid :=
  (((s.world.peopleWith c.uid).dropWhile (· ≠ c.uid)).drop 1).head?

def roomUid (s : Scene) (u : Uid) : Option Uid := (s.world.roomOf? u).map (·.uid)

/-- One of the spells has this name. -/
def hasSpell (spells : List String) (name : String) : Bool :=
  spells.any fun spell => Text.sameLetters spell (Text.trim name)

/-- The ability score that a field names, current or real. -/
def abilityField? (c : Character) (field : String) : Option Int :=
  match c.abilities.get? field with
  | some score => some score
  | none => match field.toList with
    | 'r' :: 'e' :: 'a' :: 'l' :: '_' :: name => c.realAbilities.get? (String.ofList name)
    | _ => none

def characterField (s : Scene) (c : Character) (field value : String) : Reading :=
  match abilityField? c field with
  | some score => .int score
  | none =>
    match field with
    | "name" => .value c.name
    | "alias" => .value c.aliases
    | "title" => .value c.title
    | "p" => .value c.sex.hisHer
    | "hisher" => .value c.sex.hisHer
    | "o" => .value c.sex.himHer
    | "himher" => .value c.sex.himHer
    | "n" => .value c.sex.heShe
    | "heshe" => .value c.sex.heShe
    | "vnum" => .int (c.vnum.getD (-1))
    | "id" => .nat c.uid.raw
    | "sex" => .value c.sex.name
    | "gender" => .value c.sex.name
    | "class" => .value c.profession
    | "race" => .value c.race
    | "level" => .int c.level
    | "weight" => .int c.weight
    | "height" => .int c.height
    | "size" => .value c.size
    | "hit" => .int c.hit
    | "maxhit" => .int c.maxHit
    | "move" => .int c.moves
    | "maxmove" => .int c.maxMoves
    | "armor" => .int c.armor
    | "hitroll" => .int c.hitroll
    | "damroll" => .int c.damroll
    | "exp" => .int c.experience
    | "align" => .int c.alignment
    | "alignment" => .int c.alignment
    | "platinum" => .int c.coins.platinum
    | "gold" => .int c.coins.gold
    | "silver" => .int c.coins.silver
    | "copper" => .int c.coins.copper
    | "flags" => .value (c.flags.describe c.flagNames)
    | "flagged" => .flag c.flags c.flagNames value
    | "eff_flags" => .value (c.effects.describe Character.effectNames)
    | "aff_flags" => .value (c.effects.describe Character.effectNames)
    | "eff_flagged" => .flag c.effects Character.effectNames value
    | "aff_flagged" => .flag c.effects Character.effectNames value
    | "spells" => .value (Text.join " " c.spells)
    | "has_spell" => .truth (hasSpell c.spells value)
    | "fighting" => .uid c.fighting
    | "hunting" => .uid c.hunting
    | "riding" => .uid c.riding
    | "ridden_by" => .uid c.riddenBy
    | "master" => .uid c.master
    | "next_in_room" => .uid (s.nextInRoom c)
    | "group_size" => .nat (s.groupOf c).length
    | "group_member" =>
      let n := (Text.leadingInt value).toNat
      .uid (if n = 0 then none else (s.groupOf c)[n - 1]?)
    | "inventory" => s.itemIn c.inventory value
    | "worn" => wornBy c value
    | "wearing" =>
      .truth (c.equipment.values.any fun u =>
        (s.world.object? u).any (·.vnum == Text.leadingInt value))
    | "position" => .value c.position.name
    | "room" => .uid (s.roomUid c.uid)
    | "skill" => .int ((c.skills.get? (Text.fold (Text.trim value))).getD 0)
    | "talent" => .int ((c.skills.get? (Text.fold (Text.trim value))).getD 0)
    | "can_be_seen" => .truth (s.host.canSee s.world s.owner c.uid)
    | _ => .unknownField

def objectField (s : Scene) (o : Object) (field value : String) : Reading :=
  match field with
  | "name" => .value o.aliases
  | "shortdesc" => .value o.shortDesc
  | "description" => .value o.description
  | "vnum" => .int o.vnum
  | "type" => .value o.itemType
  | "id" => .nat o.uid.raw
  | "weight" => .int o.weight
  | "cost" => .int o.cost
  | "level" => .int o.level
  | "val0" => .int o.value0
  | "val1" => .int o.value1
  | "val2" => .int o.value2
  | "val3" => .int o.value3
  | "timer" => .int o.timer
  | "flags" => .value (o.flags.describe Object.flagNames)
  | "flagged" => .flag o.flags Object.flagNames value
  | "spells" => .value (Text.join " " o.spells)
  | "has_spell" => .truth (hasSpell o.spells value)
  | "room" => .uid (s.roomUid o.uid)
  | "carried_by" => match o.location with
    | .carried holder => .uid (some holder)
    | _ => .value ""
  | "worn_by" => match o.location with
    | .worn holder _ => .uid (some holder)
    | _ => .value ""
  | "worn_on" => match o.location with
    | .worn _ position => .value (Character.wearPositions.getD position "")
    | _ => .value ""
  | "contents" => s.itemIn o.contents value
  | _ => .unknownField

def exitField (s : Scene) (x : Exit) (value : String) : Reading :=
  match Text.fold (Text.trim value) with
  | "" => .int (x.toRoom.getD (-1))
  | "room" => .uid ((x.toRoom.bind s.world.roomByVnum?).map (·.uid))
  | "key" => .int (x.key.getD (-1))
  | "bits" => .value (x.flags.describe Room.exitFlagNames)
  | _ => .unknownField

def roomField (s : Scene) (r : Room) (field value : String) : Reading :=
  match Direction.ofName? field with
  | some d => match r.exits.get? d with
    | some x => s.exitField x value
    | none => .value ""
  | none =>
    match field with
    | "name" => .value r.name
    | "vnum" => .int r.vnum
    | "id" => .nat r.uid.raw
    | "sector" => .value r.sector
    | "is_dark" => .truth r.dark
    | "flags" => .value (r.flags.describe Room.flagNames)
    | "flagged" => .flag r.flags Room.flagNames value
    | "effects" => .value (r.effects.describe Room.effectNames)
    | "has_effect" => .flag r.effects Room.effectNames value
    | "people" => s.personIn r.people value
    | "objects" => s.itemIn r.contents value
    | _ => .unknownField

/-- What a reference gives for a field; nothing if it leads to no record. -/
def fieldOf? (s : Scene) (target : EntityRef) (field value : String) : Option Reading :=
  match target with
  | .character h => (s.world.characters.get? h).map (s.characterField · field value)
  | .object h => (s.world.objects.get? h).map (s.objectField · field value)
  | .room h => (s.world.rooms.get? h).map (s.roomField · field value)
  | .nothing => none

end Scene

end MudTrigger
