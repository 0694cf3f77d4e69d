import MudTrigger.Bits
import MudTrigger.Entity.Uid
import MudTrigger.Data.Table

/-!
# Characters

A character is a player or, if it has a prototype, a mobile. Scripts read its fields; relations to
other entities are identities, so that one that has left the world no longer resolves.
-/

set_option autoImplicit false

namespace MudTrigger

inductive Sex where
  | neutral
  | male
  | female
  deriving DecidableEq, Inhabited

namespace Sex

def all : List Sex := [neutral, male, female]

def name : Sex → String
  | neutral => "neutral"
  | male => "male"
  | female => "female"

def hisHer : Sex → String
  | neutral => "its"
  | male => "his"
  | female => "her"

def himHer : Sex → String
  | neutral => "it"
  | male => "him"
  | female => "her"

def heShe : Sex → String
  | neutral => "it"
  | male => "he"
  | female => "she"

end Sex

/-- Postures, from the weakest up. -/
inductive Position where
  | dead
  | mortallyWounded
  | incapacitated
  | stunned
  | sleeping
  | resting
  | sitting
  | fighting
  | standing
  deriving DecidableEq, Inhabited

namespace Position

def all : List Position :=
  [dead, mortallyWounded, incapacitated, stunned, sleeping, resting, sitting, fighting, standing]

def name : Position → String
  | dead => "dead"
  | mortallyWounded => "mortally wounded"
  | incapacitated => "incapacitated"
  | stunned => "stunned"
  | sleeping => "sleeping"
  | resting => "resting"
  | sitting => "sitting"
  | fighting => "fighting"
  | standing => "standing"

/-- The postures above sleeping. -/
def isAwake : Position → Bool
  | resting | sitting | fighting | standing => true
  | _ => false

end Position

/-- The six ability scores. -/
structure Abilities where
  strength : Int := 0
  intelligence : Int := 0
  wisdom : Int := 0
  dexterity : Int := 0
  constitution : Int := 0
  charisma : Int := 0
  deriving DecidableEq, Inhabited

/-- The score with this short name. -/
def Abilities.get? (a : Abilities) (name : String) : Option Int :=
  if name = "str" then some a.strength
  else if name = "int" then some a.intelligence
  else if name = "wis" then some a.wisdom
  else if name = "dex" then some a.dexterity
  else if name = "con" then some a.constitution
  else if name = "cha" then some a.charisma
  else none

/-- Money in four denominations. -/
structure Coins where
  platinum : Int := 0
  gold : Int := 0
  silver : Int := 0
  copper : Int := 0
  deriving DecidableEq, Inhabited

/-- The value in copper. -/
def Coins.value (c : Coins) : Int :=
  c.platinum * 1000 + c.gold * 100 + c.silver * 10 + c.copper

structure Character where
  uid : Uid
  /-- The prototype of a mobile; players have none. -/
  vnum : Option Vnum := none
  /-- The words by which the character is named in commands. -/
  aliases : String := ""
  name : String := ""
  title : String := ""
  sex : Sex := .neutral
  profession : String := ""
  race : String := ""
  level : Int := 0
  weight : Int := 0
  height : Int := 0
  size : String := ""
  abilities : Abilities := {}
  realAbilities : Abilities := {}
  hit : Int := 0
  maxHit : Int := 0
  moves : Int := 0
  maxMoves : Int := 0
  armor : Int := 0
  hitroll : Int := 0
  damroll : Int := 0
  experience : Int := 0
  alignment : Int := 0
  coins : Coins := {}
  /-- Mobile flags of a mobile, player flags of a player. -/
  flags : Bits := 0
  effects : Bits := 0
  spells : List String := []
  skills : Table String Int := ∅
  position : Position := .standing
  casting : Bool := false
  /-- Above zero the character is invisible to triggers. -/
  invisLevel : Int := 0
  inRoom : Option Uid := none
  fighting : Option Uid := none
  hunting : Option Uid := none
  riding : Option Uid := none
  riddenBy : Option Uid := none
  master : Option Uid := none
  /-- The group that the character leads, itself included. -/
  group : List Uid := []
  inventory : List Uid := []
  /-- Worn objects by wear position. -/
  equipment : Table Nat Uid := ∅
  deriving Inhabited

namespace Character

def mobileFlagNames : List String :=
  ["SPEC", "SENTINEL", "SCAVENGER", "ISNPC", "AWARE", "AGGRESSIVE", "STAY-ZONE", "WIMPY",
    "AGGR_EVIL", "AGGR_GOOD", "AGGR_NEUTRAL", "MEMORY", "HELPER", "NOCHARM", "NOSUMMON",
    "NOSLEEP", "NOBASH", "NOBLIND", "NOSCRIPT"]

/-- The flag of a mobile that never runs scripts. -/
def noScript : Bits := Bits.bit 18

def playerFlagNames : List String :=
  ["KILLER", "THIEF", "FROZEN", "DONTSET", "WRITING", "MAILING", "CSH", "SITEOK", "NOSHOUT",
    "NOTITLE", "DELETED", "LOADRM", "NO_WIZL", "NO_DEL", "INVST", "CRYO"]

def effectNames : List String :=
  ["BLIND", "INVIS", "DET-ALIGN", "DET-INVIS", "DET-MAGIC", "SENSE-LIFE", "WATWALK", "SANCT",
    "GROUP", "CURSE", "INFRA", "POISON", "PROT-EVIL", "PROT-GOOD", "SLEEP", "NO_TRACK",
    "FLY", "UNUSED", "SNEAK", "HIDE", "UNUSED", "CHARM"]

/-- Names of the wear positions. -/
def wearPositions : List String :=
  ["light", "rfinger", "lfinger", "neck1", "neck2", "body", "head", "legs", "feet", "hands",
    "arms", "shield", "about", "waist", "rwrist", "lwrist", "wield", "hold"]

def isMobile (c : Character) : Bool := c.vnum.isSome

def flagNames (c : Character) : List String :=
  if c.isMobile then mobileFlagNames else playerFlagNames

/-- A mobile without the flag that forbids scripts. -/
def performsScripts (c : Character) : Bool := c.isMobile && !c.flags.meets noScript

/-- What the character does may fire triggers. -/
def wakesTriggers (c : Character) : Bool := c.invisLevel == 0

def isAwake (c : Character) : Bool := c.position.isAwake

end Character

end MudTrigger
