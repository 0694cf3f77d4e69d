import MudTrigger.Bits
import MudTrigger.Entity.Uid

/-!
# Objects

An object lies in a room, is carried or worn by a character, is inside another object, or is
nowhere.
-/

set_option autoImplicit false

namespace MudTrigger

/-- Where an object is. -/
inductive Location where
  | nowhere
  | room (uid : Uid)
  | carried (holder : Uid)
  | worn (holder : Uid) (position : Nat)
  | inside (container : Uid)
  deriving DecidableEq, Inhabited

structure Object where
  uid : Uid
  vnum : Vnum := 0
  aliases : String := ""
  shortDesc : String := ""
  description : String := ""
  itemType : String := ""
  weight : Int := 0
  cost : Int := 0
  level : Int := 0
  value0 : Int := 0
  value1 : Int := 0
  value2 : Int := 0
  value3 : Int := 0
  timer : Int := 0
  flags : Bits := 0
  spells : List String := []
  location : Location := .nowhere
  contents : List Uid := []
  deriving Inhabited

namespace Object

def flagNames : List String :=
  ["GLOW", "HUM", "NO_RENT", "NO_DONATE", "NO_INVIS", "INVISIBLE", "MAGIC", "NO_DROP",
    "BLESS", "ANTI_GOOD", "ANTI_EVIL", "ANTI_NEUTRAL", "ANTI_MAGE", "ANTI_CLERIC",
    "ANTI_THIEF", "ANTI_WARRIOR", "NO_SELL"]

end Object

end MudTrigger
