import MudTrigger.Text.Numeral
import MudTrigger.Data.Arena

/-!
# Identities

Every character, object and room has a `Uid`. Script variables carry identities around as texts: the
sigil U+0005 and the decimal number. Rooms have the numbers from 50000, characters and objects those
from 100000. A world resolves an identity to an `EntityRef`, the place where the record is kept.
-/

set_option autoImplicit false

namespace MudTrigger

/-- The number of a prototype: of a trigger, a mobile, an object or a room. -/
abbrev Vnum := Int

/-- The identity of a character, an object or a room. -/
structure Uid where
  raw : Nat
  deriving DecidableEq, Inhabited

namespace Uid

instance : LT Uid := ⟨fun a b => a.raw < b.raw⟩

instance (a b : Uid) : Decidable (a < b) := inferInstanceAs (Decidable (a.raw < b.raw))

/-- The character that marks an identity in a text. -/
def sigil : Char := '\x05'

def firstRoom : Nat := 50000

/-- The first identity of a character or an object. -/
def firstMobile : Nat := 100000

/-- The identity of the room with this number in the world. -/
def room (index : Nat) : Uid := ⟨firstRoom + index⟩

def isRoomRange (u : Uid) : Bool := firstRoom ≤ u.raw && u.raw < firstMobile

/-- The text form: the sigil and the number. -/
def text (u : Uid) : String := String.ofList (sigil :: (toString u.raw).toList)

/-- Reads the text form after blanks; what follows the digits does not matter. -/
def parse? (s : String) : Option Uid :=
  match Chars.trimStart s.toList with
  | [] => none
  | c :: cs => if c = sigil then (Chars.natBelow? 0x1_0000_0000_0000_0000 (Chars.digits cs)).map Uid.mk else none

end Uid

/-- The text form of an identity, or the empty text for none. -/
def uidText (u : Option Uid) : String := (u.map Uid.text).getD ""

/-- Where the record of an entity is kept, by kind. -/
inductive EntityRef where
  | character (handle : Handle)
  | object (handle : Handle)
  | room (handle : Handle)
  | nothing
  deriving DecidableEq, Inhabited

namespace EntityRef

def isNothing : EntityRef → Bool
  | nothing => true
  | _ => false

/-- The word for the kind in messages. -/
def kindName : EntityRef → String
  | character _ => "char"
  | object _ => "obj"
  | room _ => "room"
  | nothing => "nothing"

end EntityRef

end MudTrigger
