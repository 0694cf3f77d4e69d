import MudTrigger.Game.Field
import MudTrigger.Script.Expression
import MudTrigger.Script.Template
import MudTrigger.Text.CaseMap

/-!
# Expanding templates

A token without a field stands for the variable: a local one, else a global one, else `self`. With a
field, the value of the variable leads to an entity whose field is read. The names `time`, `random`,
`get` and `string` are pseudo-objects whose fields compute their values. Expanding draws from the
dice and may find faults of the author; it never changes the world, and the value of a token is not
expanded again.
-/

set_option autoImplicit false

namespace MudTrigger

/-- What expanding changes: the dice, and the faults found so far. -/
structure Draft where
  dice : Dice
  faults : List Fault := []

abbrev Expand := StateM Draft

namespace Expand

/-- An empty text, and a fault. -/
def fault (f : Fault) (text : String) : Expand String := fun d =>
  (text, { d with faults := d.faults ++ [f] })

/-- A draw from the dice. -/
def draw {α : Type} (roll : Dice → α × Dice) : Expand α := fun d =>
  ((roll d.dice).1, { d with dice := (roll d.dice).2 })

end Expand

namespace Scene

/-- The value of a variable: a local one before a global one. -/
def valueOf? (s : Scene) (name : String) : Option String :=
  match s.locals.get? name with
  | some value => some value
  | none => s.globals.get? name

/-- The entity that a number stands for: from the first room identity on it is an identity, below it
the vnum of a room. -/
def entityOfNumber (s : Scene) (n : Int) : EntityRef :=
  if (Uid.firstRoom : Int) ≤ n then s.world.resolve ⟨n.toNat⟩
  else match (Width.fit32? n).bind s.world.roomByVnum? with
    | some r => s.world.resolve r.uid
    | none => .nothing

/-- The entity that the value of a variable stands for, or why it stands for none. -/
def entityOf (s : Scene) (value : String) : Except NoEntity EntityRef :=
  let value := Text.trim value
  if value = "" then .error .empty
  else match Uid.parse? value with
    | some u => match s.world.resolve u with
      | .nothing => .error .extracted
      | r => .ok r
    | none =>
      let r := if Text.isNumeral value then s.entityOfNumber (Text.leadingInt value)
        else s.host.findByName s.world s.owner value
      if r.isNothing then .error .notUid else .ok r

/-- Reads a field of an entity for a variable. -/
def entityField (s : Scene) (target : EntityRef) (name field value : String) : Expand String :=
  match s.fieldOf? target (Text.fold field) value with
  | some (.value text) => pure text
  | some (.unknownFlag flag) => .fault (.unknownFlag flag) (truthText false)
  | some .unknownField => .fault (.unknownField target.kindName field) ""
  | none => .fault (.fieldOf field .extracted name) ""

/-! ## Pseudo-objects -/

def timeField? (t : GameTime) (field : String) : Option String :=
  match field with
  | "hour" => some (toString t.hours)
  | "day" => some (toString (t.day + 1))
  | "month" => some (toString (t.month + 1))
  | "year" => some (toString t.year)
  | "stamp" => some (toString t.stamp)
  | _ => none

/-- The others in the owner's room whom it sees. -/
def visiblePeople (s : Scene) : List Uid :=
  (s.world.peopleWith s.owner).filter fun u => u ≠ s.owner && s.host.canSee s.world s.owner u

def randomField (s : Scene) (field : String) : Expand String :=
  match field with
  | "char" => uidText <$> .draw (·.choose s.visiblePeople)
  | "room" => uidText <$> .draw (s.host.randomRoom s.world · none)
  | "room_in_zone" =>
    uidText <$> .draw (s.host.randomRoom s.world · ((s.world.roomOf? s.owner).map (·.zone)))
  | number =>
    let high := Text.leadingInt number
    if 0 < high then toString <$> .draw (·.number 1 high) else pure "0"

/-- A short description without its article, unless nothing else is left. -/
def withoutArticle (text : String) : String :=
  let (word, rest) := Text.splitWord text
  if ["a", "an", "the", "some"].any (Text.sameLetters word) && rest != "" then rest else text

def getField? (s : Scene) (field value : String) : Option String :=
  let vnum := (Width.fit32? (Text.leadingInt value)).getD (-1)
  match field with
  | "obj_shortdesc" => some (((s.world.objectPrototype? vnum).map (·.1)).getD "")
  | "obj_noadesc" =>
    some (((s.world.objectPrototype? vnum).map fun p => withoutArticle p.1).getD "")
  | "mob_shortdesc" => some (((s.world.mobilePrototype? vnum).map (·.1)).getD "")
  | "obj_count" => some (toString (((s.world.objectPrototype? vnum).map (·.2)).getD 0))
  | "mob_count" => some (toString (((s.world.mobilePrototype? vnum).map (·.2)).getD 0))
  | "room" => some (uidText ((s.world.roomByVnum? vnum).map (·.uid)))
  | "people" => some (toString (((s.world.roomByVnum? vnum).map (·.people.length)).getD 0))
  | "opposite_dir" =>
    some (((Direction.ofName? (Text.trim value)).map (·.reverse.name)).getD "")
  | "uidchar" => some (String.singleton Uid.sigil)
  | _ => none

def stringField? (field value : String) : Option String :=
  match field with
  | "reverse" => some (String.ofList value.toList.reverse)
  | "length" => some (toString value.toList.length)
  | "tolower" => some (Text.toLower value)
  | "toupper" => some (Text.toUpper value)
  | "cap" => some (Text.capitalize value)
  | "capitalize" => some (Text.capitalize value)
  | "firstword" => some (Text.splitWord value).1
  | _ => none

/-- A computed value, or the fault that the pseudo-object has no such field. -/
def computed (name field : String) (result : Option String) : Expand String :=
  match result with
  | some text => pure text
  | none => .fault (.unknownField name field) ""

/-- A field of a pseudo-object; other names that are no variables are empty. -/
def pseudoField (s : Scene) (name field value : String) : Expand String :=
  match Text.fold name with
  | "time" => computed name field (timeField? s.world.time (Text.fold field))
  | "random" => s.randomField (Text.fold field)
  | "get" => computed name field (s.getField? (Text.fold field) value)
  | "string" => computed name field (stringField? (Text.fold field) value)
  | _ => pure ""

/-! ## Tokens and templates -/

def isSelf (name : String) : Bool := Text.sameLetters name "self"

/-- What a token with these parts stands for. -/
def token (s : Scene) (name field value : String) : Expand String :=
  if field = "" then
    pure <| match s.valueOf? name with
      | some text => text
      | none => if isSelf name then s.owner.text else ""
  else match s.valueOf? name with
    | some text => match s.entityOf text with
      | .ok target => s.entityField target name field value
      | .error why => .fault (.fieldOf field why name) ""
    | none =>
      if isSelf name then s.entityField (s.world.resolve s.owner) name field value
      else s.pseudoField name field value

mutual

/-- What a part of a template stands for; the value in brackets is expanded first. -/
def segment (s : Scene) : Segment → Expand String
  | .literal text => pure text
  | .percent => pure "%"
  | .token name field value => do
    let value ← s.segments value
    s.token name field value

/-- The parts of a template one after another, from left to right. -/
def segments (s : Scene) : List Segment → Expand String
  | [] => pure ""
  | x :: xs => do
    let first ← s.segment x
    let rest ← s.segments xs
    return first ++ rest

end

/-- A line with its tokens expanded. -/
def expand (s : Scene) (line : String) : Expand String := s.segments (Template.parse line)

/-- The value of an expression whose operands are expanded. -/
def evaluate (s : Scene) (expression : String) : Expand String :=
  (Expression.parse expression).eval s.expand

end Scene

end MudTrigger
