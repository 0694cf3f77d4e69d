import MudTrigger.World.Basic
import MudTrigger.Text.CaseMap

/-!
# Building and moving

Adding rooms, characters and objects, and moving the latter two. Nothing here fires a trigger.
-/

set_option autoImplicit false

namespace MudTrigger

namespace World

/-! ## Moving -/

/-- Moves a character into a room. -/
def placeCharacter (w : World) (u room : Uid) : World :=
  match w.character? u with
  | none => w
  | some c =>
    let w := match c.inRoom with
      | some old => w.modifyRoom old fun r => { r with people := r.people.filter (· ≠ u) }
      | none => w
    let w := w.modifyRoom room fun r => { r with people := r.people ++ [u] }
    w.modifyCharacter u fun c => { c with inRoom := some room }

/-- Takes an object out of the list or the wear position that a location names. -/
def unlink (w : World) (u : Uid) : Location → World
  | .nowhere => w
  | .room room => w.modifyRoom room fun r => { r with contents := r.contents.filter (· ≠ u) }
  | .carried holder =>
    w.modifyCharacter holder fun c => { c with inventory := c.inventory.filter (· ≠ u) }
  | .worn holder position =>
    w.modifyCharacter holder fun c => { c with equipment := c.equipment.erase position }
  | .inside container =>
    w.modifyObject container fun o => { o with contents := o.contents.filter (· ≠ u) }

/-- Puts an object into the list or the wear position that a location names. -/
def link (w : World) (u : Uid) : Location → World
  | .nowhere => w
  | .room room => w.modifyRoom room fun r => { r with contents := r.contents ++ [u] }
  | .carried holder => w.modifyCharacter holder fun c => { c with inventory := c.inventory ++ [u] }
  | .worn holder position =>
    w.modifyCharacter holder fun c => { c with equipment := c.equipment.set position u }
  | .inside container => w.modifyObject container fun o => { o with contents := o.contents ++ [u] }

/-- Moves an object to a location. -/
def placeObject (w : World) (u : Uid) (location : Location) : World :=
  match w.object? u with
  | none => w
  | some o =>
    ((w.unlink u o.location).link u location).modifyObject u fun o => { o with location := location }

/-! ## Building -/

/-- Adds a room; its zone is the vnum without the last two digits. -/
def addRoom (w : World) (vnum : Vnum) (name : String) : Uid × World :=
  let u := Uid.room w.nextRoom
  let (h, rooms) := w.rooms.insert { uid := u, vnum, zone := (vnum.tdiv 100).toNat, name }
  (u, { w with
    rooms
    index := w.index.set u (.room h)
    roomVnums := w.roomVnums.set vnum u
    nextRoom := w.nextRoom + 1 })

/-- Joins two rooms by an exit in a direction and one that leads back. -/
def join (w : World) (start : Uid) (d : Direction) (finish : Uid) : World :=
  match w.room? start, w.room? finish with
  | some a, some b =>
    let w := w.modifyRoom start fun r =>
      { r with exits := r.exits.set d (some { toRoom := some b.vnum }) }
    w.modifyRoom finish fun r =>
      { r with exits := r.exits.set d.reverse (some { toRoom := some a.vnum }) }
  | _, _ => w

/-- Adds a character to a room; a mobile has a vnum. -/
def addCharacter (w : World) (vnum : Option Vnum) (name : String) (room : Uid) : Uid × World :=
  let u : Uid := ⟨w.nextUid⟩
  let (h, characters) := w.characters.insert
    { uid := u, vnum, aliases := Text.toLower name, name, level := 1, hit := 20, maxHit := 20,
      moves := 50, maxMoves := 50 }
  let w := { w with
    characters
    index := w.index.set u (.character h)
    nextUid := w.nextUid + 1 }
  (u, w.placeCharacter u room)

def addPlayer (w : World) (name : String) (room : Uid) : Uid × World :=
  w.addCharacter none name room

/-- The table with a first description for a vnum that has none. -/
def describe (t : Table Vnum String) (vnum : Vnum) (name : String) : Table Vnum String :=
  if t.contains vnum then t else t.set vnum name

/-- Adds a mobile; the first one of a vnum gives the prototype its short description. -/
def addMobile (w : World) (vnum : Vnum) (name : String) (room : Uid) : Uid × World :=
  { w with mobileDescs := describe w.mobileDescs vnum name }.addCharacter (some vnum) name room

/-- Adds an object; its keywords are its short description without the first word. -/
def addObject (w : World) (vnum : Vnum) (name : String) (location : Location) : Uid × World :=
  let u : Uid := ⟨w.nextUid⟩
  let (h, objects) := w.objects.insert
    { uid := u, vnum, aliases := Text.toLower (Text.splitWord name).2, shortDesc := name }
  let w := { w with
    objects
    objectDescs := describe w.objectDescs vnum name
    index := w.index.set u (.object h)
    nextUid := w.nextUid + 1 }
  (u, w.placeObject u location)

end World

end MudTrigger
