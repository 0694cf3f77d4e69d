import MudTrigger.World.Place

/-!
# Leaving the world

Extracting an entity takes out of the world what it carries, wears or contains, and then itself.
Rooms are never extracted.
-/

set_option autoImplicit false

namespace MudTrigger

namespace World

/-- What goes with an entity that leaves: what it carries, then what it wears, or its contents. -/
def belongings (w : World) (u : Uid) : List Uid :=
  match w.resolve u with
  | .character _ => match w.character? u with
    | some c => c.inventory ++ c.equipment.values
    | none => []
  | .object _ => match w.object? u with
    | some o => o.contents
    | none => []
  | _ => []

/-- An entity that can leave the world. -/
def isMovable (w : World) (u : Uid) : Bool := (w.character? u).isSome || (w.object? u).isSome

/-- Takes a single entity out of its place and out of the arenas. -/
def drop (w : World) (r : EntityRef) (u : Uid) : World :=
  match r with
  | .character h => match w.characters.get? h with
    | none => w
    | some c =>
      let w := match c.inRoom with
        | some room => w.modifyRoom room fun r => { r with people := r.people.filter (· ≠ u) }
        | none => w
      { w with characters := (w.characters.remove h).2 }
  | .object h => match w.objects.get? h with
    | none => w
    | some o =>
      let w := w.unlink u o.location
      { w with objects := (w.objects.remove h).2 }
  | _ => w

/-- Extracts an entity and adds what left the world to the list. The entity leaves the index before
its belongings are taken out, so the index grows smaller and its size is enough `fuel`. To leave it
after them is the same (`World.Unpacks`), but where an entity contains itself, that never ends. -/
def extractWithin : Nat → List Uid × World → Uid → List Uid × World
  | 0, s, _ => s
  | fuel + 1, (gone, w), u =>
    if w.isMovable u then
      let emptied := (w.belongings u).foldl (extractWithin fuel) (gone, { w with index := w.index.erase u })
      (emptied.1 ++ [u], emptied.2.drop (w.resolve u) u)
    else (gone, w)

/-- Extracts an entity; what left the world is listed, contents before their holder. -/
def extract (w : World) (u : Uid) : List Uid × World := extractWithin w.index.size ([], w) u

end World

end MudTrigger
