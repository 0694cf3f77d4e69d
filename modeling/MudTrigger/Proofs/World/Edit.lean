import MudTrigger.World.Extract
import MudTrigger.Proofs.Store.Coherent

/-!
# Identities are not used again

Characters and objects take their identities from a counter that never goes back, so what has left
the world never comes back: `World.Gone` is kept by everything that builds no room (`Extends.gone`).
Rooms have numbers of their own, and a new one may take any identity (`Numbered`).
-/

set_option autoImplicit false

namespace MudTrigger

namespace World

/-- Only identities that are new come into the index. -/
structure Extends (w w' : World) : Prop where
  nextUid : w.nextUid ≤ w'.nextUid
  index : ∀ {u r}, w'.index.get? u = some r →
    w.index.get? u = some r ∨ w.nextUid ≤ u.raw ∧ u.raw < w'.nextUid

/-- The entity had an identity of the counter, and is in the world no more. -/
structure Gone (w : World) (u : Uid) : Prop where
  absent : w.index.get? u = none
  used : u.raw < w.nextUid

/-- What is not a room has an identity that was given out. -/
def Numbered (w : World) : Prop :=
  ∀ u r, w.index.get? u = some r → (∃ h, r = .room h) ∨ u.raw < w.nextUid

/-- One command of the world that builds no room. -/
inductive Edit : World → World → Prop
  | tell {w} (message : String) : Edit w (w.tell message)
  | clearMessages {w} : Edit w w.clearMessages
  | setTime {w} (time : GameTime) : Edit w { w with time }
  | modifyCharacter {w} (u : Uid) (f : Character → Character) : Edit w (w.modifyCharacter u f)
  | modifyObject {w} (u : Uid) (f : Object → Object) : Edit w (w.modifyObject u f)
  | modifyRoom {w} (u : Uid) (f : Room → Room) : Edit w (w.modifyRoom u f)
  | placeCharacter {w} (u room : Uid) : Edit w (w.placeCharacter u room)
  | placeObject {w} (u : Uid) (location : Location) : Edit w (w.placeObject u location)
  | join {w} (start : Uid) (d : Direction) (finish : Uid) : Edit w (w.join start d finish)
  | addPlayer {w} (name : String) (room : Uid) : Edit w (w.addPlayer name room).2
  | addMobile {w} (vnum : Vnum) (name : String) (room : Uid) : Edit w (w.addMobile vnum name room).2
  | addObject {w} (vnum : Vnum) (name : String) (location : Location) :
    Edit w (w.addObject vnum name location).2
  | extract {w} (u : Uid) : Edit w (w.extract u).2

/-- One command of the world. -/
inductive Build : World → World → Prop
  | edit {w w'} : Edit w w' → Build w w'
  | addRoom {w} (vnum : Vnum) (name : String) : Build w (w.addRoom vnum name).2

variable {w w' w1 : World} {u : Uid}

/-! ## What the commands do to the index -/

namespace Extends

theorem refl : w.Extends w := ⟨Nat.le_refl _, .inl⟩

theorem of_eq (hi : w'.index = w.index) (hn : w'.nextUid = w.nextUid) : w.Extends w' :=
  ⟨Nat.le_of_eq hn.symm, fun hx => .inl (hi ▸ hx)⟩

theorem trans (h : w.Extends w1) (h' : w1.Extends w') : w.Extends w' := by
  refine ⟨Nat.le_trans h.nextUid h'.nextUid, fun {x r} hx => ?_⟩
  rcases h'.index hx with hx | ⟨hlo, hhi⟩
  · exact (h.index hx).imp_right fun ⟨hlo, hhi⟩ => ⟨hlo, Nat.lt_of_lt_of_le hhi h'.nextUid⟩
  · exact .inr ⟨Nat.le_trans h.nextUid hlo, hhi⟩

theorem gone (h : w.Extends w') (hu : w.Gone u) : w'.Gone u := by
  refine ⟨?_, Nat.lt_of_lt_of_le hu.used h.nextUid⟩
  cases hx : w'.index.get? u with
  | none => rfl
  | some r =>
    rcases h.index hx with hx | ⟨hlo, -⟩
    · rw [hu.absent] at hx
      cases hx
    · exact absurd hu.used (Nat.not_lt.2 hlo)

theorem numbered (h : w.Extends w') (hw : w.Numbered) : w'.Numbered := fun x r hx => by
  rcases h.index hx with hx | ⟨-, hhi⟩
  · exact (hw x r hx).imp_right fun hlt => Nat.lt_of_lt_of_le hlt h.nextUid
  · exact .inr hhi

theorem modifyCharacter (u : Uid) (f : Character → Character) : w.Extends (w.modifyCharacter u f) := by
  unfold World.modifyCharacter
  split <;> exact of_eq rfl rfl

theorem modifyObject (u : Uid) (f : Object → Object) : w.Extends (w.modifyObject u f) := by
  unfold World.modifyObject
  split <;> exact of_eq rfl rfl

theorem modifyRoom (u : Uid) (f : Room → Room) : w.Extends (w.modifyRoom u f) := by
  unfold World.modifyRoom
  split <;> exact of_eq rfl rfl

theorem placeCharacter (u room : Uid) : w.Extends (w.placeCharacter u room) := by
  unfold World.placeCharacter
  split
  · exact refl
  · simp only
    split
    · exact (modifyRoom _ _).trans ((modifyRoom _ _).trans (modifyCharacter _ _))
    · exact (modifyRoom _ _).trans (modifyCharacter _ _)

theorem unlink (u : Uid) (location : Location) : w.Extends (w.unlink u location) := by
  cases location with
  | nowhere => exact refl
  | room => exact modifyRoom _ _
  | carried | worn => exact modifyCharacter _ _
  | inside => exact modifyObject _ _

theorem link (u : Uid) (location : Location) : w.Extends (w.link u location) := by
  cases location with
  | nowhere => exact refl
  | room => exact modifyRoom _ _
  | carried | worn => exact modifyCharacter _ _
  | inside => exact modifyObject _ _

theorem placeObject (u : Uid) (location : Location) : w.Extends (w.placeObject u location) := by
  unfold World.placeObject
  split
  · exact refl
  · exact (unlink _ _).trans ((link _ _).trans (modifyObject _ _))

theorem join (start : Uid) (d : Direction) (finish : Uid) : w.Extends (w.join start d finish) := by
  unfold World.join
  split
  · exact (modifyRoom _ _).trans (modifyRoom _ _)
  · exact refl

/-- A new entity takes the next identity. -/
theorem allocate {r : EntityRef} (hi : w'.index = w.index.set ⟨w.nextUid⟩ r)
    (hn : w'.nextUid = w.nextUid + 1) : w.Extends w' := by
  refine ⟨hn ▸ Nat.le_succ _, fun {x s} hx => ?_⟩
  rw [hi, Table.get?_set] at hx
  split at hx
  · rename_i he
    subst he
    exact .inr ⟨Nat.le_refl _, hn ▸ Nat.lt_succ_self _⟩
  · exact .inl hx

theorem addCharacter (vnum : Option Vnum) (name : String) (room : Uid) :
    w.Extends (w.addCharacter vnum name room).2 := by
  unfold World.addCharacter
  exact (allocate rfl rfl).trans (placeCharacter _ _)

theorem addMobile (vnum : Vnum) (name : String) (room : Uid) :
    w.Extends (w.addMobile vnum name room).2 := by
  have hd : w.Extends { w with mobileDescs := describe w.mobileDescs vnum name } := of_eq rfl rfl
  exact hd.trans (addCharacter _ _ _)

theorem addObject (vnum : Vnum) (name : String) (location : Location) :
    w.Extends (w.addObject vnum name location).2 := by
  unfold World.addObject
  exact (allocate rfl rfl).trans (placeObject _ _)

theorem drop (r : EntityRef) (u : Uid) : w.Extends (w.drop r u) := by
  unfold World.drop
  split
  · split
    · exact refl
    · simp only
      split
      · exact (modifyRoom _ _).trans (of_eq rfl rfl)
      · exact of_eq rfl rfl
  · split
    · exact refl
    · exact (unlink _ _).trans (of_eq rfl rfl)
  · exact refl

end Extends

/-! ## Extracting -/

theorem Numbered.used (hw : w.Numbered) (hu : w.isMovable u = true) : u.raw < w.nextUid := by
  cases hr : w.index.get? u with
  | none => simp [isMovable, character?, object?, resolve, hr] at hu
  | some r =>
    refine (hw u r hr).resolve_left ?_
    rintro ⟨h, rfl⟩
    simp [isMovable, character?, object?, resolve, hr] at hu

/-- What is added to the list of those that left is gone. -/
structure Leaves (s t : List Uid × World) : Prop where
  world : s.2.Extends t.2
  gone : ∀ x ∈ t.1, x ∈ s.1 ∨ t.2.Gone x

namespace Leaves

variable {s t r : List Uid × World}

theorem refl : Leaves s s := ⟨.refl, fun _ => .inl⟩

theorem trans (h : Leaves s t) (h' : Leaves t r) : Leaves s r := by
  refine ⟨h.world.trans h'.world, fun x hx => ?_⟩
  rcases h'.gone x hx with hx | hg
  · exact (h.gone x hx).imp_right h'.world.gone
  · exact .inr hg

theorem foldl {f : List Uid × World → Uid → List Uid × World}
    (hf : ∀ s u, s.2.Numbered → Leaves s (f s u)) (us : List Uid) (hs : s.2.Numbered) :
    Leaves s (us.foldl f s) := by
  induction us generalizing s with
  | nil => exact .refl
  | cons u us ih => exact (hf s u hs).trans (ih ((hf s u hs).world.numbered hs))

end Leaves

theorem extractWithin_leaves (fuel : Nat) (s : List Uid × World) (u : Uid) (hs : s.2.Numbered) :
    Leaves s (extractWithin fuel s u) := by
  induction fuel generalizing s u with
  | zero => exact .refl
  | succ fuel ih =>
    obtain ⟨out, v⟩ := s
    unfold extractWithin
    split
    · rename_i hu
      -- The entity leaves the index first, and nothing brings it back.
      have herase : v.Extends { v with index := v.index.erase u } := by
        refine ⟨Nat.le_refl _, fun {x r} hx => .inl ?_⟩
        have hx : (v.index.erase u).get? x = some r := hx
        rw [Table.get?_erase] at hx
        split at hx
        · cases hx
        · exact hx
      have hgone : ({ v with index := v.index.erase u } : World).Gone u :=
        ⟨Table.get?_erase_self _ _, hs.used hu⟩
      have hfirst : Leaves (out, v) (out, { v with index := v.index.erase u }) :=
        ⟨herase, fun _ => .inl⟩
      have hrest := Leaves.foldl (s := (out, { v with index := v.index.erase u })) ih
        (v.belongings u) (herase.numbered hs)
      have hdrop := Extends.drop (w := ((v.belongings u).foldl (extractWithin fuel)
        (out, { v with index := v.index.erase u })).2) (v.resolve u) u
      refine hfirst.trans (hrest.trans ⟨hdrop, fun x hx => ?_⟩)
      rcases List.mem_append.1 hx with hx | hx
      · exact .inl hx
      · rw [List.mem_singleton.1 hx]
        exact .inr ((hrest.world.trans hdrop).gone hgone)
    · exact .refl

theorem Extends.extract (hw : w.Numbered) (u : Uid) : w.Extends (w.extract u).2 :=
  (extractWithin_leaves _ ([], w) u hw).world

/-- Whatever leaves the world with an entity is gone. -/
theorem Numbered.gone_extract (hw : w.Numbered) {u v : Uid} (hu : u ∈ (w.extract v).1) :
    (w.extract v).2.Gone u :=
  ((extractWithin_leaves _ ([], w) v hw).gone u hu).resolve_left List.not_mem_nil

/-! ## Every command -/

theorem Edit.extends (h : Edit w w') (hw : w.Numbered) : w.Extends w' := by
  cases h with
  | tell | clearMessages | setTime => exact .of_eq rfl rfl
  | modifyCharacter u f => exact .modifyCharacter u f
  | modifyObject u f => exact .modifyObject u f
  | modifyRoom u f => exact .modifyRoom u f
  | placeCharacter u room => exact .placeCharacter u room
  | placeObject u location => exact .placeObject u location
  | join start d finish => exact .join start d finish
  | addPlayer name room => exact .addCharacter none name room
  | addMobile vnum name room => exact .addMobile vnum name room
  | addObject vnum name location => exact .addObject vnum name location
  | extract u => exact .extract hw u

theorem Extends.of_edits (h : Relation.ReflTransGen Edit w w') (hw : w.Numbered) :
    w.Extends w' := by
  induction h with
  | refl => exact .refl
  | tail _ h ih => exact ih.trans (h.extends (ih.numbered hw))

theorem Numbered.addRoom (hw : w.Numbered) (vnum : Vnum) (name : String) :
    (w.addRoom vnum name).2.Numbered := fun u r hr => by
  have hr : (w.index.set (Uid.room w.nextRoom) (.room _)).get? u = some r := hr
  rw [Table.get?_set] at hr
  split at hr
  · cases hr
    exact .inl ⟨_, rfl⟩
  · exact hw u r hr

theorem Numbered.builds (hw : w.Numbered) (h : Relation.ReflTransGen Build w w') : w'.Numbered := by
  induction h with
  | refl => exact hw
  | tail _ h ih =>
    cases h with
    | edit h => exact (h.extends ih).numbered ih
    | addRoom vnum name => exact ih.addRoom vnum name

theorem numbered_empty : ({} : World).Numbered := fun _ _ hr => by cases hr

end World

end MudTrigger
