import MudTrigger.Proofs.World.Craft
import MudTrigger.Proofs.World.History

/-!
# Identities that last

A command of the world gives out one identity at most, the next of its counter (`Craft.issues`). While
rooms number 50,000 at most, the counters stay apart, so that it is one that was not in use (`Ranged`).
Then an identity that was given out leads to the entity that it was given to, or to none: whatever
commands follow, its entry stays as it is until it is taken out, and no other takes its place
(`Ranged.retains`).
-/

set_option autoImplicit false

namespace MudTrigger

namespace World

/-- The identity is one of those that the counters have passed. -/
def Used (w : World) (u : Uid) : Prop :=
  u.raw < Uid.firstRoom + w.nextRoom ∨ Uid.firstMobile ≤ u.raw ∧ u.raw < w.nextUid

/-- Only identities that the counters have passed are in the index. -/
structure Ranged (w : World) : Prop where
  first : Uid.firstMobile ≤ w.nextUid
  used : ∀ {u r}, w.index.get? u = some r → w.Used u

/-- Identities that were in use stay in use for the same entities, or for none. -/
def Retains (w w' : World) : Prop :=
  ∀ u, w.Used u → w'.Used u ∧ (w'.index.get? u = w.index.get? u ∨ w'.index.get? u = none)

/-- What a command does to the counters and the index. -/
inductive Issues (w w' : World) : Prop
  | none : w'.nextUid = w.nextUid → w'.nextRoom = w.nextRoom →
    (∀ {x r}, w'.index.get? x = some r → w.index.get? x = some r) → Issues w w'
  | room (r : EntityRef) : w'.nextUid = w.nextUid → w'.nextRoom = w.nextRoom + 1 →
    w'.index = w.index.set (Uid.room w.nextRoom) r → Issues w w'
  | other (r : EntityRef) : w'.nextUid = w.nextUid + 1 → w'.nextRoom = w.nextRoom →
    w'.index = w.index.set ⟨w.nextUid⟩ r → Issues w w'

variable {w w' w1 : World} {u : Uid}

theorem ranged_empty : ({} : World).Ranged where
  first := Nat.le_refl _
  used hu := by cases hu

theorem Moves.issues (h : w.Moves w') : w.Issues w' :=
  .none h.nextUid h.nextRoom fun hx => h.index ▸ hx

theorem issues_addCharacter (vnum : Option Vnum) (name : String) (room : Uid) :
    w.Issues (w.addCharacter vnum name room).2 := by
  obtain ⟨r, hr⟩ := (adds_addCharacter w vnum name room).index
  exact .other r (nextUid_addCharacter vnum name room) (nextRoom_addCharacter vnum name room) hr

theorem Craft.issues (h : Craft w w') : w.Issues w' := by
  cases h with
  | tell | clearMessages | setTime => exact .none rfl rfl id
  | modifyCharacter u f =>
    unfold World.modifyCharacter
    split <;> exact .none rfl rfl id
  | modifyObject u f =>
    unfold World.modifyObject
    split <;> exact .none rfl rfl id
  | modifyRoom u f =>
    unfold World.modifyRoom
    split <;> exact .none rfl rfl id
  | placeCharacter u room => exact (Moves.placeCharacter u room).issues
  | placeObject u location => exact (Moves.placeObject u location).issues
  | join start d finish =>
    unfold World.join
    split
    · exact ((Moves.modifyRoom start (by exact fun _ => rfl)).trans
        (Moves.modifyRoom finish (by exact fun _ => rfl))).issues
    · exact .none rfl rfl id
  | addRoom vnum name => exact .room _ rfl rfl rfl
  | addPlayer name room => exact issues_addCharacter Option.none name room
  | addMobile vnum name room =>
    have h := issues_addCharacter
      (w := { w with mobileDescs := describe w.mobileDescs vnum name }) (some vnum) name room
    cases h with
    | none huid hroom hindex => exact .none huid hroom hindex
    | room r huid hroom hindex => exact .room r huid hroom hindex
    | other r huid hroom hindex => exact .other r huid hroom hindex
  | addObject vnum name location =>
    obtain ⟨r, hr⟩ := (adds_addObject w vnum name location).index
    exact .other r (nextUid_addObject vnum name location) (nextRoom_addObject vnum name location) hr
  | extract u =>
    have ht := takes_extract w u
    exact .none ht.wanes.nextUid ht.nextRoom ht.wanes.index

theorem Issues.nextRoom_le (h : w.Issues w') : w.nextRoom ≤ w'.nextRoom := by
  cases h with
  | none _ hroom _ | other _ _ hroom _ => exact Nat.le_of_eq hroom.symm
  | room _ _ hroom _ => exact hroom ▸ Nat.le_succ _

theorem Issues.used (h : w.Issues w') (hu : w.Used u) : w'.Used u := by
  unfold Used at hu ⊢
  cases h with
  | none huid hroom _ | room _ huid hroom _ | other _ huid hroom _ =>
    rw [huid, hroom]
    omega

/-- The next room does not get the identity of another entity. -/
theorem not_used_room (hn : w.nextRoom < 50000) : ¬ w.Used (Uid.room w.nextRoom) := by
  simp only [Used, Uid.room, Uid.firstRoom, Uid.firstMobile]
  omega

/-- The next character or object does not get the identity of a room. -/
theorem Ranged.not_used_other (hw : w.Ranged) (hn : w.nextRoom ≤ 50000) :
    ¬ w.Used ⟨w.nextUid⟩ := by
  have hfirst := hw.first
  simp only [Used, Uid.firstRoom, Uid.firstMobile] at hfirst ⊢
  omega

theorem Ranged.issues (hw : w.Ranged) (h : w.Issues w') : w'.Ranged := by
  refine ⟨?_, fun {x r} hx => ?_⟩
  · have hfirst := hw.first
    cases h with
    | none huid | room _ huid | other _ huid => omega
  · cases h with
    | none huid hroom hindex => exact (Issues.none huid hroom hindex).used (hw.used (hindex hx))
    | room r huid hroom hindex =>
      rw [hindex] at hx
      rcases Table.get?_set_cases hx with ⟨rfl, -⟩ | hx
      · refine .inl ?_
        rw [hroom]
        exact Nat.lt_succ_self _
      · exact (Issues.room r huid hroom hindex).used (hw.used hx)
    | other r huid hroom hindex =>
      rw [hindex] at hx
      rcases Table.get?_set_cases hx with ⟨rfl, -⟩ | hx
      · refine .inr ⟨hw.first, ?_⟩
        rw [huid]
        exact Nat.lt_succ_self _
      · exact (Issues.other r huid hroom hindex).used (hw.used hx)

/-- One command. -/
theorem Ranged.retains_issues (hw : w.Ranged) (h : w.Issues w') (hn : w'.nextRoom ≤ 50000) :
    w.Retains w' := by
  refine fun x hx => ⟨h.used hx, ?_⟩
  cases h with
  | none huid hroom hindex =>
    cases hx' : w'.index.get? x with
    | none => exact .inr rfl
    | some r => exact .inl (hindex hx').symm
  | room r huid hroom hindex =>
    rw [hindex, Table.get?_set_ne]
    · exact .inl rfl
    · rintro rfl
      exact not_used_room (by omega) hx
  | other r huid hroom hindex =>
    rw [hindex, Table.get?_set_ne]
    · exact .inl rfl
    · rintro rfl
      exact hw.not_used_other (by omega) hx

theorem Retains.refl : w.Retains w := fun _ hx => ⟨hx, .inl rfl⟩

theorem Retains.trans (h : w.Retains w1) (h' : w1.Retains w') : w.Retains w' := by
  intro x hx
  obtain ⟨hused, hentry⟩ := h x hx
  obtain ⟨hused', hentry'⟩ := h' x hused
  refine ⟨hused', hentry'.elim (fun he => ?_) .inr⟩
  rw [he]
  exact hentry

theorem Ranged.crafts (hw : w.Ranged) (h : Relation.ReflTransGen Craft w w') : w'.Ranged := by
  induction h with
  | refl => exact hw
  | tail _ h ih => exact ih.issues h.issues

/-- Any number of commands, while there are 50,000 rooms at most. -/
theorem Ranged.retains (hw : w.Ranged) (h : Relation.ReflTransGen Craft w w')
    (hn : w'.nextRoom ≤ 50000) : w.Retains w' := by
  induction h with
  | refl => exact .refl
  | tail hpath h ih =>
    have hle := h.issues.nextRoom_le
    exact (ih (by omega)).trans ((hw.crafts hpath).retains_issues h.issues hn)

/-- What an identity leads to, it leads to for as long as it leads to anything; one in use that leads to
nothing never leads to anything again. -/
theorem Ranged.resolve_retains (hw : w.Ranged) (h : Relation.ReflTransGen Craft w w')
    (hn : w'.nextRoom ≤ 50000) (hu : w.Used u) :
    w'.resolve u = w.resolve u ∨ w'.resolve u = .nothing := by
  rcases (hw.retains h hn u hu).2 with he | he
  · exact .inl (by rw [resolve, resolve, he])
  · exact .inr (by rw [resolve, he]; rfl)

theorem Ranged.used_of_resolve (hw : w.Ranged) (hu : w.resolve u ≠ .nothing) : w.Used u :=
  hw.used (get?_of_resolve rfl hu)

end World

/-! ## The world in the course of a game -/

/-- A change of a game does to its world what a command of the world does, if anything. -/
theorem Change.crafts {m m' : Moment} (h : Change m m') :
    Relation.ReflTransGen World.Craft m.game.world m'.game.world := by
  rcases h.world_cases with he | ⟨message, he⟩ | ⟨u, room, he⟩ | ⟨u, -, he⟩ <;> rw [he]
  · exact .single (.tell message)
  · exact .single (.placeCharacter u room)
  · exact .single (.extract u)

theorem Operation.opening_crafts {g : Game} {op : Operation} (hop : op.Crafts g) :
    Relation.ReflTransGen World.Craft g.world (op.opening g).game.world := by
  by_cases hp : op.isPlay = true
  · rw [opening_world g op hp]
  · cases op with
    | purge u =>
      show Relation.ReflTransGen World.Craft g.world (g.purge u).world
      rw [(Game.silent_purge u).world]
      exact .single (.extract u)
    | replaceWorld w => exact hop w rfl
    | extractEntity | run | attach | detach | detachAll | setGlobal | dispatch | pulse | interpret
      | execute | walk => exact absurd rfl hp

/-- In the course of a game its world goes through commands of the world, if the host keeps to them. -/
theorem world_crafts {may : Game → Operation → Prop} (hmay : ∀ g op, may g op → op.Crafts g)
    {p p' : Stage} (h : Course may p p') :
    Relation.ReflTransGen World.Craft p.game.world p'.game.world := by
  induction h with
  | refl => exact .refl
  | tail _ hn ih =>
    cases hn with
    | change hf => exact ih.trans hf.change.crafts
    | call op hop => exact ih.trans (Operation.opening_crafts (hmay _ op hop))

end MudTrigger
