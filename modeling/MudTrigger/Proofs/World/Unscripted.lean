import MudTrigger.Proofs.World.Tour

/-!
# No trigger is attached to a player

A trigger is attached to a mobile, an object or a room. None of them is ever turned into a player: edits
of records leave their prototypes, and identities are not given out again while there are 50,000 rooms
at most (`World.Act.isPlayer`). So no trigger ever belongs to a player (`players_unscripted`).
-/

set_option autoImplicit false

namespace MudTrigger

open Game

namespace World

variable {p : Policy} {w w' : World} {u x : Uid}

theorem isPlayer_eq : isPlayer w x = ((w.character? x).map (·.vnum)).any (!·.isSome) := by
  rw [isPlayer, Option.any_map]
  rfl

theorem isPlayer_congr
    (h : (w'.character? x).map (·.vnum) = (w.character? x).map (·.vnum)) :
    isPlayer w' x = isPlayer w x := by
  rw [isPlayer_eq, h, ← isPlayer_eq]

theorem isPlayer_of_eq (h : w'.character? x = w.character? x) : isPlayer w' x = isPlayer w x := by
  rw [isPlayer, h, isPlayer]

theorem Alike.isPlayer (h : w.Alike w') : isPlayer w' x = isPlayer w x := by
  refine isPlayer_congr ?_
  have hc := congrArg (Option.map fun s => s.2.1) (h.character x)
  simp only [Option.map_map] at hc
  exact hc

theorem Wanes.isPlayer (h : w.Wanes w') (hx : isPlayer w' x = true) : isPlayer w x = true := by
  obtain ⟨c', hc', hp⟩ := (Option.any_eq_true _ _).1 hx
  obtain ⟨c, hc, hf⟩ := h.character? hc'
  refine (Option.any_eq_true _ _).2 ⟨c, hc, ?_⟩
  rwa [Character.isMobile, ← hf.vnum, ← Character.isMobile]

namespace Sound

variable (hw : w.Sound)
include hw

theorem isPlayer_modifyCharacter (u x : Uid) {f : Character → Character}
    (hf : ∀ c, (f c).vnum = c.vnum) : isPlayer (w.modifyCharacter u f) x = isPlayer w x :=
  isPlayer_congr (hw.map_character?_modifyCharacter u x fun c _ => hf c)

theorem isPlayer_unlink (u x : Uid) (ℓ : Location) : isPlayer (w.unlink u ℓ) x = isPlayer w x := by
  cases ℓ with
  | nowhere => rfl
  | room | inside => exact isPlayer_of_eq (by simp [World.unlink])
  | carried | worn => exact hw.isPlayer_modifyCharacter _ x fun _ => rfl

theorem isPlayer_link (u x : Uid) (ℓ : Location) : isPlayer (w.link u ℓ) x = isPlayer w x := by
  cases ℓ with
  | nowhere => rfl
  | room | inside => exact isPlayer_of_eq (by simp [World.link])
  | carried | worn => exact hw.isPlayer_modifyCharacter _ x fun _ => rfl

theorem isPlayer_placeObject (u x : Uid) (ℓ : Location) :
    isPlayer (w.placeObject u ℓ) x = isPlayer w x := by
  cases ho : w.object? u with
  | none => rw [placeObject_of_none ho]
  | some o =>
    rw [placeObject_eq ho, ← hw.isPlayer_unlink u x o.location,
      ← (hw.unlink u o.location).isPlayer_link u x ℓ]
    exact isPlayer_of_eq (by simp)

/-- A new character is somebody else. -/
theorem isPlayer_addCharacter (vnum : Option Vnum) (name : String) (room : Uid)
    (hx : x ≠ ⟨w.nextUid⟩)
    (hp : isPlayer (w.addCharacter vnum name room).2 x = true) : isPlayer w x = true := by
  rw [addCharacter_eq] at hp
  have henroll := (Wanes.placeCharacter _ room).isPlayer hp
  refine (isPlayer_of_eq ?_).symm.trans henroll
  rw [hw.character?_enroll vnum name x, if_neg hx]

end Sound

theorem Used.crafts (hu : w.Used u)
    (h : Relation.ReflTransGen Craft w w') : w'.Used u := by
  induction h with
  | refl => exact hu
  | tail _ h ih => exact h.issues.used ih

/-- Nobody becomes a player, while there are 50,000 rooms at most. -/
theorem Act.isPlayer (h : Act p w w') (hw : w.Sound) (hr : w.Ranged) (hn : w'.nextRoom ≤ 50000)
    (hx : w.Used x) (hp : isPlayer w' x = true) : isPlayer w x = true := by
  have hle := h.craft.issues.nextRoom_le
  have hunused : ¬ w.Used ⟨w.nextUid⟩ := hr.not_used_other (by omega)
  have hfree : w.index.get? ⟨w.nextUid⟩ = none := hr.get?_of_not_used hunused
  have hne : x ≠ ⟨w.nextUid⟩ := fun he => hunused (he ▸ hx)
  cases h with
  | tell | clearMessages | setTime => exact hp
  | editCharacter u f stays => rwa [← (Alike.modifyCharacter hw u stays).isPlayer]
  | editObject u f stays => rwa [← (Alike.modifyObject hw u stays).isPlayer]
  | editRoom u f stays => rwa [← (Alike.modifyRoom hw u stays).isPlayer]
  | placeCharacter u room => exact (Wanes.placeCharacter u room).isPlayer hp
  | placeObject u ℓ => rwa [← hw.isPlayer_placeObject u x ℓ]
  | join start d finish => rwa [← (Alike.join hw start d finish).isPlayer]
  | addRoom vnum name =>
    have hroom : w.index.get? (Uid.room w.nextRoom) = none :=
      hr.get?_of_not_used (not_used_room (Nat.lt_of_succ_le hn))
    rwa [← isPlayer_of_eq (character?_addRoom vnum name hroom x)]
  | addPlayer name room => exact hw.isPlayer_addCharacter none name room hne hp
  | addMobile vnum name room =>
    have hname : (w.nameMobile vnum name).Sound := hw.of_eq rfl rfl rfl rfl rfl
    exact hname.isPlayer_addCharacter (some vnum) name room hne hp
  | addObject vnum name location =>
    rw [addObject_eq, (hw.produce _ rfl rfl).isPlayer_placeObject] at hp
    rwa [← isPlayer_of_eq (character?_produce vnum name hfree x)]
  | extract u => exact (takes_extract w u).wanes.isPlayer hp

theorem Acts.isPlayer (h : Acts p w w') (hw : w.Sound) (hr : w.Ranged) (hn : w'.nextRoom ≤ 50000)
    (hx : w.Used x) (hp : isPlayer w' x = true) : isPlayer w x = true := by
  induction h with
  | refl => exact hp
  | tail hpath h ih =>
    have hcrafts := Acts.crafts hpath
    have hle := h.craft.issues.nextRoom_le
    exact ih (by omega)
      (h.isPlayer (hw.crafts hcrafts) (hr.crafts hcrafts) hn (hx.crafts hcrafts) hp)

end World

/-! ## Games -/

variable {g : Game} {p : World.Policy}

/-- No trigger is attached to a player, nor to an identity that is still to be given out. -/
def Game.Chartered (g : Game) : Prop :=
  ∀ h i, g.instance? h = some i → g.world.Used i.owner ∧ isPlayer g.world i.owner = false

/-- What becomes of the triggers that are attached, when the world loses no player. -/
theorem Effect.chartered {m m' : Moment} (h : Effect m m') (hm : m.game.Chartered)
    (hs : m.game.engine.triggers.Sound) (hr : m.game.world.Ranged)
    (hw : ∀ u, m.game.world.Used u →
      m'.game.world.Used u ∧ (isPlayer m'.game.world u = true → isPlayer m.game.world u = true)) :
    m'.game.Chartered := by
  -- Whoever was a charter's owner in the old world is one in the new.
  have still : ∀ {u}, m.game.world.Used u → isPlayer m.game.world u = false →
      m'.game.world.Used u ∧ isPlayer m'.game.world u = false := fun hu hp =>
    ⟨(hw _ hu).1, Bool.eq_false_iff.2 fun ht => Bool.eq_false_iff.1 hp ((hw _ hu).2 ht)⟩
  intro x j hj
  rcases h.owner hs hj with ⟨i, hi, ho⟩ | ⟨vnum, position, ha⟩
  · obtain ⟨hused, hp⟩ := hm x i hi
    exact still (ho ▸ hused) (ho ▸ hp)
  · obtain ⟨k, hk⟩ := kindOf_of_attach ha
    refine still (hr.used_of_resolve ?_) (not_player_of_kindOf hk)
    intro hnothing
    rw [kindOf, hnothing] at hk
    cases hk

theorem Changes.chartered {m m' : Moment} (h : Changes m m') (hm : m.game.Chartered)
    (hg : m.game.Coherent) (hr : m.game.world.Ranged) : m'.game.Chartered := by
  induction h with
  | refl => exact hm
  | tail hpath h ih =>
    exact h.effect.chartered ih (Coherent.changes hpath hg).sound (hr.crafts (Changes.crafts hpath))
      fun u hu => ⟨hu.crafts h.crafts, h.wanes.isPlayer⟩

theorem Operation.chartered {op : Operation} (hop : op.Abides p g)
    (hn : (op.apply g).world.nextRoom ≤ 50000) (hm : g.Chartered) (hg : g.Coherent)
    (hw : g.world.Sound) (hr : g.world.Ranged) : (op.apply g).Chartered := by
  have hcrafts := opening_crafts hop.crafts
  have hle := World.nextRoom_le_of_crafts (Changes.crafts (op.apply_changes g))
  have hlost : ∀ u, g.world.Used u → isPlayer (op.opening g).game.world u = true →
      isPlayer g.world u = true := by
    intro u hu hp
    by_cases hplay : op.isPlay = true
    · rwa [opening_world g op hplay] at hp
    · cases op with
      | purge v =>
        have hv : (g.purge v).world = (g.world.extract v).2 := (silent_purge v).world
        exact (World.takes_extract g.world v).wanes.isPlayer (hv ▸ hp)
      | replaceWorld w => exact (hop w rfl).isPlayer hw hr hn hu hp
      | extractEntity | run | attach | detach | detachAll | setGlobal | dispatch | pulse | interpret
        | execute | walk => exact absurd rfl hplay
  have hopen : (op.opening g).game.Chartered :=
    (Operation.effect g op).chartered hm hg.sound hr fun u hu => ⟨hu.crafts hcrafts, hlost u hu⟩
  exact (op.apply_changes g).chartered hopen (hg.opening op) (hr.crafts hcrafts)

theorem play_chartered {ops : List Operation} (hm : g.Chartered) (hg : g.Coherent) (hw : g.world.Sound)
    (hr : g.world.Ranged) (hops : g.Allows (fun g op => op.Abides p g) ops)
    (hn : (g.play ops).world.nextRoom ≤ 50000) : (g.play ops).Chartered := by
  induction ops generalizing g with
  | nil => exact hm
  | cons op ops ih =>
    have hcrafts := Operation.apply_crafts hops.1.crafts
    have hle := World.nextRoom_le_of_crafts (play_crafts (hops.2.imp fun _ _ h => h.crafts))
    exact ih (Operation.chartered hops.1 (Nat.le_trans hle hn) hm hg hw hr) (hg.apply op)
      (hw.crafts hcrafts) (hr.crafts hcrafts) hops.2 hn

/-- Whatever the host does that edits no prototype, no trigger is ever attached to a player. -/
theorem players_unscripted (config : Config) (registry : Registry) {ops : List Operation}
    (hops : (Game.start config registry {}).Allows (fun g op => op.Abides p g) ops)
    (hn : ((Game.start config registry {}).play ops).world.nextRoom ≤ 50000) {u : Uid}
    (hu : isPlayer ((Game.start config registry {}).play ops).world u = true) :
    ((Game.start config registry {}).play ops).Unscripted u := by
  have hempty : (Game.start config registry {}).Chartered := fun h i hi => by cases hi
  have hcharter := play_chartered hempty (coherent_start config registry {}) World.sound_empty
    World.ranged_empty hops hn
  refine ⟨hu, fun h i hi he => ?_⟩
  have howner := (hcharter h i hi).2
  rw [he, hu] at howner
  cases howner

end MudTrigger
