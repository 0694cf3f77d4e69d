import Mathlib.Logic.ExistsUnique
import MudTrigger.Proofs.Store.Coherent
import MudTrigger.Proofs.Trace.Operation

/-!
# Triggers and containers agree in every game

Attaching, detaching and extracting keep a game `Coherent`, and so does every change of a run and
every operation of the host (`Coherent.change`, `Coherent.apply`). So the event bits that an offer
tests first are those of the triggers that are attached: the test never changes what an offer finds
(`Coherent.triggerFor_eq`).
-/

set_option autoImplicit false

namespace MudTrigger

namespace Container

variable {c : Container} {h : Handle} {position : Option Nat}

theorem perm_insert : (c.insert h position).triggers.Perm (h :: c.triggers) :=
  List.perm_insertIdx h _ (Nat.min_le_right _ _)

end Container

namespace Game

variable {g g' : Game} {s : List Activation}

/-! ## Attaching -/

/-- The handle of the next trigger. -/
def nextHandle (g : Game) (target : Uid) (p : Prototype) : Handle :=
  (g.engine.triggers.insert { proto := p, owner := target }).1

/-- The container of an entity with one more trigger. -/
def grown (g : Game) (target : Uid) (p : Prototype) (position : Option Nat) : Container :=
  let c := ((g.container? target).getD { kind := p.kind }).insert (g.nextHandle target p) position
  { c with types := c.types.union p.events }

/-- The game with one more trigger. -/
def attachTo (g : Game) (target : Uid) (vnum : Vnum) (p : Prototype) (position : Option Nat) : Game :=
  ((g.withTriggers (g.engine.triggers.insert { proto := p, owner := target }).2).withContainers
    (g.engine.containers.set target (g.grown target p position))).report (.attached vnum target)

/-- What attaching does, if it is not refused. -/
theorem attach_ok {vnum : Vnum} {target : Uid} {position : Option Nat} {h : Handle}
    (ha : g.attach vnum target position = .ok (h, g')) :
    ∃ p, h = g.nextHandle target p ∧ g' = g.attachTo target vnum p position := by
  unfold attach at ha
  split at ha
  · cases ha
  · rename_i p _
    split at ha
    · cases ha
    · rename_i k _
      simp only at ha
      split at ha
      · cases ha
      · rename_i hk
        obtain rfl := Decidable.not_not.1 hk
        cases ha
        exact ⟨p, rfl, rfl⟩

section

variable (target : Uid) (vnum : Vnum) (p : Prototype) (position : Option Nat)

theorem instance?_attachTo (hs : g.engine.triggers.Sound) (h : Handle) :
    (g.attachTo target vnum p position).instance? h =
      if h = g.nextHandle target p then some { proto := p, owner := target }
      else g.instance? h :=
  hs.get?_insert _ h

theorem container?_attachTo (u : Uid) :
    (g.attachTo target vnum p position).container? u =
      if u = target then some (g.grown target p position) else g.container? u :=
  Table.get?_set _ _ _ _

theorem instance?_nextHandle (hs : g.engine.triggers.Sound) :
    g.instance? (g.nextHandle target p) = none := hs.get?_insert_fst _

theorem triggers_grown :
    (g.grown target p position).triggers.Perm
      (g.nextHandle target p :: g.listed target) := by
  refine Container.perm_insert.trans ?_
  unfold listed
  cases g.container? target <;> exact .refl _

end

theorem Coherent.types_grown (hg : g.Coherent) (target : Uid) (p : Prototype)
    (position : Option Nat) :
    (g.grown target p position).types = (g.eventsOf (g.listed target)).union p.events := by
  show (((g.container? target).getD { kind := p.kind }).types).union p.events = _
  cases hc : g.container? target with
  | none => rw [listed_eq_nil hc]; rfl
  | some c => rw [listed_eq hc, ← hg.types hc]; rfl

theorem Coherent.attachTo (hg : g.Coherent) (target : Uid) (vnum : Vnum) (p : Prototype)
    (position : Option Nat) : (g.attachTo target vnum p position).Coherent := by
  have hi := instance?_attachTo target vnum p position hg.sound
  have hc := container?_attachTo (g := g) target vnum p position
  have hp := triggers_grown (g := g) target p position
  have hn := instance?_nextHandle target p hg.sound
  have hold : ∀ {u h}, h ∈ g.listed u →
      (g.attachTo target vnum p position).instance? h = g.instance? h := fun {u h} hm => by
    obtain ⟨i, hx, -⟩ := hg.mem_listed_iff.1 hm
    rw [hi, if_neg fun he => by rw [he, hn] at hx; cases hx]
  refine ⟨hg.sound.insert _, fun {u c} h => ?_, fun {u c} h => ?_, fun {u c h'} h hm => ?_,
    fun {h' i} h => ?_, fun {u c} h => ?_⟩
  · rw [hc] at h
    split at h
    · cases h
      exact fun he => List.cons_ne_nil _ _ (he ▸ hp).nil_eq.symm
    · exact hg.nonempty h
  · rw [hc] at h
    split at h
    · cases h
      refine hp.nodup_iff.2 (List.nodup_cons.2 ⟨fun hm => ?_, hg.nodup_listed target⟩)
      obtain ⟨i, hx, -⟩ := hg.mem_listed_iff.1 hm
      rw [hn] at hx
      cases hx
    · exact hg.nodup h
  · rw [hc] at h
    split at h
    · rename_i hu
      cases h
      rcases List.mem_cons.1 (hp.mem_iff.1 hm) with rfl | hm
      · exact ⟨_, by rw [hi, if_pos rfl], hu.symm⟩
      · rw [hold hm, hu]
        exact hg.mem_listed_iff.1 hm
    · rw [hold (listed_eq h ▸ hm)]
      exact hg.live h hm
  · rw [hi] at h
    split at h
    · rename_i he
      cases h
      exact ⟨_, by rw [hc, if_pos rfl], hp.mem_iff.2 (he ▸ List.mem_cons_self)⟩
    · have hm := hg.mem_listed_iff.2 ⟨i, h, rfl⟩
      by_cases hu : i.owner = target
      · exact ⟨_, by rw [hc, if_pos hu], hp.mem_iff.2 (List.mem_cons_of_mem _ (hu ▸ hm))⟩
      · rw [hc, if_neg hu]
        exact mem_listed.1 hm
  · rw [hc] at h
    split at h
    · cases h
      refine eq_eventsOf fun k => ?_
      rw [hg.types_grown, Bits.testBit_union, Bool.or_eq_true, testBit_eventsOf]
      constructor
      · rintro (⟨h', hm, i, hx, hk⟩ | hk)
        · exact ⟨h', hp.mem_iff.2 (List.mem_cons_of_mem _ hm), i, by rw [hold hm, hx], hk⟩
        · exact ⟨_, hp.mem_iff.2 List.mem_cons_self, _, by rw [hi, if_pos rfl], hk⟩
      · rintro ⟨h', hm, i, hx, hk⟩
        rcases List.mem_cons.1 (hp.mem_iff.1 hm) with rfl | hm
        · rw [hi, if_pos rfl] at hx
          cases hx
          exact .inr hk
        · exact .inl ⟨h', hm, i, by rw [← hold hm, hx], hk⟩
    · rw [hg.types h]
      exact (eventsOf_congr fun x hx => hold (listed_eq h ▸ hx)).symm

/-! ## Removing -/

section

variable (h : Handle)

theorem triggers_dropInstance :
    (g.dropInstance h).engine.triggers = (g.engine.triggers.remove h).2 := by
  unfold dropInstance
  split
  · rename_i hi
    rw [Arena.remove_of_stale hi]
  · split <;> rfl

@[simp] theorem container?_dropInstance (u : Uid) :
    (g.dropInstance h).container? u = g.container? u := by
  unfold dropInstance
  split
  · rfl
  · split <;> rfl

theorem instance?_dropInstance (h' : Handle) :
    (g.dropInstance h).instance? h' = if h' = h then none else g.instance? h' := by
  rw [instance?, triggers_dropInstance]
  exact Arena.get?_remove _ h h'

theorem sound_dropInstance (hs : g.engine.triggers.Sound) :
    (g.dropInstance h).engine.triggers.Sound := by
  rw [triggers_dropInstance]
  exact hs.remove h

end

/-- The container of an entity after a trigger of its own is removed, if it still has one. -/
theorem container?_removeInstance {u : Uid} {c : Container} (hc : g.container? u = some c)
    (h : Handle) (u' : Uid) :
    (g.removeInstance u h).container? u' =
      if u' = u then
        if (c.erase h).isEmpty = true then none
        else some { c.erase h with types := (g.dropInstance h).eventsOf (c.erase h).triggers }
      else g.container? u' := by
  unfold removeInstance
  simp only [container?_dropInstance, hc]
  split
  · exact (Table.get?_erase _ _ _).trans (by rw [← container?, container?_dropInstance])
  · exact (Table.get?_set _ _ _ _).trans (by rw [← container?, container?_dropInstance])

theorem triggers_removeInstance (u : Uid) (h : Handle) :
    (g.removeInstance u h).engine.triggers = (g.dropInstance h).engine.triggers := by
  unfold removeInstance
  simp only
  split
  · rfl
  · split <;> rfl

theorem instance?_removeInstance (u : Uid) (h h' : Handle) :
    (g.removeInstance u h).instance? h' = if h' = h then none else g.instance? h' := by
  rw [instance?, triggers_removeInstance, ← instance?, instance?_dropInstance]

theorem Coherent.removeInstance (hg : g.Coherent) {u : Uid} {c : Container} {h : Handle}
    (hc : g.container? u = some c) (hm : h ∈ c.triggers) : (g.removeInstance u h).Coherent := by
  have hi := instance?_removeInstance (g := g) u h
  have hk := container?_removeInstance hc h
  have he : ∀ h', h' ∈ (c.erase h).triggers ↔ h' ≠ h ∧ h' ∈ c.triggers := fun h' =>
    (hg.nodup hc).mem_erase_iff
  obtain ⟨x, hx, hxo⟩ := hg.live hc hm
  -- A trigger of another entity is another trigger.
  have hne : ∀ {u' h' c'}, u' ≠ u → g.container? u' = some c' → h' ∈ c'.triggers → h' ≠ h := by
    rintro u' h' c' hu hc' hm' rfl
    obtain ⟨y, hy, hyo⟩ := hg.live hc' hm'
    rw [hx, Option.some.injEq] at hy
    exact hu (by rw [← hyo, ← hy, hxo])
  refine ⟨by rw [triggers_removeInstance]; exact sound_dropInstance h hg.sound,
    fun {u' d} hd => ?_, fun {u' d} hd => ?_, fun {u' d h'} hd hm' => ?_, fun {h' i} hi' => ?_,
    fun {u' d} hd => ?_⟩
  · rw [hk] at hd
    split at hd
    · split at hd
      · cases hd
      · rename_i hne'
        cases hd
        exact fun hnil => hne' (List.isEmpty_iff.2 hnil)
    · exact hg.nonempty hd
  · rw [hk] at hd
    split at hd
    · split at hd
      · cases hd
      · cases hd
        exact (hg.nodup hc).erase h
    · exact hg.nodup hd
  · rw [hk] at hd
    split at hd
    · rename_i hu
      split at hd
      · cases hd
      · cases hd
        obtain ⟨hne', hm'⟩ := (he h').1 hm'
        rw [hi, if_neg hne', hu]
        exact hg.live hc hm'
    · rename_i hu
      rw [hi, if_neg (hne hu hd hm')]
      exact hg.live hd hm'
  · rw [hi] at hi'
    split at hi'
    · cases hi'
    · rename_i hne'
      obtain ⟨d, hd, hm'⟩ := hg.listed hi'
      by_cases hu : i.owner = u
      · rw [hu, hc, Option.some.injEq] at hd
        subst hd
        have hm' := (he h').2 ⟨hne', hm'⟩
        have hnil : ¬ (c.erase h).isEmpty = true := fun hnil =>
          List.ne_nil_of_mem hm' (List.isEmpty_iff.1 hnil)
        refine ⟨{ c.erase h with types := (g.dropInstance h).eventsOf (c.erase h).triggers }, ?_, hm'⟩
        rw [hk, if_pos hu, if_neg hnil]
      · exact ⟨d, by rw [hk, if_neg hu, hd], hm'⟩
  · have hev : ∀ l, (g.removeInstance u h).eventsOf l = (g.dropInstance h).eventsOf l := fun l =>
      eventsOf_congr fun x _ => by rw [hi, instance?_dropInstance]
    rw [hk] at hd
    split at hd
    · split at hd
      · cases hd
      · cases hd
        rw [hev]
    · rename_i hu
      rw [hg.types hd]
      exact (eventsOf_congr fun x hx => by rw [hi, if_neg (hne hu hd hx)]).symm

/-! ## Forgetting an entity -/

/-- The triggers of an entity are all removed, and its container with them. -/
theorem Coherent.forget (hg : g.Coherent) {u : Uid} (hs : g'.engine.triggers.Sound)
    (hi : ∀ h, g'.instance? h = if h ∈ g.listed u then none else g.instance? h)
    (hc : ∀ u', g'.container? u' = if u' = u then none else g.container? u') : g'.Coherent := by
  have hold : ∀ {u'}, g'.container? u' ≠ none → g'.container? u' = g.container? u' ∧
      ∀ h ∈ g.listed u', g'.instance? h = g.instance? h := by
    intro u' hne
    rw [hc] at hne ⊢
    by_cases hu : u' = u
    · exact absurd (if_pos hu) hne
    · refine ⟨if_neg hu, fun h hm => ?_⟩
      rw [hi, if_neg fun hm' => ?_]
      obtain ⟨i, hx, ho⟩ := hg.mem_listed_iff.1 hm
      obtain ⟨j, hy, hp⟩ := hg.mem_listed_iff.1 hm'
      rw [hx, Option.some.injEq] at hy
      exact hu (by rw [← ho, hy, hp])
  have hget : ∀ {u' c}, g'.container? u' = some c → g.container? u' = some c ∧
      ∀ h ∈ c.triggers, g'.instance? h = g.instance? h := by
    intro u' c h
    obtain ⟨he, hl⟩ := hold (by rw [h]; exact Option.some_ne_none c)
    rw [h] at he
    exact ⟨he.symm, listed_eq he.symm ▸ hl⟩
  refine ⟨hs, fun h => hg.nonempty (hget h).1, fun h => hg.nodup (hget h).1,
    fun {u' c x} h hm => ?_, fun {x i} h => ?_, fun {u' c} h => ?_⟩
  · rw [(hget h).2 x hm]
    exact hg.live (hget h).1 hm
  · rw [hi] at h
    split at h
    · cases h
    · rename_i hn
      obtain ⟨c, hd, hm⟩ := hg.listed h
      refine ⟨c, ?_, hm⟩
      rw [hc, if_neg, hd]
      rintro rfl
      exact hn (listed_eq hd ▸ hm)
  · rw [hg.types (hget h).1]
    exact (eventsOf_congr (hget h).2).symm

/-- The arena after handles were removed one after another. -/
theorem get?_foldl_remove (hs : List Handle) (a : Arena Instance) (h : Handle) :
    (hs.foldl (fun ts h => (ts.remove h).2) a).get? h = if h ∈ hs then none else a.get? h := by
  induction hs generalizing a with
  | nil => simp
  | cons x hs ih =>
    rw [List.foldl_cons, ih, Arena.get?_remove]
    by_cases hm : h ∈ hs
    · simp [hm]
    · simp [hm]

theorem sound_foldl_remove (hs : List Handle) {a : Arena Instance} (ha : a.Sound) :
    (hs.foldl (fun ts h => (ts.remove h).2) a).Sound := by
  induction hs generalizing a with
  | nil => exact ha
  | cons x hs ih => exact ih (ha.remove x)

theorem triggers_foldl_dropInstance (hs : List Handle) :
    (hs.foldl dropInstance g).engine.triggers =
      hs.foldl (fun ts h => (ts.remove h).2) g.engine.triggers := by
  induction hs generalizing g with
  | nil => rfl
  | cons x hs ih => rw [List.foldl_cons, ih, triggers_dropInstance, List.foldl_cons]

theorem container?_foldl_dropInstance (hs : List Handle) (u : Uid) :
    (hs.foldl dropInstance g).container? u = g.container? u := by
  induction hs generalizing g with
  | nil => rfl
  | cons x hs ih => rw [List.foldl_cons, ih, container?_dropInstance]

theorem triggers_detachAll (u : Uid) :
    (g.detachAll u).2.engine.triggers =
      (g.listed u).foldl (fun ts h => (ts.remove h).2) g.engine.triggers := by
  unfold detachAll
  split
  · rename_i hc
    rw [listed_eq_nil hc]
    rfl
  · rename_i c hc
    rw [listed_eq hc]
    exact triggers_foldl_dropInstance _

theorem container?_detachAll (u u' : Uid) :
    (g.detachAll u).2.container? u' = if u' = u then none else g.container? u' := by
  unfold detachAll
  split
  · rename_i hc
    split
    · rename_i he
      rw [he]
      exact hc
    · rfl
  · exact (container?_foldl_dropInstance _ _).trans (Table.get?_erase _ _ _)

theorem Coherent.detachAll (hg : g.Coherent) (u : Uid) : (g.detachAll u).2.Coherent := by
  refine hg.forget (u := u) ?_ (fun h => ?_) (container?_detachAll u)
  · rw [triggers_detachAll]
    exact sound_foldl_remove _ hg.sound
  · rw [instance?, triggers_detachAll]
    exact get?_foldl_remove _ _ h

theorem triggers_extractEntity (u : Uid) :
    (g.extractEntity u).engine.triggers =
      (g.listed u).foldl (fun ts h => (ts.remove h).2) g.engine.triggers := by
  unfold extractEntity
  cases hc : g.container? u with
  | none =>
    rw [listed_eq_nil hc]
    simp only
    split <;> rfl
  | some c =>
    rw [listed_eq hc]
    simp only
    split <;> rfl

theorem container?_extractEntity (u u' : Uid) :
    (g.extractEntity u).container? u' = if u' = u then none else g.container? u' := by
  unfold extractEntity
  cases hc : g.container? u with
  | none =>
    have hn : g.container? u' = if u' = u then none else g.container? u' := by
      split
      · rename_i he
        rw [he]
        exact hc
      · rfl
    simp only
    split <;> exact hn
  | some c =>
    simp only
    split <;> exact Table.get?_erase _ _ _

theorem Coherent.extractEntity (hg : g.Coherent) (u : Uid) : (g.extractEntity u).Coherent := by
  refine hg.forget (u := u) ?_ (fun h => ?_) (container?_extractEntity u)
  · rw [triggers_extractEntity]
    exact sound_foldl_remove _ hg.sound
  · rw [instance?, triggers_extractEntity]
    exact get?_foldl_remove _ _ h

theorem Coherent.purge (hg : g.Coherent) (u : Uid) : (g.purge u).Coherent := by
  unfold Game.purge
  generalize g.world.extract u = p
  have hw : (g.withWorld p.2).Coherent := hg.of_same (same_of_eq rfl rfl)
  show (p.1.foldl Game.extractEntity (g.withWorld p.2)).Coherent
  generalize g.withWorld p.2 = g1 at hw
  induction p.1 generalizing g1 with
  | nil => exact hw
  | cons v gone ih => exact ih _ (hw.extractEntity v)

/-! ## Every game -/

/-- A trigger is attached, or some are removed. -/
inductive Alters : Moment → Moment → Prop
  | purge {m : Moment} (u : Uid) : Alters m ⟨m.stack, m.game.purge u⟩
  | attach {m m' : Moment} {vnum target position h} : m'.stack = m.stack →
    m.game.attach vnum target position = .ok (h, m'.game) → Alters m m'
  | detach {m : Moment} {target c h} : m.game.container? target = some c → h ∈ c.triggers →
    Alters m ⟨m.stack, m.game.removeInstance target h⟩
  | detachAll {m : Moment} (target : Uid) : Alters m ⟨m.stack, (m.game.detachAll target).2⟩

/-- A change leaves the same triggers attached, but for those that attach or remove some. -/
theorem same_or_alters {m m' : Moment} (h : Change m m') :
    Same m.game m'.game ∨ Alters m m' := by
  cases h with
  | purge => exact .inr (.purge _)
  | attach ha => exact .inr (.attach rfl ha)
  | detach hc hm => exact .inr (.detach hc hm)
  | detachAll target => exact .inr (.detachAll target)
  | report | blame | addNote | roll | tell | place | reach | evaluate | command | vanish | noteHour
    | skip => exact .inl (same_of_eq rfl rfl)
  | loopOver => exact .inl .refl
  | setLocal => exact .inl (same_setLocal _ _ _)
  | makeGlobal v => exact .inl (same_makeGlobal _ _ v)
  | unset name => exact .inl (same_unset _ _ name)
  | deepen => exact .inl (same_deepen _)
  | rise => exact .inl (same_rise _)
  | loopAgain => exact .inl (same_countLoop _)
  | loopYield => exact .inl ((same_countLoop _).trans ((same_suspend _ _ _ _ _).trans same_leave))
  | loopHalt => exact .inl ((same_countLoop _).report.trans ((same_finish _).trans same_leave))
  | suspend => exact .inl ((same_suspend _ _ _ _ _).trans same_leave)
  | finish => exact .inl ((same_finish _).trans same_leave)
  | start bindings =>
    exact .inl ((same_bindLocals _ bindings).trans ((same_enter _ _).trans (same_begin _)))
  | refuse bindings => exact .inl ((same_bindLocals _ bindings).trans (same_refuse _ _ .new))
  | resume =>
    exact .inl ((same_withWaits _).report.trans ((same_enter _ _).trans (same_takeUp _)))
  | @refuseResume _ w _ i =>
    exact .inl ((same_withWaits _).report.trans (same_refuse w.continuation.trigger i .resume))

theorem Coherent.change {m m' : Moment} (h : Change m m') (hg : m.game.Coherent) :
    m'.game.Coherent := by
  rcases same_or_alters h with hs | ha
  · exact hg.of_same hs
  · cases ha with
    | purge u => exact hg.purge u
    | attach _ ha =>
      obtain ⟨p, -, he⟩ := attach_ok ha
      rw [he]
      exact hg.attachTo _ _ p _
    | detach hc hm => exact hg.removeInstance hc hm
    | detachAll target => exact hg.detachAll target

theorem Coherent.changes {m m' : Moment} (h : Changes m m') (hg : m.game.Coherent) :
    m'.game.Coherent := by
  induction h with
  | refl => exact hg
  | tail _ h ih => exact ih.change h

theorem Coherent.intervention (hg : g.Coherent) (h : Intervention g g') : g'.Coherent := by
  cases h with
  | extractEntity u => exact hg.extractEntity u
  | setGlobal u name value => exact hg.of_same (same_modifyContainer u fun _ => rfl)
  | purge u => exact hg.purge u
  | replaceWorld => exact hg.of_same (same_of_eq rfl rfl)

theorem Coherent.resume (hg : g.Coherent) (host : Host) (h : Handle) :
    ((Operation.run host h .resume).apply g).Coherent := by
  obtain ⟨g1, s, hc, h1⟩ := Operation.apply_resume g host h
  refine Coherent.changes hc ?_
  rcases h1 with ⟨rfl, -⟩ | ⟨i, -, ⟨rfl, -⟩ | ⟨rfl, -⟩⟩
  · exact hg
  · exact hg.of_same (same_refuse h i .resume)
  · exact hg.of_same ((same_enter _ _).trans (same_takeUp _))

theorem Coherent.apply (hg : g.Coherent) (op : Operation) : (op.apply g).Coherent := by
  rcases op.apply_cases (g := g) with ⟨g1, h1, hc⟩ | ⟨host, rfl⟩ | hop
  · refine Coherent.changes hc ?_
    rcases h1 with rfl | h1
    · exact hg
    · exact hg.intervention h1
  · exact Coherent.changes (pulse_evolves host) (hg.of_same (same_of_eq rfl rfl))
  · cases op with
    | run host h mode =>
      cases mode with
      | new => cases hop
      | resume => exact hg.resume host h
    | _ => cases hop

/-- However the host goes on, the game is coherent after each operation. -/
theorem play_coherent (config : Config) (registry : Registry) (world : World)
    (ops : List Operation) : ((start config registry world).play ops).Coherent :=
  play_induction (coherent_start config registry world) fun op _ _ hg => hg.apply op

/-! ## The event bits of a container -/

theorem Coherent.hasEvent_iff (hg : g.Coherent) {u : Uid} {c : Container}
    (hc : g.container? u = some c) {events : Bits} :
    c.hasEvent events = true ↔
      ∃ h ∈ c.triggers, ∃ i, g.instance? h = some i ∧ i.proto.events.meets events = true := by
  rw [Container.hasEvent, hg.types hc, meets_eventsOf]

/-- Testing the event bits first makes no difference to an offer. -/
theorem Coherent.triggerFor_eq (hg : g.Coherent) (u : Uid) (o : Offer) :
    g.triggerFor u o = scan o (g.listed u) g := by
  unfold triggerFor
  cases hc : g.container? u with
  | none => rw [listed_eq_nil hc]; rfl
  | some c =>
    rw [listed_eq hc]
    simp only
    split
    · rfl
    · rename_i hno
      refine (scan_none fun h hm i hi => ?_).symm
      exact Bool.eq_false_iff.2 fun hw =>
        hno ((hg.hasEvent_iff hc).2 ⟨h, hm, i, hi, (Bool.and_eq_true _ _ ▸ hw).1⟩)

/-- In every game that the host reaches, a container lists triggers of its entity, at least one and each
once; a trigger is listed by one container; and the event bits of a container are those of its triggers,
so that testing them first changes no offer. -/
theorem containers_agree (config : Config) (registry : Registry) (world : World)
    (ops : List Operation) :
    let g := (start config registry world).play ops
    (∀ u c, g.container? u = some c →
      c.triggers ≠ [] ∧ c.triggers.Nodup ∧
      (∀ h ∈ c.triggers, ∃ i, g.instance? h = some i ∧ i.owner = u) ∧
      c.types = g.eventsOf c.triggers ∧
      ∀ events, c.hasEvent events = true ↔
        ∃ h ∈ c.triggers, ∃ i, g.instance? h = some i ∧ i.proto.events.meets events = true) ∧
    (∀ h i, g.instance? h = some i → ∃! u, ∃ c, g.container? u = some c ∧ h ∈ c.triggers) ∧
    ∀ u o, g.triggerFor u o = scan o (g.listed u) g := by
  intro g
  have hg : g.Coherent := play_coherent config registry world ops
  refine ⟨fun u c hc => ⟨hg.nonempty hc, hg.nodup hc, fun h hm => hg.live hc hm, hg.types hc,
    fun _ => hg.hasEvent_iff hc⟩, fun h i hi => ⟨i.owner, hg.listed hi, ?_⟩, hg.triggerFor_eq⟩
  rintro u ⟨c, hc, hm⟩
  obtain ⟨j, hj, ho⟩ := hg.live hc hm
  rw [hi, Option.some.injEq] at hj
  rw [hj, ho]

end Game

end MudTrigger
