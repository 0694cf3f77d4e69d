import MudTrigger.Proofs.Wait.Frame

/-!
# Variables stand under their own names

A table keeps a variable under the folded name with which it was set (`Variables.Keyed`). In a game all
tables do so, those of the triggers and those of the containers (`Game.Keyed`): whatever happens in
a run or between runs changes them by the operations of `Variables` only (`Keyed.change`), and so do
the calls of the host (`Keyed.opening`).
-/

set_option autoImplicit false

namespace MudTrigger

namespace Variables

/-- Every variable stands under its own folded name. -/
def Keyed (vs : Variables) : Prop :=
  ∀ name v, vs.table.get? name = some v → Text.fold v.name = name

variable {vs : Variables} {v : Variable} {name value : String}

theorem keyed_empty : Keyed ∅ := fun _ _ h => by cases h

theorem Keyed.fold_name (h : vs.Keyed) (hv : vs.find? name = some v) :
    Text.fold v.name = Text.fold name := h _ _ hv

theorem Keyed.insert (h : vs.Keyed) (v : Variable) : (vs.insert v).Keyed := by
  intro key w hw
  rw [Variables.insert, Table.get?_set] at hw
  split at hw
  · next heq =>
    rw [heq, Option.some.inj hw]
  · exact h key w hw

theorem Keyed.set (h : vs.Keyed) (name value : String) : (vs.set name value).Keyed := by
  unfold Variables.set
  split
  · next v hv =>
    intro key w hw
    rw [Table.get?_set] at hw
    split at hw
    · next heq =>
      obtain rfl := Option.some.inj hw
      exact (h.fold_name hv).trans heq.symm
    · exact h key w hw
  · exact h.insert _

theorem Keyed.erase (h : vs.Keyed) (name : String) : (vs.erase name).Keyed := by
  intro key w hw
  rw [Variables.erase, Table.get?_erase] at hw
  split at hw
  · cases hw
  · exact h key w hw

theorem Keyed.setAll (h : vs.Keyed) (bindings : List (String × String)) :
    (vs.setAll bindings).Keyed := by
  unfold Variables.setAll
  induction bindings generalizing vs with
  | nil => exact h
  | cons b bs ih => exact ih (h.set b.1 b.2)

end Variables

namespace Game

/-- All variables stand under their own folded names. -/
structure Keyed (g : Game) : Prop where
  locals : ∀ {h i}, g.instance? h = some i → i.locals.Keyed
  globals : ∀ {u c}, g.container? u = some c → c.globals.Keyed

theorem keyed_start (config : Config) (registry : Registry) (world : World) :
    (start config registry world).Keyed where
  locals hi := by cases hi
  globals hc := by cases hc

namespace Keyed

variable {g g' : Game}

theorem of_eq (hg : g.Keyed) (ht : g'.engine.triggers = g.engine.triggers)
    (hc : g'.engine.containers = g.engine.containers) : g'.Keyed where
  locals {h i} hi := hg.locals (h := h) (by rwa [instance?, ht] at hi)
  globals {u c} hu := hg.globals (u := u) (by rwa [container?, hc] at hu)

theorem modifyInstance (hg : g.Keyed) (h : Handle) {f : Instance → Instance}
    (hf : ∀ i, i.locals.Keyed → (f i).locals.Keyed) : (g.modifyInstance h f).Keyed where
  locals {x i} hi := by
    rw [instance?_modifyInstance] at hi
    split at hi
    · obtain ⟨j, hj, rfl⟩ := Option.map_eq_some_iff.1 hi
      exact hf j (hg.locals hj)
    · exact hg.locals hi
  globals hc := hg.globals hc

theorem modifyContainer (hg : g.Keyed) (u : Uid) {f : Container → Container}
    (hf : ∀ c, c.globals.Keyed → (f c).globals.Keyed) : (g.modifyContainer u f).Keyed where
  locals hi := hg.locals hi
  globals {u' c} hc := by
    rw [container?, Game.modifyContainer, withContainers, Table.get?_modify] at hc
    split at hc
    · obtain ⟨d, hd, rfl⟩ := Option.map_eq_some_iff.1 hc
      exact hf d (hg.globals hd)
    · exact hg.globals hc

/-! ## What runs do -/

theorem setLocal (hg : g.Keyed) (h : Handle) (name value : String) :
    (g.setLocal h name value).Keyed :=
  hg.modifyInstance h fun _ hi => hi.set name value

theorem bindLocals (hg : g.Keyed) (h : Handle) (bindings : List (String × String)) :
    (g.bindLocals h bindings).Keyed :=
  hg.modifyInstance h fun _ hi => hi.setAll bindings

theorem makeGlobal (hg : g.Keyed) (h : Handle) (u : Uid) (v : Variable) :
    (g.makeGlobal h u v).Keyed :=
  (hg.modifyInstance h fun _ hi => hi.erase v.name).modifyContainer u fun _ hc => hc.insert v

theorem unset (hg : g.Keyed) (h : Handle) (u : Uid) (name : String) :
    (g.unset h u name).Keyed := by
  unfold Game.unset
  split
  · exact hg.modifyContainer u fun _ hc => hc.erase name
  · exact hg.modifyInstance h fun _ hi => hi.erase name

theorem setGlobal (hg : g.Keyed) (u : Uid) (name value : String) :
    (g.setGlobal u name value).Keyed :=
  hg.modifyContainer u fun _ hc => hc.set name value

theorem begin (hg : g.Keyed) (h : Handle) : (g.begin h).Keyed := by
  unfold Game.begin
  have hwaits : ∀ q, (g.withWaits q).Keyed := fun _ => hg.of_eq rfl rfl
  simp only
  split
  · exact (hwaits _).modifyInstance h fun _ hi => hi
  · exact hg.modifyInstance h fun _ hi => hi

theorem takeUp (hg : g.Keyed) (h : Handle) : (g.takeUp h).Keyed :=
  hg.modifyInstance h fun _ hi => hi

theorem finish (hg : g.Keyed) (h : Handle) : (g.finish h).Keyed :=
  hg.modifyInstance h fun _ _ => Variables.keyed_empty

theorem suspend (hg : g.Keyed) (h : Handle) (u : Uid) (line delay : Nat) (kind : WaitKind) :
    (g.suspend h u line delay kind).Keyed := by
  unfold Game.suspend
  simp only
  split
  · exact hg.of_eq rfl rfl
  · have hwaits : (g.withWaits (g.engine.waits.schedule g.engine.pulseCount delay
        ⟨h, u, line, kind⟩).2).Keyed := hg.of_eq rfl rfl
    have hmodify := hwaits.modifyInstance h (f := fun i => { i with
      resumeAt := some line
      wait := some (g.engine.waits.schedule g.engine.pulseCount delay ⟨h, u, line, kind⟩).1 })
      fun _ hi => hi
    exact hmodify.of_eq rfl rfl

theorem refuse (hg : g.Keyed) (h : Handle) (i : Instance) (mode : RunMode) :
    (g.refuse h i mode).Keyed := by
  cases mode with
  | new => exact (hg.of_eq rfl rfl : (g.report _).Keyed).finish h
  | resume => exact hg.of_eq rfl rfl

/-! ## Attaching and removing -/

theorem attachTo (hg : g.Keyed) (hs : g.engine.triggers.Sound) (target : Uid) (vnum : Vnum)
    (p : Prototype) (position : Option Nat) : (g.attachTo target vnum p position).Keyed where
  locals hi := by
    rw [instance?_attachTo target vnum p position hs] at hi
    split at hi
    · cases hi
      exact Variables.keyed_empty
    · exact hg.locals hi
  globals hc := by
    rw [container?_attachTo] at hc
    split at hc
    · cases hc
      show (((g.container? target).getD { kind := p.kind }).globals).Keyed
      cases hold : g.container? target with
      | none => exact Variables.keyed_empty
      | some c => exact hg.globals hold
    · exact hg.globals hc

theorem removeInstance (hg : g.Keyed) {u : Uid} {c : Container} (hc : g.container? u = some c)
    (h : Handle) : (g.removeInstance u h).Keyed where
  locals hi := by
    rw [instance?_removeInstance] at hi
    split at hi
    · cases hi
    · exact hg.locals hi
  globals hd := by
    rw [container?_removeInstance hc] at hd
    split at hd
    · split at hd
      · cases hd
      · cases hd
        exact show c.globals.Keyed from hg.globals hc
    · exact hg.globals hd

/-- An entity loses its container and its triggers. -/
theorem forget (hg : g.Keyed) {u : Uid} (gone : List Handle)
    (hi : ∀ h, g'.instance? h = if h ∈ gone then none else g.instance? h)
    (hc : ∀ u', g'.container? u' = if u' = u then none else g.container? u') : g'.Keyed where
  locals {h i} hh := by
    rw [hi] at hh
    split at hh
    · cases hh
    · exact hg.locals hh
  globals {u' c} hu := by
    rw [hc] at hu
    split at hu
    · cases hu
    · exact hg.globals hu

theorem detachAll (hg : g.Keyed) (u : Uid) : (g.detachAll u).2.Keyed := by
  refine hg.forget (g.listed u) (fun h => ?_) (container?_detachAll u)
  rw [instance?, triggers_detachAll]
  exact get?_foldl_remove _ _ h

theorem extractEntity (hg : g.Keyed) (u : Uid) : (g.extractEntity u).Keyed := by
  refine hg.forget (g.listed u) (fun h => ?_) (container?_extractEntity u)
  rw [instance?, triggers_extractEntity]
  exact get?_foldl_remove _ _ h

theorem purge (hg : g.Keyed) (u : Uid) : (g.purge u).Keyed := by
  have hgone : ∀ (us : List Uid) {g : Game}, g.Keyed → (us.foldl Game.extractEntity g).Keyed := by
    intro us
    induction us with
    | nil => exact fun hg => hg
    | cons v us ih => exact fun hg => ih (hg.extractEntity v)
  exact hgone _ (hg.of_eq rfl rfl : (g.withWorld (g.world.extract u).2).Keyed)

/-! ## Every game -/

theorem change {m m' : Moment} (hm : m.game.Keyed) (hs : m.game.engine.triggers.Sound)
    (h : Change m m') : m'.game.Keyed := by
  cases h with
  | report | blame | addNote | roll | tell | place | reach | evaluate | command | loopOver | vanish
    | noteHour | skip => exact hm.of_eq rfl rfl
  | purge => exact hm.purge _
  | attach ha =>
    obtain ⟨p, -, rfl⟩ := attach_ok ha
    exact hm.attachTo hs _ _ p _
  | detach hc => exact hm.removeInstance hc _
  | detachAll target => exact hm.detachAll target
  | setLocal name value => exact hm.setLocal _ name value
  | makeGlobal v => exact hm.makeGlobal _ _ v
  | unset name => exact hm.unset _ _ name
  | deepen | rise | loopAgain => exact hm.modifyInstance _ fun _ hi => hi
  | @loopYield a s g i line =>
    have hcount : (g.countLoop a.trigger).Keyed := hm.modifyInstance _ fun _ hi => hi
    exact (hcount.suspend _ _ _ _ _).of_eq rfl rfl
  | @loopHalt a s g i =>
    have hcount : (g.countLoop a.trigger).Keyed := hm.modifyInstance _ fun _ hi => hi
    have hreport : ((g.countLoop a.trigger).report
      (.looped a.proto.vnum a.proto.name (i.loops + 1))).Keyed := hcount.of_eq rfl rfl
    exact (hreport.finish _).of_eq rfl rfl
  | suspend => exact (hm.suspend _ _ _ _ _).of_eq rfl rfl
  | finish => exact (hm.finish _).of_eq rfl rfl
  | @start s g h i bindings =>
    have henter : ((g.bindLocals h bindings).enter h i.owner).Keyed :=
      (hm.bindLocals h bindings).of_eq rfl rfl
    exact henter.begin h
  | refuse bindings => exact (hm.bindLocals _ bindings).refuse _ _ .new
  | @resume g w q i =>
    have henter : (((g.withWaits q).report (.resuming w.continuation.owner
      w.continuation.resumeAt)).enter w.continuation.trigger i.owner).Keyed := hm.of_eq rfl rfl
    exact henter.takeUp _
  | @refuseResume g w q i =>
    have hreport : ((g.withWaits q).report (.resuming w.continuation.owner
      w.continuation.resumeAt)).Keyed := hm.of_eq rfl rfl
    exact hreport.refuse w.continuation.trigger i .resume

theorem opening (hg : g.Keyed) (op : Operation) : (op.opening g).game.Keyed := by
  cases op with
  | extractEntity u => exact hg.extractEntity u
  | setGlobal u name value => exact hg.setGlobal u name value
  | purge u => exact hg.purge u
  | run host h mode =>
    show (Operation.runOpening g h mode).game.Keyed
    have hopens := Operation.runOpening_opens g h mode
    generalize Operation.runOpening g h mode = m at hopens
    have henter : ∀ i : Instance, (g.enter h i.owner).Keyed := fun _ => hg.of_eq rfl rfl
    cases hopens with
    | stale => exact hg
    | refused => exact hg.refuse h _ mode
    | begun => exact (henter _).begin h
    | takenUp => exact (henter _).takeUp h
  | attach | detach | detachAll | dispatch | pulse | interpret | execute | walk | replaceWorld =>
    exact hg.of_eq rfl rfl

end Keyed

end Game

/-- At every stage of a game all variables stand under their own folded names. -/
theorem Stage.Sane.keyed_course {may : Game → Operation → Prop} {p p' : Stage} (hp : p.Sane)
    (hk : p.game.Keyed) (hc : Course may p p') : p'.game.Keyed := by
  induction hc with
  | refl => exact hk
  | tail hc hn ih =>
    cases hn with
    | change hf => exact ih.change (hp.course hc).coherent.sound hf.change
    | call op => exact ih.opening op

end MudTrigger
