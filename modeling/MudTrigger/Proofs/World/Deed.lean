import MudTrigger.Proofs.Wait.Frame
import MudTrigger.Proofs.World.Edit

/-!
# What runs do

`Game.deeds` is the trace of the runs of one entity's triggers. `DeedEffect` says what a step does to
the world and to these traces: the world is edited or the same, and there is nothing new in the
traces, or one notice of a trigger that is attached (`Change.deedEffect`, `Operation.deedEffect`).
-/

set_option autoImplicit false

namespace MudTrigger

open Game

/-- The owner of the trigger of whose run a notice is the trace. -/
def Notice.doer? : Notice → Option Uid
  | started _ owner => some owner
  | reached _ owner _ => some owner
  | evaluated _ owner _ _ => some owner
  | executed actor _ => some actor
  | _ => none

/-- The line of the trigger's script of which a notice is the trace. -/
def Notice.line? (h : Handle) : Notice → Option Nat
  | reached h' _ line => if h' = h then some line else none
  | _ => none

theorem Notice.doer?_of_isPlain {n : Notice} (hn : n.isPlain = true) : n.doer? = none := by
  cases n <;> first | rfl | cases hn

namespace Game

variable {g g' g1 : Game} {h : Handle} {i : Instance}

/-- What the runs of an entity's triggers have done: they were begun, reached lines, evaluated
conditions and gave commands. -/
def deeds (g : Game) (u : Uid) : List Notice := g.log.filter (·.doer? = some u)

theorem deeds_report (n : Notice) (u : Uid) :
    (g.report n).deeds u = g.deeds u ++ if n.doer? = some u then [n] else [] := by
  rw [deeds, report, List.filter_append, List.filter_cons, List.filter_nil, deeds]
  simp only [decide_eq_true_eq]

/-! ## Changes without a deed -/

/-- The world is the same, and no run has done anything. -/
structure Silent (g g' : Game) : Prop where
  world : g'.world = g.world
  deeds : ∀ u, g'.deeds u = g.deeds u

theorem Silent.refl : Silent g g := ⟨rfl, fun _ => rfl⟩

theorem Silent.trans (h : Silent g g1) (h' : Silent g1 g') : Silent g g' :=
  ⟨h'.world.trans h.world, fun u => (h'.deeds u).trans (h.deeds u)⟩

theorem silent_of_eq (hw : g'.world = g.world) (hl : g'.log = g.log) : Silent g g' :=
  ⟨hw, fun u => by rw [deeds, hl, deeds]⟩

theorem silent_report {n : Notice} (hn : n.doer? = none) : Silent g (g.report n) :=
  ⟨rfl, fun u => by rw [deeds_report, hn]; exact List.append_nil _⟩

theorem Silent.report {n : Notice} (h : Silent g g') (hn : n.doer? = none) : Silent g (g'.report n) :=
  h.trans (silent_report hn)

theorem silent_blame (p : Prototype) (faults : List Fault) : Silent g (g.blame p faults) := by
  refine ⟨rfl, fun u => ?_⟩
  have hf : (faults.map fun f => Notice.authoring p.vnum p.name f).filter
      (fun n => n.doer? = some u) = [] := by
    rw [List.filter_eq_nil_iff]
    intro n hn
    obtain ⟨f, -, rfl⟩ := List.mem_map.1 hn
    exact of_decide_eq_true rfl
  rw [deeds, blame, List.filter_append, hf, List.append_nil, deeds]

theorem silent_unset (u : Uid) (name : String) : Silent g (g.unset h u name) := by
  unfold unset
  split <;> exact silent_of_eq rfl rfl

theorem silent_begin (h : Handle) : Silent g (g.begin h) := by
  unfold begin
  simp only
  split <;> exact silent_of_eq rfl rfl

theorem silent_suspend (h : Handle) (u : Uid) (line delay : Nat) (kind : WaitKind) :
    Silent g (g.suspend h u line delay kind) := by
  unfold suspend
  simp only
  split
  · exact silent_of_eq rfl rfl
  · exact Silent.report (silent_of_eq rfl rfl) rfl

theorem silent_refuse (h : Handle) (i : Instance) (mode : RunMode) :
    Silent g (g.refuse h i mode) := by
  have hr : Silent g (g.report (.recursionCeiling i.proto.vnum i.proto.name)) := silent_report rfl
  cases mode with
  | new => exact hr.trans (silent_of_eq rfl rfl)
  | resume => exact hr

theorem silent_dropInstance (h : Handle) : Silent g (g.dropInstance h) := by
  have hr : Silent g (g.withTriggers (g.engine.triggers.remove h).2) := silent_of_eq rfl rfl
  unfold dropInstance
  split
  · exact .refl
  · simp only
    split
    · exact Silent.report (hr.trans (silent_of_eq rfl rfl)) rfl
    · exact Silent.report hr rfl

theorem silent_removeInstance (u : Uid) (h : Handle) : Silent g (g.removeInstance u h) := by
  have hd := silent_dropInstance (g := g) h
  unfold removeInstance
  simp only
  split
  · exact hd
  · split
    · exact Silent.report (hd.trans (silent_of_eq rfl rfl)) rfl
    · exact hd.trans (silent_of_eq rfl rfl)

theorem silent_foldl {α : Type} {f : Game → α → Game} (hf : ∀ g a, Silent g (f g a)) (as : List α) :
    Silent g (as.foldl f g) := by
  induction as generalizing g with
  | nil => exact .refl
  | cons a as ih => exact (hf g a).trans ih

theorem silent_detachAll (u : Uid) : Silent g (g.detachAll u).2 := by
  unfold detachAll
  split
  · exact .refl
  · rename_i c _
    have hc : Silent g (g.withContainers (g.engine.containers.erase u)) := silent_of_eq rfl rfl
    exact Silent.report (hc.trans (silent_foldl (fun _ h => silent_dropInstance h) c.triggers)) rfl

theorem silent_extractEntity (u : Uid) : Silent g (g.extractEntity u) := by
  have hr : ∀ {g1 : Game} (q : WaitQueue) (k : Nat),
      Silent g1 ((g1.withWaits q).report (.cancelledWaits u k)) := fun q k =>
    Silent.report (silent_of_eq rfl rfl) rfl
  unfold extractEntity
  cases g.container? u with
  | none =>
    simp only
    split
    · exact hr _ _
    · exact silent_of_eq rfl rfl
  | some c =>
    have hc : Silent g ((g.withContainers (g.engine.containers.erase u)).withTriggers
        (c.triggers.foldl (fun ts h => (ts.remove h).2) g.engine.triggers)) := silent_of_eq rfl rfl
    simp only
    split
    · exact hc.trans (hr _ _)
    · exact hc.trans (silent_of_eq rfl rfl)

theorem silent_purge (u : Uid) :
    Silent (g.withWorld (g.world.extract u).2) (g.purge u) :=
  silent_foldl (fun _ v => silent_extractEntity v) _

theorem silent_attach {vnum : Vnum} {target : Uid} {position : Option Nat}
    (ha : g.attach vnum target position = .ok (h, g')) : Silent g g' := by
  obtain ⟨p, -, rfl⟩ := attach_ok ha
  exact Silent.report (silent_of_eq rfl rfl) rfl

end Game

/-! ## Deeds -/

/-- What a step does to the world and to the trace of runs. -/
inductive DeedEffect (m m' : Moment) : Prop
  | silent : m.game.Silent m'.game → DeedEffect m m'
  | edit : Relation.ReflTransGen World.Edit m.game.world m'.game.world →
    (∀ u, m'.game.deeds u = m.game.deeds u) → DeedEffect m m'
  /-- A run of a trigger that is attached does something. -/
  | deed {n h i owner} : m.game.instance? h = some i →
    (owner = i.owner ∨ ∃ a ∈ m.stack, a.trigger = h ∧ a.owner = owner) →
    Notice.doer? n = some owner → (∀ h, n.line? h = none) → (m.game.report n).Silent m'.game →
    DeedEffect m m'
  /-- The innermost run reaches a line. -/
  | reach {a s} (line : Nat) : m.stack = a :: s → m.game.hasTrigger a.trigger = true →
    a.CanAct m.game.world → a.held = false → m'.stack = m.stack →
    (m.game.report (.reached a.trigger a.owner line)).Silent m'.game → DeedEffect m m'

theorem Change.deedEffect {m m' : Moment} (h : Change m m') : DeedEffect m m' := by
  cases h with
  | report hn => exact .silent (silent_report (Notice.doer?_of_isPlain hn))
  | blame p faults => exact .silent (silent_blame p faults)
  | addNote | roll | setLocal | makeGlobal | deepen | rise | loopOver | loopAgain | finish | vanish
    | noteHour | skip => exact .silent (silent_of_eq rfl rfl)
  | tell message => exact .edit (.single (.tell message)) fun _ => rfl
  | place u room => exact .edit (.single (.placeCharacter u room)) fun _ => rfl
  | @purge s g u =>
    have hp := silent_purge (g := g) u
    exact .edit (hp.world ▸ .single (.extract u)) fun v => hp.deeds v
  | attach ha => exact .silent (silent_attach ha)
  | detach => exact .silent (silent_removeInstance _ _)
  | detachAll target => exact .silent (silent_detachAll target)
  | reach line live able free => exact .reach line rfl live able free rfl .refl
  | @evaluate a s g _ _ live | @command a s g _ live =>
    obtain ⟨i, hi⟩ := (hasTrigger_iff _ _).1 live
    exact .deed hi (.inr ⟨a, List.mem_cons_self, rfl, rfl⟩) rfl (fun _ => rfl) .refl
  | unset name => exact .silent (silent_unset _ name)
  | @loopYield a s g i line =>
    have hc : Silent g (g.countLoop a.trigger) := silent_of_eq rfl rfl
    exact .silent ((hc.trans (silent_suspend _ _ _ _ _)).trans (silent_of_eq rfl rfl))
  | @loopHalt a s g i =>
    have hc : Silent g (g.countLoop a.trigger) := silent_of_eq rfl rfl
    exact .silent ((hc.report rfl).trans (silent_of_eq rfl rfl))
  | suspend => exact .silent ((silent_suspend _ _ _ _ _).trans (silent_of_eq rfl rfl))
  | @start s g h i bindings hi =>
    refine .deed (n := .started h i.owner) hi (.inl rfl) rfl (fun _ => rfl) ?_
    have hb : Silent (g.report (.started h i.owner)) ((g.bindLocals h bindings).enter h i.owner) :=
      silent_of_eq rfl rfl
    exact hb.trans (silent_begin h)
  | @refuse s g h i j bindings =>
    have hb : Silent g (g.bindLocals h bindings) := silent_of_eq rfl rfl
    exact .silent (hb.trans (silent_refuse h j .new))
  | @resume g w q i hq hi =>
    have hr : Silent g ((g.withWaits q).report
        (.resuming w.continuation.owner w.continuation.resumeAt)) :=
      Silent.report (silent_of_eq rfl rfl) rfl
    refine .deed (n := .started w.continuation.trigger i.owner) hi (.inl rfl) rfl
      (fun _ => rfl) ⟨rfl, fun u => ?_⟩
    refine (deeds_report (g := (g.withWaits q).report
      (.resuming w.continuation.owner w.continuation.resumeAt)) _ u).trans ?_
    rw [hr.deeds, deeds_report]
  | @refuseResume g w q i =>
    have hr : Silent g ((g.withWaits q).report
        (.resuming w.continuation.owner w.continuation.resumeAt)) :=
      Silent.report (silent_of_eq rfl rfl) rfl
    exact .silent (hr.trans (silent_refuse w.continuation.trigger i .resume))

/-- The opening of a call, if the world is not made a quite different one. -/
theorem Operation.deedEffect {g : Game} {op : Operation}
    (hop : ∀ w, op = .replaceWorld w → Relation.ReflTransGen World.Edit g.world w) :
    DeedEffect ⟨[], g⟩ (op.opening g) := by
  cases op with
  | extractEntity u => exact .silent (silent_extractEntity u)
  | purge u =>
    have hp := silent_purge (g := g) u
    exact .edit (hp.world ▸ .single (.extract u)) fun v => hp.deeds v
  | replaceWorld w => exact .edit (hop w rfl) fun _ => rfl
  | run host h mode =>
    show DeedEffect _ (runOpening g h mode)
    have he : ∀ u, Silent (g.report (.started h u)) (g.enter h u) := fun _ => silent_of_eq rfl rfl
    have hopens := runOpening_opens g h mode
    generalize runOpening g h mode = m at hopens
    cases hopens with
    | stale => exact .silent .refl
    | @refused _ i => exact .silent (silent_refuse h i mode)
    | @begun i hi =>
      exact .deed (n := .started h i.owner) hi (.inl rfl) rfl (fun _ => rfl)
        ((he _).trans (silent_begin h))
    | @takenUp i hi =>
      exact .deed (n := .started h i.owner) hi (.inl rfl) rfl (fun _ => rfl)
        ((he _).trans (silent_of_eq rfl rfl))
  | attach | detach | detachAll | setGlobal | dispatch | pulse | interpret | execute | walk =>
    exact .silent (silent_of_eq rfl rfl)

theorem DeedEffect.extends {m m' : Moment} (h : DeedEffect m m') (hw : m.game.world.Numbered) :
    m.game.world.Extends m'.game.world := by
  cases h with
  | silent hs => exact hs.world ▸ .refl
  | edit he => exact .of_edits he hw
  | deed _ _ _ _ hs | reach _ _ _ _ _ _ hs => exact hs.world ▸ .refl

end MudTrigger
