import MudTrigger.Proofs.Trace.Course
import MudTrigger.Proofs.Wait.Held

/-!
# What a change does to triggers, runs and the queue

`Effect` says in six cases what a change may do to the triggers and to the runs under way, and
`QueueEffect` in two what it may do to the queue. Every change has such effects (`Change.effect`,
`Change.queueEffect`), and so has the opening of a call (`Operation.effect`). What is kept by these
few cases is kept by every step of a game.
-/

set_option autoImplicit false

namespace MudTrigger

open Game

/-- What a step does to the triggers and to the runs under way. -/
inductive Effect (m m' : Moment) : Prop
  /-- Triggers are removed, or none is touched. -/
  | spare : m'.stack = m.stack → m'.game.engine.depth = m.game.engine.depth →
    (∀ x, Spares x m.game m'.game) → Effect m m'
  | attach {vnum target position h} : m'.stack = m.stack →
    m.game.attach vnum target position = .ok (h, m'.game) → Effect m m'
  /-- The innermost run works on its own trigger. -/
  | work {a s} (n : Nat) : m.stack = a :: s → m'.stack = { a with loops := n } :: s →
    m'.game.engine.depth = m.game.engine.depth →
    (∀ x, x ≠ a.trigger → m'.game.instance? x = m.game.instance? x) →
    (∀ j, m'.game.instance? a.trigger = some j → ∃ i, m.game.instance? a.trigger = some i ∧
      j.owner = i.owner ∧ j.wait = i.wait ∧ (i.isIdle = false → j.isIdle = false)) → Effect m m'
  /-- The innermost run is over, or suspended. -/
  | leave {a s} : m.stack = a :: s → m'.stack = s →
    m'.game.engine.depth = m.game.engine.depth - 1 →
    (∀ x, x ≠ a.trigger → m'.game.instance? x = m.game.instance? x) →
    (∀ j, m'.game.instance? a.trigger = some j → ∃ i, m.game.instance? a.trigger = some i ∧
      j.owner = i.owner ∧
      (j.isIdle = true ∧ j.wait = none ∨ j.isIdle = i.isIdle ∧ j.wait.isSome = true)) → Effect m m'
  /-- A run begins or is taken up; that of a trigger that is not idle, only while there is none. -/
  | enter {a i} : m'.stack = a :: m.stack →
    m'.game.engine.depth = m.game.engine.depth + 1 →
    (∀ x, x ≠ a.trigger → m'.game.instance? x = m.game.instance? x) →
    m.game.instance? a.trigger = some i → i.isIdle = true ∨ m.stack = [] → a.owner = i.owner →
    (∃ j, m'.game.instance? a.trigger = some j ∧ j.owner = i.owner ∧ j.isIdle = false ∧
      j.wait = none) → Effect m m'
  /-- A fresh run is refused. -/
  | refuse {h i} : m'.stack = m.stack → m'.game.engine.depth = m.game.engine.depth →
    (∀ x, x ≠ h → m'.game.instance? x = m.game.instance? x) →
    m.game.instance? h = some i →
    i.isIdle = true ∨ m.stack = [] ∧ m.game.engine.config.maxScriptDepth < m.game.engine.depth →
    m'.game.instance? h = some i.reset → Effect m m'

namespace Game

variable {g : Game} {h : Handle} {i : Instance}

theorem bindLocals_nil : g.bindLocals h [] = g :=
  congrArg g.withTriggers (Arena.modify_self g.engine.triggers h _ fun _ => rfl)

/-! ## The depth of the engine -/

theorem depth_suspend (u : Uid) (line delay : Nat) (kind : WaitKind) :
    (g.suspend h u line delay kind).engine.depth = g.engine.depth := by
  unfold suspend
  simp only
  split <;> rfl

theorem depth_removeInstance (u : Uid) : (g.removeInstance u h).engine.depth = g.engine.depth := by
  have hd := depth_dropInstance (g := g) (h := h)
  unfold removeInstance
  simp only
  split
  · exact hd
  · split <;> exact hd

theorem depth_foldl {α : Type} {f : Game → α → Game}
    (hf : ∀ g a, (f g a).engine.depth = g.engine.depth) (as : List α) :
    (as.foldl f g).engine.depth = g.engine.depth := by
  induction as generalizing g with
  | nil => rfl
  | cons a as ih => exact ih.trans (hf g a)

theorem depth_detachAll (u : Uid) : (g.detachAll u).2.engine.depth = g.engine.depth := by
  unfold detachAll
  split
  · rfl
  · exact depth_foldl (g := g.withContainers _) (fun _ _ => depth_dropInstance) _

theorem depth_purge (u : Uid) : (g.purge u).engine.depth = g.engine.depth :=
  depth_foldl (g := g.withWorld _) (fun _ v => depth_extractEntity v) _

/-! ## Triggers that are removed, or left alone -/

theorem spares_extractEntity (u : Uid) (x : Handle) : Spares x g (g.extractEntity u) :=
  .of_remove (p := (· ∈ g.listed u)) fun _ => instance?_extractEntity u

theorem spares_detachAll (u : Uid) (x : Handle) : Spares x g (g.detachAll u).2 := by
  refine .of_remove (p := (· ∈ g.listed u)) fun h => ?_
  rw [instance?, triggers_detachAll]
  exact get?_foldl_remove _ _ h

theorem instance?_suspend_ne {x : Handle} (hne : x ≠ h) (u : Uid) (line delay : Nat)
    (kind : WaitKind) : (g.suspend h u line delay kind).instance? x = g.instance? x := by
  unfold suspend
  simp only
  split
  · rfl
  · exact instance?_modifyInstance_ne (g.withWaits _) x _ hne

theorem instance?_refuse_new (bindings : List (String × String)) (j : Instance)
    (hi : g.instance? h = some i) :
    ((g.bindLocals h bindings).refuse h j .new).instance? h = some i.reset := by
  refine (instance?_modifyInstance_self _ h _).trans ?_
  rw [instance?_report, instance?_bindLocals hi]
  rfl

theorem instance?_refuse_new_ne {x : Handle} (hne : x ≠ h) (bindings : List (String × String))
    (j : Instance) :
    ((g.bindLocals h bindings).refuse h j .new).instance? x = g.instance? x :=
  (instance?_modifyInstance_ne _ x _ hne).trans (instance?_modifyInstance_ne g x _ hne)

end Game

/-! ## The innermost run -/

namespace Effect

variable {a b : Activation} {s : List Activation} {g g' : Game} {h : Handle} {i : Instance}

theorem of_eq {m : Moment} (hi : ∀ x, g'.instance? x = m.game.instance? x)
    (hd : g'.engine.depth = m.game.engine.depth) : Effect m ⟨m.stack, g'⟩ :=
  .spare rfl hd fun x => .of_eq (hi x)

/-- The innermost run changes its own trigger, but not whether it runs or waits. -/
theorem of_modify {f : Instance → Instance}
    (hx : ∀ x, g'.instance? x =
      if x = a.trigger then (g.instance? a.trigger).map f else g.instance? x)
    (hd : g'.engine.depth = g.engine.depth) (n : Nat)
    (hf : ∀ i, g.instance? a.trigger = some i →
      (f i).owner = i.owner ∧ (f i).wait = i.wait ∧ (i.isIdle = false → (f i).isIdle = false)) :
    Effect ⟨a :: s, g⟩ ⟨{ a with loops := n } :: s, g'⟩ := by
  refine .work n rfl rfl hd (fun x hne => (hx x).trans (if_neg hne)) fun j hj => ?_
  have hj : g'.instance? a.trigger = some j := hj
  rw [hx, if_pos rfl] at hj
  obtain ⟨i, hi, rfl⟩ := Option.map_eq_some_iff.1 hj
  exact ⟨i, hi, hf i hi⟩

theorem of_unset (name : String) : Effect ⟨a :: s, g⟩ ⟨a :: s, g.unset a.trigger a.owner name⟩ := by
  unfold Game.unset
  split
  · exact of_eq (fun _ => rfl) rfl
  · refine of_modify (instance?_modifyInstance g · a.trigger _) rfl a.loops ?_
    exact fun _ _ => ⟨rfl, rfl, id⟩

theorem of_finish (hi : ∀ x, x ≠ a.trigger → g'.instance? x = g.instance? x)
    (ho : (g'.instance? a.trigger).map (·.owner) = (g.instance? a.trigger).map (·.owner))
    (hd : g'.engine.depth = g.engine.depth) :
    Effect ⟨a :: s, g⟩ ⟨s, (g'.finish a.trigger).leave⟩ := by
  refine .leave rfl rfl (congrArg (· - 1) hd) (fun x hne => ?_) fun j hj => ?_
  · exact (instance?_modifyInstance_ne g' x _ hne).trans (hi x hne)
  · rw [instance?_leave, Game.finish, instance?_modifyInstance_self] at hj
    obtain ⟨k, hk, rfl⟩ := Option.map_eq_some_iff.1 hj
    rw [hk, Option.map_some] at ho
    obtain ⟨i, hi, hio⟩ := Option.map_eq_some_iff.1 ho.symm
    exact ⟨i, hi, hio.symm, .inl ⟨rfl, rfl⟩⟩

theorem of_suspend (hi : ∀ x, x ≠ a.trigger → g'.instance? x = g.instance? x) {k : Instance}
    (hk : g'.instance? a.trigger = some k) (hik : g.instance? a.trigger = some i)
    (ho : k.owner = i.owner) (hidle : k.isIdle = i.isIdle)
    (hd : g'.engine.depth = g.engine.depth) (line delay : Nat) (kind : WaitKind) :
    Effect ⟨a :: s, g⟩ ⟨s, (g'.suspend a.trigger a.owner line delay kind).leave⟩ := by
  refine .leave rfl rfl ?_ (fun x hne => ?_) fun j hj => ⟨i, hik, ?_⟩
  · exact congrArg (· - 1) ((depth_suspend _ _ _ _).trans hd)
  · exact (instance?_suspend_ne hne _ _ _ _).trans (hi x hne)
  · rw [instance?_leave, suspend_eq hk, instance?_report, instance?_modifyInstance_self,
      instance?_withWaits, hk, Option.map_some, Option.some.injEq] at hj
    subst hj
    exact ⟨ho, .inr ⟨hidle, rfl⟩⟩

/-! ## Runs that begin -/

theorem of_begin (hi : g.instance? h = some i) (hs : i.isIdle = true ∨ s = [])
    (bindings : List (String × String)) :
    Effect ⟨s, g⟩ ⟨⟨h, i.owner, i.proto, 0, false⟩ :: s,
      ((g.bindLocals h bindings).enter h i.owner).begin h⟩ := by
  refine .enter (i := i) rfl ?_ (fun x hne => ?_) hi hs rfl ?_
  · exact depth_begin
  · rw [instance?_begin, if_neg hne]
    exact instance?_modifyInstance_ne g x _ hne
  · rw [instance?_begin, if_pos rfl, instance?_enter, instance?_bindLocals hi]
    exact ⟨_, rfl, rfl, rfl, rfl⟩

theorem of_takeUp (hx : ∀ x, g'.instance? x = g.instance? x)
    (hd : g'.engine.depth = g.engine.depth) (hi : g.instance? h = some i) :
    Effect ⟨[], g⟩ ⟨[⟨h, i.owner, i.proto, 0, false⟩], (g'.enter h i.owner).takeUp h⟩ := by
  refine .enter (i := i) rfl (congrArg (· + 1) hd) (fun x hne => ?_) hi (.inr rfl) rfl ?_
  · exact (instance?_modifyInstance_ne _ x _ hne).trans (hx x)
  · have hk : (g'.enter h i.owner).instance? h = some i := (hx h).trans hi
    rw [takeUp, instance?_modifyInstance_self, hk]
    refine ⟨_, rfl, rfl, beq_eq_false_iff_ne.2 ?_, rfl⟩
    exact Nat.ne_of_gt (Nat.le_max_right _ _)

theorem of_refuse (hi : g.instance? h = some i) (hs : i.isIdle = true ∨ s = [] ∧
      g.engine.config.maxScriptDepth < g.engine.depth) (bindings : List (String × String))
    (j : Instance) : Effect ⟨s, g⟩ ⟨s, (g.bindLocals h bindings).refuse h j .new⟩ :=
  .refuse rfl rfl (fun _ hne => instance?_refuse_new_ne hne bindings j) hi hs
    (instance?_refuse_new bindings j hi)

end Effect

/-- Every change has one of these effects. -/
theorem Change.effect {m m' : Moment} (h : Change m m') : Effect m m' := by
  cases h with
  | report | blame | addNote | roll | tell | place | reach | evaluate | command | noteHour | skip =>
    exact .of_eq (fun _ => rfl) rfl
  | purge => exact .spare rfl (depth_purge _) fun _ => .purge _
  | attach ha => exact .attach rfl ha
  | detach =>
    exact .spare rfl (depth_removeInstance _) fun _ => .of_remove (instance?_removeInstance _ _)
  | detachAll target => exact .spare rfl (depth_detachAll target) (spares_detachAll target)
  | @setLocal a s g =>
    refine .of_modify (instance?_modifyInstance g · a.trigger _) rfl a.loops ?_
    exact fun _ _ => ⟨rfl, rfl, id⟩
  | @makeGlobal a s g v =>
    have hx : ∀ x, (g.makeGlobal a.trigger a.owner v).instance? x =
        if x = a.trigger then
          (g.instance? a.trigger).map fun i => { i with locals := i.locals.erase v.name }
        else g.instance? x := (instance?_modifyInstance g · a.trigger _)
    exact .of_modify hx rfl a.loops fun _ _ => ⟨rfl, rfl, id⟩
  | unset name => exact .of_unset name
  | @deepen a s g =>
    refine .of_modify (instance?_modifyInstance g · a.trigger _) rfl a.loops ?_
    refine fun i _ => ⟨rfl, rfl, fun _ => ?_⟩
    exact beq_eq_false_iff_ne.2 (Nat.succ_ne_zero i.depth)
  | @rise a s g nested =>
    refine .of_modify (instance?_modifyInstance g · a.trigger _) rfl a.loops ?_
    refine fun i hi => ⟨rfl, rfl, fun _ => ?_⟩
    rw [depthOf, hi] at nested
    exact beq_eq_false_iff_ne.2 (Nat.sub_ne_zero_of_lt nested)
  | loopOver =>
    exact .work 0 rfl rfl rfl (fun _ _ => rfl) fun j hj => ⟨j, hj, rfl, rfl, id⟩
  | @loopAgain a s g =>
    refine .of_modify (instance?_modifyInstance g · a.trigger _) rfl (a.loops + 1) ?_
    exact fun _ _ => ⟨rfl, rfl, id⟩
  | @loopYield a s g i line hi =>
    have hne : ∀ x, x ≠ a.trigger → (g.countLoop a.trigger).instance? x = g.instance? x :=
      fun x hne => instance?_modifyInstance_ne g x _ hne
    have hk : (g.countLoop a.trigger).instance? a.trigger = some { i with loops := i.loops + 1 } := by
      rw [Game.countLoop, instance?_modifyInstance_self, hi]
      rfl
    exact .of_suspend hne hk hi rfl rfl rfl line 1 .wait
  | @loopHalt a s g i hi =>
    refine .of_finish (fun x hne => instance?_modifyInstance_ne g x _ hne) ?_ rfl
    rw [instance?_report, Game.countLoop, instance?_modifyInstance_self, hi]
    rfl
  | suspend line delay kind live =>
    obtain ⟨i, hi⟩ := (hasTrigger_iff _ _).1 live
    exact .of_suspend (fun _ _ => rfl) hi hi rfl rfl rfl line delay kind
  | finish => exact .of_finish (fun _ _ => rfl) rfl rfl
  | @vanish a s g gone =>
    refine .leave rfl rfl rfl (fun _ _ => rfl) fun j hj => ?_
    have hj : g.instance? a.trigger = some j := hj
    rw [hasTrigger_eq, hj] at gone
    cases gone
  | start bindings hi hs => exact .of_begin hi hs bindings
  | refuse bindings hi hs => exact .of_refuse hi hs bindings _
  | @resume g w q i hq hi =>
    exact .of_takeUp (fun _ => rfl) rfl hi
  | refuseResume => exact .of_eq (fun _ => rfl) rfl

/-- The opening of a call, too, has one of these effects. -/
theorem Operation.effect (g : Game) (op : Operation) : Effect ⟨[], g⟩ (op.opening g) := by
  cases op with
  | extractEntity u => exact .spare rfl (depth_extractEntity u) (spares_extractEntity u)
  | purge u => exact .spare rfl (depth_purge u) fun _ => .purge u
  | run host h mode =>
    show Effect _ (runOpening g h mode)
    have hopens := runOpening_opens g h mode
    generalize runOpening g h mode = m at hopens
    cases hopens with
    | stale => exact .of_eq (fun _ => rfl) rfl
    | @refused _ i hi hd =>
      cases mode with
      | new =>
        have hr := Effect.of_refuse (s := []) hi (.inr ⟨rfl, hd⟩) [] i
        rwa [bindLocals_nil] at hr
      | resume => exact .of_eq (fun _ => rfl) rfl
    | begun hi =>
      have hb := Effect.of_begin (s := []) hi (.inr rfl) []
      rwa [bindLocals_nil] at hb
    | takenUp hi => exact .of_takeUp (fun _ => rfl) rfl hi
  | attach | detach | detachAll | setGlobal | dispatch | pulse | interpret | execute | walk
    | replaceWorld => exact .of_eq (fun _ => rfl) rfl

/-! ## The queue -/

/-- Entries are taken out of the queue, or nothing is done to it. -/
structure WaitQueue.Shrinks (q q' : WaitQueue) : Prop where
  pending : q'.pending.Sublist q.pending
  nextId : q'.nextId = q.nextId

/-- What a step does to the queue. -/
inductive QueueEffect (m m' : Moment) : Prop
  | shrinks : m.game.engine.waits.Shrinks m'.game.engine.waits → QueueEffect m m'
  /-- The innermost run is suspended. -/
  | schedule {a s i} (line delay : Nat) (kind : WaitKind) : m.stack = a :: s → m'.stack = s →
    m.game.instance? a.trigger = some i →
    m'.game.engine.waits = (m.game.engine.waits.schedule m.game.engine.pulseCount delay
      ⟨a.trigger, a.owner, line, kind⟩).2 → QueueEffect m m'

namespace WaitQueue.Shrinks

variable {q q' r : WaitQueue}

theorem refl : q.Shrinks q := ⟨.refl _, rfl⟩

theorem of_eq (h : q' = q) : q.Shrinks q' := h ▸ .refl

theorem trans (h : q.Shrinks q') (h' : q'.Shrinks r) : q.Shrinks r :=
  ⟨h'.pending.trans h.pending, h'.nextId.trans h.nextId⟩

theorem release (wait : Option WaitId) : q.Shrinks (q.release wait) := by
  refine ⟨release_sublist q wait, ?_⟩
  cases wait <;> rfl

theorem popDue? {now : Nat} {w : Wait} (h : q.popDue? now = some (w, q')) : q.Shrinks q' :=
  ⟨popDue?_sublist h, (popDue?_eq_some_iff.1 h).2.2⟩

end WaitQueue.Shrinks

namespace Game

variable {g : Game} {h : Handle}

/-- The queue shrinks from one game to the other. -/
abbrev Drains (g g' : Game) : Prop := g.engine.waits.Shrinks g'.engine.waits

theorem drains_dropInstance (h : Handle) : Drains g (g.dropInstance h) := by
  rw [Drains, waits_dropInstance]
  exact .release _

theorem drains_removeInstance (u : Uid) (h : Handle) : Drains g (g.removeInstance u h) := by
  refine (drains_dropInstance h).trans (.of_eq ?_)
  unfold removeInstance
  simp only
  split
  · rfl
  · split <;> rfl

theorem drains_foldl {α : Type} {f : Game → α → Game} (hf : ∀ g a, Drains g (f g a))
    (as : List α) : Drains g (as.foldl f g) := by
  induction as generalizing g with
  | nil => exact .refl
  | cons a as ih => exact (hf g a).trans ih

theorem drains_detachAll (u : Uid) : Drains g (g.detachAll u).2 := by
  unfold detachAll
  split
  · exact .refl
  · rename_i c _
    have hf := drains_foldl (g := g.withContainers (g.engine.containers.erase u))
      (fun _ h => drains_dropInstance h) c.triggers
    exact ⟨hf.pending, hf.nextId⟩

theorem drains_extractEntity (u : Uid) : Drains g (g.extractEntity u) := by
  rw [Drains, waits_extractEntity]
  exact ⟨WaitQueue.cancelOwner_sublist u, rfl⟩

theorem drains_purge (u : Uid) : Drains g (g.purge u) := by
  have hf := drains_foldl (g := g.withWorld (g.world.extract u).2)
    (fun _ v => drains_extractEntity v) (g.world.extract u).1
  exact ⟨hf.pending, hf.nextId⟩

theorem drains_unset (h : Handle) (u : Uid) (name : String) : Drains g (g.unset h u name) := by
  unfold unset
  split <;> exact .refl

theorem drains_refuse (h : Handle) (i : Instance) (mode : RunMode) : Drains g (g.refuse h i mode) := by
  cases mode <;> exact .refl

theorem drains_begin (h : Handle) : Drains g (g.begin h) := by
  rw [Drains, waits_begin]
  exact .release _

end Game

theorem Change.queueEffect {m m' : Moment} (h : Change m m') : QueueEffect m m' := by
  cases h with
  | report | blame | addNote | roll | tell | place | reach | evaluate | command | setLocal
    | makeGlobal | deepen | rise | loopOver | loopAgain | loopHalt | finish | vanish | noteHour =>
    exact .shrinks .refl
  | purge => exact .shrinks (drains_purge _)
  | attach ha =>
    obtain ⟨p, -, rfl⟩ := attach_ok ha
    exact .shrinks .refl
  | detach => exact .shrinks (drains_removeInstance _ _)
  | detachAll target => exact .shrinks (drains_detachAll target)
  | unset name => exact .shrinks (drains_unset _ _ name)
  | @loopYield a s g i line hi =>
    refine .schedule line 1 .wait rfl rfl hi ?_
    have hk : (g.countLoop a.trigger).instance? a.trigger = some { i with loops := i.loops + 1 } := by
      rw [Game.countLoop, instance?_modifyInstance_self, hi]
      rfl
    rw [suspend_eq hk]
    rfl
  | suspend line delay kind live =>
    obtain ⟨i, hi⟩ := (hasTrigger_iff _ _).1 live
    refine .schedule line delay kind rfl rfl hi ?_
    rw [suspend_eq hi]
    rfl
  | @start s g h i bindings =>
    exact .shrinks (drains_begin (g := (g.bindLocals h bindings).enter h i.owner) h)
  | @refuse s g h i j bindings => exact .shrinks (drains_refuse (g := g.bindLocals h bindings) h j .new)
  | skip hq => exact .shrinks (.popDue? hq)
  | resume hq => exact .shrinks (.popDue? hq)
  | refuseResume hq => exact .shrinks (.popDue? hq)

theorem Operation.queueEffect (g : Game) (op : Operation) : QueueEffect ⟨[], g⟩ (op.opening g) := by
  cases op with
  | extractEntity u => exact .shrinks (drains_extractEntity u)
  | purge u => exact .shrinks (drains_purge u)
  | run host h mode =>
    show QueueEffect _ (runOpening g h mode)
    have hopens := runOpening_opens g h mode
    generalize runOpening g h mode = m at hopens
    cases hopens with
    | stale | takenUp => exact .shrinks .refl
    | @refused _ i => exact .shrinks (drains_refuse h i mode)
    | @begun i => exact .shrinks (drains_begin (g := g.enter h i.owner) h)
  | attach | detach | detachAll | setGlobal | dispatch | pulse | interpret | execute | walk
    | replaceWorld => exact .shrinks .refl

namespace Stage.Next

variable {may : Game → Operation → Prop} {p p' : Stage}

theorem effect (h : Stage.Next may p p') : Effect p.moment p'.moment := by
  cases h with
  | change hf => exact hf.change.effect
  | @call g n op => exact op.effect g

theorem queueEffect (h : Stage.Next may p p') : QueueEffect p.moment p'.moment := by
  cases h with
  | change hf => exact hf.change.queueEffect
  | @call g n op => exact op.queueEffect g

end Stage.Next

end MudTrigger
