import MudTrigger.Proofs.Wait.Reach

/-!
# How often loop bodies are repeated

`Counted R S T m`: `R n k` holds of a run under way that has repeated loop bodies `n` times since it
was begun or taken up and `k` times in all, `S k` of any other trigger, and `T k` of every run that
was cut short after `k` repetitions. A `LoopLaw` says when the three go together, and then every
change keeps them (`Counted.change`), and every call of the host (`Counted.play`).
-/

set_option autoImplicit false

namespace MudTrigger

/-- What may be said of the repetitions of a run under way, of a trigger, and of a run cut short,
under the limits of the configuration. -/
structure LoopLaw (c : Config) (R : Nat → Nat → Prop) (S T : Nat → Prop) : Prop where
  none : S 0
  taken : ∀ {k}, S k → R 0 k
  left : ∀ {n k}, R n k → S k
  anew : ∀ {n k}, R n k → R 0 k
  again : ∀ {n k}, R n k → n + 1 < c.loopDeferAfter → k + 1 < c.loopAbortAfter → R (n + 1) (k + 1)
  yield : ∀ {n k}, R n k → c.loopDeferAfter ≤ n + 1 → S (k + 1)
  halt : ∀ {n k}, R n k → n + 1 < c.loopDeferAfter → c.loopAbortAfter ≤ k + 1 → T (k + 1)

/-- The repetitions of the runs, as a law has them (module doc). -/
structure Counted (R : Nat → Nat → Prop) (S T : Nat → Prop) (m : Moment) : Prop where
  idle : ∀ {h i}, m.game.instance? h = some i → h ∉ m.handles → S i.loops
  running : ∀ {a i}, a ∈ m.stack → m.game.instance? a.trigger = some i → R a.loops i.loops
  halted : ∀ {v n k}, .looped v n k ∈ m.game.records → T k

namespace Game

variable {g g' g1 g2 : Game} {h : Handle}

/-! ## What does not count repetitions -/

/-- No trigger has counted repetitions, and none is new. -/
def SameLoops (g g' : Game) : Prop :=
  ∀ h i, g'.instance? h = some i → ∃ j, g.instance? h = some j ∧ i.loops = j.loops

/-- No other trigger has counted repetitions, and none is new. -/
def SameLoopsBut (t : Handle) (g g' : Game) : Prop :=
  ∀ h i, h ≠ t → g'.instance? h = some i → ∃ j, g.instance? h = some j ∧ i.loops = j.loops

theorem SameLoops.but (h : SameLoops g g') (t : Handle) : SameLoopsBut t g g' :=
  fun x i _ hi => h x i hi

theorem SameLoopsBut.trans {t : Handle} (h : SameLoopsBut t g g1) (h' : SameLoopsBut t g1 g2) :
    SameLoopsBut t g g2 := by
  intro x i hne hi
  obtain ⟨j, hj, he⟩ := h' x i hne hi
  obtain ⟨k, hk, he'⟩ := h x j hne hj
  exact ⟨k, hk, he.trans he'⟩

theorem sameLoopsBut_modifyInstance (t : Handle) (f : Instance → Instance) :
    SameLoopsBut t g (g.modifyInstance t f) := fun x i hne hi =>
  ⟨i, (instance?_modifyInstance_ne g x f hne).symm.trans hi, rfl⟩

theorem SameLoops.trans (h : SameLoops g g1) (h' : SameLoops g1 g2) : SameLoops g g2 := by
  intro x i hi
  obtain ⟨j, hj, he⟩ := h' x i hi
  obtain ⟨k, hk, he'⟩ := h x j hj
  exact ⟨k, hk, he.trans he'⟩

theorem sameLoops_of_eq (hi : ∀ h, g'.instance? h = g.instance? h) : SameLoops g g' :=
  fun h i h1 => ⟨i, (hi h).symm.trans h1, rfl⟩

theorem sameLoops_of_remove {p : Handle → Prop} [DecidablePred p]
    (hi : ∀ h, g'.instance? h = if p h then none else g.instance? h) : SameLoops g g' := by
  intro h i h1
  rw [hi] at h1
  split at h1
  · cases h1
  · exact ⟨i, h1, rfl⟩

theorem sameLoops_modifyInstance (h : Handle) {f : Instance → Instance}
    (hf : ∀ i, (f i).loops = i.loops) : SameLoops g (g.modifyInstance h f) := by
  intro h' i h1
  rw [instance?_modifyInstance] at h1
  split at h1
  · rename_i he
    obtain ⟨j, hj, rfl⟩ := Option.map_eq_some_iff.1 h1
    exact ⟨j, he ▸ hj, hf j⟩
  · exact ⟨i, h1, rfl⟩

theorem sameLoops_makeGlobal (h : Handle) (u : Uid) (v : Variable) :
    SameLoops g (g.makeGlobal h u v) :=
  sameLoops_modifyInstance h (f := fun i => { i with locals := i.locals.erase v.name }) fun _ => rfl

theorem sameLoops_unset (h : Handle) (u : Uid) (name : String) :
    SameLoops g (g.unset h u name) := by
  unfold unset
  split
  · exact sameLoops_of_eq fun _ => rfl
  · exact sameLoops_modifyInstance h fun _ => rfl

theorem sameLoops_suspend (h : Handle) (u : Uid) (line delay : Nat) (kind : WaitKind) :
    SameLoops g (g.suspend h u line delay kind) := by
  cases hi : g.instance? h with
  | none =>
    unfold suspend
    simp only [instance?_withWaits, hi]
    exact sameLoops_of_eq fun _ => rfl
  | some i =>
    have hm := sameLoops_modifyInstance (g := g.withWaits
      (g.engine.waits.schedule g.engine.pulseCount delay ⟨h, u, line, kind⟩).2) h
      (f := fun i => { i with resumeAt := some line, wait := some g.engine.waits.nextId })
      fun _ => rfl
    rw [suspend_eq hi]
    exact hm

theorem sameLoops_detachAll (u : Uid) : SameLoops g (g.detachAll u).2 :=
  sameLoops_of_remove (p := (· ∈ g.listed u)) fun h => by
    rw [instance?, triggers_detachAll]
    exact get?_foldl_remove _ _ h

theorem sameLoops_purge (u : Uid) : SameLoops g (g.purge u) := by
  have hf : ∀ (us : List Uid) (g1 : Game), SameLoops g1 (us.foldl extractEntity g1) := by
    intro us
    induction us with
    | nil => exact fun g1 => sameLoops_of_eq fun _ => rfl
    | cons v us ih =>
      intro g1
      have hv : SameLoops g1 (g1.extractEntity v) :=
        sameLoops_of_remove (p := (· ∈ g1.listed v)) fun _ => instance?_extractEntity v
      exact hv.trans (ih _)
  exact hf _ (g.withWorld (g.world.extract u).2)

end Game

open Game

namespace Counted

variable {R : Nat → Nat → Prop} {S T : Nat → Prop} {a b : Activation} {s : List Activation}
  {g g' : Game}

theorem of_sameLoops (hc : Counted R S T ⟨s, g⟩) (hi : SameLoops g g')
    (hr : ∀ {v n k}, .looped v n k ∈ g'.records → T k) : Counted R S T ⟨s, g'⟩ where
  idle h1 hn := by
    obtain ⟨j, hj, he⟩ := hi _ _ h1
    exact he ▸ hc.idle hj hn
  running ha h1 := by
    obtain ⟨j, hj, he⟩ := hi _ _ h1
    exact he ▸ hc.running ha hj
  halted := hr

/-- A run comes onto the stack. -/
theorem push (hc : Counted R S T ⟨s, g⟩) (hn : a.trigger ∉ Moment.handles ⟨s, g⟩)
    (hi : SameLoopsBut a.trigger g g')
    (ha : ∀ i, g'.instance? a.trigger = some i → R a.loops i.loops)
    (hr : ∀ {v n k}, .looped v n k ∈ g'.records → T k) : Counted R S T ⟨a :: s, g'⟩ where
  idle {h i} h1 hnh := by
    obtain ⟨hne, hnh⟩ := not_or.1 (mt List.mem_cons.2 hnh)
    obtain ⟨j, hj, he⟩ := hi h i hne h1
    exact he ▸ hc.idle hj hnh
  running {b i} hb h1 := by
    rcases List.mem_cons.1 hb with rfl | hb
    · exact ha i h1
    · have hne : b.trigger ≠ a.trigger := fun he => hn (he ▸ Settled.mem_handles hb)
      obtain ⟨j, hj, he⟩ := hi _ i hne h1
      exact he ▸ hc.running hb hj
  halted := hr

/-- The innermost run leaves the stack. -/
theorem pop (hc : Counted R S T ⟨a :: s, g⟩) (hn : a.trigger ∉ Moment.handles ⟨s, g⟩)
    (hi : SameLoopsBut a.trigger g g')
    (ha : ∀ i, g'.instance? a.trigger = some i → S i.loops)
    (hr : ∀ {v n k}, .looped v n k ∈ g'.records → T k) : Counted R S T ⟨s, g'⟩ where
  idle {h i} h1 hnh := by
    by_cases he : h = a.trigger
    · subst he
      exact ha i h1
    · obtain ⟨j, hj, hk⟩ := hi h i he h1
      exact hk ▸ hc.idle hj (mt List.mem_cons.1 (not_or.2 ⟨he, hnh⟩))
  running {b i} hb h1 := by
    have hne : b.trigger ≠ a.trigger := fun he => hn (he ▸ Settled.mem_handles hb)
    obtain ⟨j, hj, he⟩ := hi _ i hne h1
    exact he ▸ hc.running (List.mem_cons_of_mem _ hb) hj
  halted := hr

/-- The innermost run counts, or begins to count anew. -/
theorem top (hc : Counted R S T ⟨a :: s, g⟩) (hn : a.trigger ∉ Moment.handles ⟨s, g⟩)
    (ht : b.trigger = a.trigger) (hi : SameLoopsBut a.trigger g g')
    (ha : ∀ i, g'.instance? a.trigger = some i → R b.loops i.loops)
    (hr : ∀ {v n k}, .looped v n k ∈ g'.records → T k) : Counted R S T ⟨b :: s, g'⟩ where
  idle {h i} h1 hnh := by
    obtain ⟨hne, hnh⟩ := not_or.1 (mt List.mem_cons.2 hnh)
    have hne : h ≠ a.trigger := ht ▸ hne
    obtain ⟨j, hj, he⟩ := hi h i hne h1
    exact he ▸ hc.idle hj (mt List.mem_cons.1 (not_or.2 ⟨hne, hnh⟩))
  running {c i} hb h1 := by
    rcases List.mem_cons.1 hb with rfl | hb
    · exact ha i (ht ▸ h1)
    · have hne : c.trigger ≠ a.trigger := fun he => hn (he ▸ Settled.mem_handles hb)
      obtain ⟨j, hj, he⟩ := hi _ i hne h1
      exact he ▸ hc.running (List.mem_cons_of_mem _ hb) hj
  halted := hr

/-- A trigger without a run under way counts anew. -/
theorem aside {h : Handle} (hc : Counted R S T ⟨s, g⟩) (hn : h ∉ Moment.handles ⟨s, g⟩)
    (hi : SameLoopsBut h g g') (ha : ∀ i, g'.instance? h = some i → S i.loops)
    (hr : ∀ {v n k}, .looped v n k ∈ g'.records → T k) : Counted R S T ⟨s, g'⟩ where
  idle {x i} h1 hnx := by
    by_cases he : x = h
    · exact ha i (he ▸ h1)
    · obtain ⟨j, hj, hk⟩ := hi x i he h1
      exact hk ▸ hc.idle hj hnx
  running {b i} hb h1 := by
    have hne : b.trigger ≠ h := fun he => hn (he ▸ Settled.mem_handles hb)
    obtain ⟨j, hj, he⟩ := hi _ i hne h1
    exact he ▸ hc.running hb hj
  halted := hr

theorem loops_finish {h : Handle} {i : Instance} (hi : (g.finish h).instance? h = some i) :
    0 = i.loops := by
  rw [Game.finish, instance?_modifyInstance_self] at hi
  obtain ⟨k, -, rfl⟩ := Option.map_eq_some_iff.1 hi
  rfl

/-- A run that is cut short has counted what the law allows. -/
theorem halted_change {m m' : Moment} (hc : Counted R S T m)
    (hl : LoopLaw m.game.engine.config R S T) (h : Change m m') {v : Vnum} {n : String} {k : Nat}
    (hk : .looped v n k ∈ m'.game.records) : T k := by
  rcases h.quiet_or_record with hq | ⟨-, target, vnum, p, position, he⟩ |
    ⟨a, s, i, hs, -, hi, hd, ha, hq⟩
  · exact hc.halted (hq.records ▸ hk)
  · rw [he, records_attachTo, List.mem_append] at hk
    rcases hk with hk | hk
    · exact hc.halted hk
    · cases List.mem_singleton.1 hk
  · rw [hq.records, records_report, List.mem_append] at hk
    rcases hk with hk | hk
    · exact hc.halted hk
    · cases List.mem_singleton.1 hk
      exact hl.halt (hc.running (hs ▸ List.mem_cons_self) hi) hd ha

theorem change {m m' : Moment} (hc : Counted R S T m) (hl : LoopLaw m.game.engine.config R S T)
    (h : Change m m') (hm : Settled m) (hg : m.game.Coherent) {n : Nat} (ht : Tracked n m)
    (hn : m'.game.attachments < n + 0x1_0000_0000) : Counted R S T m' := by
  have hr : ∀ {v n k}, .looped v n k ∈ m'.game.records → T k := hc.halted_change hl h
  cases h with
  | report | blame | addNote | roll | tell | place | reach | evaluate | command | noteHour =>
    exact hc.of_sameLoops (sameLoops_of_eq fun _ => rfl) hr
  | purge => exact hc.of_sameLoops (sameLoops_purge _) hr
  | @attach _ _ _ vnum target position _ ha =>
    obtain ⟨p, -, rfl⟩ := attach_ok ha
    rw [attachments_attachTo] at hn
    have hi := instance?_attachTo target vnum p position hg.sound
    refine ⟨fun {h i} h1 hnh => ?_, fun {b i} hb h1 => ?_, hr⟩
    · rw [hi] at h1
      split at h1
      · cases h1
        exact hl.none
      · exact hc.idle h1 hnh
    · rw [hi, if_neg (ht.attach hg.sound hn hb _ p)] at h1
      exact hc.running hb h1
  | detach => exact hc.of_sameLoops (sameLoops_of_remove (instance?_removeInstance _ _)) hr
  | detachAll target => exact hc.of_sameLoops (sameLoops_detachAll target) hr
  | setLocal | deepen | rise =>
    exact hc.of_sameLoops (sameLoops_modifyInstance _ fun _ => rfl) hr
  | makeGlobal v => exact hc.of_sameLoops (sameLoops_makeGlobal _ _ v) hr
  | unset name => exact hc.of_sameLoops (sameLoops_unset _ _ name) hr
  | loopOver =>
    exact hc.top hm.not_mem rfl ((sameLoops_of_eq fun _ => rfl).but _)
      (fun i hi => hl.anew (hc.running List.mem_cons_self hi)) hr
  | @loopAgain a s g i hi hd ha =>
    refine hc.top hm.not_mem rfl (sameLoopsBut_modifyInstance _ _) (fun j hj => ?_) hr
    rw [Game.countLoop, instance?_modifyInstance_self, hi, Option.map_some, Option.some.injEq] at hj
    exact hj ▸ hl.again (hc.running List.mem_cons_self hi) hd ha
  | @loopYield a s g i line hi hd =>
    refine hc.pop hm.not_mem ?_ (fun j hj => ?_) hr
    · exact (sameLoopsBut_modifyInstance _ _).trans ((sameLoops_suspend _ _ _ _ _).but _)
    · obtain ⟨k, hk, he⟩ := sameLoops_suspend _ _ _ _ _ a.trigger j hj
      rw [Game.countLoop, instance?_modifyInstance_self, hi, Option.map_some,
        Option.some.injEq] at hk
      subst hk
      exact he ▸ hl.yield (hc.running List.mem_cons_self hi) hd
  | @loopHalt a s g i hi =>
    refine hc.pop hm.not_mem ?_ (fun j hj => ?_) hr
    · exact (sameLoopsBut_modifyInstance (g := g) a.trigger _).trans
        (sameLoopsBut_modifyInstance _ _)
    · exact loops_finish hj ▸ hl.none
  | suspend line delay kind =>
    refine hc.pop hm.not_mem ((sameLoops_suspend _ _ _ _ _).but _) (fun j hj => ?_) hr
    obtain ⟨k, hk, he⟩ := sameLoops_suspend _ _ _ _ _ _ j hj
    exact he ▸ hl.left (hc.running List.mem_cons_self hk)
  | finish =>
    refine hc.pop hm.not_mem (sameLoopsBut_modifyInstance _ _) (fun j hj => ?_) hr
    exact loops_finish hj ▸ hl.none
  | @vanish a s g hv =>
    refine hc.pop hm.not_mem ((sameLoops_of_eq fun _ => rfl).but _) (fun j hj => ?_) hr
    have hj : g.instance? a.trigger = some j := hj
    rw [hasTrigger_eq, hj] at hv
    cases hv
  | @start s g h i bindings hi hidle =>
    refine hc.push (hm.not_mem_of_start hi hidle) (fun x j hne hj => ?_) (fun j hj => ?_) hr
    · rw [instance?_begin, if_neg hne] at hj
      exact ⟨j, (instance?_modifyInstance_ne g x _ hne).symm.trans hj, rfl⟩
    · rw [instance?_begin, if_pos rfl] at hj
      obtain ⟨k, -, rfl⟩ := Option.map_eq_some_iff.1 hj
      exact hl.taken hl.none
  | @refuse s g h i j bindings hi hidle =>
    have hn := hm.not_mem_of_start hi (hidle.imp id And.left)
    refine hc.aside hn ?_ (fun j hj => ?_) hr
    · exact (sameLoopsBut_modifyInstance (g := g) h _).trans (sameLoopsBut_modifyInstance _ _)
    · exact loops_finish hj ▸ hl.none
  | skip => exact hc.of_sameLoops (sameLoops_of_eq fun _ => rfl) hr
  | @resume g w q i hq hi hw =>
    have hn := (hm.waits hi hw).1
    refine hc.push hn (fun x j hne hj => ?_) (fun j hj => ?_) hr
    · exact ⟨j, (instance?_modifyInstance_ne (g.withWaits q) x _ hne).symm.trans hj, rfl⟩
    · obtain ⟨k, hk, rfl⟩ := Option.map_eq_some_iff.1
        ((instance?_modifyInstance_self _ _ _).symm.trans hj)
      have hs : S k.loops := hc.idle (i := k) hk hn
      exact hl.taken hs
  | refuseResume => exact hc.of_sameLoops (sameLoops_of_eq fun _ => rfl) hr

end Counted

/-! ## Every moment -/

theorem Change.config_eq {m m' : Moment} (h : Change m m') :
    m'.game.engine.config = m.game.engine.config := by
  rcases h.quiet_or_record with hq | ⟨-, target, vnum, p, position, he⟩ | ⟨_, _, _, -, -, -, -, -, hq⟩
  · exact hq.config
  · rw [he]
    rfl
  · exact hq.config

namespace Counted

variable {R : Nat → Nat → Prop} {S T : Nat → Prop} {g : Game}

theorem changes {c : Config} (hl : LoopLaw c R S T) {m m' : Moment} (h : Changes m m')
    (hc : Counted R S T m) (hcfg : m.game.engine.config = c) (hm : Settled m)
    (hg : m.game.Coherent) {n : Nat} (ht : Tracked n m)
    (hn : m'.game.attachments < n + 0x1_0000_0000) :
    Counted R S T m' ∧ m'.game.engine.config = c := by
  induction h with
  | refl => exact ⟨hc, hcfg⟩
  | tail h1 h ih =>
    have hn1 := Nat.lt_of_le_of_lt h.attachments_le hn
    obtain ⟨hc, hcfg⟩ := ih hn1
    obtain ⟨hm, ht⟩ := Settled.changes h1 hm hg ht hn1
    exact ⟨hc.change (hcfg ▸ hl) h hm (Coherent.changes h1 hg) ht hn, h.config_eq.trans hcfg⟩

theorem intervention {g' : Game} (hc : Counted R S T ⟨[], g⟩) (h : Intervention g g') :
    Counted R S T ⟨[], g'⟩ := by
  have hr : ∀ {v n k}, .looped v n k ∈ g'.records → T k := fun hk =>
    hc.halted (h.quiet.records ▸ hk)
  cases h with
  | extractEntity u =>
    exact hc.of_sameLoops (sameLoops_of_remove fun _ => instance?_extractEntity u) hr
  | setGlobal u name value => exact hc.of_sameLoops (sameLoops_of_eq fun _ => rfl) hr
  | purge u => exact hc.of_sameLoops (sameLoops_purge u) hr
  | replaceWorld w => exact hc.of_sameLoops (sameLoops_of_eq fun _ => rfl) hr

end Counted

/-- What the host does at once when it calls for an operation. -/
inductive Operation.Opens (g : Game) : Game → Prop
  | same : Opens g g
  | intervene {g'} : Intervention g g' → Opens g g'
  | tick : Opens g g.tick

/-- A moment on the way from the call of an operation to its end. -/
def Operation.Passes (op : Operation) (g : Game) (m : Moment) : Prop :=
  ∃ g1, Operation.Opens g g1 ∧ Changes ⟨[], g1⟩ m ∧ Changes m ⟨[], op.apply g⟩

theorem Operation.exists_opens {op : Operation} (hop : op.resumes = false) (g : Game) :
    ∃ g1, Operation.Opens g g1 ∧ Evolves [] g1 (op.apply g) := by
  rcases op.apply_cases (g := g) with ⟨g1, h1, hc⟩ | ⟨host, rfl⟩ | hres
  · rcases h1 with rfl | h1
    · exact ⟨_, .same, hc⟩
    · exact ⟨_, .intervene h1, hc⟩
  · exact ⟨_, .tick, pulse_evolves host⟩
  · rw [hop] at hres
    cases hres

/-- An operation passes through its end. -/
theorem Operation.passes_end {op : Operation} (hop : op.resumes = false) (g : Game) :
    op.Passes g ⟨[], op.apply g⟩ := by
  obtain ⟨g1, h1, hc⟩ := op.exists_opens hop g
  exact ⟨g1, h1, hc, .refl⟩

namespace Counted

variable {R : Nat → Nat → Prop} {S T : Nat → Prop} {g : Game} {c : Config}

theorem opens {g1 : Game} (hc : Counted R S T ⟨[], g⟩) (ho : g.Orderly)
    (h : Operation.Opens g g1) : Counted R S T ⟨[], g1⟩ ∧ Settled ⟨[], g1⟩ ∧ g1.Coherent ∧
      g1.engine.config = g.engine.config ∧ g1.attachments = g.attachments := by
  cases h with
  | same => exact ⟨hc, ho.settled, ho.coherent, rfl, rfl⟩
  | intervene h =>
    exact ⟨hc.intervention h, settled_intervention ho.coherent ho.settled h,
      ho.coherent.intervention h, h.quiet.config, h.quiet.attachments⟩
  | tick =>
    exact ⟨hc.of_sameLoops (sameLoops_of_eq fun _ => rfl) hc.halted,
      ho.settled.of_view (fun _ => rfl) rfl rfl, ho.coherent.of_same (same_of_eq rfl rfl), rfl, rfl⟩

/-- What a law says of the repetitions holds at every moment of an operation. -/
theorem passes (hl : LoopLaw c R S T) (hc : Counted R S T ⟨[], g⟩) (ho : g.Orderly)
    (hcfg : g.engine.config = c) {op : Operation}
    (hn : (op.apply g).attachments < g.attachments + 0x1_0000_0000) {m : Moment}
    (hm : op.Passes g m) : Counted R S T m ∧ m.game.engine.config = c := by
  obtain ⟨g1, h1, h2, h3⟩ := hm
  obtain ⟨hc1, hs, hg, hcfg1, ha⟩ := hc.opens ho h1
  have hle : m.game.attachments ≤ (op.apply g).attachments := Changes.attachments_le h3
  exact hc1.changes hl h2 (hcfg1.trans hcfg) hs hg (Tracked.of_idle g1)
    (Nat.lt_of_le_of_lt hle (ha ▸ hn))

theorem play (hl : LoopLaw c R S T) (hc : Counted R S T ⟨[], g⟩) (ho : g.Orderly)
    (hcfg : g.engine.config = c) {ops : List Operation}
    (hops : ∀ op ∈ ops, op.resumes = false) (hn : g.Paced ops) :
    Counted R S T ⟨[], g.play ops⟩ ∧ (g.play ops).engine.config = c := by
  induction ops generalizing g with
  | nil => exact ⟨hc, hcfg⟩
  | cons op ops ih =>
    have hop := hops op List.mem_cons_self
    obtain ⟨hc1, hcfg1⟩ := hc.passes hl ho hcfg hn.1 (op.passes_end hop g)
    exact ih hc1 (ho.apply hop hn.1) hcfg1 (fun op h => hops op (List.mem_cons_of_mem _ h)) hn.2

theorem start (c : Config) (registry : Registry) (world : World) :
    Counted R S T ⟨[], Game.start c registry world⟩ where
  idle hi := by cases hi
  running ha := by cases ha
  halted hk := by cases hk

end Counted

end MudTrigger
