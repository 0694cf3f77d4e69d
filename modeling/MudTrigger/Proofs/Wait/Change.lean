import MudTrigger.Proofs.Wait.Settled
import MudTrigger.Proofs.Wait.Tracked

/-!
# Every change keeps the suspended and the pending runs in step

One lemma for each way in which runs begin, are left, are taken up or lose their trigger, and from
these `Settled.change` and `Settled.changes`.
-/

set_option autoImplicit false

namespace MudTrigger

namespace Game

variable {g : Game} {h h' : Handle} {i : Instance}

/-! ## What the operations do to triggers and queue -/

theorem waits_begin : (g.begin h).engine.waits = g.engine.waits.release ((g.instance? h).bind (·.wait)) := by
  unfold begin
  simp only
  split
  · rename_i id hw
    rw [hw]
    rfl
  · rename_i hw
    rw [hw]
    rfl

theorem instance?_begin :
    (g.begin h).instance? h' =
      if h' = h then
        (g.instance? h).map fun i => { i with depth := 1, loops := 0, resumeAt := none, wait := none }
      else g.instance? h' := by
  unfold begin
  simp only
  split <;> exact instance?_modifyInstance _ _ _ _

theorem depth_begin : (g.begin h).engine.depth = g.engine.depth := by
  unfold begin
  simp only
  split <;> rfl

theorem suspend_eq (hi : g.instance? h = some i) (u : Uid) (line delay : Nat) (kind : WaitKind) :
    g.suspend h u line delay kind =
      ((g.withWaits (g.engine.waits.schedule g.engine.pulseCount delay ⟨h, u, line, kind⟩).2).modifyInstance
        h fun i => { i with resumeAt := some line, wait := some g.engine.waits.nextId }).report
          (.suspended i.proto.vnum u line delay kind) := by
  unfold suspend
  simp only [instance?_withWaits, hi]
  rfl

theorem waits_dropInstance :
    (g.dropInstance h).engine.waits = g.engine.waits.release ((g.instance? h).bind (·.wait)) := by
  unfold dropInstance
  cases g.instance? h with
  | none => rfl
  | some i =>
    simp only [Option.bind_some]
    cases i.wait <;> rfl

theorem depth_dropInstance : (g.dropInstance h).engine.depth = g.engine.depth := by
  unfold dropInstance
  split
  · rfl
  · simp only
    split <;> rfl

theorem waits_extractEntity (u : Uid) :
    (g.extractEntity u).engine.waits = g.engine.waits.cancelOwner u := by
  unfold extractEntity
  cases g.container? u with
  | none =>
    simp only
    split <;> rfl
  | some c =>
    simp only
    split <;> rfl

theorem depth_extractEntity (u : Uid) : (g.extractEntity u).engine.depth = g.engine.depth := by
  unfold extractEntity
  cases g.container? u with
  | none =>
    simp only
    split <;> rfl
  | some c =>
    simp only
    split <;> rfl

theorem instance?_extractEntity (u : Uid) :
    (g.extractEntity u).instance? h = if h ∈ g.listed u then none else g.instance? h := by
  rw [instance?, triggers_extractEntity]
  exact get?_foldl_remove _ _ h

end Game

namespace Settled

open Game

variable {a : Activation} {s : List Activation} {g : Game} {h : Handle} {i : Instance}

/-- What an attached trigger waits for is what names it. -/
theorem wait_iff (hm : Settled ⟨s, g⟩) (hi : g.instance? h = some i) {w : Wait}
    (hw : w ∈ g.engine.waits.pending) : i.wait = some w.id ↔ w.continuation.trigger = h := by
  obtain ⟨-, j, hj, hjw⟩ := hm.waits_of_mem hw
  constructor
  · exact fun he => hm.wait_inj hj hjw.wait hi he
  · rintro rfl
    rw [hi, Option.some.injEq] at hj
    exact hj ▸ hjw.wait

theorem mem_release (hm : Settled ⟨s, g⟩) (hi : g.instance? h = some i) (w : Wait) :
    w ∈ (g.engine.waits.release i.wait).pending ↔
      w ∈ g.engine.waits.pending ∧ w.continuation.trigger ≠ h := by
  rw [WaitQueue.mem_release]
  exact and_congr_right fun hw => not_congr (hm.wait_iff hi hw)

/-! ## Runs that begin or go on -/

theorem start (hm : Settled ⟨s, g⟩) (hi : g.instance? h = some i)
    (hn : h ∉ Moment.handles ⟨s, g⟩) (bindings : List (String × String)) :
    Settled ⟨⟨h, i.owner, i.proto, 0, false⟩ :: s,
      ((g.bindLocals h bindings).enter h i.owner).begin h⟩ := by
  have hb := instance?_bindLocals hi bindings
  have hw : (((g.bindLocals h bindings).enter h i.owner).begin h).engine.waits =
      g.engine.waits.release i.wait := by
    rw [waits_begin, instance?_enter, hb]
    rfl
  refine hm.push hn (fun h' hne => ?_) (fun j hj => ?_) ?_ (fun w => ?_) ?_
  · rw [instance?_begin, if_neg hne, instance?_enter]
    exact instance?_modifyInstance_ne g h' _ hne
  · rw [instance?_begin, if_pos rfl, instance?_enter, hb, Option.map_some, Option.some.injEq] at hj
    subst hj
    exact ⟨⟨Nat.le_refl _, rfl, rfl⟩, rfl⟩
  · rw [hw]
    exact hm.ordered.release _
  · rw [hw]
    exact hm.mem_release hi w
  · rw [depth_begin]
    rfl

theorem resume (hm : Settled ⟨s, g⟩) {w : Wait} {q : WaitQueue}
    (hq : g.engine.waits.popDue? g.engine.pulseCount = some (w, q))
    (hi : g.instance? w.continuation.trigger = some i) (n : Notice) :
    Settled ⟨⟨w.continuation.trigger, i.owner, i.proto, 0, false⟩ :: s,
      (((g.withWaits q).report n).enter w.continuation.trigger i.owner).takeUp
        w.continuation.trigger⟩ := by
  obtain ⟨-, hp, -⟩ := WaitQueue.popDue?_eq_some_iff.1 hq
  have hmem : w ∈ g.engine.waits.pending := by
    rw [hp]
    exact List.mem_cons_self
  have hids := hm.ordered.ids
  rw [hp, List.map_cons, List.nodup_cons] at hids
  refine hm.push (hm.waits_of_mem hmem).1 (fun h' hne => ?_) (fun j hj => ?_)
    (hm.ordered.popDue? hq) (fun v => ?_) rfl
  · exact instance?_modifyInstance_ne _ h' _ hne
  · have hk : (((g.withWaits q).report n).enter w.continuation.trigger i.owner).instance?
        w.continuation.trigger = some i := hi
    rw [takeUp, instance?_modifyInstance_self, hk, Option.map_some, Option.some.injEq] at hj
    subst hj
    exact ⟨⟨Nat.le_max_right _ _, rfl, rfl⟩, rfl⟩
  · show v ∈ q.pending ↔ v ∈ g.engine.waits.pending ∧ _
    constructor
    · intro hv
      have hv' : v ∈ g.engine.waits.pending := by
        rw [hp]
        exact List.mem_cons_of_mem _ hv
      refine ⟨hv', fun he => hids.1 ?_⟩
      obtain rfl : v = w := hm.ordered.eq_of_id hv' hmem (by
        have h1 := (hm.wait_iff hi hv').2 he
        have h2 := (hm.wait_iff hi hmem).2 rfl
        rw [h1, Option.some.injEq] at h2
        exact h2)
      exact List.mem_map_of_mem hv
    · rintro ⟨hv, hne⟩
      rw [hp] at hv
      rcases List.mem_cons.1 hv with rfl | hv
      · exact absurd rfl hne
      · exact hv

/-! ## Runs that are left -/

theorem finish (hm : Settled ⟨a :: s, g⟩) : Settled ⟨s, (g.finish a.trigger).leave⟩ := by
  refine hm.pop (fun h' hne => ?_) (fun i hi => ?_) hm.ordered (fun _ hw => hw) (fun _ hw => .inl hw)
    rfl
  · exact instance?_modifyInstance_ne g h' _ hne
  · rw [instance?_leave, Game.finish, instance?_modifyInstance_self] at hi
    obtain ⟨j, -, rfl⟩ := Option.map_eq_some_iff.1 hi
    exact .inl j.rests_reset

theorem vanish (hm : Settled ⟨a :: s, g⟩) (ht : g.hasTrigger a.trigger = false) :
    Settled ⟨s, g.leave⟩ := by
  refine hm.pop (fun _ _ => rfl) (fun i hi => ?_) hm.ordered (fun _ hw => hw) (fun _ hw => .inl hw)
    rfl
  have hk : g.instance? a.trigger = some i := hi
  rw [hasTrigger_eq, hk] at ht
  cases ht

theorem suspend (hm : Settled ⟨a :: s, g⟩) (ht : g.hasTrigger a.trigger = true)
    (line delay : Nat) (kind : WaitKind) :
    Settled ⟨s, (g.suspend a.trigger a.owner line delay kind).leave⟩ := by
  obtain ⟨i, hi⟩ := (hasTrigger_iff g a.trigger).1 ht
  obtain ⟨hr, ho⟩ := hm.running List.mem_cons_self hi
  have hself : (g.suspend a.trigger a.owner line delay kind).instance? a.trigger =
      some { i with resumeAt := some line, wait := some g.engine.waits.nextId } := by
    rw [suspend_eq hi, instance?_report, instance?_modifyInstance_self, instance?_withWaits, hi]
    rfl
  have hw : (g.suspend a.trigger a.owner line delay kind).engine.waits =
      (g.engine.waits.schedule g.engine.pulseCount delay ⟨a.trigger, a.owner, line, kind⟩).2 := by
    rw [suspend_eq hi]
    rfl
  have hd : (g.suspend a.trigger a.owner line delay kind).engine.depth = g.engine.depth := by
    rw [suspend_eq hi]
    rfl
  refine hm.pop (fun h' hne => ?_) (fun j hj => .inr ?_) ?_ (fun w hp => ?_) (fun w hp => ?_)
    (congrArg (· - 1) hd)
  · rw [instance?_leave, suspend_eq hi, instance?_report, instance?_modifyInstance_ne _ h' _ hne,
      instance?_withWaits]
  · rw [instance?_leave, hself, Option.some.injEq] at hj
    subst hj
    show ∃ w ∈ (g.suspend a.trigger a.owner line delay kind).engine.waits.pending, _
    rw [hw]
    exact ⟨_, WaitQueue.mem_schedule.2 (.inl rfl), hr.depth, rfl, rfl, rfl, ho.symm⟩
  · show (g.suspend a.trigger a.owner line delay kind).engine.waits.Ordered
    rw [hw]
    exact hm.ordered.schedule _ _ _
  · show w ∈ (g.suspend a.trigger a.owner line delay kind).engine.waits.pending
    rw [hw]
    exact WaitQueue.mem_schedule.2 (.inr hp)
  · have hp : w ∈ (g.suspend a.trigger a.owner line delay kind).engine.waits.pending := hp
    rw [hw] at hp
    rcases WaitQueue.mem_schedule.1 hp with rfl | hp
    · exact .inr ⟨_, hself, rfl⟩
    · exact .inl hp

/-! ## Attaching and removing -/

theorem attachTo (hm : Settled ⟨s, g⟩) (hs : g.engine.triggers.Sound) (target : Uid) (vnum : Vnum)
    (p : Prototype) (position : Option Nat)
    (hn : ∀ {a}, a ∈ s → a.trigger ≠ g.nextHandle target p) :
    Settled ⟨s, g.attachTo target vnum p position⟩ := by
  have hi := instance?_attachTo target vnum p position hs
  have hnone := instance?_nextHandle target p hs
  refine ⟨hm.depth, hm.nodup, hm.ordered, fun {h i} h1 hnh => ?_, fun {b i} hb h1 => ?_,
    fun {w} h1 => ?_⟩
  · rw [hi] at h1
    split at h1
    · cases h1
      exact .inl ⟨rfl, rfl, rfl, rfl, rfl⟩
    · exact hm.idle h1 hnh
  · rw [hi, if_neg (hn hb)] at h1
    exact hm.running hb h1
  · obtain ⟨j, hj, hw⟩ := hm.pending h1
    have hne : w.continuation.trigger ≠ g.nextHandle target p := fun he => by
      rw [he, hnone] at hj
      cases hj
    exact ⟨j, by rw [hi, if_neg hne]; exact hj, hw⟩

/-- Some triggers are removed, and so is what they wait for. -/
theorem remove (hm : Settled ⟨s, g⟩) {g' : Game} {p : Handle → Prop} [DecidablePred p]
    (hi : ∀ h, g'.instance? h = if p h then none else g.instance? h)
    (ho : g'.engine.waits.Ordered)
    (hw : ∀ w, w ∈ g'.engine.waits.pending ↔
      w ∈ g.engine.waits.pending ∧ ¬ p w.continuation.trigger)
    (hd : g'.engine.depth = g.engine.depth) : Settled ⟨s, g'⟩ := by
  have hsome : ∀ {h i}, g'.instance? h = some i → ¬ p h ∧ g.instance? h = some i := by
    intro h i h1
    rw [hi] at h1
    split at h1
    · cases h1
    · rename_i hp
      exact ⟨hp, h1⟩
  refine ⟨hd.trans hm.depth, hm.nodup, ho, fun {h i} h1 hnh => ?_,
    fun hb h1 => hm.running hb (hsome h1).2, fun {w} h1 => ?_⟩
  · obtain ⟨hp, h1⟩ := hsome h1
    refine (hm.idle h1 hnh).imp id fun ⟨w, hmem, hwt⟩ => ⟨w, (hw w).2 ⟨hmem, ?_⟩, hwt⟩
    rw [hwt.trigger]
    exact hp
  · obtain ⟨hmem, hp⟩ := (hw w).1 h1
    obtain ⟨j, hj, hjw⟩ := hm.pending hmem
    exact ⟨j, by rw [hi, if_neg hp]; exact hj, hjw⟩

theorem dropInstance (hm : Settled ⟨s, g⟩) (h : Handle) : Settled ⟨s, g.dropInstance h⟩ := by
  cases hi : g.instance? h with
  | none =>
    have he : g.dropInstance h = g := by
      unfold Game.dropInstance
      rw [hi]
    rw [he]
    exact hm
  | some i =>
    have hw : (g.dropInstance h).engine.waits = g.engine.waits.release i.wait := by
      rw [waits_dropInstance, hi]
      rfl
    refine hm.remove (instance?_dropInstance h) ?_ (fun w => ?_) depth_dropInstance
    · rw [hw]
      exact hm.ordered.release _
    · rw [hw]
      exact hm.mem_release hi w

theorem removeInstance (hm : Settled ⟨s, g⟩) (u : Uid) (h : Handle) :
    Settled ⟨s, g.removeInstance u h⟩ := by
  refine (hm.dropInstance h).of_view (fun h' => ?_) ?_ ?_
  · rw [instance?_removeInstance, instance?_dropInstance]
  · unfold Game.removeInstance
    simp only
    split
    · rfl
    · split <;> rfl
  · unfold Game.removeInstance
    simp only
    split
    · rfl
    · split <;> rfl

theorem detachAll (hm : Settled ⟨s, g⟩) (u : Uid) : Settled ⟨s, (g.detachAll u).2⟩ := by
  unfold Game.detachAll
  split
  · exact hm
  · rename_i c _
    have hc : Settled ⟨s, g.withContainers (g.engine.containers.erase u)⟩ :=
      hm.of_view (fun _ => rfl) rfl rfl
    have hf : ∀ (hs : List Handle) {g1 : Game}, Settled ⟨s, g1⟩ →
        Settled ⟨s, hs.foldl Game.dropInstance g1⟩ := by
      intro hs
      induction hs with
      | nil => exact id
      | cons h hs ih => exact fun h1 => ih (h1.dropInstance h)
    exact (hf c.triggers hc).of_view (fun _ => rfl) rfl rfl

/-- The triggers of an entity are those that its container lists, so what they wait for is what the
queue holds for the entity. -/
theorem extractEntity (hm : Settled ⟨s, g⟩) (hg : g.Coherent) (u : Uid) :
    Settled ⟨s, g.extractEntity u⟩ := by
  refine hm.remove (fun _ => instance?_extractEntity u) ?_ (fun w => ?_) (depth_extractEntity u)
  · rw [waits_extractEntity]
    exact hm.ordered.cancelOwner u
  · rw [waits_extractEntity, WaitQueue.mem_cancelOwner]
    refine and_congr_right fun hmem => not_congr ?_
    obtain ⟨-, i, hi, hw⟩ := hm.waits_of_mem hmem
    rw [hg.mem_listed_iff, hw.owner]
    constructor
    · exact fun ho => ⟨i, hi, ho⟩
    · rintro ⟨j, hj, ho⟩
      rw [hi, Option.some.injEq] at hj
      rw [hj, ho]

theorem purge (hm : Settled ⟨s, g⟩) (hg : g.Coherent) (u : Uid) : Settled ⟨s, g.purge u⟩ := by
  have hw : Settled ⟨s, g.withWorld (g.world.extract u).2⟩ := hm.of_view (fun _ => rfl) rfl rfl
  have hc : (g.withWorld (g.world.extract u).2).Coherent := hg.of_same (same_of_eq rfl rfl)
  have hf : ∀ (us : List Uid) {g1 : Game}, Settled ⟨s, g1⟩ → g1.Coherent →
      Settled ⟨s, us.foldl Game.extractEntity g1⟩ := by
    intro us
    induction us with
    | nil => exact fun h1 _ => h1
    | cons v us ih => exact fun h1 h2 => ih (h1.extractEntity h2 v) (h2.extractEntity v)
  exact hf _ hw hc

/-! ## Every change -/

theorem idle_of_isIdle (hm : Settled ⟨s, g⟩) (hi : g.instance? h = some i)
    (hidle : i.isIdle = true) : h ∉ Moment.handles ⟨s, g⟩ ∧ i.Rests := by
  have h0 : i.depth = 0 := beq_iff_eq.1 hidle
  have hn : h ∉ Moment.handles ⟨s, g⟩ := fun hmem => by
    obtain ⟨b, hb, rfl⟩ := List.mem_map.1 hmem
    have hd := (hm.running hb hi).1.depth
    omega
  refine ⟨hn, (hm.idle hi hn).resolve_right ?_⟩
  rintro ⟨w, -, hw⟩
  have hd := hw.depth
  omega

/-- A fresh run is not under way yet. -/
theorem not_mem_of_start (hm : Settled ⟨s, g⟩) (hi : g.instance? h = some i)
    (hidle : i.isIdle = true ∨ s = []) : h ∉ Moment.handles ⟨s, g⟩ := by
  rcases hidle with hidle | rfl
  · exact (hm.idle_of_isIdle hi hidle).1
  · exact List.not_mem_nil

/-- An idle trigger whose fresh run is refused. -/
theorem refuse (hm : Settled ⟨s, g⟩) (hi : g.instance? h = some i) (hidle : i.isIdle = true)
    (bindings : List (String × String)) (j : Instance) :
    Settled ⟨s, (g.bindLocals h bindings).refuse h j .new⟩ := by
  obtain ⟨hn, hr⟩ := hm.idle_of_isIdle hi hidle
  have hne : ∀ h', h' ≠ h →
      ((g.bindLocals h bindings).refuse h j .new).instance? h' = g.instance? h' := fun h' hne => by
    refine (instance?_modifyInstance_ne _ h' _ hne).trans ?_
    exact instance?_modifyInstance_ne g h' _ hne
  have hself : ((g.bindLocals h bindings).refuse h j .new).instance? h = some i.reset := by
    refine (instance?_modifyInstance_self _ h _).trans ?_
    rw [instance?_report, instance?_bindLocals hi]
    rfl
  refine ⟨hm.depth, hm.nodup, hm.ordered, fun {h' k} h1 hnh => ?_, fun {b k} hb h1 => ?_,
    fun {w} h1 => ?_⟩
  · by_cases he : h' = h
    · have h1 : ((g.bindLocals h bindings).refuse h j .new).instance? h' = some k := h1
      rw [he, hself, Option.some.injEq] at h1
      exact .inl (h1 ▸ i.rests_reset)
    · exact hm.idle ((hne h' he).symm.trans h1) hnh
  · exact hm.running hb ((hne _ fun he => hn (he ▸ mem_handles hb)).symm.trans h1)
  · obtain ⟨k, hk, hw⟩ := hm.pending h1
    refine ⟨k, (hne _ fun he => ?_).trans hk, hw⟩
    have hk : g.instance? w.continuation.trigger = some k := hk
    rw [he, hi, Option.some.injEq] at hk
    rw [← hk, hr.wait] at hw
    cases hw

/-- The repetitions that the innermost run has counted do not matter. -/
theorem restack {b : Activation} (hm : Settled ⟨a :: s, g⟩) (ht : b.trigger = a.trigger)
    (ho : b.owner = a.owner) : Settled ⟨b :: s, g⟩ := by
  have hh : Moment.handles ⟨b :: s, g⟩ = Moment.handles ⟨a :: s, g⟩ :=
    congrArg (· :: s.map Activation.trigger) ht
  refine ⟨hm.depth, hh ▸ hm.nodup, hm.ordered, fun h1 hn => hm.idle h1 (hh ▸ hn),
    fun {c i} hc h1 => ?_, hm.pending⟩
  rcases List.mem_cons.1 hc with rfl | hc
  · rw [ho]
    exact hm.running List.mem_cons_self (ht ▸ h1)
  · exact hm.running (List.mem_cons_of_mem _ hc) h1

theorem countLoop (hm : Settled ⟨s, g⟩) (ha : a ∈ s) : Settled ⟨s, g.countLoop a.trigger⟩ :=
  hm.modifyInstance ha fun _ _ hr => ⟨⟨hr.depth, hr.resumeAt, hr.wait⟩, rfl⟩

theorem change {m m' : Moment} (h : Change m m') (hm : Settled m) (hg : m.game.Coherent)
    {n : Nat} (ht : Tracked n m) (hn : m'.game.attachments < n + 0x1_0000_0000) : Settled m' := by
  cases h with
  | report | blame | addNote | roll | tell | place | reach | evaluate | command | noteHour =>
    exact hm.of_view (fun _ => rfl) rfl rfl
  | purge => exact hm.purge hg _
  | attach ha =>
    obtain ⟨p, -, rfl⟩ := attach_ok ha
    rw [attachments_attachTo] at hn
    exact hm.attachTo hg.sound _ _ p _ fun hb => ht.attach hg.sound hn hb _ p
  | detach => exact hm.removeInstance _ _
  | detachAll target => exact hm.detachAll target
  | setLocal =>
    exact hm.modifyInstance List.mem_cons_self fun _ _ hr => ⟨⟨hr.depth, hr.resumeAt, hr.wait⟩, rfl⟩
  | makeGlobal v =>
    exact (hm.modifyInstance List.mem_cons_self (f := fun i => { i with locals := i.locals.erase v.name })
      fun _ _ hr => ⟨⟨hr.depth, hr.resumeAt, hr.wait⟩, rfl⟩).of_view (fun _ => rfl) rfl rfl
  | unset name =>
    show Settled ⟨_, Game.unset _ _ _ _⟩
    unfold Game.unset
    split
    · exact hm.of_view (fun _ => rfl) rfl rfl
    · exact hm.modifyInstance List.mem_cons_self fun _ _ hr =>
        ⟨⟨hr.depth, hr.resumeAt, hr.wait⟩, rfl⟩
  | deepen =>
    exact hm.modifyInstance List.mem_cons_self fun _ _ hr =>
      ⟨⟨Nat.le_succ_of_le hr.depth, hr.resumeAt, hr.wait⟩, rfl⟩
  | rise hd =>
    refine hm.modifyInstance List.mem_cons_self fun i hi hr => ⟨⟨?_, hr.resumeAt, hr.wait⟩, rfl⟩
    rw [depthOf, hi] at hd
    exact Nat.le_sub_one_of_lt hd
  | loopOver => exact hm.restack rfl rfl
  | loopAgain => exact (hm.countLoop List.mem_cons_self).restack rfl rfl
  | @loopYield a s g i line hi =>
    refine (hm.countLoop List.mem_cons_self).suspend ?_ line 1 .wait
    rw [hasTrigger_iff]
    exact ⟨_, by rw [Game.countLoop, instance?_modifyInstance_self, hi]; rfl⟩
  | @loopHalt a s g i =>
    have hr : Settled ⟨a :: s, (g.countLoop a.trigger).report
        (.looped a.proto.vnum a.proto.name (i.loops + 1))⟩ :=
      (hm.countLoop List.mem_cons_self).of_view (fun _ => rfl) rfl rfl
    exact hr.finish
  | suspend line delay kind htr => exact hm.suspend htr line delay kind
  | finish => exact hm.finish
  | vanish htr => exact hm.vanish htr
  | start bindings hi hidle hd =>
    exact hm.start hi (hm.not_mem_of_start hi hidle) bindings
  | refuse bindings hi hidle =>
    rcases hidle with hidle | ⟨rfl, hd⟩
    · exact hm.refuse hi hidle bindings _
    · rw [hm.depth] at hd
      exact absurd hd (Nat.not_lt_zero _)
  | @skip g w q hq hcur =>
    -- Every entry of the queue is what its trigger waits for.
    obtain ⟨-, hp, -⟩ := WaitQueue.popDue?_eq_some_iff.1 hq
    obtain ⟨i, hi, hw⟩ := hm.pending (w := w) (hp ▸ List.mem_cons_self)
    have hi : g.instance? w.continuation.trigger = some i := hi
    rw [hi, Option.any_some, hw, decide_eq_false_iff_not] at hcur
    exact absurd rfl hcur
  | resume hq hi hw hd => exact hm.resume hq hi _
  | refuseResume hq hi hd =>
    rw [hm.depth] at hd
    exact absurd hd (Nat.not_lt_zero _)

theorem changes {m m' : Moment} (h : Changes m m') (hm : Settled m) (hg : m.game.Coherent)
    {n : Nat} (ht : Tracked n m) (hn : m'.game.attachments < n + 0x1_0000_0000) :
    Settled m' ∧ Tracked n m' := by
  induction h with
  | refl => exact ⟨hm, ht⟩
  | tail hc h ih =>
    obtain ⟨hm, ht⟩ := ih (Nat.lt_of_le_of_lt h.attachments_le hn)
    have hg := Game.Coherent.changes hc hg
    exact ⟨hm.change h hg ht hn, ht.change h hg.sound hn⟩

end Settled

end MudTrigger
