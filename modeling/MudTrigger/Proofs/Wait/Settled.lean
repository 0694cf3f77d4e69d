import MudTrigger.Proofs.Store.Reach
import MudTrigger.Proofs.Wait.Queue

/-!
# The runs that are suspended are those that are pending

`Settled m`: a trigger with a run under way (one on the stack) has nothing pending; any other trigger
rests, or waits for an entry of the queue that names it, its owner and its line; every entry of the
queue is what its trigger waits for; and the depth of the engine is that of the stack. Every change
keeps this (`Settled.change`) as long as the handles on the stack are not issued again, that is, as
long as the runs under way are `Tracked`.
-/

set_option autoImplicit false

namespace MudTrigger

namespace WaitQueue

/-- The queue without what a trigger waits for. -/
def release (q : WaitQueue) : Option WaitId → WaitQueue
  | some id => q.cancel id
  | none => q

theorem mem_release {q : WaitQueue} {wait : Option WaitId} {w : Wait} :
    w ∈ (q.release wait).pending ↔ w ∈ q.pending ∧ wait ≠ some w.id := by
  cases wait with
  | none => simp [release]
  | some id => simp [release, mem_cancel, eq_comm]

theorem Ordered.release {q : WaitQueue} (hq : q.Ordered) (wait : Option WaitId) :
    (q.release wait).Ordered := by
  cases wait with
  | none => exact hq
  | some id => exact hq.cancel id

end WaitQueue

namespace Instance

/-- Nothing is left of a run. -/
structure Rests (i : Instance) : Prop where
  depth : i.depth = 0
  loops : i.loops = 0
  resumeAt : i.resumeAt = none
  wait : i.wait = none
  locals : i.locals = ∅

/-- A run is under way. -/
structure Runs (i : Instance) : Prop where
  depth : 1 ≤ i.depth
  resumeAt : i.resumeAt = none
  wait : i.wait = none

/-- The run of the trigger `h` is suspended until `w` is due. -/
structure Waits (i : Instance) (h : Handle) (w : Wait) : Prop where
  depth : 1 ≤ i.depth
  wait : i.wait = some w.id
  resumeAt : i.resumeAt = some w.continuation.resumeAt
  trigger : w.continuation.trigger = h
  owner : w.continuation.owner = i.owner

theorem rests_reset (i : Instance) : i.reset.Rests := ⟨rfl, rfl, rfl, rfl, rfl⟩

end Instance

/-- The triggers whose runs are under way. -/
def Moment.handles (m : Moment) : List Handle := m.stack.map (·.trigger)

/-- The runs that are suspended are those that are pending (module doc). -/
structure Settled (m : Moment) : Prop where
  depth : m.game.engine.depth = m.stack.length
  nodup : m.handles.Nodup
  ordered : m.game.engine.waits.Ordered
  idle : ∀ {h i}, m.game.instance? h = some i → h ∉ m.handles →
    i.Rests ∨ ∃ w ∈ m.game.engine.waits.pending, i.Waits h w
  running : ∀ {a i}, a ∈ m.stack → m.game.instance? a.trigger = some i →
    i.Runs ∧ i.owner = a.owner
  pending : ∀ {w}, w ∈ m.game.engine.waits.pending →
    ∃ i, m.game.instance? w.continuation.trigger = some i ∧ i.wait = some w.id

theorem settled_start (config : Config) (registry : Registry) (world : World) :
    Settled ⟨[], Game.start config registry world⟩ where
  depth := rfl
  nodup := List.nodup_nil
  ordered := WaitQueue.ordered_empty
  idle hi := by cases hi
  running ha := by cases ha
  pending hw := by cases hw

namespace Settled

variable {a : Activation} {s : List Activation} {g g' : Game} {h : Handle} {i : Instance}

theorem mem_handles (ha : a ∈ s) : a.trigger ∈ Moment.handles ⟨s, g⟩ :=
  List.mem_map_of_mem ha

theorem not_mem (hm : Settled ⟨a :: s, g⟩) : a.trigger ∉ Moment.handles ⟨s, g⟩ :=
  (List.nodup_cons.1 hm.nodup).1

/-- What a trigger waits for is pending, and no run of it is under way. -/
theorem waits (hm : Settled ⟨s, g⟩) {id : WaitId} (hi : g.instance? h = some i)
    (hw : i.wait = some id) :
    h ∉ Moment.handles ⟨s, g⟩ ∧ ∃ w ∈ g.engine.waits.pending, i.Waits h w ∧ w.id = id := by
  have hn : h ∉ Moment.handles ⟨s, g⟩ := fun hmem => by
    obtain ⟨b, hb, rfl⟩ := List.mem_map.1 hmem
    rw [(hm.running hb hi).1.wait] at hw
    cases hw
  refine ⟨hn, ?_⟩
  rcases hm.idle hi hn with hr | ⟨w, hp, hw'⟩
  · rw [hr.wait] at hw
    cases hw
  · refine ⟨w, hp, hw', ?_⟩
    rw [hw'.wait, Option.some.injEq] at hw
    exact hw

/-- An entry of the queue is what its trigger waits for. -/
theorem waits_of_mem (hm : Settled ⟨s, g⟩) {w : Wait} (hw : w ∈ g.engine.waits.pending) :
    w.continuation.trigger ∉ Moment.handles ⟨s, g⟩ ∧
      ∃ i, g.instance? w.continuation.trigger = some i ∧ i.Waits w.continuation.trigger w := by
  obtain ⟨i, hi, hwait⟩ := hm.pending hw
  obtain ⟨hn, v, hv, hv', he⟩ := hm.waits hi hwait
  obtain rfl := hm.ordered.eq_of_id hw hv he.symm
  exact ⟨hn, i, hi, hv'⟩

/-- Two triggers do not wait for the same entry. -/
theorem wait_inj (hm : Settled ⟨s, g⟩) {h' : Handle} {j : Instance} {id : WaitId}
    (hi : g.instance? h = some i) (hw : i.wait = some id) (hj : g.instance? h' = some j)
    (hw' : j.wait = some id) : h = h' := by
  obtain ⟨-, v, hv, hv', rfl⟩ := hm.waits hi hw
  obtain ⟨-, w, hp, hp', he⟩ := hm.waits hj hw'
  obtain rfl := hm.ordered.eq_of_id hp hv he
  rw [← hv'.trigger, hp'.trigger]

/-! ## What touches no trigger but the innermost -/

theorem of_view (hm : Settled ⟨s, g⟩) (hi : ∀ h, g'.instance? h = g.instance? h)
    (hw : g'.engine.waits = g.engine.waits) (hd : g'.engine.depth = g.engine.depth) :
    Settled ⟨s, g'⟩ where
  depth := hd.trans hm.depth
  nodup := hm.nodup
  ordered := hw ▸ hm.ordered
  idle h1 hn := by
    rw [hw]
    exact hm.idle (hi _ ▸ h1) hn
  running ha h1 := hm.running ha (hi _ ▸ h1)
  pending h1 := by
    rw [hi]
    exact hm.pending (hw ▸ h1)

/-- A running trigger changes and goes on running. -/
theorem modify (hm : Settled ⟨s, g⟩) (ha : a ∈ s) {f : Instance → Instance}
    (hi : ∀ h, g'.instance? h =
      if h = a.trigger then (g.instance? a.trigger).map f else g.instance? h)
    (hf : ∀ i, g.instance? a.trigger = some i → i.Runs → (f i).Runs ∧ (f i).owner = i.owner)
    (hw : g'.engine.waits = g.engine.waits) (hd : g'.engine.depth = g.engine.depth) :
    Settled ⟨s, g'⟩ where
  depth := hd.trans hm.depth
  nodup := hm.nodup
  ordered := hw ▸ hm.ordered
  idle {h i} h1 hn := by
    have hne : h ≠ a.trigger := fun he => hn (he ▸ mem_handles (g := g') ha)
    rw [hi, if_neg hne] at h1
    rw [hw]
    exact hm.idle h1 hn
  running {b i} hb h1 := by
    rw [hi] at h1
    split at h1
    · rename_i he
      obtain ⟨j, hj, rfl⟩ := Option.map_eq_some_iff.1 h1
      have hr := hm.running hb (he ▸ hj)
      exact ⟨(hf j hj hr.1).1, (hf j hj hr.1).2.trans hr.2⟩
    · exact hm.running hb h1
  pending {w} h1 := by
    have h1 : w ∈ g.engine.waits.pending := hw ▸ h1
    have hne : w.continuation.trigger ≠ a.trigger := fun he =>
      (hm.waits_of_mem h1).1 (he ▸ mem_handles ha)
    rw [hi, if_neg hne]
    exact hm.pending h1

theorem modifyInstance (hm : Settled ⟨s, g⟩) (ha : a ∈ s) {f : Instance → Instance}
    (hf : ∀ i, g.instance? a.trigger = some i → i.Runs → (f i).Runs ∧ (f i).owner = i.owner) :
    Settled ⟨s, g.modifyInstance a.trigger f⟩ :=
  hm.modify ha (fun h => Game.instance?_modifyInstance g h a.trigger f) hf rfl rfl

/-! ## Runs that begin and runs that are left -/

/-- A run comes onto the stack; what its trigger waited for is taken out of the queue. -/
theorem push (hm : Settled ⟨s, g⟩) (hn : a.trigger ∉ Moment.handles ⟨s, g⟩)
    (hi : ∀ h, h ≠ a.trigger → g'.instance? h = g.instance? h)
    (hr : ∀ i, g'.instance? a.trigger = some i → i.Runs ∧ i.owner = a.owner)
    (ho : g'.engine.waits.Ordered)
    (hw : ∀ w, w ∈ g'.engine.waits.pending ↔
      w ∈ g.engine.waits.pending ∧ w.continuation.trigger ≠ a.trigger)
    (hd : g'.engine.depth = g.engine.depth + 1) : Settled ⟨a :: s, g'⟩ where
  depth := by rw [hd, hm.depth]; rfl
  nodup := List.nodup_cons.2 ⟨hn, hm.nodup⟩
  ordered := ho
  idle {h i} h1 hnh := by
    obtain ⟨hne, hnh⟩ := not_or.1 (mt List.mem_cons.2 hnh)
    rw [hi h hne] at h1
    refine (hm.idle h1 hnh).imp id fun ⟨w, hp, hwt⟩ => ⟨w, (hw w).2 ⟨hp, ?_⟩, hwt⟩
    rw [hwt.trigger]
    exact hne
  running {b i} hb h1 := by
    rcases List.mem_cons.1 hb with rfl | hb
    · exact hr i h1
    · have hne : b.trigger ≠ a.trigger := fun he => hn (he ▸ mem_handles hb)
      rw [hi _ hne] at h1
      exact hm.running hb h1
  pending {w} h1 := by
    obtain ⟨hp, hne⟩ := (hw w).1 h1
    rw [hi _ hne]
    exact hm.pending hp

/-- The innermost run leaves the stack, its trigger at rest or waiting for a new entry. -/
theorem pop (hm : Settled ⟨a :: s, g⟩)
    (hi : ∀ h, h ≠ a.trigger → g'.instance? h = g.instance? h)
    (hr : ∀ i, g'.instance? a.trigger = some i →
      i.Rests ∨ ∃ w ∈ g'.engine.waits.pending, i.Waits a.trigger w)
    (ho : g'.engine.waits.Ordered)
    (hs : ∀ w ∈ g.engine.waits.pending, w ∈ g'.engine.waits.pending)
    (hw : ∀ w ∈ g'.engine.waits.pending, w ∈ g.engine.waits.pending ∨
      ∃ i, g'.instance? w.continuation.trigger = some i ∧ i.wait = some w.id)
    (hd : g'.engine.depth = g.engine.depth - 1) : Settled ⟨s, g'⟩ := by
  have hn := hm.not_mem
  refine ⟨?_, (List.nodup_cons.1 hm.nodup).2, ho, fun {h i} h1 hnh => ?_, fun {b i} hb h1 => ?_, fun {w} h1 => ?_⟩
  · rw [hd, hm.depth]
    rfl
  · by_cases he : h = a.trigger
    · subst he
      exact hr i h1
    · rw [hi h he] at h1
      have hnh' : h ∉ Moment.handles ⟨a :: s, g⟩ := mt List.mem_cons.1 (not_or.2 ⟨he, hnh⟩)
      exact (hm.idle h1 hnh').imp id fun ⟨w, hp, hwt⟩ => ⟨w, hs w hp, hwt⟩
  · have hne : b.trigger ≠ a.trigger := fun he => hn (he ▸ mem_handles hb)
    rw [hi _ hne] at h1
    exact hm.running (List.mem_cons_of_mem _ hb) h1
  · rcases hw w h1 with hp | hnew
    · have hne : w.continuation.trigger ≠ a.trigger := fun he =>
        (hm.waits_of_mem hp).1 (he ▸ mem_handles List.mem_cons_self)
      rw [hi _ hne]
      exact hm.pending hp
    · exact hnew

end Settled

end MudTrigger
