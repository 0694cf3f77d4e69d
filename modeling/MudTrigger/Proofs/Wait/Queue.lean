import MudTrigger.Script.WaitQueue
import Mathlib.Data.List.Nodup

/-!
# The order of the pending continuations

A queue is `Ordered` when its entries are in the order in which they come due and have different
numbers that were given out already; scheduling keeps this (`Ordered.schedule`), and so does taking
entries out (`Ordered.sublist`). `overdue` are the entries that are due: scheduling adds none of them
(`overdue_schedule`), and popping takes out the first one as long as there are any
(`overdue_popDue?`, `Ordered.overdue_eq_nil`).
-/

set_option autoImplicit false

namespace MudTrigger

theorem Width.lt_saturate64 {now delay : Nat} (hn : now < 0xFFFF_FFFF_FFFF_FFFF) :
    now < saturate64 (now + max delay 1) := by
  unfold saturate64
  omega

theorem Wait.before_iff {a b : Wait} :
    a.before b = true ↔ a.due < b.due ∨ a.due = b.due ∧ a.id < b.id := by
  simp [before]

namespace WaitQueue

variable {q q' : WaitQueue} {now delay : Nat} {c : Continuation} {w : Wait}

structure Ordered (q : WaitQueue) : Prop where
  sorted : q.pending.Pairwise fun a b => a.due ≤ b.due
  ids : (q.pending.map (·.id)).Nodup
  below : ∀ w ∈ q.pending, w.id < q.nextId

theorem ordered_empty : (∅ : WaitQueue).Ordered :=
  ⟨.nil, List.nodup_nil, fun _ hw => absurd hw List.not_mem_nil⟩

theorem Ordered.eq_of_id (hq : q.Ordered) {v : Wait} (hw : w ∈ q.pending) (hv : v ∈ q.pending)
    (he : w.id = v.id) : w = v :=
  List.inj_on_of_nodup_map hq.ids hw hv he

theorem Ordered.sublist (hq : q.Ordered) (hs : q'.pending.Sublist q.pending)
    (hn : q'.nextId = q.nextId) : q'.Ordered where
  sorted := hq.sorted.sublist hs
  ids := hq.ids.sublist (hs.map _)
  below w hw := hn ▸ hq.below w (hs.subset hw)

/-! ## Scheduling -/

theorem insertWait_perm (w : Wait) (ws : List Wait) : (insertWait w ws).Perm (w :: ws) := by
  induction ws with
  | nil => exact .refl _
  | cons v vs ih =>
    unfold insertWait
    split
    · exact .refl _
    · exact (ih.cons v).trans (.swap w v vs)

/-- An insertion keeps a relation that holds from the new entry to those it precedes, and from the
others to it. -/
theorem pairwise_insertWait {r : Wait → Wait → Prop} {ws : List Wait} (hs : ws.Pairwise r)
    (htrans : ∀ {a b c}, r a b → r b c → r a c) (hin : ∀ v ∈ ws, w.before v = true → r w v)
    (hout : ∀ v ∈ ws, ¬ w.before v = true → r v w) : (insertWait w ws).Pairwise r := by
  induction ws with
  | nil => exact List.pairwise_singleton r w
  | cons v vs ih =>
    obtain ⟨hv, hvs⟩ := List.pairwise_cons.1 hs
    unfold insertWait
    split
    · rename_i hb
      have hwv := hin v List.mem_cons_self hb
      refine List.pairwise_cons.2 ⟨fun x hx => ?_, hs⟩
      rcases List.mem_cons.1 hx with rfl | hx
      · exact hwv
      · exact htrans hwv (hv x hx)
    · rename_i hb
      have hrest := ih hvs (fun x hx => hin x (List.mem_cons_of_mem v hx))
        fun x hx => hout x (List.mem_cons_of_mem v hx)
      refine List.pairwise_cons.2 ⟨fun x hx => ?_, hrest⟩
      rcases mem_insertWait.1 hx with rfl | hx
      · exact hout v List.mem_cons_self hb
      · exact hv x hx

theorem sorted_insertWait {ws : List Wait} (hs : ws.Pairwise fun a b => a.due ≤ b.due) (w : Wait) :
    (insertWait w ws).Pairwise fun a b => a.due ≤ b.due := by
  refine pairwise_insertWait hs Nat.le_trans (fun v _ hb => ?_) fun v _ hb => ?_ <;>
    rw [Wait.before_iff] at hb <;> omega

theorem Ordered.schedule (hq : q.Ordered) (now delay : Nat) (c : Continuation) :
    (q.schedule now delay c).2.Ordered where
  sorted := sorted_insertWait hq.sorted _
  ids := by
    refine ((insertWait_perm _ _).map _).nodup_iff.2 (List.nodup_cons.2 ⟨fun hm => ?_, hq.ids⟩)
    obtain ⟨w, hw, he⟩ := List.mem_map.1 hm
    exact absurd (hq.below w hw) (he ▸ Nat.lt_irrefl _)
  below w hw := by
    rcases mem_schedule.1 hw with rfl | hw
    · exact Nat.lt_succ_self _
    · exact Nat.lt_succ_of_lt (hq.below w hw)

/-! ## Cancelling and taking -/

theorem cancel_sublist (id : WaitId) : (q.cancel id).pending.Sublist q.pending :=
  List.filter_sublist

theorem cancelOwner_sublist (owner : Uid) : (q.cancelOwner owner).pending.Sublist q.pending :=
  List.filter_sublist

theorem popDue?_sublist (h : q.popDue? now = some (w, q')) : q'.pending.Sublist q.pending := by
  obtain ⟨-, hp, -⟩ := popDue?_eq_some_iff.1 h
  exact hp ▸ List.sublist_cons_self w _

theorem Ordered.cancel (hq : q.Ordered) (id : WaitId) : (q.cancel id).Ordered :=
  hq.sublist (cancel_sublist id) rfl

theorem Ordered.cancelOwner (hq : q.Ordered) (owner : Uid) : (q.cancelOwner owner).Ordered :=
  hq.sublist (cancelOwner_sublist owner) rfl

theorem Ordered.popDue? (hq : q.Ordered) (h : q.popDue? now = some (w, q')) : q'.Ordered :=
  hq.sublist (popDue?_sublist h) (popDue?_eq_some_iff.1 h).2.2

/-! ## Entries that are due -/

def overdue (q : WaitQueue) (now : Nat) : List Wait := q.pending.filter (·.due ≤ now)

theorem overdue_sublist (hs : q'.pending.Sublist q.pending) :
    (q'.overdue now).Sublist (q.overdue now) := hs.filter _

theorem mem_overdue : w ∈ q.overdue now ↔ w ∈ q.pending ∧ w.due ≤ now := by
  simp [overdue]

theorem filter_insertWait {p : Wait → Bool} (hw : p w = false) (ws : List Wait) :
    (insertWait w ws).filter p = ws.filter p := by
  induction ws with
  | nil => simp [insertWait, hw]
  | cons v vs ih =>
    unfold insertWait
    split
    · rw [List.filter_cons_of_neg (by simp [hw])]
    · rw [List.filter_cons, List.filter_cons, ih]

theorem overdue_schedule (q : WaitQueue) (delay : Nat) (c : Continuation)
    (hn : now < 0xFFFF_FFFF_FFFF_FFFF) :
    (q.schedule now delay c).2.overdue now = q.overdue now := by
  refine filter_insertWait (decide_eq_false ?_) _
  exact Nat.not_le.2 (Width.lt_saturate64 hn)

theorem overdue_popDue? (h : q.popDue? now = some (w, q')) :
    q.overdue now = w :: q'.overdue now := by
  obtain ⟨hd, hp, -⟩ := popDue?_eq_some_iff.1 h
  rw [overdue, hp, List.filter_cons_of_pos (by simpa using hd)]
  rfl

/-- Nothing is due behind a first entry that is not. -/
theorem Ordered.overdue_eq_nil (hq : q.Ordered) (h : q.popDue? now = none) :
    q.overdue now = [] := by
  refine List.filter_eq_nil_iff.2 fun v hv => ?_
  have hs := hq.sorted
  unfold WaitQueue.popDue? at h
  split at h
  · rename_i hp
    rw [hp] at hv
    cases hv
  · rename_i w ws hp
    rw [hp] at hv hs
    have hw : ¬ w.due ≤ now := fun hd => by rw [if_pos hd] at h; cases h
    have hwv : w.due ≤ v.due := by
      rcases List.mem_cons.1 hv with rfl | hv
      · exact Nat.le_refl _
      · exact (List.pairwise_cons.1 hs).1 v hv
    simp only [decide_eq_true_eq]
    omega

end WaitQueue

end MudTrigger
