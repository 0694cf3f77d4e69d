import MudTrigger.Proofs.Wait.Queue
import Mathlib.Data.List.Perm.Basic

/-!
# The queue as a ledger

A `QueueOp` is what is asked of a queue, and an `Answer` what it answers. A `Ledger` is the plain list
of the entries that are live, with a record of those that were scheduled, taken out and cancelled;
`Ledger.Step` says what each operation answers and changes there. The queue answers every sequence of
operations as the ledger does (`WaitQueue.Keeps.answers`), and the ledger's books balance
(`Ledger.Run.balanced`): each entry that was scheduled is live, was taken out or was cancelled, and
only one of the three.
-/

set_option autoImplicit false

namespace MudTrigger

/-- What is asked of a queue. -/
inductive QueueOp where
  | schedule (now delay : Nat) (c : Continuation)
  | cancel (id : WaitId)
  | cancelOwner (owner : Uid)
  | popDue (now : Nat)
  deriving DecidableEq

inductive Answer where
  | scheduled (id : WaitId)
  | cancelled (c : Option Continuation)
  | dropped (count : Nat)
  | popped (entry : Option (WaitId × Continuation))
  deriving DecidableEq

/-- What a queue answers to a sequence of operations, and the queue that is left. -/
def answers {σ : Type} (answer : σ → QueueOp → Answer × σ) : σ → List QueueOp → List Answer × σ
  | s, [] => ([], s)
  | s, op :: ops =>
    let rest := answers answer (answer s op).2 ops
    ((answer s op).1 :: rest.1, rest.2)

def WaitQueue.answer (q : WaitQueue) : QueueOp → Answer × WaitQueue
  | .schedule now delay c =>
    let done := q.schedule now delay c
    (.scheduled done.1, done.2)
  | .cancel id => (.cancelled (q.get? id), q.cancel id)
  | .cancelOwner owner => (.dropped (q.size - (q.cancelOwner owner).size), q.cancelOwner owner)
  | .popDue now =>
    match q.popDue? now with
    | none => (.popped none, q)
    | some (w, q') => (.popped (some (w.id, w.continuation)), q')

/-- The entries that are live, and all that were ever scheduled, taken out and cancelled. -/
structure Ledger where
  live : List Wait := []
  scheduled : List Wait := []
  popped : List Wait := []
  cancelled : List Wait := []

namespace Ledger

instance : EmptyCollection Ledger := ⟨{ live := [] }⟩

def find? (l : Ledger) (id : WaitId) : Option Wait := l.live.find? (·.id = id)

/-- What an operation answers, and how it changes the ledger. -/
inductive Step : Ledger → QueueOp → Answer → Ledger → Prop
  | schedule {l w} (now delay c) :
    w = ⟨Width.saturate64 (now + max delay 1), l.scheduled.length, c⟩ →
    Step l (.schedule now delay c) (.scheduled w.id)
      { l with live := l.live ++ [w], scheduled := l.scheduled ++ [w] }
  | cancel {l} (id) :
    Step l (.cancel id) (.cancelled ((l.find? id).map (·.continuation)))
      { l with
        live := l.live.filter (·.id ≠ id)
        cancelled := l.cancelled ++ l.live.filter (·.id = id) }
  | cancelOwner {l} (owner) :
    Step l (.cancelOwner owner) (.dropped (l.live.countP (·.continuation.owner = owner)))
      { l with
        live := l.live.filter (·.continuation.owner ≠ owner)
        cancelled := l.cancelled ++ l.live.filter (·.continuation.owner = owner) }
  | pop {l w now} : w ∈ l.live → w.due ≤ now →
    (∀ v ∈ l.live, v.due ≤ now → v = w ∨ w.before v) →
    Step l (.popDue now) (.popped (some (w.id, w.continuation)))
      { l with live := l.live.erase w, popped := l.popped ++ [w] }
  | popNone {l now} : (∀ w ∈ l.live, now < w.due) → Step l (.popDue now) (.popped none) l

inductive Run : Ledger → List QueueOp → List Answer → Ledger → Prop
  | nil {l} : Run l [] [] l
  | cons {l op a l' ops as l''} : Step l op a l' → Run l' ops as l'' →
    Run l (op :: ops) (a :: as) l''

/-- Every entry that was scheduled is in one of the three other lists, and only once. -/
structure Balanced (l : Ledger) : Prop where
  numbered : l.scheduled.map (·.id) = List.range l.scheduled.length
  kept : (l.live ++ l.popped ++ l.cancelled).Perm l.scheduled

/-- The size and the look-ups of a queue are those of the ledger. -/
structure Reads (l : Ledger) (size : Nat) (get : WaitId → Option Continuation)
    (dueAt : WaitId → Option Nat) : Prop where
  size : size = l.live.length
  get : ∀ id, get id = (l.find? id).map (·.continuation)
  dueAt : ∀ id, dueAt id = (l.find? id).map (·.due)

end Ledger

/-- The entries that a sequence of answers has taken out. -/
def Answer.taken (as : List Answer) : List (WaitId × Continuation) :=
  as.filterMap fun
    | .popped entry => entry
    | _ => none

/-! ## Entries with different numbers -/

theorem Wait.before_trans {a b c : Wait} (hab : a.before b = true) (hbc : b.before c = true) :
    a.before c = true := by
  simp only [Wait.before_iff, WaitId] at hab hbc ⊢
  omega

theorem find?_id_iff {ws : List Wait} (hn : (ws.map (·.id)).Nodup) {id : WaitId} {w : Wait} :
    ws.find? (·.id = id) = some w ↔ w ∈ ws ∧ w.id = id := by
  constructor
  · intro h
    exact ⟨List.mem_of_find?_eq_some h, by simpa using List.find?_some h⟩
  · rintro ⟨hw, rfl⟩
    cases hf : ws.find? (·.id = w.id) with
    | none => simpa using List.find?_eq_none.1 hf w hw
    | some v =>
      have hv : v.id = w.id := by simpa using List.find?_some hf
      rw [List.inj_on_of_nodup_map hn (List.mem_of_find?_eq_some hf) hw hv]

theorem find?_id_perm {ws vs : List Wait} (hp : ws.Perm vs) (hn : (vs.map (·.id)).Nodup)
    (id : WaitId) : ws.find? (·.id = id) = vs.find? (·.id = id) := by
  apply Option.ext
  intro w
  rw [find?_id_iff ((hp.map _).nodup_iff.2 hn), find?_id_iff hn, hp.mem_iff]

namespace Ledger

variable {l l' : Ledger} {op : QueueOp} {a : Answer} {ops : List QueueOp} {as : List Answer}

/-! ## The books balance -/

theorem balanced_empty : (∅ : Ledger).Balanced := ⟨rfl, .refl _⟩

theorem Balanced.nodup (hl : l.Balanced) :
    ((l.live ++ l.popped ++ l.cancelled).map (·.id)).Nodup := by
  rw [(hl.kept.map _).nodup_iff, hl.numbered]
  exact List.nodup_range

theorem Balanced.nodup_live (hl : l.Balanced) : (l.live.map (·.id)).Nodup :=
  hl.nodup.sublist (List.Sublist.map _ (by simp [List.append_assoc]))

theorem Balanced.lt_of_live (hl : l.Balanced) {w : Wait} (hw : w ∈ l.live) :
    w.id < l.scheduled.length := by
  have hm : w ∈ l.scheduled := hl.kept.subset (by simp [hw])
  have hid : w.id ∈ l.scheduled.map (·.id) := List.mem_map_of_mem hm
  rwa [hl.numbered, List.mem_range] at hid

/-- What leaves the live entries is found again among the cancelled ones. -/
theorem perm_cancelled {live keep out popped cancelled : List Wait} (h : (keep ++ out).Perm live) :
    (keep ++ popped ++ (cancelled ++ out)).Perm (live ++ popped ++ cancelled) := by
  simp only [List.perm_iff_count, List.count_append] at h ⊢
  intro w
  have := h w
  omega

theorem perm_popped {live popped cancelled : List Wait} {w : Wait} (hw : w ∈ live) :
    (live.erase w ++ (popped ++ [w]) ++ cancelled).Perm (live ++ popped ++ cancelled) := by
  have h := List.perm_cons_erase hw
  simp only [List.perm_iff_count, List.count_append, List.count_cons, List.count_nil] at h ⊢
  intro v
  have := h v
  omega

theorem filter_not_append_perm (p : Wait → Prop) [DecidablePred p] (ws : List Wait) :
    (ws.filter (fun w => ¬ p w) ++ ws.filter (fun w => p w)).Perm ws := by
  have h := List.filter_append_perm (fun w => decide (p w)) ws
  simp only [← decide_not] at h
  exact List.perm_append_comm.trans h

theorem Step.balanced (hs : l.Step op a l') (hl : l.Balanced) : l'.Balanced := by
  obtain ⟨live, scheduled, popped, cancelled⟩ := l
  have hk := hl.kept
  cases hs with
  | schedule now delay c hw =>
    refine ⟨?_, ?_⟩
    · simp only [List.map_append, hl.numbered, hw, List.map_cons, List.map_nil, List.length_append,
        List.length_cons, List.length_nil, Nat.zero_add, List.range_succ]
    · simp only [List.append_assoc] at hk ⊢
      exact (List.perm_middle.trans (hk.cons _)).trans (List.perm_append_singleton _ _).symm
  | cancel id => exact ⟨hl.numbered, (perm_cancelled (filter_not_append_perm _ _)).trans hk⟩
  | cancelOwner owner => exact ⟨hl.numbered, (perm_cancelled (filter_not_append_perm _ _)).trans hk⟩
  | pop hw => exact ⟨hl.numbered, (perm_popped hw).trans hk⟩
  | popNone => exact hl

theorem Run.balanced (hr : l.Run ops as l') (hl : l.Balanced) : l'.Balanced := by
  induction hr with
  | nil => exact hl
  | cons hs _ ih => exact ih (hs.balanced hl)

/-- What was taken out is what the answers say was taken out. -/
theorem Step.taken (hs : l.Step op a l') :
    l'.popped.map (fun w => (w.id, w.continuation)) =
      l.popped.map (fun w => (w.id, w.continuation)) ++ Answer.taken [a] := by
  cases hs <;> simp [Answer.taken]

theorem Run.taken (hr : l.Run ops as l') :
    l'.popped.map (fun w => (w.id, w.continuation)) =
      l.popped.map (fun w => (w.id, w.continuation)) ++ Answer.taken as := by
  induction hr with
  | nil => simp [Answer.taken]
  | cons hs _ ih =>
    rw [ih, hs.taken, List.append_assoc, Answer.taken, Answer.taken, ← List.filterMap_append]
    rfl

end Ledger

/-! ## The queue keeps the ledger -/

namespace WaitQueue

/-- The queue has the live entries, in the order in which they come due. -/
structure Keeps (q : WaitQueue) (l : Ledger) : Prop where
  pending : q.pending.Perm l.live
  turn : q.pending.Pairwise fun a b => a.before b = true
  nextId : q.nextId = l.scheduled.length
  balanced : l.Balanced

variable {q : WaitQueue} {l : Ledger}

theorem keeps_empty : (∅ : WaitQueue).Keeps ∅ := ⟨.refl _, .nil, rfl, Ledger.balanced_empty⟩

theorem turn_insertWait {w : Wait} {ws : List Wait} (hs : ws.Pairwise fun a b => a.before b = true)
    (hw : ∀ v ∈ ws, v.id < w.id) : (insertWait w ws).Pairwise fun a b => a.before b = true := by
  refine pairwise_insertWait hs Wait.before_trans (fun _ _ hb => hb) fun v hv hb => ?_
  have hlt := hw v hv
  simp only [Wait.before_iff, WaitId] at hb hlt ⊢
  omega

theorem Keeps.nodup (hq : q.Keeps l) : (q.pending.map (·.id)).Nodup :=
  (hq.pending.map _).nodup_iff.2 hq.balanced.nodup_live

theorem Keeps.find? (hq : q.Keeps l) (id : WaitId) : q.find? id = l.find? id :=
  find?_id_perm hq.pending hq.balanced.nodup_live id

theorem Keeps.reads (hq : q.Keeps l) : l.Reads q.size q.get? q.dueAt? where
  size := hq.pending.length_eq
  get id := by rw [get?, hq.find?]
  dueAt id := by rw [dueAt?, hq.find?]

/-- The first entry of the queue comes before all others. -/
theorem Keeps.first {w : Wait} {ws : List Wait} (hq : q.Keeps l) (hp : q.pending = w :: ws) :
    w ∈ l.live ∧ ∀ v ∈ l.live, v = w ∨ w.before v = true := by
  have ht := hq.turn
  rw [hp] at ht
  refine ⟨hq.pending.subset (hp ▸ List.mem_cons_self), fun v hv => ?_⟩
  have hv := hq.pending.symm.subset hv
  rw [hp] at hv
  rcases List.mem_cons.1 hv with rfl | hv
  · exact .inl rfl
  · exact .inr ((List.pairwise_cons.1 ht).1 v hv)

theorem Keeps.schedule (hq : q.Keeps l) (now delay : Nat) (c : Continuation) :
    ∃ l', l.Step (.schedule now delay c) (q.answer (.schedule now delay c)).1 l' ∧
      (q.answer (.schedule now delay c)).2.Keeps l' := by
  have hs := Ledger.Step.schedule (l := l) now delay c rfl
  have hlt : ∀ v ∈ q.pending, v.id < q.nextId := fun v hv =>
    hq.nextId ▸ hq.balanced.lt_of_live (hq.pending.subset hv)
  rw [← hq.nextId] at hs
  refine ⟨_, hs, ?_, turn_insertWait hq.turn hlt, ?_, hs.balanced hq.balanced⟩
  · exact (insertWait_perm _ _).trans
      ((hq.pending.cons _).trans (List.perm_append_singleton _ _).symm)
  · simp [answer, WaitQueue.schedule, hq.nextId]

theorem Keeps.cancel (hq : q.Keeps l) (id : WaitId) :
    ∃ l', l.Step (.cancel id) (q.answer (.cancel id)).1 l' ∧
      (q.answer (.cancel id)).2.Keeps l' := by
  have hs := Ledger.Step.cancel (l := l) id
  rw [← hq.find?] at hs
  exact ⟨_, hs, hq.pending.filter _, hq.turn.sublist (cancel_sublist id), hq.nextId,
    hs.balanced hq.balanced⟩

theorem size_sub_cancelOwner (q : WaitQueue) (owner : Uid) :
    q.size - (q.cancelOwner owner).size = q.pending.countP (·.continuation.owner = owner) := by
  have h := List.length_eq_countP_add_countP (fun w : Wait => w.continuation.owner = owner)
    (l := q.pending)
  simp only [size, WaitQueue.cancelOwner, ← List.countP_eq_length_filter] at h ⊢
  simp at h ⊢
  omega

theorem Keeps.cancelOwner (hq : q.Keeps l) (owner : Uid) :
    ∃ l', l.Step (.cancelOwner owner) (q.answer (.cancelOwner owner)).1 l' ∧
      (q.answer (.cancelOwner owner)).2.Keeps l' := by
  have hs := Ledger.Step.cancelOwner (l := l) owner
  rw [← hq.pending.countP_eq, ← size_sub_cancelOwner] at hs
  exact ⟨_, hs, hq.pending.filter _, hq.turn.sublist (cancelOwner_sublist owner), hq.nextId,
    hs.balanced hq.balanced⟩

theorem Keeps.popDue (hq : q.Keeps l) (now : Nat) :
    ∃ l', l.Step (.popDue now) (q.answer (.popDue now)).1 l' ∧
      (q.answer (.popDue now)).2.Keeps l' := by
  rw [answer]
  cases hd : q.popDue? now with
  | none =>
    refine ⟨l, .popNone fun w hw => ?_, hq⟩
    have hw := hq.pending.symm.subset hw
    cases hp : q.pending with
    | nil => rw [hp] at hw; cases hw
    | cons v vs =>
      obtain ⟨hv, hall⟩ := hq.first hp
      have hvd : now < v.due := by simpa [popDue?, hp] using hd
      rcases hall w (hq.pending.subset hw) with rfl | hb
      · exact hvd
      · rw [Wait.before_iff] at hb
        omega
  | some done =>
    obtain ⟨w, q'⟩ := done
    obtain ⟨hdue, hp, hid⟩ := popDue?_eq_some_iff.1 hd
    obtain ⟨hw, hall⟩ := hq.first hp
    have hs := Ledger.Step.pop hw hdue fun v hv _ => hall v hv
    refine ⟨_, hs, ?_, ?_, hid.trans hq.nextId, hs.balanced hq.balanced⟩
    · have he := (hq.pending.erase w)
      rwa [hp, List.erase_cons_head] at he
    · exact hq.turn.sublist (popDue?_sublist hd)

/-- One operation is answered as the ledger answers it. -/
theorem Keeps.answer (hq : q.Keeps l) (op : QueueOp) :
    ∃ l', l.Step op (q.answer op).1 l' ∧ (q.answer op).2.Keeps l' :=
  match op with
  | .schedule now delay c => hq.schedule now delay c
  | .cancel id => hq.cancel id
  | .cancelOwner owner => hq.cancelOwner owner
  | .popDue now => hq.popDue now

theorem Keeps.answers (hq : q.Keeps l) (ops : List QueueOp) :
    ∃ l', l.Run ops (answers WaitQueue.answer q ops).1 l' ∧
      (answers WaitQueue.answer q ops).2.Keeps l' := by
  induction ops generalizing q l with
  | nil => exact ⟨l, .nil, hq⟩
  | cons op ops ih =>
    obtain ⟨l1, hs, h1⟩ := hq.answer op
    obtain ⟨l2, hr, h2⟩ := ih h1
    exact ⟨l2, .cons hs hr, h2⟩

end WaitQueue

end MudTrigger
