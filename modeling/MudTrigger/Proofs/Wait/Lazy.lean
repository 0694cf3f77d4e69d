import MudTrigger.Proofs.Wait.Ledger
import Mathlib.Data.Prod.Lex
import Mathlib.Data.List.Sort

/-!
# Cancelling lazily

A `LazyQueue` has a heap of the numbers and due pulses of its entries, least first, and a record of
each entry that is live. An entry that is cancelled loses its record and stays in the heap;
`popLive` passes over it when its turn comes. So the heap has all live entries and some dead ones
(`LazyQueue.Covers`), and the answers are those of the queue that has only the live ones, and of the
ledger (`queue_answers`).
-/

set_option autoImplicit false

namespace MudTrigger

/-- The place of an entry in the heap: when it is due, and its number. -/
def Wait.key (w : Wait) : Nat ×ₗ WaitId := toLex (w.due, w.id)

theorem Wait.not_before_of_key_le {a b : Wait} (h : a.key ≤ b.key) : ¬ b.before a = true := by
  rw [Prod.Lex.le_iff] at h
  simp only [key, ofLex_toLex, before_iff, WaitId] at h ⊢
  omega

structure LazyQueue where
  heap : List (Nat ×ₗ WaitId) := []
  records : List Wait := []
  nextId : WaitId := 0

namespace LazyQueue

instance : EmptyCollection LazyQueue := ⟨{ heap := [] }⟩

def schedule (q : LazyQueue) (now delay : Nat) (c : Continuation) : WaitId × LazyQueue :=
  let w : Wait := ⟨Width.saturate64 (now + max delay 1), q.nextId, c⟩
  (q.nextId,
    { heap := q.heap.orderedInsert (· ≤ ·) w.key, records := w :: q.records, nextId := q.nextId + 1 })

def find? (q : LazyQueue) (id : WaitId) : Option Wait := q.records.find? (·.id = id)

def get? (q : LazyQueue) (id : WaitId) : Option Continuation := (q.find? id).map (·.continuation)

def dueAt? (q : LazyQueue) (id : WaitId) : Option Nat := (q.find? id).map (·.due)

def size (q : LazyQueue) : Nat := q.records.length

/-- Only the record goes. -/
def cancel (q : LazyQueue) (id : WaitId) : LazyQueue :=
  { q with records := q.records.filter (·.id ≠ id) }

def cancelOwner (q : LazyQueue) (owner : Uid) : LazyQueue :=
  { q with records := q.records.filter (·.continuation.owner ≠ owner) }

/-- Takes keys off the heap up to the first one that has a record, as long as they are due. -/
def popLive (records : List Wait) (now : Nat) :
    List (Nat ×ₗ WaitId) → Option Wait × List (Nat ×ₗ WaitId)
  | [] => (none, [])
  | k :: heap =>
    if now < (ofLex k).1 then (none, k :: heap)
    else
      match records.find? (·.id = (ofLex k).2) with
      | some w => (some w, heap)
      | none => popLive records now heap

def popDue (q : LazyQueue) (now : Nat) : Option Wait × LazyQueue :=
  let found := popLive q.records now q.heap
  (found.1, { q with
    heap := found.2
    records := match found.1 with
      | some w => q.records.filter (·.id ≠ w.id)
      | none => q.records })

def answer (q : LazyQueue) : QueueOp → Answer × LazyQueue
  | .schedule now delay c =>
    let done := q.schedule now delay c
    (.scheduled done.1, done.2)
  | .cancel id => (.cancelled (q.get? id), q.cancel id)
  | .cancelOwner owner => (.dropped (q.size - (q.cancelOwner owner).size), q.cancelOwner owner)
  | .popDue now =>
    let done := q.popDue now
    (.popped (done.1.map fun w => (w.id, w.continuation)), done.2)

/-- The heap has every live entry, and nothing else under the number of one. -/
structure Covers (z : LazyQueue) (q : WaitQueue) : Prop where
  records : z.records.Perm q.pending
  nextId : z.nextId = q.nextId
  sorted : z.heap.Pairwise (· ≤ ·)
  live : ∀ w ∈ q.pending, w.key ∈ z.heap
  below : ∀ k ∈ z.heap, (ofLex k).2 < z.nextId
  due : ∀ k ∈ z.heap, ∀ w ∈ q.pending, w.id = (ofLex k).2 → w.key = k

variable {z : LazyQueue} {q : WaitQueue} {l : Ledger}

theorem covers_empty : (∅ : LazyQueue).Covers ∅ :=
  ⟨.refl _, rfl, .nil, fun _ h => absurd h List.not_mem_nil, fun _ h => absurd h List.not_mem_nil,
    fun _ h => absurd h List.not_mem_nil⟩

/-- Entries may go from the queue, and keys of dead entries from the heap. -/
theorem Covers.sublist {z' : LazyQueue} {q' : WaitQueue} (hz : z.Covers q)
    (hr : z'.records.Perm q'.pending) (hi : z'.nextId = z.nextId) (hn : q'.nextId = q.nextId)
    (hp : q'.pending.Sublist q.pending) (hh : z'.heap.Sublist z.heap)
    (hlive : ∀ w ∈ q'.pending, w.key ∈ z'.heap) : z'.Covers q' where
  records := hr
  nextId := by rw [hi, hz.nextId, hn]
  sorted := hz.sorted.sublist hh
  live := hlive
  below k hk := hi ▸ hz.below k (hh.subset hk)
  due k hk w hw := hz.due k (hh.subset hk) w (hp.subset hw)

theorem Covers.find? (hz : z.Covers q) (hq : q.Keeps l) (id : WaitId) : z.find? id = q.find? id :=
  find?_id_perm hz.records hq.nodup id

theorem Covers.reads (hz : z.Covers q) (hq : q.Keeps l) : l.Reads z.size z.get? z.dueAt? where
  size := hz.records.length_eq.trans hq.pending.length_eq
  get id := by rw [get?, hz.find? hq, hq.find?]
  dueAt id := by rw [dueAt?, hz.find? hq, hq.find?]

theorem Covers.schedule (hz : z.Covers q) (hq : q.Keeps l) (now delay : Nat) (c : Continuation) :
    (z.answer (.schedule now delay c)).1 = (q.answer (.schedule now delay c)).1 ∧
      (z.answer (.schedule now delay c)).2.Covers (q.answer (.schedule now delay c)).2 := by
  have hnew : ∀ w ∈ q.pending, w.id < z.nextId := fun w hw => by
    rw [hz.nextId, hq.nextId]
    exact hq.balanced.lt_of_live (hq.pending.subset hw)
  simp only [answer, WaitQueue.answer, LazyQueue.schedule, WaitQueue.schedule, hz.nextId, true_and]
  rw [hz.nextId] at hnew
  refine ⟨?_, rfl, ?_, ?_, ?_, ?_⟩
  · exact (hz.records.cons _).trans (WaitQueue.insertWait_perm _ _).symm
  · exact hz.sorted.orderedInsert _ _
  · intro w hw
    rw [List.mem_orderedInsert]
    exact (WaitQueue.mem_insertWait.1 hw).imp (congrArg Wait.key) (hz.live w)
  · intro k hk
    rcases (List.mem_orderedInsert _).1 hk with rfl | hk
    · exact Nat.lt_succ_self _
    · exact Nat.lt_succ_of_lt (hz.nextId ▸ hz.below k hk)
  · intro k hk w hw he
    rcases (List.mem_orderedInsert _).1 hk with rfl | hk
    · rcases WaitQueue.mem_insertWait.1 hw with rfl | hw
      · rfl
      · exact absurd (hnew w hw) (he ▸ Nat.lt_irrefl _)
    · rcases WaitQueue.mem_insertWait.1 hw with rfl | hw
      · have := hz.below k hk
        rw [hz.nextId, ← he] at this
        exact absurd this (Nat.lt_irrefl _)
      · exact hz.due k hk w hw he

theorem Covers.cancel (hz : z.Covers q) (hq : q.Keeps l) (id : WaitId) :
    (z.answer (.cancel id)).1 = (q.answer (.cancel id)).1 ∧
      (z.answer (.cancel id)).2.Covers (q.answer (.cancel id)).2 := by
  refine ⟨?_, hz.sublist (hz.records.filter _) rfl rfl (WaitQueue.cancel_sublist id) (.refl _) ?_⟩
  · show Answer.cancelled (z.get? id) = Answer.cancelled (q.get? id)
    rw [get?, WaitQueue.get?, hz.find? hq]
  · exact fun w hw => hz.live w ((WaitQueue.cancel_sublist id).subset hw)

theorem Covers.cancelOwner (hz : z.Covers q) (owner : Uid) :
    (z.answer (.cancelOwner owner)).1 = (q.answer (.cancelOwner owner)).1 ∧
      (z.answer (.cancelOwner owner)).2.Covers (q.answer (.cancelOwner owner)).2 := by
  have hr := hz.records.filter (·.continuation.owner ≠ owner)
  refine ⟨?_, hz.sublist hr rfl rfl (WaitQueue.cancelOwner_sublist owner) (.refl _) ?_⟩
  · show Answer.dropped (_ - _) = Answer.dropped (_ - _)
    rw [size, size, WaitQueue.size, WaitQueue.size, hz.records.length_eq]
    exact congrArg (fun n => Answer.dropped (_ - n)) hr.length_eq
  · exact fun w hw => hz.live w ((WaitQueue.cancelOwner_sublist owner).subset hw)

/-- Dead entries do not hide the first live one, nor end the search before it. -/
theorem popLive_popDue? (now : Nat) (hq : q.Keeps l) {records : List Wait} (hr : records.Perm q.pending)
    {heap : List (Nat ×ₗ WaitId)} (hs : heap.Pairwise (· ≤ ·))
    (hlive : ∀ w ∈ q.pending, w.key ∈ heap)
    (hdue : ∀ k ∈ heap, ∀ w ∈ q.pending, w.id = (ofLex k).2 → w.key = k) :
    (popLive records now heap).1 = (q.popDue? now).map (·.1) ∧
      (popLive records now heap).2.Sublist heap ∧
      ∀ v ∈ q.pending, (∀ w ∈ (q.popDue? now).map (·.1), v ≠ w) →
        v.key ∈ (popLive records now heap).2 := by
  induction heap with
  | nil =>
    have hnil : q.pending = [] := List.eq_nil_iff_forall_not_mem.2 fun w hw =>
      absurd (hlive w hw) List.not_mem_nil
    simp [popLive, WaitQueue.popDue?, hnil]
  | cons k heap ih =>
    obtain ⟨hk, hs'⟩ := List.pairwise_cons.1 hs
    rw [popLive]
    by_cases hnow : now < (ofLex k).1
    · -- The least key is not due, so no live entry is.
      have hnone : q.popDue? now = none := by
        cases hp : q.popDue? now with
        | none => rfl
        | some done =>
          obtain ⟨hd, hp, -⟩ := WaitQueue.popDue?_eq_some_iff.1 hp
          have hm := hlive done.1 (hp ▸ List.mem_cons_self)
          have hle : k ≤ done.1.key := by
            rcases List.mem_cons.1 hm with he | hm
            · exact le_of_eq he.symm
            · exact hk _ hm
          rw [Prod.Lex.le_iff] at hle
          simp only [Wait.key, ofLex_toLex] at hle
          omega
      rw [if_pos hnow, hnone]
      exact ⟨rfl, .refl _, fun v hv _ => hlive v hv⟩
    · rw [if_neg hnow]
      cases hf : records.find? (·.id = (ofLex k).2) with
      | none =>
        -- The key is of a dead entry.
        have hlive' : ∀ w ∈ q.pending, w.key ∈ heap := fun w hw => by
          refine (List.mem_cons.1 (hlive w hw)).resolve_left fun he => ?_
          have := List.find?_eq_none.1 hf w (hr.symm.subset hw)
          simp [← he, Wait.key] at this
        obtain ⟨h1, h2, h3⟩ := ih hs' hlive' fun k' hk' => hdue k' (List.mem_cons_of_mem k hk')
        exact ⟨h1, h2.cons k, h3⟩
      | some w =>
        -- The least key is of a live entry, which is then the first one of the queue.
        have hwk : w.id = (ofLex k).2 := by simpa using List.find?_some hf
        have hw : w ∈ q.pending := hr.subset (List.mem_of_find?_eq_some hf)
        have hkey : w.key = k := hdue k List.mem_cons_self w hw hwk
        have hpop : q.popDue? now = some (w, { q with pending := q.pending.tail }) := by
          cases hp : q.pending with
          | nil => rw [hp] at hw; cases hw
          | cons u us =>
            have hu : u = w := by
              rcases (hq.first hp).2 w (hq.pending.subset hw) with he | hb
              · exact he.symm
              · refine absurd hb (Wait.not_before_of_key_le ?_)
                rw [hkey]
                rcases List.mem_cons.1 (hlive u (hp ▸ List.mem_cons_self)) with he | hm
                · exact le_of_eq he.symm
                · exact hk _ hm
            have hd : w.due ≤ now := by
              rw [← hkey] at hnow
              exact Nat.not_lt.1 hnow
            exact WaitQueue.popDue?_eq_some_iff.2 ⟨hd, by rw [hp, hu]; rfl, rfl⟩
        rw [hpop]
        refine ⟨rfl, List.sublist_cons_self k heap, fun v hv hne => ?_⟩
        refine (List.mem_cons.1 (hlive v hv)).resolve_left fun he => hne w rfl ?_
        have hid : v.id = w.id := congrArg (fun x => (ofLex x).2) (he.trans hkey.symm)
        exact List.inj_on_of_nodup_map hq.nodup hv hw hid

theorem Covers.popDue (hz : z.Covers q) (hq : q.Keeps l) (now : Nat) :
    (z.answer (.popDue now)).1 = (q.answer (.popDue now)).1 ∧
      (z.answer (.popDue now)).2.Covers (q.answer (.popDue now)).2 := by
  obtain ⟨hfound, hsub, hkept⟩ := popLive_popDue? now hq hz.records hz.sorted hz.live hz.due
  simp only [answer, WaitQueue.answer, LazyQueue.popDue, hfound]
  cases hp : q.popDue? now with
  | none =>
    rw [hp] at hkept
    exact ⟨rfl, hz.sublist hz.records rfl rfl (.refl _) hsub fun w hw => hkept w hw fun _ h => by cases h⟩
  | some done =>
    obtain ⟨w, q'⟩ := done
    rw [hp] at hkept
    obtain ⟨-, hpend, hid⟩ := WaitQueue.popDue?_eq_some_iff.1 hp
    have hn := hq.nodup
    rw [hpend, List.map_cons, List.nodup_cons] at hn
    have hne : ∀ v ∈ q'.pending, v.id ≠ w.id := fun v hv he => hn.1 (he ▸ List.mem_map_of_mem hv)
    have hr : (z.records.filter (·.id ≠ w.id)).Perm q'.pending := by
      refine (hz.records.filter _).trans (.of_eq ?_)
      rw [hpend, List.filter_cons_of_neg (by simp), List.filter_eq_self]
      exact fun v hv => by simpa using hne v hv
    refine ⟨rfl, hz.sublist hr rfl hid (WaitQueue.popDue?_sublist hp) hsub fun v hv => ?_⟩
    refine hkept v (hpend ▸ List.mem_cons_of_mem w hv) fun u hu he => hne v hv ?_
    have hwu : w = u := Option.some.inj hu
    rw [he, hwu]

/-- One operation is answered as the queue of the live entries answers it. -/
theorem Covers.answer (hz : z.Covers q) (hq : q.Keeps l) (op : QueueOp) :
    (z.answer op).1 = (q.answer op).1 ∧ (z.answer op).2.Covers (q.answer op).2 :=
  match op with
  | .schedule now delay c => hz.schedule hq now delay c
  | .cancel id => hz.cancel hq id
  | .cancelOwner owner => hz.cancelOwner owner
  | .popDue now => hz.popDue hq now

theorem Covers.answers (hz : z.Covers q) (hq : q.Keeps l) (ops : List QueueOp) :
    (answers LazyQueue.answer z ops).1 = (answers WaitQueue.answer q ops).1 ∧
      (answers LazyQueue.answer z ops).2.Covers (answers WaitQueue.answer q ops).2 := by
  induction ops generalizing z q l with
  | nil => exact ⟨rfl, hz⟩
  | cons op ops ih =>
    obtain ⟨ha, hz1⟩ := hz.answer hq op
    obtain ⟨l1, -, hq1⟩ := hq.answer op
    obtain ⟨has, hz2⟩ := ih hz1 hq1
    refine ⟨?_, hz2⟩
    rw [MudTrigger.answers, MudTrigger.answers, ha, has]

end LazyQueue

/-- The queue answers every sequence of operations as a plain list of its live entries does, and so does
the queue that cancels lazily. Each entry that was scheduled is live, was taken out or was cancelled:
none is lost, taken out twice, or taken out after it was cancelled. -/
theorem queue_answers (ops : List QueueOp) :
    let queue := answers WaitQueue.answer ∅ ops
    let lazily := answers LazyQueue.answer ∅ ops
    ∃ l, Ledger.Run ∅ ops queue.1 l ∧ lazily.1 = queue.1 ∧
      l.Reads queue.2.size queue.2.get? queue.2.dueAt? ∧
      l.Reads lazily.2.size lazily.2.get? lazily.2.dueAt? ∧
      l.Balanced ∧ Answer.taken queue.1 = l.popped.map (fun w => (w.id, w.continuation)) ∧
      ((Answer.taken queue.1).map (·.1)).Nodup ∧
      ∀ w ∈ l.cancelled, w.id ∉ (Answer.taken queue.1).map (·.1) := by
  obtain ⟨l, hr, hq⟩ := WaitQueue.keeps_empty.answers ops
  obtain ⟨ha, hz⟩ := LazyQueue.covers_empty.answers WaitQueue.keeps_empty ops
  have hl := hr.balanced Ledger.balanced_empty
  have ht : Answer.taken (answers WaitQueue.answer ∅ ops).1 =
      l.popped.map fun w => (w.id, w.continuation) := hr.taken.symm
  have hids : (Answer.taken (answers WaitQueue.answer ∅ ops).1).map (·.1) = l.popped.map (·.id) := by
    rw [ht, List.map_map]
    rfl
  have hn := hl.nodup
  rw [List.map_append, List.nodup_append, List.map_append, List.nodup_append] at hn
  refine ⟨l, hr, ha, hq.reads, hz.reads hq, hl, ht, hids ▸ hn.1.2.1, fun w hw hm => ?_⟩
  rw [hids] at hm
  exact hn.2.2 _ (List.mem_append_right _ hm) _ (List.mem_map_of_mem hw) rfl

end MudTrigger
