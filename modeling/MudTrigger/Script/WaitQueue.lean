import MudTrigger.Entity.Uid
import MudTrigger.Data.Width

/-!
# Suspended runs

A run that waits leaves a `Continuation`: which trigger resumes, whose it is, and at which line. The
queue keeps the pending ones in the order in which they come due; those due at the same pulse are in
the order of their numbers, that is, in the order in which they were scheduled.
-/

set_option autoImplicit false

namespace MudTrigger

/-- Why a run was suspended. -/
inductive WaitKind where
  /-- By a `wait` command, or by a loop that yields. -/
  | wait
  /-- Because its owner could not act; the line is tried again. -/
  | casting
  deriving DecidableEq, Inhabited

/-- Where and how a suspended run goes on. -/
structure Continuation where
  trigger : Handle
  owner : Uid
  resumeAt : Nat
  kind : WaitKind
  deriving DecidableEq, Inhabited

/-- The number of a scheduled continuation. -/
abbrev WaitId := Nat

/-- The text form of a number, as in `W3`. -/
def WaitId.text (id : WaitId) : String := "W" ++ toString id

/-- A pending continuation with the pulse at which it is due. -/
structure Wait where
  due : Nat
  id : WaitId
  continuation : Continuation
  deriving DecidableEq, Inhabited

/-- Earlier in the queue: due before, or due at the same pulse and scheduled before. -/
def Wait.before (a b : Wait) : Bool := a.due < b.due || (a.due == b.due && a.id < b.id)

structure WaitQueue where
  pending : List Wait := []
  nextId : WaitId := 0
  deriving DecidableEq

namespace WaitQueue

instance : EmptyCollection WaitQueue := ⟨{ pending := [] }⟩

instance : Inhabited WaitQueue := ⟨∅⟩

/-- Puts an entry before the first one that it precedes. -/
def insertWait (w : Wait) : List Wait → List Wait
  | [] => [w]
  | v :: vs => if w.before v then w :: v :: vs else v :: insertWait w vs

/-- Schedules a continuation for `delay` pulses after `now`, and for at least one. -/
def schedule (q : WaitQueue) (now delay : Nat) (c : Continuation) : WaitId × WaitQueue :=
  let w : Wait := ⟨Width.saturate64 (now + max delay 1), q.nextId, c⟩
  (q.nextId, { pending := insertWait w q.pending, nextId := q.nextId + 1 })

def find? (q : WaitQueue) (id : WaitId) : Option Wait := q.pending.find? (·.id = id)

def get? (q : WaitQueue) (id : WaitId) : Option Continuation := (q.find? id).map (·.continuation)

/-- The pulse at which a pending continuation is due. -/
def dueAt? (q : WaitQueue) (id : WaitId) : Option Nat := (q.find? id).map (·.due)

def cancel (q : WaitQueue) (id : WaitId) : WaitQueue :=
  { q with pending := q.pending.filter (·.id ≠ id) }

/-- Drops every continuation of an owner. -/
def cancelOwner (q : WaitQueue) (owner : Uid) : WaitQueue :=
  { q with pending := q.pending.filter (·.continuation.owner ≠ owner) }

/-- Takes the first continuation out if it is due at `now`. -/
def popDue? (q : WaitQueue) (now : Nat) : Option (Wait × WaitQueue) :=
  match q.pending with
  | [] => none
  | w :: ws => if w.due ≤ now then some (w, { q with pending := ws }) else none

def size (q : WaitQueue) : Nat := q.pending.length

def isEmpty (q : WaitQueue) : Bool := q.pending.isEmpty

/-! ## What the operations do to the pending entries -/

theorem mem_insertWait {w v : Wait} {ws : List Wait} : v ∈ insertWait w ws ↔ v = w ∨ v ∈ ws := by
  induction ws with
  | nil => simp [insertWait]
  | cons x xs ih =>
    unfold insertWait
    split
    · simp
    · simp only [List.mem_cons, ih]
      exact or_left_comm

/-- Scheduling adds one entry, under the next number. -/
theorem mem_schedule {q : WaitQueue} {now delay : Nat} {c : Continuation} {w : Wait} :
    w ∈ (q.schedule now delay c).2.pending ↔
      w = ⟨Width.saturate64 (now + max delay 1), q.nextId, c⟩ ∨ w ∈ q.pending :=
  mem_insertWait

theorem mem_cancel {q : WaitQueue} {id : WaitId} {w : Wait} :
    w ∈ (q.cancel id).pending ↔ w ∈ q.pending ∧ w.id ≠ id := by
  simp [cancel]

theorem mem_cancelOwner {q : WaitQueue} {owner : Uid} {w : Wait} :
    w ∈ (q.cancelOwner owner).pending ↔ w ∈ q.pending ∧ w.continuation.owner ≠ owner := by
  simp [cancelOwner]

/-- An entry is taken only from the front of the queue, and only if it is due. -/
theorem popDue?_eq_some_iff {q r : WaitQueue} {now : Nat} {w : Wait} :
    q.popDue? now = some (w, r) ↔
      w.due ≤ now ∧ q.pending = w :: r.pending ∧ r.nextId = q.nextId := by
  obtain ⟨pending, nextId⟩ := q
  obtain ⟨rest, nextId'⟩ := r
  cases pending with
  | nil => simp [popDue?]
  | cons v vs =>
    simp only [popDue?, Option.ite_none_right_eq_some, Option.some.injEq, Prod.mk.injEq,
      WaitQueue.mk.injEq, List.cons.injEq]
    grind

end WaitQueue

end MudTrigger
