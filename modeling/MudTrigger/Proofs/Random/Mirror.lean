import MudTrigger.Proofs.Random.Range

/-!
# Sources that mirror each other

Two sources of words mirror each other under a relation of their states if they give the same words
and keep the relation (`Mirrors`). Then every draw answers the same from both and keeps the relation:
the draws that take a word in the end (`Mirrors.number`, `Mirrors.percent`, `Mirrors.choose`) and those
that may refuse words without end (`Source.Draws.mirror`, `Source.Gives.mirror`).
-/

set_option autoImplicit false

namespace MudTrigger

universe u

/-- Two results have the same value, and their states are related. -/
def Mirrored {α : Type u} {σ τ : Type} (R : σ → τ → Prop) (p : α × σ) (q : α × τ) : Prop :=
  p.1 = q.1 ∧ R p.2 q.2

/-- From related states both sources give the same words and get to related states. -/
structure Mirrors {σ τ : Type} (R : σ → τ → Prop) (left : Source σ) (right : Source τ) : Prop where
  word32 : ∀ s t, R s t → Mirrored R (left.word32 s) (right.word32 t)
  word64 : ∀ s t, R s t → Mirrored R (left.word64 s) (right.word64 t)

variable {α β σ τ : Type} {R : σ → τ → Prop} {left : Source σ} {right : Source τ}

theorem Mirrored.map {p : α × σ} {q : α × τ} (f : α → β) (h : Mirrored R p q) :
    Mirrored R (f p.1, p.2) (f q.1, q.2) :=
  ⟨congrArg f h.1, h.2⟩

/-- Both draws refuse the same words. -/
theorem Mirrored.below {bits range : Nat} {next : σ → Nat × σ} {next' : τ → Nat × τ}
    (hnext : ∀ s t, R s t → Mirrored R (next s) (next' t)) (tries : Nat) {s : σ} {t : τ} (h : R s t) :
    Mirrored R (Source.below bits range next tries s) (Source.below bits range next' tries t) := by
  induction tries generalizing s t with
  | zero => exact (hnext s t h).map fun w => (w * range) >>> bits
  | succ tries ih =>
    obtain ⟨hword, hrel⟩ := hnext s t h
    rw [Source.below, Source.below, ← hword]
    split
    · exact ⟨rfl, hrel⟩
    · exact ih hrel

/-- A draw that may refuse words without end refuses as many in both. -/
theorem Source.Draws.mirror {bits range k n : Nat} {next : σ → Nat × σ} {next' : τ → Nat × τ} {s s' : σ}
    {t : τ} (hd : Source.Draws bits range next k s n s')
    (hnext : ∀ s t, R s t → Mirrored R (next s) (next' t)) (h : R s t) :
    ∃ t', Source.Draws bits range next' k t n t' ∧ R s' t' := by
  induction hd generalizing t with
  | @accepted s hacc =>
    obtain ⟨hword, hrel⟩ := hnext s t h
    rw [hword] at hacc ⊢
    exact ⟨_, .accepted hacc, hrel⟩
  | @refused k s n s' hrej _ ih =>
    obtain ⟨hword, hrel⟩ := hnext s t h
    rw [hword] at hrej
    obtain ⟨t', hd, hrel⟩ := ih hrel
    exact ⟨t', .refused hrej hd, hrel⟩

theorem Source.Gives.mirror {low high r : Int} {k : Nat} {s s' : σ} {t : τ}
    (hg : left.Gives low high k s r s') (m : Mirrors R left right) (h : R s t) :
    ∃ t', right.Gives low high k t r t' ∧ R s' t' := by
  cases hg with
  | only hle => exact ⟨t, .only hle, h⟩
  | word hlt hspan =>
    obtain ⟨hword, hrel⟩ := m.word64 s t h
    rw [hword]
    exact ⟨_, .word hlt hspan, hrel⟩
  | drawn hlt hspan hd =>
    obtain ⟨t', hd, hrel⟩ := hd.mirror m.word64 h
    exact ⟨t', .drawn hlt hspan hd, hrel⟩

namespace Mirrors

variable (m : Mirrors R left right) {s : σ} {t : τ} (h : R s t)
include m h

theorem number (low high : Int) : Mirrored R (left.number low high s) (right.number low high t) := by
  rcases Int.lt_or_le low high with hlt | hle
  · by_cases hspan : Source.span low high = 0
    · rw [Source.number_of_span hlt hspan, Source.number_of_span hlt hspan]
      exact Mirrored.map (fun w : Nat => Width.wrap64 w) (m.word64 s t h)
    · rw [Source.number_of_ne hlt hspan, Source.number_of_ne hlt hspan]
      exact Mirrored.map (fun n : Nat => Width.wrap64 (low + n)) (Mirrored.below m.word64 _ h)
  · rw [Source.number_of_le hle, Source.number_of_le hle]
    exact ⟨rfl, h⟩

theorem percent (chance : Int) : Mirrored R (left.percent chance s) (right.percent chance t) := by
  have hnumber := m.number h 1 100
  unfold Source.percent
  generalize left.number 1 100 s = p at hnumber ⊢
  generalize right.number 1 100 t = q at hnumber ⊢
  exact Mirrored.map (fun n => decide (n ≤ chance)) hnumber

theorem place (length : Nat) : Mirrored R (left.place length s) (right.place length t) := by
  unfold Source.place
  split
  · exact Mirrored.below m.word32 _ h
  · exact Mirrored.below m.word64 _ h

theorem choose (xs : List α) : Mirrored R (left.choose xs s) (right.choose xs t) := by
  unfold Source.choose
  split
  · exact ⟨rfl, h⟩
  · exact Mirrored.map (fun n => xs[n]?) (m.place h xs.length)

end Mirrors

end MudTrigger
