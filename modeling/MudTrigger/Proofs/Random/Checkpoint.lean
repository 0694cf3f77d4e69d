import MudTrigger.Proofs.Random.Window

/-!
# Checkpoints of the generator

A checkpoint of a generator that makes words ahead is a seed and a word count. Whatever calls have been
made, the generator that is restored from it answers all further calls as the original does
(`restore_state_answers`): both show the stream of the same dice, and each call keeps that
(`Mirrors.answers`, and `Replies.mirror` for calls whose draws may refuse words without end).
-/

set_option autoImplicit false

namespace MudTrigger

/-- A call of the generator. -/
inductive Roll : Type 1
  | number (low high : Int64)
  | percent (chance : Int32)
  | choose {α : Type} (xs : List α)

/-- What the call answers. -/
def Roll.Answer : Roll → Type
  | .number _ _ => Int
  | .percent _ => Bool
  | @Roll.choose α _ => Option α

namespace Source

variable {σ : Type}

def answer (src : Source σ) : (roll : Roll) → σ → roll.Answer × σ
  | .number low high, s => src.number low.toInt high.toInt s
  | .percent chance, s => src.percent chance.toInt s
  | .choose xs, s => src.choose xs s

/-- Each call with its answer. -/
def answers (src : Source σ) : List Roll → σ → List (Σ roll : Roll, roll.Answer) × σ
  | [], s => ([], s)
  | roll :: rolls, s =>
    let first := src.answer roll s
    let rest := src.answers rolls first.2
    (⟨roll, first.1⟩ :: rest.1, rest.2)

/-- The place of an element in a list of this length, however many words are refused. -/
def Places (src : Source σ) (length : Nat) (s : σ) (n : Nat) (s' : σ) : Prop :=
  if length < 0x1_0000_0000 then ∃ k, Draws 32 length src.word32 k s n s'
  else ∃ k, Draws 64 length src.word64 k s n s'

/-- The answers to calls whose draws refuse words until one is accepted; there are none if some draw
refuses words for ever. -/
inductive Replies (src : Source σ) : List Roll → σ → List (Σ roll : Roll, roll.Answer) → σ → Prop
  | done {s : σ} : Replies src [] s [] s
  | number {rolls answers} {s s' s'' : σ} {low high : Int64} {r : Int} :
    (∃ k, src.Gives low.toInt high.toInt k s r s') → Replies src rolls s' answers s'' →
    Replies src (.number low high :: rolls) s (⟨.number low high, r⟩ :: answers) s''
  | percent {rolls answers} {s s' s'' : σ} {chance : Int32} {r : Int} :
    (∃ k, src.Gives 1 100 k s r s') → Replies src rolls s' answers s'' →
    Replies src (.percent chance :: rolls) s (⟨.percent chance, decide (r ≤ chance.toInt)⟩ :: answers) s''
  | empty {rolls answers} {s s' : σ} {α : Type} : Replies src rolls s answers s' →
    Replies src (@Roll.choose α [] :: rolls) s (⟨@Roll.choose α [], (none : Option α)⟩ :: answers) s'
  | choose {rolls answers} {s s' s'' : σ} {α : Type} {xs : List α} {n : Nat} : xs ≠ [] →
    src.Places xs.length s n s' → Replies src rolls s' answers s'' →
    Replies src (.choose xs :: rolls) s (⟨.choose xs, xs[n]?⟩ :: answers) s''

end Source

section

variable {σ τ : Type} {R : σ → τ → Prop} {left : Source σ} {right : Source τ}
  (m : Mirrors R left right)
include m

theorem Mirrors.answer {s : σ} {t : τ} (roll : Roll) (h : R s t) :
    Mirrored R (left.answer roll s) (right.answer roll t) := by
  cases roll with
  | number low high => exact m.number h _ _
  | percent chance => exact m.percent h _
  | choose xs => exact m.choose h xs

theorem Mirrors.answers {s : σ} {t : τ} (rolls : List Roll) (h : R s t) :
    Mirrored R (left.answers rolls s) (right.answers rolls t) := by
  induction rolls generalizing s t with
  | nil => exact ⟨rfl, h⟩
  | cons roll rolls ih =>
    obtain ⟨hfirst, hrel⟩ := m.answer roll h
    obtain ⟨hrest, hrel⟩ := ih hrel
    refine ⟨?_, hrel⟩
    rw [Source.answers, Source.answers, hfirst, hrest]

theorem Source.Places.mirror {length n : Nat} {s s' : σ} {t : τ} (hp : left.Places length s n s')
    (h : R s t) : ∃ t', right.Places length t n t' ∧ R s' t' := by
  unfold Source.Places at hp ⊢
  by_cases hlength : length < 0x1_0000_0000
  · simp only [if_pos hlength] at hp ⊢
    obtain ⟨k, hd⟩ := hp
    obtain ⟨t', hd, hrel⟩ := hd.mirror m.word32 h
    exact ⟨t', ⟨k, hd⟩, hrel⟩
  · simp only [if_neg hlength] at hp ⊢
    obtain ⟨k, hd⟩ := hp
    obtain ⟨t', hd, hrel⟩ := hd.mirror m.word64 h
    exact ⟨t', ⟨k, hd⟩, hrel⟩

theorem Source.Replies.mirror {rolls : List Roll} {answers} {s s' : σ} {t : τ}
    (hr : left.Replies rolls s answers s') (h : R s t) :
    ∃ t', right.Replies rolls t answers t' ∧ R s' t' := by
  induction hr generalizing t with
  | done => exact ⟨t, .done, h⟩
  | number hg _ ih =>
    obtain ⟨k, hg⟩ := hg
    obtain ⟨t₁, hg, hrel⟩ := hg.mirror m h
    obtain ⟨t', hr, hrel⟩ := ih hrel
    exact ⟨t', .number ⟨k, hg⟩ hr, hrel⟩
  | percent hg _ ih =>
    obtain ⟨k, hg⟩ := hg
    obtain ⟨t₁, hg, hrel⟩ := hg.mirror m h
    obtain ⟨t', hr, hrel⟩ := ih hrel
    exact ⟨t', .percent ⟨k, hg⟩ hr, hrel⟩
  | empty _ ih =>
    obtain ⟨t', hr, hrel⟩ := ih h
    exact ⟨t', .empty hr, hrel⟩
  | choose hne hp _ ih =>
    obtain ⟨t₁, hp, hrel⟩ := hp.mirror m h
    obtain ⟨t', hr, hrel⟩ := ih hrel
    exact ⟨t', .choose hne hp hr, hrel⟩

end

namespace Window

/-- Windows that show the same stream have the same replies, and the states after them are the same. -/
theorem Twins.replies_iff {w v : Window} (h : w.Twins v) {rolls : List Roll} {answers} {saved : Dice} :
    (∃ w', source.Replies rolls w answers w' ∧ w'.state = saved) ↔
      ∃ v', source.Replies rolls v answers v' ∧ v'.state = saved := by
  suffices half : ∀ {w v : Window}, w.Twins v →
      (∃ w', source.Replies rolls w answers w' ∧ w'.state = saved) →
        ∃ v', source.Replies rolls v answers v' ∧ v'.state = saved from ⟨half h, half h.symm⟩
  rintro w v h ⟨w', hr, rfl⟩
  obtain ⟨v', hr, htwins⟩ := hr.mirror twins h
  exact ⟨v', hr, htwins.state_eq.symm⟩

end Window

/-- Whatever a fresh generator has been called for, its checkpoint is its seed with its word count, and
the generator that is restored from it gives the same answers to all further calls as the original, as
do the dice with that count. -/
theorem restore_state_answers (seed : UInt64) (before after : List Roll) :
    let d := (Dice.source.answers before (.ofSeed seed)).2
    let w := (Window.source.answers before (.ofSeed seed)).2
    let restored := Window.restore w.state
    (w.state = d ∧ restored.state = d ∧ Dice.resume d.seed d.taken = d) ∧
    (Window.source.answers after restored).1 = (Window.source.answers after w).1 ∧
    (Window.source.answers after restored).2.state = (Window.source.answers after w).2.state ∧
    (Dice.source.answers after d).1 = (Window.source.answers after w).1 ∧
    (Dice.source.answers after d).2 = (Window.source.answers after w).2.state ∧
    ∀ replies w, Window.source.Replies before (.ofSeed seed) replies w → ∀ further saved,
      (∃ v, Window.source.Replies after (.restore w.state) further v ∧ v.state = saved) ↔
        ∃ v, Window.source.Replies after w further v ∧ v.state = saved := by
  intro d w restored
  have hshows : w.Shows d := (Window.mirrors.answers before (Window.shows_ofSeed seed)).2
  have hrestored : restored.Shows d := hshows.restore
  obtain ⟨hsame, hafter⟩ := Window.mirrors.answers after hshows
  obtain ⟨hsame', hafter'⟩ := Window.mirrors.answers after hrestored
  refine ⟨⟨hshows.state_eq, hrestored.state_eq, hshows.resume_eq⟩, hsame'.trans hsame.symm,
    hafter'.state_eq.trans hafter.state_eq.symm, hsame.symm, hafter.state_eq.symm,
    fun replies w hr further saved => ?_⟩
  obtain ⟨d, -, hshows⟩ := hr.mirror Window.mirrors (Window.shows_ofSeed seed)
  exact Window.Twins.replies_iff ⟨d, hshows.restore, hshows⟩

end MudTrigger
