import MudTrigger.Script.Compile
import Mathlib.Data.List.Nodup

/-!
# Which line closes which block

Keywords open and close blocks like brackets, and each kind of `Brackets` is matched without regard
to the other. `Closes b ks j i` says which line closes which, in words that mention no stack: line
`j` closes the nearest line before it that opens a block and that no line before `j` closes. What is
open at a line (`IsOpen`), and the nearest of it (`Nearest`), are said in the same words.

`openLines` is the stack of the open lines. It holds just what is open (`mem_openLines`), the nearest
first (`openLines_sorted`), so that the nearest open line is the first on the stack that fits
(`find?_openLines`).
-/

set_option autoImplicit false

namespace MudTrigger

namespace Keyword

def opensIf : Keyword → Bool
  | ifThen _ => true
  | _ => false

def closesIf : Keyword → Bool
  | endIf => true
  | _ => false

/-- Begins a further clause of an `if` block. -/
def isBranch : Keyword → Bool
  | elseIf _ => true
  | elseThen => true
  | _ => false

def isWhile : Keyword → Bool
  | whileDo _ => true
  | _ => false

def isSwitch : Keyword → Bool
  | switchOn _ => true
  | _ => false

def opensLoop (k : Keyword) : Bool := k.isWhile || k.isSwitch

def closesLoop : Keyword → Bool
  | done => true
  | _ => false

def isArm : Keyword → Bool
  | caseOf _ => true
  | default => true
  | _ => false

def isBreak : Keyword → Bool
  | breakOut => true
  | _ => false

end Keyword

/-- A kind of blocks, by the keywords that open and close one. -/
structure Brackets where
  opens : Keyword → Bool
  closes : Keyword → Bool
  apart : ∀ k, opens k = true → closes k = false

namespace Brackets

/-- `if` and `end`. -/
def ifs : Brackets where
  opens := Keyword.opensIf
  closes := Keyword.closesIf
  apart k h := by cases k <;> first | rfl | cases h

/-- `while` or `switch`, and `done`. -/
def loops : Brackets where
  opens := Keyword.opensLoop
  closes := Keyword.closesLoop
  apart k h := by cases k <;> first | rfl | cases h

end Brackets

/-- Line `i` has a keyword of this kind. -/
def LineIs (ks : List Keyword) (i : Nat) (p : Keyword → Bool) : Prop := ks[i]?.any p = true

instance (ks : List Keyword) (i : Nat) (p : Keyword → Bool) : Decidable (LineIs ks i p) :=
  inferInstanceAs (Decidable (_ = true))

/-- Line `j` closes the block that line `i` opens: the nearest one before it that no line before it
closes. -/
def Closes (b : Brackets) (ks : List Keyword) (j i : Nat) : Prop :=
  LineIs ks j b.closes ∧ i < j ∧ LineIs ks i b.opens ∧ (∀ j', j' < j → ¬ Closes b ks j' i) ∧
    ∀ i', i < i' → i' < j → LineIs ks i' b.opens → ∃ j', ∃ _ : j' < j, Closes b ks j' i'
termination_by j

/-- Line `i` opens a block that no line before line `n` closes. -/
def IsOpen (b : Brackets) (ks : List Keyword) (n i : Nat) : Prop :=
  i < n ∧ LineIs ks i b.opens ∧ ∀ j, j < n → ¬ Closes b ks j i

/-- Line `i` is the nearest of the open lines before line `n` that have a keyword of this kind. -/
def Nearest (b : Brackets) (ks : List Keyword) (p : Keyword → Bool) (n i : Nat) : Prop :=
  IsOpen b ks n i ∧ LineIs ks i p ∧ ∀ i', i < i' → LineIs ks i' p → ¬ IsOpen b ks n i'

/-- The lines that open blocks which are still open at line `n`, the nearest first. -/
def openLines (b : Brackets) (ks : List Keyword) : Nat → List Nat
  | 0 => []
  | n + 1 => match ks[n]? with
    | none => openLines b ks n
    | some k =>
      if b.opens k then n :: openLines b ks n
      else if b.closes k then (openLines b ks n).tail
      else openLines b ks n

section

variable {b : Brackets} {ks : List Keyword} {p q : Keyword → Bool} {n i i' j j' : Nat} {k : Keyword}

theorem lineIs_iff : LineIs ks i p ↔ ∃ k, ks[i]? = some k ∧ p k = true :=
  Option.any_eq_true _ _

theorem lineIs_of (hk : ks[i]? = some k) : LineIs ks i p ↔ p k = true := by
  rw [LineIs, hk, Option.any_some]

/-- A line does not have keywords of two kinds that exclude each other. -/
theorem LineIs.apart (h : LineIs ks i p) (h' : LineIs ks i q)
    (hpq : ∀ k, p k = true → q k = false) : False := by
  obtain ⟨k, hk, hp⟩ := lineIs_iff.1 h
  have hq := (lineIs_of hk).1 h'
  rw [hpq k hp] at hq
  cases hq

theorem lt_of_lineIs (h : LineIs ks i p) : i < ks.length := by
  obtain ⟨k, hk, -⟩ := lineIs_iff.1 h
  exact (List.getElem?_eq_some_iff.1 hk).1

/-! ## What is closed and what is open -/

theorem closes_iff : Closes b ks j i ↔ LineIs ks j b.closes ∧ Nearest b ks b.opens j i := by
  rw [Closes]
  constructor
  · rintro ⟨hc, hlt, ho, hnot, hbetween⟩
    refine ⟨hc, ⟨hlt, ho, hnot⟩, ho, fun i' hi ho' hopen => ?_⟩
    obtain ⟨j', hj, hj'⟩ := hbetween i' hi hopen.1 ho'
    exact hopen.2.2 j' hj hj'
  · rintro ⟨hc, ⟨hlt, ho, hnot⟩, -, hnearest⟩
    refine ⟨hc, hlt, ho, hnot, fun i' hi hij ho' => ?_⟩
    by_contra hall
    exact hnearest i' hi ho' ⟨hij, ho', fun j' hj hj' => hall ⟨j', hj, hj'⟩⟩

theorem Closes.lt (h : Closes b ks j i) : i < j := (closes_iff.1 h).2.1.1

theorem Closes.opens (h : Closes b ks j i) : LineIs ks i b.opens := (closes_iff.1 h).2.2.1

theorem Closes.closes (h : Closes b ks j i) : LineIs ks j b.closes := (closes_iff.1 h).1

/-- A block is closed once. -/
theorem Closes.unique (h : Closes b ks j i) (h' : Closes b ks j' i) : j = j' := by
  rcases Nat.lt_trichotomy j j' with hlt | he | hgt
  · exact absurd h ((closes_iff.1 h').2.1.2.2 j hlt)
  · exact he
  · exact absurd h' ((closes_iff.1 h).2.1.2.2 j' hgt)

theorem Nearest.unique (h : Nearest b ks p n i) (h' : Nearest b ks p n i') : i = i' := by
  rcases Nat.lt_trichotomy i i' with hlt | he | hgt
  · exact absurd h'.1 (h.2.2 i' hlt h'.2.1)
  · exact he
  · exact absurd h.1 (h'.2.2 i hgt h.2.1)

theorem Nearest.lt (h : Nearest b ks p n i) : i < n := h.1.1

/-- What the next line leaves open. -/
theorem isOpen_succ (hk : ks[n]? = some k) :
    IsOpen b ks (n + 1) i ↔
      i = n ∧ b.opens k = true ∨ IsOpen b ks n i ∧ ¬ Closes b ks n i := by
  constructor
  · rintro ⟨hlt, ho, hnot⟩
    rcases Nat.lt_or_eq_of_le (Nat.le_of_lt_succ hlt) with hlt | rfl
    · exact .inr ⟨⟨hlt, ho, fun j hj => hnot j (Nat.lt_succ_of_lt hj)⟩, hnot n (Nat.lt_succ_self n)⟩
    · exact .inl ⟨rfl, (lineIs_of hk).1 ho⟩
  · rintro (⟨rfl, ho⟩ | ⟨⟨hlt, ho, hnot⟩, hn⟩)
    · exact ⟨Nat.lt_succ_self i, (lineIs_of hk).2 ho, fun j hj hc =>
        absurd hc.lt (Nat.not_lt.2 (Nat.le_of_lt_succ hj))⟩
    · refine ⟨Nat.lt_succ_of_lt hlt, ho, fun j hj => ?_⟩
      rcases Nat.lt_or_eq_of_le (Nat.le_of_lt_succ hj) with hj | rfl
      · exact hnot j hj
      · exact hn

/-! ## The stack of the open lines -/

theorem openLines_opens (hk : ks[n]? = some k) (ho : b.opens k = true) :
    openLines b ks (n + 1) = n :: openLines b ks n := by
  simp only [openLines, hk, ho, if_true]

theorem openLines_closes (hk : ks[n]? = some k) (hc : b.closes k = true) :
    openLines b ks (n + 1) = (openLines b ks n).tail := by
  have ho : b.opens k = false := by
    cases ho : b.opens k with
    | false => rfl
    | true => rw [b.apart k ho] at hc; cases hc
  simp only [openLines, hk, ho, hc, if_true, Bool.false_eq_true, if_false]

theorem openLines_keeps (hk : ks[n]? = some k) (ho : b.opens k = false) (hc : b.closes k = false) :
    openLines b ks (n + 1) = openLines b ks n := by
  simp only [openLines, hk, ho, hc, Bool.false_eq_true, if_false]

theorem lt_of_mem_openLines (h : i ∈ openLines b ks n) : i < n := by
  induction n with
  | zero => cases h
  | succ n ih =>
    unfold openLines at h
    split at h
    · exact Nat.lt_succ_of_lt (ih h)
    · split at h
      · rcases List.mem_cons.1 h with rfl | h
        · exact Nat.lt_succ_self _
        · exact Nat.lt_succ_of_lt (ih h)
      · split at h
        · exact Nat.lt_succ_of_lt (ih (List.mem_of_mem_tail h))
        · exact Nat.lt_succ_of_lt (ih h)

theorem openLines_sorted (b : Brackets) (ks : List Keyword) (n : Nat) :
    (openLines b ks n).Pairwise (· > ·) := by
  induction n with
  | zero => exact .nil
  | succ n ih =>
    unfold openLines
    split
    · exact ih
    · split
      · exact List.pairwise_cons.2 ⟨fun i hi => lt_of_mem_openLines hi, ih⟩
      · split
        · exact ih.tail
        · exact ih

/-- In a decreasing list the first element that fits is the greatest. -/
theorem find?_eq_some_of_sorted {l : List Nat} (hl : l.Pairwise (· > ·)) (f : Nat → Bool) :
    l.find? f = some i ↔ i ∈ l ∧ f i = true ∧ ∀ i' ∈ l, i < i' → f i' = false := by
  induction l with
  | nil => simp
  | cons a l ih =>
    obtain ⟨ha, hl⟩ := List.pairwise_cons.1 hl
    cases hf : f a with
    | true =>
      rw [List.find?_cons_of_pos hf, Option.some.injEq]
      constructor
      · rintro rfl
        refine ⟨List.mem_cons_self, hf, fun i' hi' hlt => ?_⟩
        rcases List.mem_cons.1 hi' with rfl | hi'
        · exact absurd hlt (Nat.lt_irrefl _)
        · exact absurd hlt (Nat.not_lt.2 (Nat.le_of_lt (ha i' hi')))
      · rintro ⟨hi, -, hall⟩
        rcases List.mem_cons.1 hi with rfl | hi
        · rfl
        · rw [hall a List.mem_cons_self (ha i hi)] at hf
          cases hf
    | false =>
      rw [List.find?_cons_of_neg (by rw [hf]; exact Bool.false_ne_true), ih hl]
      constructor
      · rintro ⟨hi, hfi, hall⟩
        refine ⟨List.mem_cons_of_mem _ hi, hfi, fun i' hi' hlt => ?_⟩
        rcases List.mem_cons.1 hi' with rfl | hi'
        · exact hf
        · exact hall i' hi' hlt
      · rintro ⟨hi, hfi, hall⟩
        rcases List.mem_cons.1 hi with rfl | hi
        · rw [hf] at hfi
          cases hfi
        · exact ⟨hi, hfi, fun i' hi' => hall i' (List.mem_cons_of_mem _ hi')⟩

/-- The stack holds what is open. -/
theorem mem_openLines : i ∈ openLines b ks n ↔ IsOpen b ks n i := by
  induction n generalizing i with
  | zero => exact ⟨fun h => absurd h List.not_mem_nil, fun h => absurd h.1 (Nat.not_lt_zero i)⟩
  | succ n ih =>
    cases hk : ks[n]? with
    | none =>
      have hno : ∀ p, ¬ LineIs ks n p := fun p hp => by
        rw [LineIs, hk] at hp
        cases hp
      rw [show openLines b ks (n + 1) = openLines b ks n by simp only [openLines, hk], ih]
      constructor
      · rintro ⟨hlt, ho, hnot⟩
        refine ⟨Nat.lt_succ_of_lt hlt, ho, fun j hj hc => ?_⟩
        rcases Nat.lt_or_eq_of_le (Nat.le_of_lt_succ hj) with hj | rfl
        · exact hnot j hj hc
        · exact hno _ hc.closes
      · rintro ⟨hlt, ho, hnot⟩
        refine ⟨?_, ho, fun j hj => hnot j (Nat.lt_succ_of_lt hj)⟩
        exact Nat.lt_of_le_of_ne (Nat.le_of_lt_succ hlt) fun he => hno _ (he ▸ ho)
    | some k =>
      rw [isOpen_succ hk]
      cases ho : b.opens k with
      | true =>
        have hc : ¬ Closes b ks n i := fun hc => by
          have hck := (lineIs_of hk).1 hc.closes
          rw [b.apart k ho] at hck
          cases hck
        rw [openLines_opens hk ho, List.mem_cons, ih]
        simp only [and_true, hc, not_false_eq_true]
      | false =>
        simp only [Bool.false_eq_true, and_false, false_or]
        cases hc : b.closes k with
        | false =>
          have hn : ¬ Closes b ks n i := fun h => by
            have hck := (lineIs_of hk).1 h.closes
            rw [hc] at hck
            cases hck
          rw [openLines_keeps hk ho hc, ih]
          exact (and_iff_left hn).symm
        | true =>
          -- The line closes the first of the stack, which is the nearest by order.
          have hsorted := openLines_sorted b ks n
          rw [openLines_closes hk hc, closes_iff]
          cases hs : openLines b ks n with
          | nil =>
            rw [hs] at ih
            exact ⟨fun h => absurd h List.not_mem_nil, fun h => absurd (ih.2 h.1) List.not_mem_nil⟩
          | cons a rest =>
            rw [hs] at ih hsorted
            obtain ⟨hgt, -⟩ := List.pairwise_cons.1 hsorted
            have ha : IsOpen b ks n a := ih.1 List.mem_cons_self
            have hna : Nearest b ks b.opens n a := ⟨ha, ha.2.1, fun i' hlt _ hi' => by
              rcases List.mem_cons.1 (ih.2 hi') with rfl | hmem
              · exact Nat.lt_irrefl _ hlt
              · exact Nat.lt_asymm hlt (hgt i' hmem)⟩
            rw [List.tail_cons]
            constructor
            · intro hi
              refine ⟨ih.1 (List.mem_cons_of_mem _ hi), fun h => ?_⟩
              exact Nat.lt_irrefl i (Nat.lt_of_lt_of_eq (hgt i hi) (hna.unique h.2))
            · rintro ⟨hopen, hnot⟩
              rcases List.mem_cons.1 (ih.2 hopen) with rfl | hi
              · exact absurd ⟨(lineIs_of hk).2 hc, hna⟩ hnot
              · exact hi

/-- The nearest open line of a kind is the first of the stack that fits. -/
theorem find?_openLines :
    (openLines b ks n).find? (fun i => ks[i]?.any p) = some i ↔ Nearest b ks p n i := by
  rw [find?_eq_some_of_sorted (openLines_sorted b ks n), Nearest, mem_openLines]
  refine and_congr_right fun _ => and_congr_right fun _ => ⟨fun h i' hlt hp ho => ?_, fun h i' hi' hlt => ?_⟩
  · exact absurd (h i' (mem_openLines.2 ho) hlt) (by rw [show ks[i']?.any p = true from hp]; decide)
  · exact Bool.eq_false_iff.2 fun hp => h i' hlt hp (mem_openLines.1 hi')

/-- The nearest open line is the first of the stack. -/
theorem head?_openLines : (openLines b ks n).head? = some i ↔ Nearest b ks b.opens n i := by
  rw [← find?_openLines]
  cases hs : openLines b ks n with
  | nil => simp
  | cons a rest =>
    have ha : IsOpen b ks n a := mem_openLines.1 (hs ▸ List.mem_cons_self)
    rw [List.find?_cons_of_pos (p := fun i => ks[i]?.any b.opens) ha.2.1, List.head?_cons]

theorem openLines_eq_nil : openLines b ks n = [] ↔ ∀ i, ¬ IsOpen b ks n i := by
  simp only [List.eq_nil_iff_forall_not_mem, mem_openLines]

/-- Below an open line the stack is what it was at that line. -/
theorem openLines_of_mem (h : i ∈ openLines b ks n) :
    ∃ inner, openLines b ks n = inner ++ i :: openLines b ks i := by
  induction n with
  | zero => cases h
  | succ n ih =>
    cases hk : ks[n]? with
    | none =>
      have hsame : openLines b ks (n + 1) = openLines b ks n := by simp only [openLines, hk]
      rw [hsame] at h ⊢
      exact ih h
    | some k =>
      cases ho : b.opens k with
      | true =>
        rw [openLines_opens hk ho] at h ⊢
        rcases List.mem_cons.1 h with rfl | h
        · exact ⟨[], rfl⟩
        · obtain ⟨inner, hin⟩ := ih h
          exact ⟨n :: inner, by rw [hin, List.cons_append]⟩
      | false =>
        cases hc : b.closes k with
        | false =>
          rw [openLines_keeps hk ho hc] at h ⊢
          exact ih h
        | true =>
          rw [openLines_closes hk hc] at h ⊢
          obtain ⟨inner, hin⟩ := ih (List.mem_of_mem_tail h)
          rw [hin] at h ⊢
          cases inner with
          | nil =>
            -- The line that is closed is not open twice.
            exact absurd (lt_of_mem_openLines h) (Nat.lt_irrefl i)
          | cons a inner => exact ⟨inner, rfl⟩

/-- At a line that belongs to a block, the block is open within what it was opened in. -/
theorem Nearest.openLines_eq (h : Nearest b ks b.opens n i) :
    openLines b ks n = i :: openLines b ks i := by
  obtain ⟨inner, hin⟩ := openLines_of_mem (mem_openLines.2 h.1)
  have hhead := head?_openLines.2 h
  have hsorted := openLines_sorted b ks n
  rw [hin] at hhead hsorted ⊢
  cases inner with
  | nil => rfl
  | cons a inner =>
    obtain rfl : a = i := Option.some.inj hhead
    have hlt := (List.pairwise_cons.1 hsorted).1 a (by simp)
    exact absurd hlt (Nat.lt_irrefl a)

end

end MudTrigger
