import MudTrigger.Proofs.Expression.Eval
import MudTrigger.Proofs.Text.Numbers

/-!
# Negation and truth

A condition is true of a text that is neither empty nor starts with a zero. `!` takes a number by its
value and any other text by being empty. The two readings agree on all texts but those of
`Chars.isMisread`: a zero with more than zeros behind it, and zeros behind a sign. On the others `!`
negates a condition, and moves inside `&&` as it should (`Operator.negation_agrees`).
-/

set_option autoImplicit false

namespace MudTrigger

namespace Chars

variable {cs w : List Char} {c : Char}

/-- Texts that `!` reads otherwise than a condition does. -/
def isMisread : List Char → Bool
  | '0' :: cs => cs.any (· != '0')
  | '-' :: cs => !cs.isEmpty && cs.all (· == '0')
  | '+' :: cs => !cs.isEmpty && cs.all (· == '0')
  | _ => false

/-! ## The truth of a text without blanks around it -/

theorem trimEnd_cons (hc : isBlank c = false) (cs : List Char) :
    ∃ ds, trimEnd (c :: cs) = c :: ds := by
  induction cs using List.reverseRecOn with
  | nil => exact ⟨[], trimEnd_append_char [] hc⟩
  | append_singleton cs d ih =>
    rw [← List.cons_append]
    by_cases hd : isBlank d = true
    · rw [trimEnd_append_blank _ hd]
      exact ih
    · exact ⟨cs ++ [d], trimEnd_append_char _ (by simpa using hd)⟩

theorem isBlank_head_trimStart (h : trimStart cs = c :: w) : isBlank c = false := by
  have hhead := List.head?_dropWhile_not isBlank cs
  rw [← trimStart, h] at hhead
  exact hhead

/-- A trimmed text has no blank at its start. -/
theorem trimStart_trim (cs : List Char) : trimStart (trim cs) = trim cs := by
  rw [trim]
  rcases h : trimStart cs with _ | ⟨c, rest⟩
  · rfl
  · have hc := isBlank_head_trimStart h
    obtain ⟨ds, hds⟩ := trimEnd_cons hc rest
    rw [hds, trimStart_cons hc]

theorem isTruthy_trim (cs : List Char) : isTruthy (trim cs) = isTruthy cs := by
  rw [isTruthy, trimStart_trim, trim, isTruthy]
  rcases h : trimStart cs with _ | ⟨c, rest⟩
  · rfl
  · obtain ⟨ds, hds⟩ := trimEnd_cons (isBlank_head_trimStart h) rest
    rw [hds]

/-- Zero is written by zeros behind an optional sign. -/
theorem leadingInt_eq_zero (hw : trimStart w = w) (h : isNumeral w = true) :
    leadingInt w = 0 ↔ ∀ c ∈ (splitSign w).2, c = '0' := by
  obtain ⟨-, hdigits⟩ := allDigits_iff.1 h
  have hvalue : written w = 0 ↔ value (splitSign w).2 = 0 := by
    rw [written, hw]
    rcases hs : splitSign w with ⟨negative, rest⟩
    rw [hs] at hdigits
    simp only [digits_self hdigits]
    split
    · omega
    · omega
  rw [leadingInt_eq_clamp, ← value_eq_zero hdigits, ← hvalue]
  omega

end Chars

namespace Operator

open Chars (isMisread)

variable {w : List Char}

/-- `!` is true of the empty text, and of zeros behind an optional sign. -/
theorem negate_iff (hw : Chars.trimStart w = w) : negate (String.ofList w) = true ↔
    w = [] ∨ (Chars.splitSign w).2 ≠ [] ∧ ∀ c ∈ (Chars.splitSign w).2, c = '0' := by
  have hempty : String.ofList w = "" ↔ w = [] := by rw [← String.toList_inj, String.toList_ofList]; rfl
  rw [negate, Text.isNumeral, Text.leadingInt, String.toList_ofList]
  split
  · rename_i hn
    have hne : w ≠ [] := by
      intro he
      rw [he] at hn
      cases hn
    rw [beq_iff_eq, Chars.leadingInt_eq_zero hw hn]
    simp only [hne, false_or, (Chars.allDigits_iff.1 hn).1, ne_eq, not_false_eq_true, true_and]
  · rename_i hn
    rw [beq_iff_eq, hempty]
    refine ⟨.inl, fun h => h.resolve_right fun ⟨hne, hz⟩ => hn (Chars.allDigits_iff.2 ⟨hne, ?_⟩)⟩
    intro c hc
    rw [hz c hc]
    rfl

/-- `!` and a condition agree on a trimmed text unless it is misread. -/
theorem negate_agrees (hw : Chars.trimStart w = w) :
    negate (String.ofList w) = (!Chars.isTruthy w) ↔ isMisread w = false := by
  rw [Bool.eq_iff_iff, negate_iff hw, Bool.not_eq_true', Chars.isTruthy, hw]
  rcases w with _ | ⟨c, cs⟩
  · simp [isMisread]
  by_cases hzero : c = '0'
  · subst hzero
    simp [Chars.splitSign, isMisread]
  by_cases hminus : c = '-'
  · subst hminus
    simp [Chars.splitSign, isMisread]
  by_cases hplus : c = '+'
  · subst hplus
    simp [Chars.splitSign, isMisread]
  simp [Chars.splitSign, isMisread, hzero, hminus, hplus]

end Operator

/-! ## Conditions -/

/-- `!` reads the text otherwise than a condition does; blanks around it do not count. -/
def Text.isMisread (s : String) : Bool := Chars.isMisread (Chars.trim s.toList)

theorem Text.isTruthy_truthText (b : Bool) : Text.isTruthy (truthText b) = b := by
  cases b with
  | false => decide
  | true => decide

theorem Text.isTruthy_trim (s : String) : Text.isTruthy (Text.trim s) = Text.isTruthy s := by
  rw [isTruthy, trim, String.toList_ofList, Chars.isTruthy_trim, ← isTruthy]

namespace Operator

variable {a b l v : String}

theorem isTruthy_not (l v : String) :
    Text.isTruthy (Operator.not.apply l v) = negate (Text.trim v) := Text.isTruthy_truthText _

theorem isTruthy_and (a b : String) :
    Text.isTruthy (Operator.and.apply a b) = (Text.isTruthy a && Text.isTruthy b) := by
  rw [apply, applyTrimmed, Text.isTruthy_truthText, Text.isTruthy_trim, Text.isTruthy_trim]

theorem isTruthy_or (a b : String) :
    Text.isTruthy (Operator.or.apply a b) = (Text.isTruthy a || Text.isTruthy b) := by
  rw [apply, applyTrimmed, Text.isTruthy_truthText, Text.isTruthy_trim, Text.isTruthy_trim]

theorem isTruthy_not_iff (l v : String) :
    Text.isTruthy (Operator.not.apply l v) = (!Text.isTruthy v) ↔ Text.isMisread v = false := by
  rw [isTruthy_not, Text.trim, Text.isTruthy, ← Chars.isTruthy_trim, Text.isMisread]
  exact negate_agrees (Chars.trimStart_trim v.toList)

/-- A truth value is not misread. -/
theorem isMisread_and (a b : String) : Text.isMisread (Operator.and.apply a b) = false := by
  rw [apply, applyTrimmed]
  cases Text.isTruthy (Text.trim a) && Text.isTruthy (Text.trim b) with
  | false => decide
  | true => decide

/-- Negation moves inside a conjunction. -/
theorem isTruthy_not_and (ha : Text.isMisread a = false) (hb : Text.isMisread b = false) :
    Text.isTruthy (Operator.not.apply l (Operator.and.apply a b)) =
      Text.isTruthy (Operator.or.apply (Operator.not.apply l a) (Operator.not.apply l b)) := by
  rw [(isTruthy_not_iff l _).2 (isMisread_and a b), isTruthy_or, isTruthy_and,
    (isTruthy_not_iff l a).2 ha, (isTruthy_not_iff l b).2 hb, Bool.not_and]

end Operator

namespace Run

variable {n : Nat} {r : Run} {g : Game} {s : Scene}

/-- The value of a negated expression. -/
theorem evaluate_negation (hs : r.scene? g = some s) (binds : n ≤ Operator.not.rank) (gap : Gap)
    (w : Spelling Operator.not.rank) :
    (r.evaluate g (Spelling.negation binds gap w).text).1 =
      Operator.not.apply "" (r.evaluate g w.text).1 := by
  have hmissing : ∀ d, s.expand "" d = ("", d) := fun _ => rfl
  rw [evaluate_fst hs, evaluate_fst hs, Scene.evaluate, Scene.evaluate, Spelling.parse_text,
    Spelling.parse_text, Spelling.tree, Scene.eval_apply, Expression.eval, hmissing]

/-- `!` negates the truth of a text exactly if the text is not misread. Then just one of `if` with an
expression and `if` with its negation takes its branch, and a negation moves inside a conjunction. -/
theorem negation_agrees (a b l : String) :
    (Text.isTruthy (Operator.not.apply l a) = (!Text.isTruthy a) ↔ Text.isMisread a = false) ∧
    (∀ (r : Run) (g : Game) (n : Nat) (binds : n ≤ Operator.not.rank) (gap : Gap)
      (w : Spelling Operator.not.rank), (r.scene? g).isSome →
      ((r.holds g (Spelling.negation binds gap w).text).1 = (!(r.holds g w.text).1) ↔
        Text.isMisread (r.evaluate g w.text).1 = false)) ∧
    (Text.isMisread a = false → Text.isMisread b = false →
      Text.isTruthy (Operator.not.apply l (Operator.and.apply a b)) =
        Text.isTruthy (Operator.or.apply (Operator.not.apply l a) (Operator.not.apply l b))) := by
  refine ⟨Operator.isTruthy_not_iff l a, ?_, Operator.isTruthy_not_and⟩
  intro r g n binds gap w hscene
  obtain ⟨s, hs⟩ := Option.isSome_iff_exists.1 hscene
  rw [← Operator.isTruthy_not_iff "", ← evaluate_negation hs binds gap w]
  rfl

/-- The text `%x%`. -/
def single : Spelling Operator.not.rank := .leaf .none (.token ['x'] rfl) .none

theorem negation_agrees_summing :
    ((alone.holds (summing "-3" "4") (Spelling.negation (Nat.zero_le _) .none single).text).1 =
      !(alone.holds (summing "-3" "4") single.text).1) ∧
    Text.isTruthy (Operator.not.apply "" (Operator.and.apply "+7" " x ")) =
      Text.isTruthy (Operator.or.apply (Operator.not.apply "" "+7") (Operator.not.apply "" " x ")) := by
  obtain ⟨-, hholds, hand⟩ := negation_agrees "+7" " x " ""
  exact ⟨(hholds alone (summing "-3" "4") 0 (Nat.zero_le _) .none single (by decide +kernel)).2
    (by decide +kernel), hand (by decide) (by decide)⟩

/-- A zero before other characters counts as false in a condition, and so does its negation. -/
theorem negation_of_zero_word :
    ¬ ∀ v : String, Text.isTruthy (Operator.not.apply "" v) = (!Text.isTruthy v) := by
  intro h
  exact absurd (h "0abc") (by decide)

end Run

end MudTrigger
