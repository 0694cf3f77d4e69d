import Mathlib.Algebra.Group.Nat.Defs
import MudTrigger.Proofs.Text.Lines

/-!
# The numbers that texts write

`Chars.written` is the integer at the start of a text however large it is; what a script reads is that
integer held to 2^63 - 1 on both sides (`Chars.leadingInt_eq_clamp`). `Chars.Writes i` is a text that is
one decimal number of value `i`, with blanks around it and zeros before its digits; such a text is read
back as `i` (`Writes.written`).
-/

set_option autoImplicit false

namespace MudTrigger.Chars

variable {cs ds : List Char} {c : Char} {i : Int}

/-! ## Digits -/

theorem allDigits_iff : allDigits cs = true ↔ cs ≠ [] ∧ ∀ c ∈ cs, c.isDigit = true := by
  rw [allDigits, Bool.and_eq_true, Bool.not_eq_true', List.isEmpty_eq_false_iff, List.all_eq_true]

theorem value_append (cs ds : List Char) :
    value (cs ++ ds) = 10 ^ ds.length * value cs + value ds := by
  change Nat.ofDigitChars 10 (cs ++ ds) 0 = _
  rw [Nat.ofDigitChars_append, Nat.ofDigitChars_eq_ofDigitChars_zero]
  rfl

theorem value_cons (c : Char) (cs : List Char) :
    value (c :: cs) = 10 ^ cs.length * (c.toNat - '0'.toNat) + value cs := by
  rw [← List.singleton_append, value_append]
  simp [value]

theorem value_zeros (n : Nat) (cs : List Char) :
    value (List.replicate n '0' ++ cs) = value cs := by
  induction n with
  | zero => rfl
  | succ n ih => rw [List.replicate_succ, List.cons_append, value_cons, ih]; simp

theorem eq_zero_of_value {c : Char} (hc : c.isDigit = true) (h : c.toNat - '0'.toNat = 0) :
    c = '0' := by
  have h48 : '0'.toNat = 48 := rfl
  have hle : 48 ≤ c.toNat := (Char.isDigit_iff_toNat.1 hc).1
  exact Char.toNat_inj.1 (by omega)

/-- Digits write zero if they are zeros. -/
theorem value_eq_zero (h : ∀ c ∈ cs, c.isDigit = true) : value cs = 0 ↔ ∀ c ∈ cs, c = '0' := by
  induction cs with
  | nil => simp [value]
  | cons c cs ih =>
    obtain ⟨hc, hcs⟩ := List.forall_mem_cons.1 h
    have hpow : 0 < 10 ^ cs.length := Nat.pow_pos (by decide)
    rw [value_cons, Nat.add_eq_zero_iff, ih hcs, Nat.mul_eq_zero, List.forall_mem_cons]
    refine and_congr_left fun _ => ⟨fun h0 => ?_, fun h0 => ?_⟩
    · exact eq_zero_of_value hc (by omega)
    · exact .inr (by rw [h0]; rfl)

/-- Digits have no sign before them. -/
theorem splitSign_digits (h : ∀ c ∈ cs, c.isDigit = true) : splitSign cs = (false, cs) := by
  unfold splitSign
  split
  · exact absurd (h '-' List.mem_cons_self) (by decide)
  · exact absurd (h '+' List.mem_cons_self) (by decide)
  · rfl

theorem digits_self (h : ∀ c ∈ cs, c.isDigit = true) : digits cs = cs := List.takeWhile_eq_self_iff.2 h

theorem isBlank_digit (h : c.isDigit = true) : isBlank c = false :=
  isBlank_of_alphanum (by rw [Char.isAlphanum, h, Bool.or_true])

/-! ## Blanks around a text -/

theorem trimStart_blanks {gap : List Char} (h : ∀ c ∈ gap, isBlank c = true) (cs : List Char) :
    trimStart (gap ++ cs) = trimStart cs := List.dropWhile_append_of_pos h

/-- Blanks around a text make no difference to trimming. -/
theorem trim_between {before after : List Char} (hb : ∀ c ∈ before, isBlank c = true)
    (ha : ∀ c ∈ after, isBlank c = true) (cs : List Char) :
    trim (before ++ (cs ++ after)) = trim cs := by
  induction after using List.reverseRecOn with
  | nil => rw [List.append_nil, trim, trimStart_blanks hb, trim]
  | append_singleton after c ih =>
    have hlast : before ++ (cs ++ (after ++ [c])) = (before ++ (cs ++ after)) ++ [c] := by simp
    rw [hlast, trim_append_blank _ (ha c (by simp)), ih fun c hc => ha c (by simp [hc])]

/-! ## Reading without bounds -/

/-- The integer at the start of a text: blanks, a sign, digits. -/
def written (cs : List Char) : Int :=
  let (negative, rest) := splitSign (trimStart cs)
  if negative then -(value (digits rest) : Int) else value (digits rest)

/-- What is read is what is written, held to 2^63 - 1 on both sides. -/
theorem leadingInt_eq_clamp (cs : List Char) :
    leadingInt cs = max (-0x7FFF_FFFF_FFFF_FFFF) (min 0x7FFF_FFFF_FFFF_FFFF (written cs)) := by
  rw [leadingInt, written]
  rcases splitSign (trimStart cs) with ⟨negative, rest⟩
  cases negative with
  | false =>
    simp only [Bool.false_eq_true, if_false]
    omega
  | true =>
    simp only [if_true]
    omega

theorem written_digits (h : ∀ c ∈ cs, c.isDigit = true) : written cs = value cs := by
  have htrim : trimStart cs = cs := by
    cases cs with
    | nil => rfl
    | cons c cs =>
      exact List.dropWhile_cons_of_neg (by simp [isBlank_digit (h c List.mem_cons_self)])
  rw [written, htrim, splitSign_digits h]
  simp only [digits_self h, Bool.false_eq_true, if_false]

/-! ## Decimal numbers -/

/-- The digits of a magnitude, with zeros before them, behind a sign: a minus for a negative number,
a plus or nothing for another one. -/
inductive Numeral (i : Int) : List Char → Prop
  | plain (zeros : Nat) (h : 0 ≤ i) :
      Numeral i (List.replicate zeros '0' ++ (toString i.natAbs).toList)
  | plus (zeros : Nat) (h : 0 ≤ i) :
      Numeral i ('+' :: (List.replicate zeros '0' ++ (toString i.natAbs).toList))
  | minus (zeros : Nat) (h : i < 0) :
      Numeral i ('-' :: (List.replicate zeros '0' ++ (toString i.natAbs).toList))

/-- A decimal number with blanks around it. -/
def Writes (i : Int) (cs : List Char) : Prop :=
  ∃ before w after : List Char, cs = before ++ (w ++ after) ∧ Numeral i w ∧
    (∀ c ∈ before, isBlank c = true) ∧ ∀ c ∈ after, isBlank c = true

theorem isDigit_padded (zeros n : Nat) :
    ∀ c ∈ List.replicate zeros '0' ++ (toString n).toList, c.isDigit = true := by
  intro c hc
  rcases List.mem_append.1 hc with hc | hc
  · rw [List.eq_of_mem_replicate hc]
    rfl
  · exact isDigit_toString n c hc

theorem solid_padded (zeros n : Nat) : Solid (List.replicate zeros '0' ++ (toString n).toList) :=
  ⟨List.append_ne_nil_of_right_ne_nil _ (toString_ne_nil n), fun c hc => isBlank_digit (isDigit_padded zeros n c hc)⟩

namespace Numeral

variable {w : List Char}

theorem solid (h : Numeral i w) : Solid w := by
  cases h with
  | plain zeros => exact solid_padded zeros _
  | plus zeros => exact (solid_padded zeros _).cons (by decide)
  | minus zeros => exact (solid_padded zeros _).cons (by decide)

theorem isNumeral (h : Numeral i w) : Chars.isNumeral w = true := by
  have hdigits (zeros : Nat) :
      allDigits (List.replicate zeros '0' ++ (toString i.natAbs).toList) = true :=
    allDigits_iff.2 ⟨(solid_padded zeros _).ne_nil, isDigit_padded zeros _⟩
  cases h with
  | plain zeros => rw [Chars.isNumeral, splitSign_digits (isDigit_padded zeros _), hdigits]
  | plus zeros => exact hdigits zeros
  | minus zeros => exact hdigits zeros

theorem written (h : Numeral i w) : Chars.written w = i := by
  have hvalue (zeros : Nat) :
      value (digits (List.replicate zeros '0' ++ (toString i.natAbs).toList)) = i.natAbs := by
    rw [digits_self (isDigit_padded zeros _), value_zeros, value_toString]
  rw [Chars.written, h.solid.trimStart]
  cases h with
  | plain zeros h =>
    rw [splitSign_digits (isDigit_padded zeros _)]
    simp only [hvalue, Bool.false_eq_true, if_false]
    omega
  | plus zeros h =>
    simp only [splitSign, hvalue, Bool.false_eq_true, if_false]
    omega
  | minus zeros h =>
    simp only [splitSign, hvalue, if_true]
    omega

end Numeral

/-- A number as it is printed. -/
theorem numeral_toString (i : Int) : Numeral i (toString i).toList := by
  rw [toList_toString_int]
  by_cases h : 0 ≤ i
  · rw [if_pos h, show i.toNat = i.natAbs by omega]
    exact .plain 0 h
  · rw [if_neg h, show (-i).toNat = i.natAbs by omega]
    exact .minus 0 (by omega)

theorem writes_toString (i : Int) : Writes i (toString i).toList :=
  ⟨[], _, [], (List.append_nil _).symm, numeral_toString i, by simp, by simp⟩

/-- Trimming leaves the number. -/
theorem Writes.trim (h : Writes i cs) : Numeral i (Chars.trim cs) := by
  obtain ⟨before, w, after, rfl, hw, hb, ha⟩ := h
  rwa [trim_between hb ha, hw.solid.trim]

end MudTrigger.Chars
