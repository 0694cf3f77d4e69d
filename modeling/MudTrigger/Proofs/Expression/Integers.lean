import MudTrigger.Proofs.Expression.Eval
import MudTrigger.Proofs.Text.Numbers

/-!
# Integers of 64 bits as texts

`Operator.on64?` is the result of an operator between two 64-bit integers with sign. An operator
applied to texts that write two integers gives the text of that result
(`Operator.apply_writes`), except that the least integer is read as the one above it
(`held`): the sign is applied to a magnitude that is held to 2^63 - 1. An expression whose
integers are other than the least one keeps each value that it uses again (`integers_keep`).
-/

set_option autoImplicit false

namespace MudTrigger

open Chars (Numeral Writes)

/-- The integer that is read from a text that writes `a`. -/
def held (a : Int64) : Int64 := if a = Int64.minValue then Int64.minValue + 1 else a

namespace Operator

/-- The result of an operator between two integers: sums, differences and products wrap around, a
quotient is truncated and that by zero is zero, and a comparison gives one or zero. -/
def on64? (op : Operator) (a b : Int64) : Option Int64 :=
  match op with
  | add => some (a + b)
  | sub => some (a - b)
  | mul => some (a * b)
  | div => some (a / b)
  | eq => some (if a = b then 1 else 0)
  | ne => some (if a ≠ b then 1 else 0)
  | lt => some (if a < b then 1 else 0)
  | le => some (if a ≤ b then 1 else 0)
  | gt => some (if b < a then 1 else 0)
  | ge => some (if b ≤ a then 1 else 0)
  | or | and | contains | not => none

end Operator

section

variable {a b c : Int64} {cs : List Char} {s t v : String} {op : Operator}

/-! ## Reading an integer -/

theorem held_of_ne (h : a ≠ Int64.minValue) : held a = a := if_neg h

theorem toInt_held (a : Int64) :
    (held a).toInt = max (-0x7FFF_FFFF_FFFF_FFFF) (min 0x7FFF_FFFF_FFFF_FFFF a.toInt) := by
  have hmin := a.le_toInt
  have hmax := a.toInt_lt
  by_cases h : a = Int64.minValue
  · subst h
    decide
  · have hne : a.toInt ≠ -2 ^ 63 := fun he =>
      h (Int64.toInt_inj.1 (he.trans Int64.toInt_minValue.symm))
    rw [held_of_ne h]
    omega

theorem leadingInt_numeral (h : Numeral a.toInt cs) : Chars.leadingInt cs = (held a).toInt := by
  rw [Chars.leadingInt_eq_clamp, h.written, toInt_held]

/-! ## Operators on texts of integers -/

theorem truthText_eq (p : Prop) [Decidable p] :
    truthText (decide p) = toString (if p then (1 : Int64) else 0).toInt := by
  by_cases h : p
  · simp only [h, decide_true, if_true]
    decide
  · simp only [h, decide_false, if_false]
    decide

theorem toInt_beq (a b : Int64) : (a.toInt == b.toInt) = decide (a = b) := by
  rw [Bool.eq_iff_iff, beq_iff_eq, decide_eq_true_iff, Int64.toInt_inj]

namespace Operator

theorem compare_numerals (hs : Text.isNumeral s = true) (ht : Text.isNumeral t = true) :
    op.compare s t = op.onInts (Text.leadingInt s) (Text.leadingInt t) := by
  rw [compare, hs, ht]
  rfl

/-- An operator on the texts of two integers gives the text of its result for them as they are read. -/
theorem apply_writes (hs : Writes a.toInt s.toList) (ht : Writes b.toInt t.toList)
    (hc : op.on64? (held a) (held b) = some c) : op.apply s t = toString c.toInt := by
  have hsnum : Text.isNumeral (Text.trim s) = true := by
    rw [Text.isNumeral, Text.trim, String.toList_ofList]
    exact hs.trim.isNumeral
  have htnum : Text.isNumeral (Text.trim t) = true := by
    rw [Text.isNumeral, Text.trim, String.toList_ofList]
    exact ht.trim.isNumeral
  have hsint : Text.leadingInt (Text.trim s) = (held a).toInt := by
    rw [Text.leadingInt, Text.trim, String.toList_ofList]
    exact leadingInt_numeral hs.trim
  have htint : Text.leadingInt (Text.trim t) = (held b).toInt := by
    rw [Text.leadingInt, Text.trim, String.toList_ofList]
    exact leadingInt_numeral ht.trim
  rw [apply]
  cases op with
  | add | sub | mul | div =>
    cases hc
    simp only [applyTrimmed, hsint, htint, arithmetic, Width.wrap64, Int64.toInt_add,
      Int64.toInt_sub, Int64.toInt_mul, Int64.toInt_div, Nat.reducePow]
  | eq | ne | lt | le | gt | ge =>
    cases hc
    rw [← truthText_eq, applyTrimmed, compare_numerals hsnum htnum, hsint, htint]
    simp [onInts, bne, toInt_beq, Int64.lt_iff_toInt_lt, Int64.le_iff_toInt_le]
  | or | and | contains | not => cases hc

end Operator

/-! ## Expressions of integers -/

/-- What an expression computes on 64-bit integers: its operands expand to texts of integers, and no
integer that it uses as an operand is the least one. -/
inductive Computes (s : Scene) : Expression → Int64 → Prop
  | operand {text v : String} {a : Int64} (expands : ∀ d, s.expand text d = (v, d))
      (writes : Writes a.toInt v.toList) : Computes s (.operand text) a
  | apply {op : Operator} {left right : Expression} {a b c : Int64} (hl : Computes s left a)
      (hr : Computes s right b) (ha : a ≠ Int64.minValue) (hb : b ≠ Int64.minValue)
      (hc : op.on64? a b = some c) : Computes s (.apply op left right) c

theorem Operator.apply_writes_of_ne (hs : Writes a.toInt s.toList) (ht : Writes b.toInt t.toList)
    (ha : a ≠ Int64.minValue) (hb : b ≠ Int64.minValue) (hc : op.on64? a b = some c) :
    op.apply s t = toString c.toInt :=
  apply_writes hs ht (by rwa [held_of_ne ha, held_of_ne hb])

/-- The value of an expression of integers is the text of what it computes. -/
theorem Computes.eval {scene : Scene} {e : Expression} (h : Computes scene e a) (d : Draft) :
    ∃ v, e.eval scene.expand d = (v, d) ∧ Writes a.toInt v.toList := by
  induction h with
  | operand expands writes => exact ⟨_, expands d, writes⟩
  | apply hl hr ha hb hc ihl ihr =>
    obtain ⟨v, hv, hvw⟩ := ihl
    obtain ⟨w, hw, hww⟩ := ihr
    rw [Scene.eval_apply, hv, hw]
    refine ⟨_, rfl, ?_⟩
    rw [Operator.apply_writes_of_ne hvw hww ha hb hc]
    exact Chars.writes_toString _

/-- Operators on texts of integers compute with 64-bit integers, up to how the least integer is read. So
the value of an expression of integers other than the least one is the text of what it computes. -/
theorem integers_keep (a b : Int64) :
    (∀ (op : Operator) (c : Int64) (s t : String), Writes a.toInt s.toList →
      Writes b.toInt t.toList → op.on64? (held a) (held b) = some c →
        op.apply s t = toString c.toInt) ∧
    (a ≠ Int64.minValue → held a = a ∧ (a / b).toInt = Int.tdiv a.toInt b.toInt) ∧
    ∀ (scene : Scene) (e : Expression) (d : Draft), Computes scene e a →
      ∃ v, e.eval scene.expand d = (v, d) ∧ Writes a.toInt v.toList :=
  ⟨fun _ _ _ _ => Operator.apply_writes,
    fun ha => ⟨held_of_ne ha, Int64.toInt_div_of_ne_left _ b ha⟩, fun _ _ d h => h.eval d⟩

end

/-- A place without variables. -/
def bare : Scene :=
  { host := Host.plain fun _ _ _ => none, world := {}, owner := Uid.room 0, locals := ∅, globals := ∅ }

/-- The product of `007` and the difference of `-12` and `+5`. -/
def product : Expression :=
  .apply .mul (.operand "007") (.apply .sub (.operand "-12 ") (.operand "+5"))

theorem integers_keep_product :
    Operator.div.apply " -007" "2" = "-3" ∧
    ∃ v, product.eval bare.expand { dice := default } = (v, { dice := default }) ∧
      Writes (-119) v.toList := by
  obtain ⟨happly, -, -⟩ := integers_keep (-7) 2
  obtain ⟨-, -, hkeeps⟩ := integers_keep (-119) 0
  have hseven : Writes 7 "007".toList := ⟨[], _, [], rfl, .plain 2 (by decide), by simp, by simp⟩
  have htwelve : Writes (-12) "-12 ".toList :=
    ⟨[], _, [' '], rfl, .minus 0 (by decide), by simp, List.forall_mem_singleton.2 rfl⟩
  have hfive : Writes 5 "+5".toList := ⟨[], _, [], rfl, .plus 0 (by decide), by simp, by simp⟩
  refine ⟨?_, hkeeps bare product { dice := default } ?_⟩
  · refine happly .div (-3) " -007" "2" ?_ ?_ ?_
    · exact ⟨[' '], _, [], rfl, .minus 2 (by decide), List.forall_mem_singleton.2 rfl, by simp⟩
    · exact Chars.writes_toString 2
    · decide
  · have hdifference : Computes bare (.apply .sub (.operand "-12 ") (.operand "+5")) (-17) := by
      refine .apply (a := -12) (b := 5) (.operand (v := "-12 ") (fun _ => rfl) htwelve)
        (.operand (v := "+5") (fun _ => rfl) hfive) ?_ ?_ ?_
      all_goals decide
    refine .apply (a := 7) (b := -17) (.operand (v := "007") (fun _ => rfl) hseven) hdifference
      ?_ ?_ ?_
    all_goals decide

/-- The text of the least integer is read as the integer above it. -/
theorem least_integer_lost :
    ¬ ∀ (a b : Int64) (s t : String), Writes a.toInt s.toList → Writes b.toInt t.toList →
      Operator.add.apply s t = toString (a + b).toInt := by
  intro h
  have hsum := h Int64.minValue 0 (toString Int64.minValue.toInt) "0" (Chars.writes_toString _)
    (Chars.writes_toString 0)
  exact absurd hsum (by decide +kernel)

end MudTrigger
