import MudTrigger.Text.Numeral
import Mathlib.Data.List.Induction
import Mathlib.Data.List.TakeWhile

/-!
# Texts made of lines and words

What was put together is taken apart again: a text of lines that end at line feeds has these lines, up
to a carriage return at the end of each (`Text.lines_append`), words between blanks are the words of
the line (`Chars.words_append`), and the digits of a number write it (`Chars.leadingInt_toString`).
-/

set_option autoImplicit false

namespace MudTrigger

theorem isBlank_of_alphanum {c : Char} (h : c.isAlphanum = true) : Chars.isBlank c = false := by
  delta Char.isAlphanum Char.isAlpha Char.isUpper Char.isLower Char.isDigit at h
  simp only [Bool.or_eq_true, Bool.and_eq_true, decide_eq_true_eq, UInt32.le_iff_toNat_le,
    ge_iff_le] at h
  change ((65 ≤ c.toNat ∧ c.toNat ≤ 90) ∨ (97 ≤ c.toNat ∧ c.toNat ≤ 122)) ∨
    (48 ≤ c.toNat ∧ c.toNat ≤ 57) at h
  simp only [Chars.isBlank, Bool.or_eq_false_iff, Bool.and_eq_false_iff, decide_eq_false_iff_not,
    beq_eq_false_iff_ne]
  omega

namespace Chars

variable {cs : List Char} {c : Char}

/-! ## Blanks -/

theorem trimEnd_append_blank (cs : List Char) (hc : isBlank c = true) :
    trimEnd (cs ++ [c]) = trimEnd cs := by
  rw [trimEnd, List.reverse_append, List.reverse_singleton, List.singleton_append,
    List.dropWhile_cons_of_pos hc, ← trimEnd]

theorem trimEnd_append_char (cs : List Char) (hc : isBlank c = false) :
    trimEnd (cs ++ [c]) = cs ++ [c] := by
  rw [trimEnd, List.reverse_append, List.reverse_singleton, List.singleton_append,
    List.dropWhile_cons_of_neg (by simp [hc]), List.reverse_cons, List.reverse_reverse]

theorem trim_append_blank (cs : List Char) (hc : isBlank c = true) :
    trim (cs ++ [c]) = trim cs := by
  rw [trim, trimStart, List.dropWhile_append]
  split
  · rename_i he
    rw [List.dropWhile_cons_of_pos hc, List.dropWhile_nil, trim, trimStart, List.isEmpty_iff.1 he]
  · exact trimEnd_append_blank _ hc

/-- Trimming the end first makes no difference to trimming. -/
theorem trim_trimEnd (cs : List Char) : trim (trimEnd cs) = trim cs := by
  induction cs using List.reverseRecOn with
  | nil => rfl
  | append_singleton cs c ih =>
    cases hc : isBlank c with
    | true => rw [trimEnd_append_blank cs hc, trim_append_blank cs hc, ih]
    | false => rw [trimEnd_append_char cs hc]

/-! ## Lines -/

/-- A line feed ends the first line, and a carriage return before it is no part of it. -/
theorem lines_lineFeed (h : '\n' ∉ cs) (rest : List Char) :
    ∃ l, lines (cs ++ '\n' :: rest) = l :: lines rest ∧ (cs = l ∨ cs = l ++ ['\r']) := by
  induction cs with
  | nil => exact ⟨[], rfl, .inl rfl⟩
  | cons c cs ih =>
    obtain ⟨hc, hn⟩ := not_or.1 (mt List.mem_cons.2 h)
    obtain ⟨l, hl, hcs⟩ := ih hn
    by_cases hcr : c = '\r' ∧ cs = []
    · obtain ⟨rfl, rfl⟩ := hcr
      exact ⟨[], rfl, .inr rfl⟩
    · refine ⟨c :: l, ?_, hcs.imp (congrArg (c :: ·)) (congrArg (c :: ·))⟩
      rw [List.cons_append, lines.eq_3]
      · rw [if_neg (Ne.symm hc), hl]
      · rintro ds rfl he
        refine hcr ⟨rfl, ?_⟩
        cases cs with
        | nil => rfl
        | cons d cs =>
          cases he
          exact absurd List.mem_cons_self hn

theorem lines_append_lineFeed (h : '\n' ∉ cs) (rest : List Char) :
    ∃ l, lines (cs ++ '\n' :: rest) = l :: lines rest ∧ trim l = trim cs := by
  obtain ⟨l, hl, rfl | rfl⟩ := lines_lineFeed h rest
  · exact ⟨_, hl, rfl⟩
  · exact ⟨l, hl, (trim_append_blank l rfl).symm⟩

/-- A text without line feeds is at most one line. -/
theorem lines_of_not_mem (h : '\n' ∉ cs) : lines cs = if cs = [] then [] else [cs] := by
  induction cs with
  | nil => rfl
  | cons c cs ih =>
    obtain ⟨hc, hn⟩ := not_or.1 (mt List.mem_cons.2 h)
    rw [lines.eq_3]
    · rw [if_neg (Ne.symm hc), ih hn]
      by_cases he : cs = []
      · simp [he]
      · simp [he]
    · rintro ds rfl rfl
      exact hn List.mem_cons_self

/-! ## Words -/

/-- A text without blanks. -/
structure Solid (cs : List Char) : Prop where
  ne_nil : cs ≠ []
  solid : ∀ c ∈ cs, isBlank c = false

theorem solid_iff {cs : List Char} : Solid cs ↔ cs ≠ [] ∧ cs.all (!isBlank ·) = true := by
  refine ⟨fun h => ⟨h.ne_nil, ?_⟩, fun h => ⟨h.1, ?_⟩⟩
  · simpa using h.solid
  · simpa using h.2

instance (cs : List Char) : Decidable (Solid cs) := decidable_of_iff _ solid_iff.symm

namespace Solid

variable {cs : List Char}

theorem cons {c : Char} (hc : isBlank c = false) (h : Solid cs) : Solid (c :: cs) :=
  ⟨List.cons_ne_nil _ _, List.forall_mem_cons.2 ⟨hc, h.solid⟩⟩

theorem not_mem (h : Solid cs) {c : Char} (hc : isBlank c = true) : c ∉ cs := fun hm => by
  rw [h.solid c hm] at hc
  cases hc

theorem not_blank (h : Solid cs) : ∀ c ∈ cs, (!isBlank c) = true := fun c hc => by
  rw [h.solid c hc]
  rfl

theorem trimStart_append (h : Solid cs) (rest : List Char) :
    Chars.trimStart (cs ++ rest) = cs ++ rest := by
  cases cs with
  | nil => exact absurd rfl h.ne_nil
  | cons c cs => exact List.dropWhile_cons_of_neg (by simp [h.solid c List.mem_cons_self])

theorem trimStart (h : Solid cs) : Chars.trimStart cs = cs := by
  have hnil := h.trimStart_append []
  rwa [List.append_nil] at hnil

theorem trimEnd_append (h : Solid cs) (ds : List Char) :
    Chars.trimEnd (ds ++ cs) = ds ++ cs := by
  cases cs using List.reverseRecOn with
  | nil => exact absurd rfl h.ne_nil
  | append_singleton cs c =>
    rw [← List.append_assoc]
    exact trimEnd_append_char _ (h.solid c (by simp))

theorem trim (h : Solid cs) : Chars.trim cs = cs := by
  rw [Chars.trim, h.trimStart]
  exact h.trimEnd_append []

end Solid

theorem words_append {w : List Char} (hw : Solid w) (rest : List Char)
    (hr : firstWord rest = []) : words (w ++ rest) = w :: words rest := by
  obtain ⟨hne, hb⟩ := hw
  induction w with
  | nil => exact absurd rfl hne
  | cons c w ih =>
    rw [List.cons_append, words, if_neg (by simp [hb c List.mem_cons_self])]
    cases w with
    | nil => rw [List.nil_append, if_pos hr]
    | cons d w =>
      have hd := hb d (List.mem_cons_of_mem _ List.mem_cons_self)
      rw [ih (List.cons_ne_nil _ _) fun c hc => hb c (List.mem_cons_of_mem _ hc), if_neg]
      simp [firstWord, hd]

theorem words_solid {w : List Char} (hw : Solid w) : words w = [w] := by
  have hwords := words_append hw [] rfl
  rwa [List.append_nil] at hwords

theorem words_space {w : List Char} (hw : Solid w) (rest : List Char) :
    words (w ++ ' ' :: rest) = w :: words rest := words_append hw (' ' :: rest) rfl

/-- Words with single spaces between them. -/
theorem words_intercalate {ws : List (List Char)} (h : ∀ w ∈ ws, Solid w) :
    words ([' '].intercalate ws) = ws := by
  induction ws with
  | nil => rfl
  | cons w ws ih =>
    obtain ⟨hw, hws⟩ := List.forall_mem_cons.1 h
    cases ws with
    | nil => rw [List.intercalate_singleton, words_solid hw]
    | cons v ws =>
      rw [List.intercalate_cons_cons, List.append_assoc, List.singleton_append, words_space hw,
        ih hws]

/-- Blanks before the first word are no part of a word. -/
theorem words_trimStart (cs : List Char) : words (trimStart cs) = words cs := by
  induction cs with
  | nil => rfl
  | cons c cs ih =>
    by_cases hc : isBlank c = true
    · rw [trimStart, List.dropWhile_cons_of_pos hc, words, if_pos hc]
      exact ih
    · rw [trimStart, List.dropWhile_cons_of_neg hc]

/-! ## The first word -/

section

variable {w rest : List Char}

/-- A word ends at a blank or at the end of the text. -/
theorem Solid.firstWord_append (hw : Solid w) (hr : ∀ c, rest.head? = some c → isBlank c = true) :
    firstWord (w ++ rest) = w := by
  rw [firstWord, List.takeWhile_append_of_pos hw.not_blank]
  cases rest with
  | nil => exact List.append_nil w
  | cons c rest => simp [hr c rfl]

theorem Solid.afterWord_append (hw : Solid w) (hr : ∀ c, rest.head? = some c → isBlank c = true) :
    afterWord (w ++ rest) = rest := by
  rw [afterWord, List.dropWhile_append_of_pos hw.not_blank]
  cases rest with
  | nil => rfl
  | cons c rest => exact List.dropWhile_cons_of_neg (by simp [hr c rfl])

theorem Solid.splitWord_append (hw : Solid w) (hr : ∀ c, rest.head? = some c → isBlank c = true) :
    splitWord (w ++ rest) = (w, Chars.trimStart rest) := by
  rw [splitWord, hw.trimStart_append, hw.firstWord_append hr, hw.afterWord_append hr]

end

/-! ## Numerals -/

theorem toList_toString (n : Nat) : (toString n).toList = Nat.toDigits 10 n := Nat.toList_repr

theorem isDigit_toString (n : Nat) : ∀ c ∈ (toString n).toList, c.isDigit = true := by
  rw [toList_toString]
  exact fun c hc => Nat.isDigit_of_mem_toDigits (by decide) (by decide) hc

theorem toString_ne_nil (n : Nat) : (toString n).toList ≠ [] := by
  rw [toList_toString]
  exact Nat.toDigits_ne_nil

theorem solid_toString (n : Nat) : Solid (toString n).toList :=
  ⟨toString_ne_nil n, fun c hc => isBlank_of_alphanum (by
    rw [Char.isAlphanum, isDigit_toString n c hc, Bool.or_true])⟩

theorem allDigits_toString (n : Nat) : allDigits (toString n).toList = true := by
  simpa [allDigits, toString_ne_nil n] using isDigit_toString n

theorem value_toString (n : Nat) : value (toString n).toList = n := by
  rw [toList_toString]
  exact Nat.ofDigitChars_toDigits (by decide) (by decide)

/-- Digits have no sign before them. -/
theorem splitSign_toString (n : Nat) :
    splitSign (toString n).toList = (false, (toString n).toList) := by
  have hd := isDigit_toString n
  generalize (toString n).toList = cs at hd
  unfold splitSign
  split
  · exact absurd (hd '-' List.mem_cons_self) (by decide)
  · exact absurd (hd '+' List.mem_cons_self) (by decide)
  · rfl

theorem digits_toString (n : Nat) : digits (toString n).toList = (toString n).toList :=
  List.takeWhile_eq_self_iff.2 (isDigit_toString n)

/-- A number as it is written: digits, with a minus before those of a negative one. -/
theorem toList_toString_int (i : Int) :
    (toString i).toList = if 0 ≤ i then (toString i.toNat).toList
      else '-' :: (toString (-i).toNat).toList := by
  rw [Int.toString_eq_repr, Int.repr_eq_if]
  split
  · rfl
  · rw [String.toList_append]
    rfl

theorem solid_toString_int (i : Int) : Solid (toString i).toList := by
  rw [toList_toString_int]
  split
  · exact solid_toString _
  · exact (solid_toString _).cons (by decide)

theorem isNumeral_toString (i : Int) : isNumeral (toString i).toList = true := by
  rw [toList_toString_int]
  split
  · rw [isNumeral, splitSign_toString]
    exact allDigits_toString _
  · exact allDigits_toString _

theorem leadingInt_toString {i : Int} (hi : -0x8000_0000_0000_0000 < i)
    (hi' : i < 0x8000_0000_0000_0000) : leadingInt (toString i).toList = i := by
  rw [leadingInt, (solid_toString_int i).trimStart, toList_toString_int]
  by_cases h : 0 ≤ i
  · rw [if_pos h, splitSign_toString]
    simp only [digits_toString, value_toString, Bool.false_eq_true, if_false]
    omega
  · rw [if_neg h]
    simp only [splitSign, digits_toString, value_toString, if_true]
    omega

end Chars

namespace Text

theorem trim_of_solid {s : String} (h : Chars.Solid s.toList) : trim s = s := by
  rw [trim, h.trim, String.ofList_toList]

/-- The first of two words with a space between them. -/
theorem splitWord_space {w v : String} (hw : Chars.Solid w.toList) (hv : Chars.Solid v.toList)
    (rest : String) : splitWord (w ++ " " ++ (v ++ rest)) = (w, v ++ rest) := by
  have htext : (w ++ " " ++ (v ++ rest)).toList =
      w.toList ++ ' ' :: (v.toList ++ rest.toList) := by simp
  have hspace : Chars.trimStart (' ' :: (v.toList ++ rest.toList)) = v.toList ++ rest.toList :=
    hv.trimStart_append _
  have hblank : ∀ c, (' ' :: (v.toList ++ rest.toList)).head? = some c →
      Chars.isBlank c = true := fun c hc => Option.some.inj hc ▸ rfl
  rw [splitWord, htext, hw.splitWord_append hblank, hspace, ← String.toList_append]
  exact Prod.ext String.ofList_toList String.ofList_toList

theorem isBlank_of_solid {s : String} (h : Chars.Solid s.toList) : isBlank s = false := by
  obtain ⟨c, hc⟩ := List.exists_mem_of_ne_nil _ h.ne_nil
  rw [isBlank, List.all_eq_false]
  exact ⟨c, hc, by simp [h.solid c hc]⟩

theorem isBlank_prefix {s t : String} (h : t.toList <+: s.toList) (hs : isBlank s = true) :
    isBlank t = true := by
  rw [isBlank, List.all_eq_true] at hs ⊢
  exact fun c hc => hs c (h.subset hc)

/-- A line feed ends the first line, and a carriage return before it is no part of it. -/
theorem lines_append {l : String} (h : '\n' ∉ l.toList) (rest : String) :
    ∃ l', lines (l ++ ("\n" ++ rest)) = l' :: lines rest ∧ (l = l' ∨ l = l' ++ "\r") := by
  obtain ⟨cs, hcs, he⟩ := Chars.lines_lineFeed h rest.toList
  refine ⟨String.ofList cs, ?_, he.imp (fun he => ?_) fun he => ?_⟩
  · rw [lines, String.toList_append, String.toList_append]
    exact congrArg (List.map String.ofList) hcs
  · rw [← he, String.ofList_toList]
  · rw [← String.toList_inj, he, String.toList_append, String.toList_ofList]
    rfl

theorem trimEnd_lines_append {l : String} (h : '\n' ∉ l.toList) (rest : String) :
    ∃ l', lines (l ++ ("\n" ++ rest)) = l' :: lines rest ∧ trimEnd l' = trimEnd l ∧
      trim l' = trim l := by
  obtain ⟨l', hl, rfl | rfl⟩ := lines_append h rest
  · exact ⟨l, hl, rfl, rfl⟩
  · refine ⟨l', hl, ?_, ?_⟩
    · rw [trimEnd, trimEnd, String.toList_append]
      exact congrArg String.ofList (Chars.trimEnd_append_blank _ rfl).symm
    · rw [trim, trim, String.toList_append]
      exact congrArg String.ofList (Chars.trim_append_blank _ rfl).symm

/-- A line that does not end with a blank is kept as it is. -/
theorem lines_append_of_trimEnd {l : String} (h : '\n' ∉ l.toList)
    (hl : Chars.trimEnd l.toList = l.toList) (rest : String) :
    lines (l ++ ("\n" ++ rest)) = l :: lines rest := by
  obtain ⟨l', hl', rfl | rfl⟩ := lines_append h rest
  · exact hl'
  · rw [String.toList_append, show "\r".toList = ['\r'] from rfl,
      Chars.trimEnd_append_blank _ rfl] at hl
    have hlen := congrArg List.length hl
    have hle : (Chars.trimEnd l'.toList).length ≤ l'.toList.length := by
      rw [Chars.trimEnd, List.length_reverse, ← l'.toList.length_reverse]
      exact (List.dropWhile_sublist _).length_le
    simp at hlen
    omega

/-- A text has as many lines as any end of it, or more. -/
theorem length_lines_append_le (s rest : String) :
    (lines rest).length ≤ (lines (s ++ rest)).length := by
  have hchars : ∀ cs ds : List Char, (Chars.lines ds).length ≤ (Chars.lines (cs ++ ds)).length := by
    intro cs ds
    induction cs with
    | nil => exact Nat.le_refl _
    | cons c cs ih =>
      refine Nat.le_trans ih ?_
      rw [List.cons_append]
      generalize cs ++ ds = es
      by_cases hcr : c = '\r' ∧ ∃ fs, es = '\n' :: fs
      · obtain ⟨rfl, fs, rfl⟩ := hcr
        exact Nat.le_refl _
      · rw [Chars.lines.eq_3 c es fun fs hc he => hcr ⟨hc, fs, he⟩]
        split
        · exact Nat.le_succ _
        · split
          · rename_i he
            rw [he]
            exact Nat.zero_le _
          · rename_i he
            rw [he]
            exact Nat.le_refl _
  simpa only [lines, List.length_map, String.toList_append] using hchars s.toList rest.toList

end Text

end MudTrigger
