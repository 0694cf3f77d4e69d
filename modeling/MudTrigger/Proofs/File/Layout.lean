import MudTrigger.Trigger.File
import MudTrigger.Proofs.Text.Lines

/-!
# The layout of a trigger file

A `Draft` is a record as it is written: the lines of blanks before it, and its fields, each of a form
that the notation has room for. A `Layout` is a file of drafts. `Layout.text` writes it down, and
`Draft.prototype` is what a draft means. The notation has two ways to write a set of bits, a number or
a letter for each bit (`FlagField`).
-/

set_option autoImplicit false

namespace MudTrigger

namespace TriggerFile

/-- The text of lines, each of which ends at a line feed. -/
def terminated : List String → String
  | [] => ""
  | l :: ls => l ++ ("\n" ++ terminated ls)

/-- A line of blanks. -/
def IsGap (l : String) : Prop := '\n' ∉ l.toList ∧ Text.isBlank l = true

/-- A line that does not end a text: apart from blanks, its last character is not `~`. -/
def GoesOn (l : String) : Prop :=
  '\n' ∉ l.toList ∧ (Chars.trimEnd l.toList).getLast? ≠ some '~'

/-- A text that none of its lines ends, the last one apart. -/
def RunsOn (s : String) : Prop :=
  ∀ l ∈ (s.toList.splitOn '\n').dropLast, (Chars.trimEnd l).getLast? ≠ some '~'

/-- A text whose lines neither end with a blank nor with `~`. -/
def Tidy (s : String) : Prop :=
  ∀ l ∈ s.toList.splitOn '\n', Chars.trimEnd l = l ∧ l.getLast? ≠ some '~'

instance (l : String) : Decidable (IsGap l) := inferInstanceAs (Decidable (_ ∧ _))

instance (l : String) : Decidable (GoesOn l) := inferInstanceAs (Decidable (_ ∧ _))

instance (s : String) : Decidable (RunsOn s) :=
  inferInstanceAs (Decidable (∀ l ∈ (s.toList.splitOn '\n').dropLast,
    (Chars.trimEnd l).getLast? ≠ some '~'))

instance (s : String) : Decidable (Tidy s) :=
  inferInstanceAs (Decidable (∀ l ∈ s.toList.splitOn '\n', Chars.trimEnd l = l ∧
    l.getLast? ≠ some '~'))

/-- The letter of a bit: `a` to `z` and then `A` to `Z`. -/
def letter (n : Fin 52) : Char :=
  if n.val < 26 then Char.ofNat ('a'.toNat + n) else Char.ofNat ('A'.toNat + (n - 26))

/-- How a set of bits is written. -/
inductive FlagField where
  /-- As a number. -/
  | mask (bits : Bits) (fits : bits < 0x1_0000_0000_0000_0000)
  /-- As the letters of its bits, of which there is at least one. -/
  | letters (first : Fin 52) (more : List (Fin 52))

namespace FlagField

def text : FlagField → String
  | mask bits _ => toString bits
  | letters first more => String.ofList ((first :: more).map letter)

/-- The set with a bit more. -/
def add (b : Bits) (n : Fin 52) : Bits := Bits.union b (Bits.bit n)

/-- The set that is written. -/
def bits : FlagField → Bits
  | mask bits _ => bits
  | letters first more => (first :: more).foldl add 0

end FlagField

/-- A number of 32 bits with sign. -/
def Fits32 (i : Int) : Prop := -0x8000_0000 ≤ i ∧ i < 0x8000_0000

instance (i : Int) : Decidable (Fits32 i) := inferInstanceAs (Decidable (_ ∧ _))

/-- A record as it is written, with the lines of blanks before it. -/
structure Draft where
  gap : List String := []
  gap_blank : ∀ l ∈ gap, IsGap l := by decide
  vnum : Vnum
  vnum_fits : Fits32 vnum := by decide
  name : String
  name_runsOn : RunsOn name := by decide
  kind : Kind
  flags : FlagField
  /-- The numeric argument; it may be left out. -/
  narg : Option Int
  narg_fits : ∀ n ∈ narg, Fits32 n := by decide
  arg : String
  arg_runsOn : RunsOn arg := by decide
  body : List String
  body_goesOn : ∀ l ∈ body, GoesOn l := by decide

namespace Draft

variable (d : Draft)

/-- The kind, the flags and the numeric argument. -/
def header : String :=
  toString d.kind.code ++ " " ++ d.flags.text ++ d.narg.elim "" fun n => " " ++ toString n

def text : String :=
  "#" ++ toString d.vnum ++ "\n" ++ d.name ++ "~\n" ++ d.header ++ "\n" ++ d.arg ++ "~\n" ++
    terminated d.body ++ "~\n"

/-- The prototype that is written. -/
def prototype : Prototype where
  vnum := d.vnum
  name := d.name
  kind := d.kind
  events := d.flags.bits
  narg := d.narg.getD 0
  arg := d.arg
  script := Script.compile (terminated d.body)

end Draft

/-- Records one after another. -/
def recordsText : List Draft → String
  | [] => ""
  | d :: ds => terminated d.gap ++ d.text ++ recordsText ds

/-- A file: its records, the lines of blanks after them, and what follows the line with `$`. -/
structure Layout where
  drafts : List Draft
  gap : List String := []
  gap_blank : ∀ l ∈ gap, IsGap l := by decide
  after : Option String := none

namespace Layout

variable (file : Layout)

/-- All that stands before the `$`. -/
def opening : String := recordsText file.drafts ++ terminated file.gap

def text : String := file.opening ++ "$" ++ file.after.elim "" fun after => "\n" ++ after

end Layout

/-! ## Texts of several lines -/

/-- A text is made of lines that end at line feeds, and a last one. -/
theorem exists_lines (s : String) :
    ∃ ls last, s = terminated ls ++ last ∧ '\n' ∉ last.toList ∧ (∀ l ∈ ls, '\n' ∉ l.toList) ∧
      s.toList.splitOn '\n' = ls.map String.toList ++ [last.toList] := by
  induction hn : s.toList.length using Nat.strongRecOn generalizing s with
  | _ n ih =>
    by_cases hm : '\n' ∈ s.toList
    · obtain ⟨cs, ds, hs, hcs⟩ := List.eq_append_cons_of_mem hm
      obtain ⟨ls, last, hds, hlast, hls, hsplit⟩ := ih ds.length
        (by rw [← hn, hs]; simp; omega) (String.ofList ds) (by rw [String.toList_ofList])
      refine ⟨String.ofList cs :: ls, last, ?_, hlast,
        List.forall_mem_cons.2 ⟨by rwa [String.toList_ofList], hls⟩, ?_⟩
      · rw [terminated, String.append_assoc, String.append_assoc, ← hds, ← String.toList_inj, hs]
        simp
      · rw [String.toList_ofList] at hsplit
        rw [hs, List.splitOn_append_cons_self, List.splitOn_eq_singleton hcs, hsplit,
          List.map_cons, String.toList_ofList, List.singleton_append, List.cons_append]
    · exact ⟨[], s, by simp [terminated], hm, by simp, by simp [List.splitOn_eq_singleton hm]⟩

theorem RunsOn.lines {s : String} (h : RunsOn s) :
    ∃ ls last, s = terminated ls ++ last ∧ '\n' ∉ last.toList ∧ ∀ l ∈ ls, GoesOn l := by
  obtain ⟨ls, last, hs, hlast, hls, hsplit⟩ := exists_lines s
  rw [RunsOn, hsplit, List.dropLast_concat] at h
  exact ⟨ls, last, hs, hlast, fun l hl => ⟨hls l hl, h _ (List.mem_map_of_mem hl)⟩⟩

theorem Tidy.lines {s : String} (h : Tidy s) :
    ∃ ls last, s = terminated ls ++ last ∧ '\n' ∉ last.toList ∧
      ∀ l ∈ ls, GoesOn l ∧ Text.trimEnd l = l := by
  obtain ⟨ls, last, hs, hlast, hls, hsplit⟩ := exists_lines s
  refine ⟨ls, last, hs, hlast, fun l hl => ?_⟩
  obtain ⟨hend, htilde⟩ := h l.toList (by
    rw [hsplit]
    exact List.mem_append_left _ (List.mem_map_of_mem hl))
  refine ⟨⟨hls l hl, ?_⟩, ?_⟩
  · rwa [hend]
  · rw [Text.trimEnd, hend, String.ofList_toList]

/-! ## Flags -/

namespace FlagField

theorem letterBit?_letter (n : Fin 52) : Bits.letterBit? (letter n) = some n.val := by
  revert n
  decide

theorem isAlphanum_letter (n : Fin 52) : (letter n).isAlphanum = true := by
  revert n
  decide

theorem isDigit_letter (n : Fin 52) : (letter n).isDigit = false := by
  revert n
  decide

theorem solid_text (f : FlagField) : Chars.Solid f.text.toList := by
  cases f with
  | mask bits => exact Chars.solid_toString bits
  | letters first more =>
    rw [text, String.toList_ofList]
    refine ⟨List.cons_ne_nil _ _, fun c hc => ?_⟩
    obtain ⟨n, -, rfl⟩ := List.mem_map.1 hc
    exact isBlank_of_alphanum (isAlphanum_letter n)

theorem ofLetters_map (ns : List (Fin 52)) :
    Bits.ofLetters (ns.map letter) = ns.foldl add 0 := by
  rw [Bits.ofLetters, List.foldl_map]
  simp only [letterBit?_letter]
  rfl

/-- A field is read as the set that is written. -/
theorem ofField_text (f : FlagField) : Bits.ofField f.text = f.bits := by
  cases f with
  | mask bits fits =>
    rw [Bits.ofField, text, if_pos (Chars.allDigits_toString bits), Chars.natBelow?,
      Chars.allDigits_toString, Chars.value_toString, decide_eq_true fits]
    rfl
  | letters first more =>
    have hdigits : Chars.allDigits ((first :: more).map letter) = false := by
      simp [Chars.allDigits, isDigit_letter]
    rw [Bits.ofField, text, String.toList_ofList, hdigits, if_neg Bool.false_ne_true, ofLetters_map,
      bits]

/-- The set has the bits whose letters are written. -/
theorem testBit_bits (first : Fin 52) (more : List (Fin 52)) (k : Nat) :
    (letters first more).bits.testBit k = true ↔ ∃ n ∈ first :: more, n.val = k := by
  have hfold : ∀ (ns : List (Fin 52)) (b : Bits),
      (ns.foldl add b).testBit k = true ↔ b.testBit k = true ∨ ∃ n ∈ ns, n.val = k := by
    intro ns
    induction ns with
    | nil => simp
    | cons n ns ih =>
      intro b
      rw [List.foldl_cons, ih, add, Bits.union, Bits.bit, Nat.testBit_or, Bool.or_eq_true,
        Nat.one_shiftLeft, Nat.testBit_two_pow]
      simp [or_assoc]
  rw [bits, hfold]
  simp

end FlagField

end TriggerFile

end MudTrigger
