import MudTrigger.Proofs.Text.Encoding
import MudTrigger.Text.Phrase

/-!
# Abbreviations are told by bytes

A word abbreviates an entry if it is the beginning of the entry up to the case of ASCII letters
(`Chars.abbreviates_iff`). That can be told by the bytes of the two alone (`Text.BeginsWith`): where the
first bytes of the entry are those of the word, they are whole characters.
`Text.abbreviates_by_bytes` says so of all that looks for abbreviations.
-/

set_option autoImplicit false

namespace MudTrigger

/-- The first bytes of `entry` are those of `word`, up to the case of ASCII letters. -/
def Text.BeginsWith (entry word : String) : Prop :=
  Bytes.fold ((bytes entry).take (bytes word).length) = Bytes.fold (bytes word)

instance (entry word : String) : Decidable (Text.BeginsWith entry word) :=
  inferInstanceAs (Decidable (_ = _))

namespace Chars

variable {word entry : List Char}

theorem length_bytes_fold (cs : List Char) : (bytes (fold cs)).length = (bytes cs).length := by
  rw [← Bytes.fold_chars, Bytes.fold, List.length_map]

theorem byteSize_fold (cs : List Char) : byteSize (fold cs) = byteSize cs := by
  rw [byteSize_eq, byteSize_eq, length_bytes_fold]

theorem abbreviates_iff : abbreviates word entry = true ↔ fold word <+: fold entry := by
  have hcut : abbreviates word entry = true ↔
      ∃ front back, cut? (byteSize word) entry = some (front, back) ∧ fold front = fold word := by
    unfold abbreviates
    cases cut? (byteSize word) entry with
    | none => simp
    | some p =>
      constructor
      · exact fun h => ⟨p.1, p.2, rfl, beq_iff_eq.1 h⟩
      · rintro ⟨_, _, ⟨⟩, h⟩
        exact beq_iff_eq.2 h
  rw [hcut, fold, fold, List.prefix_map_iff]
  constructor
  · rintro ⟨front, back, hsome, he⟩
    obtain ⟨rfl, -⟩ := cut?_eq_some.1 hsome
    exact ⟨front, List.prefix_append front back, he.symm⟩
  · rintro ⟨front, ⟨back, rfl⟩, he⟩
    refine ⟨front, back, cut?_eq_some.2 ⟨rfl, ?_⟩, he.symm⟩
    rw [← byteSize_fold, ← byteSize_fold word, fold, fold, he]

end Chars

namespace Text

variable {word entry : String}

theorem beginsWith_iff :
    BeginsWith entry word ↔ Chars.fold word.toList <+: Chars.fold entry.toList := by
  have htake : Bytes.fold ((bytes entry).take (bytes word).length) =
      (Bytes.fold (bytes entry)).take (bytes word).length := List.map_take
  rw [BeginsWith, htake, bytes_eq, bytes_eq, ← Chars.bytes_prefix, List.prefix_iff_eq_take,
    Chars.length_bytes_fold, Bytes.fold_chars, Bytes.fold_chars, eq_comm]

theorem abbreviates_iff : abbreviates word entry = true ↔ BeginsWith entry word := by
  rw [abbreviates, Chars.abbreviates_iff, beginsWith_iff]

theorem abbreviates_eq (word : String) :
    abbreviates word = fun entry => decide (BeginsWith entry word) := by
  funext entry
  rw [Bool.eq_iff_iff, abbreviates_iff, decide_eq_true_iff]

/-- A beginning ends where a character ends. -/
theorem BeginsWith.isBorder (h : BeginsWith entry word) :
    Bytes.IsBorder (bytes entry) (bytes word).length := by
  have ha := abbreviates_iff.2 h
  rw [bytes_eq, bytes_eq, ← Chars.byteSize_eq, ← Chars.isSome_cut?]
  rw [abbreviates, Chars.abbreviates] at ha
  cases hcut : Chars.cut? (Chars.byteSize word.toList) entry.toList with
  | none =>
    rw [hcut] at ha
    cases ha
  | some p => rfl

/-- A text is cut just at the borders, into the bytes before and those behind. -/
theorem isBorder_iff_cut (s : String) (n : Nat) :
    Bytes.IsBorder (bytes s) n ↔ ∃ front back, Chars.cut? n s.toList = some (front, back) ∧
      Chars.bytes front = (bytes s).take n ∧ Chars.bytes back = (bytes s).drop n := by
  rw [bytes_eq, ← Chars.isSome_cut?]
  constructor
  · intro h
    obtain ⟨⟨front, back⟩, hcut⟩ := Option.isSome_iff_exists.1 h
    obtain ⟨hs, rfl⟩ := Chars.cut?_eq_some.1 hcut
    refine ⟨front, back, hcut, ?_, ?_⟩
    · rw [hs, Chars.bytes_append, Chars.byteSize_eq, List.take_left']
      rfl
    · rw [hs, Chars.bytes_append, Chars.byteSize_eq, List.drop_left']
      rfl
  · rintro ⟨front, back, hcut, -⟩
    rw [hcut]
    rfl

/--
Whoever looks for abbreviations finds what the bytes say: a name, an entry of a list and the argument of
a command trigger are abbreviated by what their first bytes are, up to the case of ASCII letters. The cut
after these bytes is always one between characters, and a text is cut at such borders only.
-/
theorem abbreviates_by_bytes :
    (∀ word names, isName word names = true ↔
      word ≠ "" ∧ ∃ name ∈ words names, BeginsWith name word) ∧
    (∀ arg entries, position? arg entries false =
      if arg = "" then none else entries.findIdx? fun entry => decide (BeginsWith entry arg)) ∧
    (∀ arg command, matchesCommand arg command = true ↔
      isStar arg = true ∨ trim command ≠ "" ∧ BeginsWith arg (trim command)) ∧
    (∀ word entry, BeginsWith entry word → Bytes.IsBorder (bytes entry) (bytes word).length) ∧
    ∀ entry n, Bytes.IsBorder (bytes entry) n ↔
      ∃ front back, Chars.cut? n entry.toList = some (front, back) ∧
        Chars.bytes front = (bytes entry).take n ∧ Chars.bytes back = (bytes entry).drop n := by
  refine ⟨fun word names => ?_, fun arg entries => ?_, fun arg command => ?_,
    fun _ _ => BeginsWith.isBorder, isBorder_iff_cut⟩
  · rw [isName, Bool.and_eq_true, bne_iff_ne, List.any_eq_true]
    simp only [abbreviates_iff]
  · rw [position?, abbreviates_eq]
    rfl
  · rw [matchesCommand, Bool.or_eq_true, Bool.and_eq_true, bne_iff_ne, abbreviates_iff]

/-- A letter beyond ASCII is not cut in two, and is told apart by its case. -/
theorem abbreviates_by_bytes_elan :
    BeginsWith "Élan vital" "ÉLAN" ∧ Bytes.IsBorder (bytes "Élan vital") (bytes "ÉLAN").length ∧
    isName "ÉLAN" "verve Élan" = true ∧ position? "é" ["Élan", "élite"] false = some 1 ∧
    matchesCommand "élan" " É " = false ∧ ¬ Bytes.IsBorder (bytes "Élan vital") 1 := by
  obtain ⟨hname, hposition, hcommand, hborder, hcut⟩ := abbreviates_by_bytes
  have hbegins : BeginsWith "Élan vital" "ÉLAN" := by decide +kernel
  refine ⟨hbegins, hborder _ _ hbegins, ?_, ?_, ?_, ?_⟩
  · exact (hname _ _).2 (by decide +kernel)
  · rw [hposition]
    decide +kernel
  · exact Bool.eq_false_iff.2 (mt (hcommand _ _).1 (by decide +kernel))
  · have hnone : Chars.cut? 1 "Élan vital".toList = none := by decide +kernel
    rw [hcut, hnone]
    nofun

end Text

end MudTrigger
