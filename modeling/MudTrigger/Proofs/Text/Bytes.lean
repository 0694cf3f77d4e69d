import MudTrigger.Text.Phrase

/-!
# The bytes of a text

`Text.bytes` are the bytes of a text in UTF-8. A character of ASCII is one byte, its code, and no other
character has a byte below 128 (`Chars.encode_ascii`, `Chars.encode_other`). So letters are lowered in
the bytes as they are in the characters (`Bytes.fold_chars`), and the maximal runs of bytes without
blanks and punctuation marks of ASCII are the bytes of such runs of characters (`Bytes.runs_chars`).
-/

set_option autoImplicit false

namespace MudTrigger

/-- The maximal runs of a list in which `p` does not hold. -/
def runs {α : Type} (p : α → Bool) (l : List α) : List (List α) :=
  (l.splitOnP p).filter (!·.isEmpty)

namespace Bytes

/-- An ASCII blank or an ASCII punctuation mark. -/
def isBoundary (b : UInt8) : Bool :=
  let n := b.toNat
  (n == 32 || n == 9 || n == 10 || n == 12 || n == 13) ||
    ((33 ≤ n && n ≤ 47) || (58 ≤ n && n ≤ 64) || (91 ≤ n && n ≤ 96) || (123 ≤ n && n ≤ 126))

/-- Lowers the letters A to Z. -/
def fold (bs : List UInt8) : List UInt8 :=
  bs.map fun b => if 65 ≤ b.toNat ∧ b.toNat ≤ 90 then b + 32 else b

/-- The maximal runs of bytes that are neither ASCII blanks nor ASCII punctuation marks. -/
def runs (bs : List UInt8) : List (List UInt8) := MudTrigger.runs isBoundary bs

end Bytes

/-- The bytes of the characters in UTF-8. -/
def Chars.bytes (cs : List Char) : List UInt8 := cs.flatMap String.utf8EncodeChar

/-- The bytes of a text in UTF-8. -/
def Text.bytes (s : String) : List UInt8 := s.toUTF8.data.toList

theorem Text.bytes_eq (s : String) : bytes s = Chars.bytes s.toList := by
  conv => lhs; rw [← String.ofList_toList (s := s)]
  rw [bytes, String.toUTF8_eq_toByteArray, String.toByteArray_ofList, List.utf8Encode]
  simp [Chars.bytes]

namespace Chars

variable {c : Char} {cs ds : List Char}

@[simp] theorem bytes_nil : bytes [] = [] := rfl

@[simp] theorem bytes_cons (c : Char) (cs : List Char) :
    bytes (c :: cs) = String.utf8EncodeChar c ++ bytes cs := List.flatMap_cons

theorem bytes_injective (h : bytes cs = bytes ds) : cs = ds := by
  have hs : Text.bytes (String.ofList cs) = Text.bytes (String.ofList ds) := by
    rw [Text.bytes_eq, Text.bytes_eq, String.toList_ofList, String.toList_ofList, h]
  have hs : (String.ofList cs).toByteArray = (String.ofList ds).toByteArray :=
    ByteArray.ext (Array.toList_inj.1 hs)
  exact String.ofList_injective (String.toByteArray_inj.1 hs)

/-! ## Letters -/

theorem toNat_toLower (h : 65 ≤ c.toNat ∧ c.toNat ≤ 90) : c.toLower.toNat = c.toNat + 32 := by
  have hc : c.val ≥ 'A'.val ∧ c.val ≤ 'Z'.val := h
  have hlt : c.toNat + 32 < 0x1_0000_0000 := by omega
  have hlow : c.toLower.val = c.val + 32 := congrArg Char.val (dif_pos hc)
  show c.toLower.val.toNat = c.val.toNat + 32
  rw [hlow, UInt32.toNat_add]
  exact Nat.mod_eq_of_lt hlt

theorem toLower_eq_self (h : ¬ (65 ≤ c.toNat ∧ c.toNat ≤ 90)) : c.toLower = c := by
  have hc : ¬ (c.val ≥ 'A'.val ∧ c.val ≤ 'Z'.val) := h
  exact dif_neg hc

/-! ## Characters of ASCII, and the others -/

theorem encode_ascii (h : c.toNat < 128) : String.utf8EncodeChar c = [UInt8.ofNat c.toNat] := by
  have h : c.val.toNat ≤ 127 := Nat.lt_succ_iff.1 h
  rw [String.utf8EncodeChar, if_pos h]
  rfl

theorem encode_other (h : 128 ≤ c.toNat) : ∀ b ∈ String.utf8EncodeChar c, 128 ≤ b.toNat := by
  have h : ¬ c.val.toNat ≤ 127 := Nat.not_le.2 h
  intro b hb
  rw [String.utf8EncodeChar, if_neg h] at hb
  -- The bytes of a longer code are remainders to which 128 or more is added.
  split at hb
  · simp only [List.mem_cons, List.not_mem_nil, or_false] at hb
    rcases hb with rfl | rfl <;> rw [UInt8.toNat_ofNat'] <;> omega
  · split at hb
    · simp only [List.mem_cons, List.not_mem_nil, or_false] at hb
      rcases hb with rfl | rfl | rfl <;> rw [UInt8.toNat_ofNat'] <;> omega
    · simp only [List.mem_cons, List.not_mem_nil, or_false] at hb
      rcases hb with rfl | rfl | rfl | rfl <;> rw [UInt8.toNat_ofNat'] <;> omega

theorem bytes_eq_nil : bytes cs = [] ↔ cs = [] := by
  cases cs <;> simp

/-! ## Boundaries -/

theorem isBoundary_ascii (h : c.toNat < 128) :
    Bytes.isBoundary (UInt8.ofNat c.toNat) = isBoundary c := by
  have hcode : ∀ d : Char, (c == d) = (c.toNat == d.toNat) := fun d => by
    rw [Bool.eq_iff_iff, beq_iff_eq, beq_iff_eq, Char.toNat_inj]
  rw [Bytes.isBoundary, UInt8.toNat_ofNat', Nat.mod_eq_of_lt (by omega)]
  simp only [isBoundary, isAsciiBlank, isPunctuation, hcode]
  rfl

theorem isBoundary_other (h : 128 ≤ c.toNat) : isBoundary c = false := by
  have hcode : ∀ d : Char, d.toNat < 128 → (c == d) = false := fun d hd =>
    beq_eq_false_iff_ne.2 fun he => by rw [he] at h; omega
  simp only [isBoundary, isAsciiBlank, isPunctuation, Bool.or_eq_false_iff, Bool.and_eq_false_iff,
    decide_eq_false_iff_not]
  refine ⟨⟨⟨⟨⟨?_, ?_⟩, ?_⟩, ?_⟩, ?_⟩, ?_⟩
  all_goals first
    | exact hcode _ (by decide)
    | omega

theorem isBoundary_letter (h : 65 ≤ c.toNat ∧ c.toNat ≤ 90 ∨ 97 ≤ c.toNat ∧ c.toNat ≤ 122) :
    isBoundary c = false := by
  rw [← isBoundary_ascii (by omega), Bytes.isBoundary, UInt8.toNat_ofNat',
    Nat.mod_eq_of_lt (by omega)]
  simp only [Bool.or_eq_false_iff, Bool.and_eq_false_iff, decide_eq_false_iff_not,
    beq_eq_false_iff_ne]
  omega

theorem isBoundary_toLower (c : Char) : isBoundary c.toLower = isBoundary c := by
  by_cases hu : 65 ≤ c.toNat ∧ c.toNat ≤ 90
  · have hlow := toNat_toLower hu
    rw [isBoundary_letter (.inl hu), isBoundary_letter (.inr (by omega))]
  · rw [toLower_eq_self hu]

/-- A boundary is one byte. -/
theorem encode_boundary (h : isBoundary c = true) :
    ∃ b, String.utf8EncodeChar c = [b] ∧ Bytes.isBoundary b = true := by
  have hc : c.toNat < 128 := Nat.lt_of_not_le fun hc => by
    rw [isBoundary_other hc] at h
    cases h
  exact ⟨_, encode_ascii hc, (isBoundary_ascii hc).trans h⟩

/-- Another character has no boundary among its bytes. -/
theorem encode_not_boundary (h : isBoundary c = false) :
    ∀ b ∈ String.utf8EncodeChar c, Bytes.isBoundary b = false := by
  intro b hb
  by_cases hc : c.toNat < 128
  · rw [encode_ascii hc, List.mem_singleton] at hb
    rw [hb, isBoundary_ascii hc, h]
  · have hb := encode_other (Nat.not_lt.1 hc) b hb
    simp only [Bytes.isBoundary, Bool.or_eq_false_iff, Bool.and_eq_false_iff,
      decide_eq_false_iff_not, beq_eq_false_iff_ne]
    omega

end Chars

/-! ## Runs -/

theorem splitOnP_append {α : Type} {p : α → Bool} {l : List α} (h : ∀ x ∈ l, p x = false)
    (rest : List α) : (l ++ rest).splitOnP p = (rest.splitOnP p).modifyHead (l ++ ·) := by
  induction l with
  | nil => exact (congrFun List.modifyHead_id _).symm
  | cons x l ih =>
    obtain ⟨hx, hl⟩ := List.forall_mem_cons.1 h
    rw [List.cons_append, List.splitOnP_cons_eq_if_modifyHead, hx, ih hl]
    simp [List.modifyHead_modifyHead, Function.comp_def]

namespace Bytes

/-- Bytes are split where characters are. -/
theorem splitOnP_chars (cs : List Char) :
    (Chars.bytes cs).splitOnP isBoundary = (cs.splitOnP Chars.isBoundary).map Chars.bytes := by
  induction cs with
  | nil => rfl
  | cons c cs ih =>
    rw [Chars.bytes_cons, List.splitOnP_cons_eq_if_modifyHead]
    cases hc : Chars.isBoundary c with
    | true =>
      obtain ⟨b, hb, hboundary⟩ := Chars.encode_boundary hc
      rw [hb, List.singleton_append, List.splitOnP_cons_eq_if_modifyHead, hboundary, ih]
      rfl
    | false =>
      rw [splitOnP_append (Chars.encode_not_boundary hc), ih]
      cases cs.splitOnP Chars.isBoundary <;> simp

/-- The runs of the bytes are the bytes of the runs. -/
theorem runs_chars (cs : List Char) :
    runs (Chars.bytes cs) = (MudTrigger.runs Chars.isBoundary cs).map Chars.bytes := by
  rw [runs, MudTrigger.runs, splitOnP_chars, List.filter_map, MudTrigger.runs]
  congr 1
  refine List.filter_congr fun l _ => ?_
  cases l <;> simp

/-! ## Letters -/

theorem fold_other {bs : List UInt8} (h : ∀ b ∈ bs, ¬ (65 ≤ b.toNat ∧ b.toNat ≤ 90)) :
    fold bs = bs := by
  rw [fold, List.map_congr_left fun b hb => if_neg (h b hb), List.map_id']

theorem fold_encode (c : Char) :
    fold (String.utf8EncodeChar c) = String.utf8EncodeChar c.toLower := by
  by_cases hu : 65 ≤ c.toNat ∧ c.toNat ≤ 90
  · have hlow := Chars.toNat_toLower hu
    have hcode : (UInt8.ofNat c.toNat).toNat = c.toNat := by
      rw [UInt8.toNat_ofNat', Nat.mod_eq_of_lt (by omega)]
    rw [Chars.encode_ascii (by omega), Chars.encode_ascii (c := c.toLower) (by omega), fold,
      List.map_singleton, if_pos (by omega), hlow, UInt8.ofNat_add]
    rfl
  · rw [Chars.toLower_eq_self hu]
    refine fold_other fun b hb => ?_
    by_cases hc : c.toNat < 128
    · rw [Chars.encode_ascii hc, List.mem_singleton] at hb
      rw [hb, UInt8.toNat_ofNat', Nat.mod_eq_of_lt (by omega)]
      exact hu
    · have hb := Chars.encode_other (Nat.not_lt.1 hc) b hb
      omega

theorem fold_chars (cs : List Char) : fold (Chars.bytes cs) = Chars.bytes (Chars.fold cs) := by
  induction cs with
  | nil => rfl
  | cons c cs ih =>
    rw [Chars.bytes_cons, fold, List.map_append, ← fold, ← fold, fold_encode, ih]
    rfl

end Bytes

end MudTrigger
