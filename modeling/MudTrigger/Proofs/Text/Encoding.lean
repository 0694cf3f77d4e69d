import MudTrigger.Proofs.Text.Bytes
import Mathlib.Data.List.Lex
import Mathlib.Data.List.Infix

/-!
# What the bytes of a text say about its characters

The code of a character is written to base 64, its digits carried by one to four bytes of which only the
first can stand where a character begins (`Chars.Encoded`). So the bytes of a text fall apart into
characters in one way only: a text whose bytes begin with the bytes of another begins with that text
(`Chars.bytes_prefix`), and texts are ordered as their bytes are (`Chars.bytes_lt`).

`Bytes.IsBorder` tells from the bytes alone whether a cut falls between two characters. A text is cut
there and nowhere else (`Chars.isSome_cut?`).
-/

set_option autoImplicit false

namespace MudTrigger

open String (utf8EncodeChar)

namespace Bytes

/-- Every byte of a character but the first lies from 128 to 191. -/
def continues (b : UInt8) : Bool := 128 ≤ b.toNat && b.toNat < 192

/-- A cut before the byte with this number falls at an end of the text or where a character begins. -/
def IsBorder (bs : List UInt8) (n : Nat) : Prop :=
  n = 0 ∨ n = bs.length ∨ ∃ b, bs[n]? = some b ∧ continues b = false

end Bytes

namespace Chars

variable {c d : Char} {cs ds front back : List Char} {s t : List UInt8} {n : Nat}

/-! ## Single characters -/

/-- The code of a character as digits to base 64, and the bytes that carry these digits. -/
inductive Encoded (c : Char) : List UInt8 → Prop
  | one (a : Nat) : a < 128 → c.toNat = a → Encoded c [UInt8.ofNat a]
  | two (a b : Nat) : 128 ≤ c.toNat → a < 32 → b < 64 → c.toNat = a * 64 + b →
    Encoded c [UInt8.ofNat (a + 192), UInt8.ofNat (b + 128)]
  | three (a b e : Nat) : 2048 ≤ c.toNat → a < 16 → b < 64 → e < 64 →
    c.toNat = (a * 64 + b) * 64 + e →
    Encoded c [UInt8.ofNat (a + 224), UInt8.ofNat (b + 128), UInt8.ofNat (e + 128)]
  | four (a b e f : Nat) : 65536 ≤ c.toNat → a < 8 → b < 64 → e < 64 → f < 64 →
    c.toNat = ((a * 64 + b) * 64 + e) * 64 + f →
    Encoded c [UInt8.ofNat (a + 240), UInt8.ofNat (b + 128), UInt8.ofNat (e + 128),
      UInt8.ofNat (f + 128)]

theorem encoded (c : Char) : Encoded c (utf8EncodeChar c) := by
  have hc : c.val.toNat < 0x11_0000 := by
    rcases c.valid with hv | hv <;> omega
  have hn : c.toNat = c.val.toNat := rfl
  unfold utf8EncodeChar
  simp only
  split
  · exact .one _ (by omega) rfl
  · split
    · exact .two _ _ (by omega) (by omega) (by omega) (by omega)
    · split
      · exact .three _ _ _ (by omega) (by omega) (by omega) (by omega) (by omega)
      · exact .four _ _ _ _ (by omega) (by omega) (by omega) (by omega) (by omega) (by omega)

/-- The first byte of a character begins it, and the others continue it. -/
theorem Encoded.lead (h : Encoded c s) :
    ∃ b bs, s = b :: bs ∧ Bytes.continues b = false ∧ ∀ x ∈ bs, Bytes.continues x = true := by
  have hbyte : ∀ a, a < 256 → (UInt8.ofNat a).toNat = a := fun a ha => by
    rw [UInt8.toNat_ofNat', Nat.mod_eq_of_lt ha]
  have hfirst : ∀ a, a < 128 ∨ 192 ≤ a → a < 256 → Bytes.continues (UInt8.ofNat a) = false :=
    fun a ha hlt => by
      rw [Bytes.continues, hbyte a hlt, Bool.and_eq_false_iff, decide_eq_false_iff_not,
        decide_eq_false_iff_not]
      omega
  have hother : ∀ b, b < 64 → Bytes.continues (UInt8.ofNat (b + 128)) = true := fun b hb => by
    rw [Bytes.continues, hbyte _ (by omega), Bool.and_eq_true, decide_eq_true_eq, decide_eq_true_eq]
    omega
  cases h with
  | one a ha => exact ⟨_, _, rfl, hfirst a (.inl ha) (by omega), nofun⟩
  | two a b _ ha hb =>
    refine ⟨_, _, rfl, hfirst _ (by omega) (by omega), ?_⟩
    simp only [List.forall_mem_cons, hother b hb, true_and]
    nofun
  | three a b e _ ha hb he =>
    refine ⟨_, _, rfl, hfirst _ (by omega) (by omega), ?_⟩
    simp only [List.forall_mem_cons, hother b hb, hother e he, true_and]
    nofun
  | four a b e f _ ha hb he hf =>
    refine ⟨_, _, rfl, hfirst _ (by omega) (by omega), ?_⟩
    simp only [List.forall_mem_cons, hother b hb, hother e he, hother f hf, true_and]
    nofun

/-- Characters are ordered as their bytes are. -/
theorem encode_lt (h : c < d) : utf8EncodeChar c < utf8EncodeChar d := by
  have h : c.toNat < d.toNat := h
  have hc := encoded c
  have hd := encoded d
  generalize utf8EncodeChar c = s at hc
  generalize utf8EncodeChar d = t at hd
  -- The lengths or, where they are the same, the digits decide.
  cases hc <;> cases hd <;>
    simp only [List.cons_lt_cons_iff, UInt8.lt_iff_toNat_lt, ← UInt8.toNat_inj,
      UInt8.toNat_ofNat'] <;>
    omega

/-- The bytes of a character tell where it ends, and which one it is. -/
theorem encode_append_inj (h : utf8EncodeChar c ++ s = utf8EncodeChar d ++ t) : c = d := by
  have hdecode : ∀ (c : Char) (s : List UInt8),
      (utf8EncodeChar c ++ s).toByteArray.utf8DecodeChar? 0 = some c := fun c s => by
    rw [List.toByteArray_append]
    exact ByteArray.utf8DecodeChar?_utf8EncodeChar_append
  have hc := hdecode c s
  rw [h, hdecode d t] at hc
  exact (Option.some.inj hc).symm

/-! ## Beginnings of texts -/

theorem bytes_append (cs ds : List Char) : bytes (cs ++ ds) = bytes cs ++ bytes ds :=
  List.flatMap_append

/-- A text begins with another if its bytes do. -/
theorem bytes_prefix : bytes cs <+: bytes ds ↔ cs <+: ds := by
  constructor
  · intro h
    induction cs generalizing ds with
    | nil => exact List.nil_prefix
    | cons c cs ih =>
      obtain ⟨t, ht⟩ := h
      cases ds with
      | nil => exact absurd (List.append_eq_nil_iff.1 ht).1 (mt bytes_eq_nil.1 (List.cons_ne_nil c cs))
      | cons d ds =>
        rw [bytes_cons, bytes_cons, List.append_assoc] at ht
        obtain rfl := encode_append_inj ht
        exact (List.prefix_cons_inj c).2 (ih ⟨t, List.append_cancel_left ht⟩)
  · rintro ⟨es, rfl⟩
    exact ⟨bytes es, (bytes_append cs es).symm⟩

/-! ## The order of texts -/

theorem append_lt_append (h : s < t) (hp : ¬ s <+: t) (s' t' : List UInt8) :
    s ++ s' < t ++ t' := by
  rw [← List.lex_lt] at h ⊢
  induction h with
  | nil => exact absurd List.nil_prefix hp
  | cons _ ih => exact .cons (ih (mt (List.prefix_cons_inj _).2 hp))
  | rel hlt => exact .rel hlt

theorem bytes_lt_of_lt (h : cs < ds) : bytes cs < bytes ds := by
  rw [← List.lex_lt] at h
  induction h with
  | @nil d ds =>
    obtain ⟨b, bs, hbytes⟩ := List.exists_cons_of_ne_nil (mt bytes_eq_nil.1 (List.cons_ne_nil d ds))
    rw [hbytes, bytes_nil]
    exact List.nil_lt_cons b bs
  | @cons c cs ds _ ih =>
    rw [bytes_cons, bytes_cons]
    exact List.append_left_lt ih
  | @rel c cs d ds hlt =>
    rw [bytes_cons, bytes_cons]
    refine append_lt_append (encode_lt hlt) (fun hp => ?_) _ _
    obtain ⟨t, ht⟩ := hp
    rw [encode_append_inj (ht.trans (List.append_nil _).symm)] at hlt
    exact Char.lt_irrefl d hlt

/-- Texts are ordered as their bytes are. -/
theorem bytes_lt : bytes cs < bytes ds ↔ cs < ds := by
  refine ⟨fun h => ?_, bytes_lt_of_lt⟩
  rcases Std.lt_trichotomy cs ds with hlt | rfl | hgt
  · exact hlt
  · exact absurd h (List.lt_irrefl _)
  · exact absurd h (List.lt_asymm (bytes_lt_of_lt hgt))

/-! ## Cuts -/

theorem byteSize_eq (cs : List Char) : byteSize cs = (bytes cs).length := by
  induction cs with
  | nil => rfl
  | cons c cs ih =>
    rw [bytes_cons, List.length_append, String.length_utf8EncodeChar, ← ih]
    rfl

@[simp] theorem byteSize_nil : byteSize [] = 0 := rfl

@[simp] theorem byteSize_cons (c : Char) (cs : List Char) :
    byteSize (c :: cs) = c.utf8Size + byteSize cs := rfl

theorem byteSize_eq_zero : byteSize cs = 0 ↔ cs = [] := by
  cases cs with
  | nil => exact iff_of_true rfl rfl
  | cons c cs =>
    have hc := c.utf8Size_pos
    rw [byteSize_cons]
    exact iff_of_false (by omega) (List.cons_ne_nil c cs)

theorem cut?_zero : cut? 0 cs = some (front, back) ↔ cs = front ++ back ∧ byteSize front = 0 := by
  rw [cut?, byteSize_eq_zero]
  constructor
  · rintro ⟨⟩
    exact ⟨rfl, rfl⟩
  · rintro ⟨rfl, rfl⟩
    rfl

/-- A cut gives the characters before it and those behind it. -/
theorem cut?_eq_some : cut? n cs = some (front, back) ↔ cs = front ++ back ∧ byteSize front = n := by
  induction cs generalizing n front with
  | nil =>
    cases n with
    | zero => exact cut?_zero
    | succ n =>
      refine iff_of_false nofun fun h => ?_
      obtain ⟨rfl, -⟩ := List.append_eq_nil_iff.1 h.1.symm
      cases h.2
  | cons c cs ih =>
    cases n with
    | zero => exact cut?_zero
    | succ n =>
      have hc := c.utf8Size_pos
      rw [cut?]
      cases front with
      | nil =>
        refine iff_of_false (fun h => ?_) fun h => nomatch h.2
        split at h
        · obtain ⟨p, -, hp⟩ := Option.map_eq_some_iff.1 h
          cases hp
        · cases h
      | cons d front =>
        rw [List.cons_append, List.cons.injEq, byteSize_cons]
        constructor
        · intro h
          split at h
          · rename_i hle
            obtain ⟨⟨front', back'⟩, hp, he⟩ := Option.map_eq_some_iff.1 h
            cases he
            obtain ⟨rfl, hsize⟩ := ih.1 hp
            exact ⟨⟨rfl, rfl⟩, show c.utf8Size + byteSize front' = n + 1 by omega⟩
          · cases h
        · rintro ⟨⟨rfl, rfl⟩, hsize⟩
          rw [if_pos (by omega), ih.2 ⟨rfl, show byteSize front = n + 1 - c.utf8Size by omega⟩]
          rfl

/-- Behind a whole character the borders are those of the rest. -/
theorem isBorder_append (hs : s ≠ []) (n : Nat) :
    Bytes.IsBorder (s ++ bytes cs) (s.length + n) ↔ Bytes.IsBorder (bytes cs) n := by
  have hfirst : ∀ b, (bytes cs)[0]? = some b → Bytes.continues b = false := fun b hb => by
    cases cs with
    | nil => cases hb
    | cons c cs =>
      obtain ⟨x, xs, hx, hlead, -⟩ := (encoded c).lead
      rw [bytes_cons, hx] at hb
      cases hb
      exact hlead
  have hpos := List.length_pos_iff.2 hs
  rw [Bytes.IsBorder, Bytes.IsBorder, List.length_append,
    List.getElem?_append_right (Nat.le_add_right _ _), Nat.add_sub_cancel_left]
  constructor
  · rintro (h | h | h)
    · omega
    · exact .inr (.inl (by omega))
    · exact .inr (.inr h)
  · rintro (rfl | h | h)
    · cases hb : bytes cs with
      | nil => exact .inr (.inl rfl)
      | cons b bs =>
        rw [hb] at hfirst
        exact .inr (.inr ⟨b, rfl, hfirst b rfl⟩)
    · exact .inr (.inl (by omega))
    · exact .inr (.inr h)

/-- Within a character there is no border. -/
theorem not_isBorder_within (hn : n ≠ 0) (hlt : n < c.utf8Size) (t : List UInt8) :
    ¬ Bytes.IsBorder (utf8EncodeChar c ++ t) n := by
  obtain ⟨b, bs, hbytes, -, hrest⟩ := (encoded c).lead
  have hlen : bs.length + 1 = c.utf8Size := by
    rw [← String.length_utf8EncodeChar, hbytes, List.length_cons]
  rintro (h | h | ⟨x, hx, hc⟩)
  · exact hn h
  · rw [hbytes, List.cons_append, List.length_cons, List.length_append] at h
    omega
  · obtain ⟨n, rfl⟩ := Nat.exists_eq_succ_of_ne_zero hn
    rw [hbytes, List.cons_append, List.getElem?_cons_succ,
      List.getElem?_append_left (by omega)] at hx
    rw [hrest x (List.mem_of_getElem? hx)] at hc
    cases hc

/-- A text is cut where a character begins or the text ends, and nowhere else. -/
theorem isSome_cut? (n : Nat) (cs : List Char) :
    (cut? n cs).isSome = true ↔ Bytes.IsBorder (bytes cs) n := by
  induction cs generalizing n with
  | nil =>
    cases n with
    | zero => exact ⟨fun _ => .inl rfl, fun _ => rfl⟩
    | succ n =>
      refine ⟨nofun, ?_⟩
      rintro (h | h | ⟨b, hb, -⟩)
      · cases h
      · cases h
      · cases hb
  | cons c cs ih =>
    cases n with
    | zero => exact ⟨fun _ => .inl rfl, fun _ => rfl⟩
    | succ n =>
      rw [cut?, bytes_cons]
      split
      · rename_i hle
        have hne : utf8EncodeChar c ≠ [] := List.ne_nil_of_length_pos (by
          rw [String.length_utf8EncodeChar]
          exact c.utf8Size_pos)
        have hborder : Bytes.IsBorder (utf8EncodeChar c ++ bytes cs)
            ((utf8EncodeChar c).length + (n + 1 - c.utf8Size)) ↔
              Bytes.IsBorder (bytes cs) (n + 1 - c.utf8Size) := isBorder_append hne _
        rw [String.length_utf8EncodeChar, Nat.add_sub_cancel' hle] at hborder
        rw [Option.isSome_map, ih, hborder]
      · rename_i hgt
        exact iff_of_false nofun (not_isBorder_within (Nat.succ_ne_zero n) (by omega) _)

end Chars

end MudTrigger
