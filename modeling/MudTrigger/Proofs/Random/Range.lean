import MudTrigger.Proofs.Text.Bytes
import MudTrigger.Proofs.Text.Numbers
import MudTrigger.Proofs.Text.Parts

/-!
# Random numbers stay in range

Whatever words a source gives, the high half of a word times the size of a range is below that size
(`Source.below_lt`), so a number that is drawn from a range lies in it (`Source.number_bounds`). A draw
refuses words until one is accepted; `Source.Gives` is such a draw that may go on for ever, and it
stays in range as well; the two are the same unless very many words are refused. Hence the rolls of a
hundred at both ends, and the numbers that scripts get, from one to the number that they name
(`number_in_range`).
-/

set_option autoImplicit false

namespace MudTrigger

namespace Source

variable {σ : Type} {bits range tries k n : Nat} {next : σ → Nat × σ} {s s' : σ}

/-! ## The high half of a product -/

theorem high_lt {w : Nat} (hw : w < 1 <<< bits) (hr : 0 < range) : (w * range) >>> bits < range := by
  rw [Nat.one_shiftLeft] at hw
  rw [Nat.shiftRight_eq_div_pow]
  exact Nat.div_lt_of_lt_mul (Nat.mul_lt_mul_of_pos_right hw hr)

/-- However many words may be refused, the number is below the size of the range. -/
theorem below_lt (hnext : ∀ s, (next s).1 < 1 <<< bits) (hr : 0 < range) (tries : Nat) (s : σ) :
    (below bits range next tries s).1 < range := by
  induction tries generalizing s with
  | zero => exact high_lt (hnext s) hr
  | succ tries ih =>
    rw [below]
    split
    · exact high_lt (hnext s) hr
    · exact ih (next s).2

/-! ## Draws that refuse words without end -/

/-- From the state `s`, `k` words are refused, and the next one is accepted and gives `n`. -/
inductive Draws (bits range : Nat) (next : σ → Nat × σ) : Nat → σ → Nat → σ → Prop
  | accepted {s : σ} : (next s).1 * range % (1 <<< bits) ≤ zone bits range →
    Draws bits range next 0 s (((next s).1 * range) >>> bits) (next s).2
  | refused {k : Nat} {s : σ} {n : Nat} {s' : σ} : zone bits range < (next s).1 * range % (1 <<< bits) →
    Draws bits range next k (next s).2 n s' → Draws bits range next (k + 1) s n s'

theorem Draws.lt (h : Draws bits range next k s n s') (hnext : ∀ s, (next s).1 < 1 <<< bits)
    (hr : 0 < range) : n < range := by
  induction h with
  | accepted => exact high_lt (hnext _) hr
  | refused _ _ ih => exact ih

/-- The draws of a source are these, as long as not too many words are refused. -/
theorem Draws.below_eq (h : Draws bits range next k s n s') (hk : k ≤ tries) :
    Source.below bits range next tries s = (n, s') := by
  induction h generalizing tries with
  | accepted hacc =>
    cases tries with
    | zero => rfl
    | succ tries => rw [Source.below, if_pos hacc]
  | refused hrej _ ih =>
    obtain ⟨tries, rfl⟩ := Nat.exists_eq_succ_of_ne_zero (Nat.ne_zero_of_lt hk)
    rw [Source.below, if_neg (Nat.not_le.2 hrej), ih (Nat.le_of_succ_le_succ hk)]

/-- A number from `low` to `high` is drawn, and `k` words are refused for it. -/
inductive Gives (src : Source σ) (low high : Int) : Nat → σ → Int → σ → Prop
  | only {s : σ} : high ≤ low → Gives src low high 0 s low s
  | word {s : σ} : low < high → span low high = 0 →
    Gives src low high 0 s (Width.wrap64 (src.word64 s).1) (src.word64 s).2
  | drawn {k : Nat} {s : σ} {n : Nat} {s' : σ} : low < high → span low high ≠ 0 →
    Draws 64 (span low high) src.word64 k s n s' →
    Gives src low high k s (Width.wrap64 (low + n)) s'

section

variable {src : Source σ} {low high r : Int}

theorem number_of_le (h : high ≤ low) : src.number low high s = (low, s) := by
  rw [number, if_pos h]

theorem number_of_span (hlt : low < high) (hspan : span low high = 0) :
    src.number low high s = (Width.wrap64 (src.word64 s).1, (src.word64 s).2) := by
  rw [number, if_neg (Int.not_le.2 hlt), if_pos hspan]

theorem number_of_ne (hlt : low < high) (hspan : span low high ≠ 0) :
    src.number low high s =
      (Width.wrap64 (low + (below 64 (span low high) src.word64 patience s).1),
        (below 64 (span low high) src.word64 patience s).2) := by
  rw [number, if_neg (Int.not_le.2 hlt), if_neg hspan]

theorem Gives.number_eq (h : src.Gives low high k s r s') (hk : k ≤ patience) :
    src.number low high s = (r, s') := by
  cases h with
  | only hle => exact number_of_le hle
  | word hlt hspan => exact number_of_span hlt hspan
  | drawn hlt hspan hd => rw [number_of_ne hlt hspan, hd.below_eq hk]

end

/-! ## The size of a range and its ends -/

theorem wrap64_eq {i : Int} (hl : -0x8000_0000_0000_0000 ≤ i) (hh : i < 0x8000_0000_0000_0000) :
    Width.wrap64 i = i := by
  exact Int.bmod_eq_of_le hl (Int.lt_of_lt_of_le hh (by decide))

theorem le_wrap64 (i : Int) : -0x8000_0000_0000_0000 ≤ Width.wrap64 i :=
  Int.le_bmod (by decide)

theorem wrap64_le (i : Int) : Width.wrap64 i ≤ 0x7FFF_FFFF_FFFF_FFFF :=
  Int.bmod_le (by decide)

section

variable {low high : Int} (hl : -0x8000_0000_0000_0000 ≤ low) (hh : high < 0x8000_0000_0000_0000)
  (hlt : low < high)
include hl hh hlt

/-- Only the range of all 64-bit integers has size zero. -/
theorem wrap64_bounds_of_span (hspan : span low high = 0) (i : Int) :
    low ≤ Width.wrap64 i ∧ Width.wrap64 i ≤ high := by
  have hleast := le_wrap64 i
  have hgreatest := wrap64_le i
  unfold span at hspan
  omega

/-- Adding to the low end does not leave the range, and so it does not wrap around. -/
theorem wrap64_add_bounds (hn : n < span low high) :
    low ≤ Width.wrap64 (low + n) ∧ Width.wrap64 (low + n) ≤ high := by
  unfold span at hn
  rw [wrap64_eq (by omega) (by omega)]
  omega

end

section

variable {src : Source σ} {low high r : Int} (hl : -0x8000_0000_0000_0000 ≤ low)
  (hh : high < 0x8000_0000_0000_0000)
include hl hh

theorem number_bounds (s : σ) :
    low ≤ (src.number low high s).1 ∧ (src.number low high s).1 ≤ max low high := by
  rcases Int.lt_or_le low high with hlt | hle
  · rw [Int.max_eq_right (Int.le_of_lt hlt)]
    by_cases hspan : span low high = 0
    · rw [number_of_span hlt hspan]
      dsimp only
      exact wrap64_bounds_of_span hl hh hlt hspan _
    · rw [number_of_ne hlt hspan]
      exact wrap64_add_bounds hl hh hlt
        (below_lt src.word64_lt (Nat.pos_of_ne_zero hspan) patience s)
  · rw [number_of_le hle]
    exact ⟨Int.le_refl _, Int.le_max_left _ _⟩

theorem Gives.bounds (h : src.Gives low high k s r s') : low ≤ r ∧ r ≤ max low high := by
  cases h with
  | only => exact ⟨Int.le_refl _, Int.le_max_left _ _⟩
  | word hlt hspan =>
    rw [Int.max_eq_right (Int.le_of_lt hlt)]
    exact wrap64_bounds_of_span hl hh hlt hspan _
  | drawn hlt hspan hd =>
    rw [Int.max_eq_right (Int.le_of_lt hlt)]
    exact wrap64_add_bounds hl hh hlt (hd.lt src.word64_lt (Nat.pos_of_ne_zero hspan))

end

/-- A roll of a hundred is within the chance if its number is. -/
theorem percent_iff {src : Source σ} {chance : Int} :
    (src.percent chance s).1 = true ↔ (src.number 1 100 s).1 ≤ chance := by
  rw [percent, decide_eq_true_iff]

theorem percent_high {src : Source σ} {chance : Int} (hc : 100 ≤ chance) (s : σ) :
    (src.percent chance s).1 = true :=
  percent_iff.2 (Int.le_trans (number_bounds (by decide) (by decide) s).2 hc)

theorem percent_low {src : Source σ} {chance : Int} (hc : chance ≤ 0) (s : σ) :
    (src.percent chance s).1 = false := by
  rw [Bool.eq_false_iff]
  intro ht
  have hone : 1 ≤ (src.number 1 100 s).1 := (number_bounds (by decide) (by decide) s).1
  exact absurd (Int.le_trans hone (Int.le_trans (percent_iff.1 ht) hc)) (by decide)

end Source

/-! ## Numbers for scripts -/

theorem Chars.fold_digits {ds : List Char} (h : ∀ c ∈ ds, c.isDigit = true) : fold ds = ds := by
  refine (List.map_congr_left fun c hc => ?_).trans (List.map_id ds)
  have hle : c.toNat ≤ 57 := (Char.isDigit_iff_toNat.1 (h c hc)).2
  exact toLower_eq_self (by omega)

/-- Reading digits gives their value, unless that has more than 63 bits. -/
theorem Chars.leadingInt_digits {ds : List Char} (h : ∀ c ∈ ds, c.isDigit = true) :
    leadingInt ds = min (value ds : Int) 0x7FFF_FFFF_FFFF_FFFF := by
  rw [leadingInt_eq_clamp, written_digits h]
  omega

namespace Scene

variable {s : Scene} {field : String} {d : Draft}

/-- A field that starts with a number from one on is a draw from one to that number. -/
theorem randomField_number (hpos : 0 < Text.leadingInt field) :
    (s.randomField field d).1 = toString (d.dice.number 1 (Text.leadingInt field)).1 := by
  unfold randomField
  split
  · exact absurd hpos (by decide)
  · exact absurd hpos (by decide)
  · exact absurd hpos (by decide)
  · rw [if_pos hpos]
    rfl

/-- Unless a variable has its name, `random` is a pseudo-object. -/
theorem token_random {value : String} (hs : s.valueOf? "random" = none) (hf : field ≠ "") :
    s.token "random" field value = s.randomField (Text.fold field) := by
  have hself : isSelf "random" = false := by decide
  have hfold : Text.fold "random" = "random" := by decide
  simp only [token, if_neg hf, hs, hself, Bool.false_eq_true, if_false, pseudoField, hfold]

/-- The token `%random.f%`. -/
def random (f : FieldName) : Part := .field ⟨"random", by decide, by simp⟩ f

theorem expand_random {f : FieldName} (hs : s.valueOf? "random" = none)
    (hpos : 0 < Text.leadingInt (Text.fold f.text)) :
    (s.expand (String.ofList (Part.written [random f])) d).1 =
      toString (d.dice.number 1 (Text.leadingInt (Text.fold f.text))).1 := by
  have hmeaning : (s.meanings [random f] d).1 = (s.token "random" f.text "" d).1 ++ "" := rfl
  have hclosed : ∀ p ∈ [random f], p.IsClosed := by simp [random, Part.IsClosed]
  rw [expand_eq_meanings hclosed, hmeaning, String.append_empty, token_random hs f.nonempty,
    randomField_number hpos]

/-- Digits are the text of a field. -/
theorem exists_field {digits : List Char} (hne : digits ≠ [])
    (hd : ∀ c ∈ digits, c.isDigit = true) : ∃ f : FieldName, f.text = String.ofList digits := by
  refine ⟨⟨String.ofList digits, by simpa using hne, fun c hc => ?_⟩, rfl⟩
  rw [String.toList_ofList] at hc
  exact ⟨fun he => absurd (he ▸ hd c hc) (by decide), fun he => absurd (he ▸ hd c hc) (by decide)⟩

/-- Unless a variable has its name, `random` with digits for a field is a draw from one to the number
that they write. -/
theorem expand_random_digits {digits : List Char} (hs : s.valueOf? "random" = none)
    (hd : ∀ c ∈ digits, c.isDigit = true) (hpos : 0 < Chars.value digits) :
    (s.expand (String.ofList ("%random.".toList ++ digits ++ ['%'])) d).1 =
      toString (d.dice.number 1 (min (Chars.value digits : Int) 0x7FFF_FFFF_FFFF_FFFF)).1 := by
  have hne : digits ≠ [] := by
    rintro rfl
    exact absurd hpos (by decide)
  obtain ⟨f, hf⟩ := exists_field hne hd
  have hwritten : Part.written [random f] = "%random.".toList ++ digits ++ ['%'] := by
    simp [random, Part.written, Part.chars, hf]
  have hnumber : Text.leadingInt (Text.fold f.text) =
      min (Chars.value digits : Int) 0x7FFF_FFFF_FFFF_FFFF := by
    rw [hf, Text.leadingInt, Text.fold, String.toList_ofList, String.toList_ofList,
      Chars.fold_digits hd, Chars.leadingInt_digits hd]
  rw [← hwritten, expand_random hs (by rw [hnumber]; omega), hnumber]

end Scene

/-- Whatever words a source gives, a number that is drawn from `low` to `high` lies there, or is `low` if
there is none there, also where the draw refuses words without end. A chance of a hundred always comes
off, one of zero never does, and scripts get numbers in range. -/
theorem number_in_range {σ : Type} (src : Source σ) (s : σ) :
    (∀ low high : Int64,
      let r := (src.number low.toInt high.toInt s).1
      low.toInt ≤ r ∧ r ≤ max low.toInt high.toInt ∧
      ∀ k r s', src.Gives low.toInt high.toInt k s r s' →
        low.toInt ≤ r ∧ r ≤ max low.toInt high.toInt ∧
        (k ≤ Source.patience → src.number low.toInt high.toInt s = (r, s'))) ∧
    (∀ chance, (100 ≤ chance → (src.percent chance s).1 = true) ∧
      (chance ≤ 0 → (src.percent chance s).1 = false)) ∧
    ∀ (scene : Scene) (digits : List Char) (d : Draft), scene.valueOf? "random" = none →
      (∀ c ∈ digits, c.isDigit = true) → 0 < Chars.value digits →
      ∃ r : Int, (scene.expand (String.ofList ("%random.".toList ++ digits ++ ['%'])) d).1 = toString r ∧
        1 ≤ r ∧ r ≤ Chars.value digits := by
  refine ⟨fun low high => ?_, fun chance => ⟨fun hc => Source.percent_high hc s,
    fun hc => Source.percent_low hc s⟩, fun scene digits d hs hd hpos => ?_⟩
  · have hl : -0x8000_0000_0000_0000 ≤ low.toInt := low.le_toInt
    have hh : high.toInt < 0x8000_0000_0000_0000 := high.toInt_lt
    have hnumber : low.toInt ≤ (src.number low.toInt high.toInt s).1 ∧
        (src.number low.toInt high.toInt s).1 ≤ max low.toInt high.toInt :=
      Source.number_bounds hl hh s
    exact ⟨hnumber.1, hnumber.2, fun k r s' h => ⟨(h.bounds hl hh).1, (h.bounds hl hh).2, h.number_eq⟩⟩
  · have hmin : min (Chars.value digits : Int) 0x7FFF_FFFF_FFFF_FFFF < 0x8000_0000_0000_0000 := by
      omega
    have hnumber : ∀ n : Int, n < 0x8000_0000_0000_0000 →
        1 ≤ (d.dice.number 1 n).1 ∧ (d.dice.number 1 n).1 ≤ max 1 n := fun n hn =>
      Source.number_bounds (by decide) hn d.dice
    obtain ⟨hone, hmax⟩ := hnumber _ hmin
    refine ⟨_, Scene.expand_random_digits hs hd hpos, hone, ?_⟩
    omega

/-- A die with a side below zero, both ends of a chance, and a script that rolls a die. -/
theorem number_in_range_dice :
    let src := Dice.source
    let d := Dice.ofSeed 42
    (∃ k r d', src.Gives (-2) 3 k d r d' ∧ -2 ≤ r ∧ r ≤ 3 ∧ src.number (-2) 3 d = (r, d')) ∧
    (src.percent 100 d).1 = true ∧ (src.percent 0 d).1 = false ∧
    ∃ r : Int, (Scene.quoting.expand "%random.06%" { dice := d }).1 = toString r ∧ 1 ≤ r ∧ r ≤ 6 := by
  intro src d
  obtain ⟨hnumber, hpercent, hrandom⟩ := number_in_range src d
  have hacc : (src.word64 d).1 * 6 % (1 <<< 64) ≤ Source.zone 64 6 := by decide +kernel
  have hgives : src.Gives (-2) 3 0 d (Width.wrap64 (-2 + ((src.word64 d).1 * 6) >>> 64))
      (src.word64 d).2 := .drawn (by decide) (by decide) (.accepted hacc)
  obtain ⟨hlow, hhigh, heq⟩ := (hnumber (-2) 3).2.2 _ _ _ hgives
  exact ⟨⟨_, _, _, hgives, hlow, hhigh, heq (Nat.zero_le _)⟩, (hpercent 100).1 (by decide),
    (hpercent 0).2 (by decide),
    hrandom Scene.quoting ['0', '6'] { dice := d } (by decide +kernel)
      (List.all_eq_true.1 (by decide)) (by decide)⟩

end MudTrigger
