import MudTrigger.Game.Delay
import MudTrigger.Proofs.Text.Numbers

/-!
# Waiting until a time of day

A time of day is written with a colon or as one number, with zeros before the digits
(`Delay.Clock`). Where the minutes of a day can be counted in pulses of 64 bits, a wait until a time of
day ends at the first later pulse of that time, and a text whose hour or minute is not one of a day is
refused (`Delay.until_lands`). The texts are read without bounds for this (`Delay.writtenParts`): the
bounds of the reader make no difference.
-/

set_option autoImplicit false

namespace MudTrigger.Delay

/-! ## Times of day as they are written -/

/-- Digits that write `n`, with or without zeros before them. -/
def IsNumber (n : Nat) (cs : List Char) : Prop := Chars.allDigits cs = true ∧ Chars.value cs = n

/-- The texts of a time of day: with a colon, or as one number. -/
inductive Clock (hour minute : Nat) : List Char → Prop
  | colon {hours minutes : List Char} (hh : IsNumber hour hours) (hm : IsNumber minute minutes) :
      Clock hour minute (hours ++ ':' :: minutes)
  | number {digits : List Char} (h : IsNumber (100 * hour + minute) digits) :
      Clock hour minute digits

/-- The argument of a wait until the time that `clock` writes, blanks around both left out. -/
def IsUntil (clock : List Char) (arg : String) : Prop :=
  ∃ word rest : List Char, Chars.trim arg.toList = word ++ ' ' :: rest ∧
    Chars.fold word = "until".toList ∧ Chars.trim rest = clock

/-- The hour and the minute that a text writes, however large they are. -/
def writtenParts (cs : List Char) : Int × Int :=
  match cs.dropWhile (· != ':') with
  | _ :: minutes => (Chars.written (cs.takeWhile (· != ':')), Chars.written minutes)
  | [] => ((Chars.written cs).tdiv 100, (Chars.written cs).tmod 100)

/-- An hour and a minute of a day. -/
def InDay (p : Int × Int) : Prop := 0 ≤ p.1 ∧ p.1 < 24 ∧ 0 ≤ p.2 ∧ p.2 < 60

variable {c : Config} {pulse hour minute : Nat} {cs clock : List Char} {arg : String}

theorem written_of_isNumber {n : Nat} (h : IsNumber n cs) : Chars.written cs = n := by
  obtain ⟨hdigits, hvalue⟩ := h
  rw [Chars.written_digits (Chars.allDigits_iff.1 hdigits).2, hvalue]

theorem ne_colon_of_isNumber {n : Nat} (h : IsNumber n cs) : ∀ c ∈ cs, (c != ':') = true := by
  intro c hc
  have hdigit := (Chars.allDigits_iff.1 h.1).2 c hc
  rw [bne_iff_ne]
  rintro rfl
  cases hdigit

/-- A time of day is read as its hour and its minute. -/
theorem Clock.writtenParts (h : Clock hour minute cs) (hm : minute < 60) :
    Delay.writtenParts cs = ((hour : Int), (minute : Int)) := by
  cases h with
  | @colon hours minutes hh hmin =>
    have hdrop : (hours ++ ':' :: minutes).dropWhile (· != ':') = ':' :: minutes :=
      List.dropWhile_append_of_pos (ne_colon_of_isNumber hh)
    have htake : (hours ++ ':' :: minutes).takeWhile (· != ':') = hours := by
      rw [List.takeWhile_append_of_pos (ne_colon_of_isNumber hh)]
      exact List.append_nil _
    rw [Delay.writtenParts, hdrop, htake]
    simp only [written_of_isNumber hh, written_of_isNumber hmin]
  | number h =>
    have hdrop : cs.dropWhile (· != ':') = [] :=
      List.dropWhile_eq_nil_iff.2 (ne_colon_of_isNumber h)
    rw [Delay.writtenParts, hdrop]
    simp only [written_of_isNumber h, Prod.mk.injEq]
    rw [Int.tdiv_eq_ediv_of_nonneg (by omega), Int.tmod_eq_emod_of_nonneg (by omega)]
    omega

/-! ## The bounds of the reader -/

/-- The parts of a time of day come from a small number. -/
theorem lt_of_inDay_split {i : Int} (h : InDay (i.tdiv 100, i.tmod 100)) : 0 ≤ i ∧ i < 2400 := by
  obtain ⟨h1, h2, h3, h4⟩ := h
  have hsum := Int.mul_tdiv_add_tmod i 100
  simp only at h1 h2 h3 h4
  omega

/-- What is read is what is written, where either is a time of day. -/
theorem clockParts_eq (h : InDay (clockParts cs) ∨ InDay (writtenParts cs)) :
    clockParts cs = writtenParts cs := by
  rw [clockParts, writtenParts] at h ⊢
  cases hdrop : cs.dropWhile (· != ':') with
  | nil =>
    rw [hdrop] at h
    have hread := Chars.leadingInt_eq_clamp cs
    have heq : Chars.leadingInt cs = Chars.written cs := by
      rcases h with h | h
      · have hlt := lt_of_inDay_split h
        omega
      · have hlt := lt_of_inDay_split h
        omega
    simp only [heq]
  | cons c minutes =>
    rw [hdrop] at h
    have hhour := Chars.leadingInt_eq_clamp (cs.takeWhile (· != ':'))
    have hminute := Chars.leadingInt_eq_clamp minutes
    simp only [InDay] at h
    refine Prod.ext ?_ ?_
    · change Chars.leadingInt _ = Chars.written _
      omega
    · change Chars.leadingInt _ = Chars.written _
      omega

/-- What is read fits 64 bits with sign. -/
theorem natAbs_clockParts (cs : List Char) : (clockParts cs).1.natAbs < 0x8000_0000_0000_0000 ∧
    (clockParts cs).2.natAbs < 0x8000_0000_0000_0000 := by
  have hread (ds : List Char) : (Chars.leadingInt ds).natAbs < 0x8000_0000_0000_0000 := by
    have hclamp := Chars.leadingInt_eq_clamp ds
    omega
  rw [clockParts]
  split
  · exact ⟨hread _, hread _⟩
  · have hcs := hread cs
    rw [Int.natAbs_tdiv, Int.natAbs_tmod]
    refine ⟨?_, ?_⟩
    · exact Nat.lt_of_le_of_lt (Nat.div_le_self _ _) hcs
    · exact Nat.lt_of_le_of_lt (Nat.mod_le _ _) hcs

theorem minuteOfDay?_of_inDay (h : InDay (writtenParts cs)) :
    minuteOfDay? cs = some ((writtenParts cs).1.toNat * 60 + (writtenParts cs).2.toNat) := by
  rw [minuteOfDay?, clockParts_eq (.inr h)]
  exact if_pos h

theorem minuteOfDay?_of_not_inDay (h : ¬ InDay (writtenParts cs)) : minuteOfDay? cs = none := by
  have hread : ¬ InDay (clockParts cs) := by
    intro hday
    rw [clockParts_eq (.inl hday)] at hday
    exact h hday
  rw [minuteOfDay?]
  exact if_neg hread

/-! ## The delay -/

/-- A wait until a time of day comes down to the minute that the time is read as. -/
theorem pulses_of_isUntil (h : IsUntil clock arg) :
    pulses c pulse hour arg = match (minuteOfDay? clock).bind (untilMinute? c pulse hour) with
      | some n => .ok n
      | none => .error .badTime := by
  obtain ⟨word, rest, htrim, hword, rfl⟩ := h
  have hlength : word.length = 5 := by
    rw [← List.length_map (f := Char.toLower), ← Chars.fold, hword]
    rfl
  have hstart : Chars.startsWith "until ".toList (word ++ ' ' :: rest) = true := by
    have hfold : Chars.fold (word ++ ' ' :: rest) = "until ".toList ++ Chars.fold rest := by
      rw [Chars.fold, List.map_append, ← Chars.fold, hword]
      rfl
    rw [Chars.startsWith, hfold, List.isPrefixOf_iff_prefix]
    exact ⟨Chars.fold rest, rfl⟩
  have hdrop : (word ++ ' ' :: rest).drop "until ".length = rest := by
    rw [show "until ".length = word.length + 1 by rw [hlength]; rfl, ← List.drop_drop,
      List.drop_left]
    rfl
  have hafter : afterUntil? (word ++ ' ' :: rest) = some (Chars.trim rest) := by
    rw [afterUntil?, if_pos hstart, hdrop]
  have hne : word ++ ' ' :: rest ≠ [] := by simp
  rw [pulses, htrim]
  generalize word ++ ' ' :: rest = text at hafter hne
  cases text with
  | nil => exact absurd rfl hne
  | cons _ _ =>
    cases hread : (minuteOfDay? (Chars.trim rest)).bind (untilMinute? c pulse hour) with
    | none => simp only [hafter, hread]
    | some n => simp only [hafter, hread]

/-- The pulses to a minute of the day lead from now to that minute, today or tomorrow. -/
theorem untilMinute?_lands {minuteOfDay : Nat} (hpos : 0 < c.pulsesPerMudHour)
    (hday : 1440 * c.pulsesPerMudHour < 0x1_0000_0000_0000_0000) (hhour : hour < 24)
    (hminute : minuteOfDay < 1440) :
    ∃ d, untilMinute? c pulse hour minuteOfDay = some d ∧ 1 ≤ d ∧ d ≤ 24 * c.pulsesPerMudHour ∧
      (pulse % c.pulsesPerMudHour + hour * c.pulsesPerMudHour + d) % (24 * c.pulsesPerMudHour) =
        minuteOfDay * c.pulsesPerMudHour / 60 := by
  rw [untilMinute?]
  generalize c.pulsesPerMudHour = hp at *
  have htotal : minuteOfDay * hp < 1440 * hp := Nat.mul_lt_mul_of_pos_right hminute hpos
  have hhours : hour * hp ≤ 23 * hp := Nat.mul_le_mul_right hp (by omega)
  have hpulse : pulse % hp < hp := Nat.mod_lt _ hpos
  have hmax : max hp 1 = hp := by omega
  simp only [if_neg (show ¬ 0x1_0000_0000_0000_0000 ≤ minuteOfDay * hp by omega), hmax, Width.saturate64,
    GameTime.hoursPerDay]
  generalize pulse % hp = sincePulse at *
  generalize hour * hp = sinceHour at *
  generalize minuteOfDay * hp = pulsesOfDay at *
  have hsum : min (sincePulse + min sinceHour 0xFFFF_FFFF_FFFF_FFFF) 0xFFFF_FFFF_FFFF_FFFF =
      sincePulse + sinceHour := by omega
  have hwhole : min (24 * hp) 0xFFFF_FFFF_FFFF_FFFF = 24 * hp := by omega
  rw [hsum, hwhole]
  refine ⟨_, rfl, ?_⟩
  by_cases hpast : pulsesOfDay / 60 ≤ sincePulse + sinceHour
  · rw [if_pos hpast, Nat.min_eq_left (by omega)]
    refine ⟨by omega, by omega, ?_⟩
    rw [show sincePulse + sinceHour + (24 * hp - (sincePulse + sinceHour) + pulsesOfDay / 60) =
      pulsesOfDay / 60 + 24 * hp by omega, Nat.add_mod_right, Nat.mod_eq_of_lt (by omega)]
  · rw [if_neg hpast]
    refine ⟨by omega, by omega, ?_⟩
    rw [show sincePulse + sinceHour + (pulsesOfDay / 60 - (sincePulse + sinceHour)) =
      pulsesOfDay / 60 by omega, Nat.mod_eq_of_lt (by omega)]

/-- A wait until a time of day takes a pulse at least and a day at most, and ends at that time; a text
whose hour or minute is none of a day is refused. What is read on the way fits 64 bits with sign. -/
theorem until_lands (c : Config) (hpos : 0 < c.pulsesPerMudHour)
    (hday : 1440 * c.pulsesPerMudHour < 0x1_0000_0000_0000_0000) (pulse hour : Nat)
    (hhour : hour < 24) :
    (∀ hours minutes : Nat, hours < 24 → minutes < 60 →
      ∃ d, 1 ≤ d ∧ d ≤ 24 * c.pulsesPerMudHour ∧
        (pulse % c.pulsesPerMudHour + hour * c.pulsesPerMudHour + d) % (24 * c.pulsesPerMudHour) =
          (60 * hours + minutes) * c.pulsesPerMudHour / 60 ∧
        ∀ arg clock, IsUntil clock arg → Clock hours minutes clock →
          pulses c pulse hour arg = .ok d) ∧
    ∀ arg clock, IsUntil clock arg →
      (¬ InDay (writtenParts clock) → pulses c pulse hour arg = .error .badTime) ∧
      (clockParts clock).1.natAbs < 0x8000_0000_0000_0000 ∧
      (clockParts clock).2.natAbs < 0x8000_0000_0000_0000 := by
  refine ⟨fun hours minutes hh hm => ?_, fun arg clock harg => ⟨fun hout => ?_, ?_⟩⟩
  · obtain ⟨d, hd, h1, hle, hmod⟩ := @untilMinute?_lands c pulse hour _ hpos hday hhour
      (show 60 * hours + minutes < 1440 by omega)
    refine ⟨d, h1, hle, hmod, fun arg clock harg hclock => ?_⟩
    have hparts := hclock.writtenParts hm
    have hin : InDay (writtenParts clock) := by
      rw [hparts]
      exact ⟨by omega, by omega, by omega, by omega⟩
    rw [pulses_of_isUntil harg, minuteOfDay?_of_inDay hin, hparts, Option.bind_some,
      show (hours : Int).toNat * 60 + (minutes : Int).toNat = 60 * hours + minutes by omega, hd]
  · rw [pulses_of_isUntil harg, minuteOfDay?_of_not_inDay hout, Option.bind_none]
  · exact natAbs_clockParts clock

/-- Half past eight in both notations, and an hour that is none. -/
theorem until_lands_half_past_eight :
    (∃ d, 1 ≤ d ∧ d ≤ 18000 ∧ (7 + 5 * 750 + d) % 18000 = 6375 ∧
      pulses {} 757 5 " until 08:30" = .ok d ∧ pulses {} 757 5 "Until 830" = .ok d) ∧
    pulses {} 757 5 "UNTIL -1:99999999999999999999" = .error .badTime := by
  obtain ⟨hlands, hrefused⟩ := until_lands {} (by decide) (by decide) 757 5 (by decide)
  refine ⟨?_, (hrefused _ "-1:99999999999999999999".toList ?_).1 ?_⟩
  · obtain ⟨d, h1, hle, hmod, hpulses⟩ := hlands 8 30 (by decide) (by decide)
    refine ⟨d, h1, hle, hmod, hpulses _ "08:30".toList ?_ ?_, hpulses _ "830".toList ?_ ?_⟩
    · exact ⟨"until".toList, "08:30".toList, by decide, by decide, by decide⟩
    · exact @Clock.colon 8 30 ['0', '8'] _ ⟨by decide, by decide⟩ ⟨by decide, by decide⟩
    · exact ⟨"Until".toList, "830".toList, by decide, by decide, by decide⟩
    · exact .number ⟨by decide, by decide⟩
  · exact ⟨"UNTIL".toList, "-1:99999999999999999999".toList, by decide, by decide, by decide⟩
  · rintro ⟨h, -⟩
    exact absurd h (by decide)

end MudTrigger.Delay
