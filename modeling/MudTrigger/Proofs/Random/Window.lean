import Mathlib.Data.List.GetD
import MudTrigger.Proofs.Random.Mirror

/-!
# A generator that makes words ahead

The words of a stream are made four blocks at a time and kept in a window, from which draws take
them. A `Window` knows no word count: it has the number of the block that comes after its window and
an index into it. It shows the same stream as a `Dice` (`Window.Shows`), and each word that is taken
keeps that (`Window.mirrors`), also where the two words of one draw lie in different windows
(`Window.word64_eq`). The state that is saved is read off those two numbers (`Window.Shows.state_eq`),
and a window that is restored from it shows the same stream, though it may start at another block
(`Window.Shows.restore`).
-/

set_option autoImplicit false

namespace MudTrigger

/-! ## Blocks of a stream -/

namespace ChaCha

theorem length_block (seed counter : UInt64) : (block seed counter).length = 16 := by
  simp [block, Block.words]

/-- A stream begins again after 2^64 blocks. -/
theorem word_mod (seed : UInt64) (n : Nat) : word seed (n % Dice.streamLength) = word seed n := by
  have hblock : n % Dice.streamLength / 16 = n / 16 % 2 ^ 64 := by
    unfold Dice.streamLength
    omega
  have hplace : n % Dice.streamLength % 16 = n % 16 := by
    unfold Dice.streamLength
    omega
  rw [word, hblock, hplace, UInt64.ofNat_mod_size]
  rfl

theorem word_congr {seed : UInt64} {m n : Nat} (h : m % Dice.streamLength = n % Dice.streamLength) :
    word seed m = word seed n := by
  rw [← word_mod seed m, h, word_mod]

/-- `n` blocks one after another. -/
def blocks (seed : UInt64) : Nat → UInt64 → List UInt32
  | 0, _ => []
  | n + 1, counter => block seed counter ++ blocks seed n (counter + 1)

theorem getD_blocks {seed counter : UInt64} {n i : Nat} (hi : i < 16 * n) :
    (blocks seed n counter).getD i 0 = word seed (counter.toNat * 16 + i) := by
  induction n generalizing counter i with
  | zero => exact absurd hi (Nat.not_lt_zero i)
  | succ n ih =>
    rw [blocks]
    rcases Nat.lt_or_ge i 16 with hlt | hge
    · rw [List.getD_append _ _ _ _ (by rwa [length_block]), word,
        show (counter.toNat * 16 + i) / 16 = counter.toNat by omega,
        show (counter.toNat * 16 + i) % 16 = i by omega, UInt64.ofNat_toNat]
    · rw [List.getD_append_right _ _ _ _ (by rwa [length_block]), length_block, ih (by omega)]
      refine word_congr ?_
      rw [UInt64.toNat_add]
      unfold Dice.streamLength
      simp only [UInt64.toNat_one]
      omega

end ChaCha

/-! ## The window -/

/-- A generator: its seed, the number of the block after the window, the words of the window, and the
index of the next of them. -/
structure Window where
  seed : UInt64
  ahead : UInt64
  words : List UInt32
  index : Nat

namespace Window

variable {w : Window} {d : Dice}

/-- Four blocks of sixteen words. -/
def size : Nat := 64

/-- No word of the window is left, so that the first draw makes the first four blocks. -/
def ofSeed (seed : UInt64) : Window := ⟨seed, 0, List.replicate size 0, size⟩

/-- The next four blocks are made; the first `index` words of them are passed over. -/
def fill (w : Window) (index : Nat) : Window :=
  { w with words := ChaCha.blocks w.seed 4 w.ahead, ahead := w.ahead + 4, index := index }

def word (w : Window) (i : Nat) : Nat := (w.words.getD i 0).toNat

def word32 (w : Window) : Nat × Window :=
  let w := if w.index < size then w else w.fill 0
  (w.word w.index, { w with index := w.index + 1 })

/-- Two words, the low half first. If one word is left in the window, it is the low half, and the high
half comes from the next window. -/
def word64 (w : Window) : Nat × Window :=
  if w.index < size - 1 then
    (w.word (w.index + 1) * 0x1_0000_0000 + w.word w.index, { w with index := w.index + 2 })
  else if w.index ≥ size then
    let w := w.fill 2
    (w.word 1 * 0x1_0000_0000 + w.word 0, w)
  else
    let low := w.word (size - 1)
    let w := w.fill 1
    (w.word 0 * 0x1_0000_0000 + low, w)

/-- The number of words that have been taken: the window starts four blocks before the one ahead. -/
def position (w : Window) : Nat :=
  (w.ahead - 4 + UInt64.ofNat (w.index / 16)).toNat * 16 + w.index % 16

/-- The state that is saved: no word of the window is in it. -/
def state (w : Window) : Dice := ⟨w.seed, w.position⟩

/-- The generator of a saved state: the window starts at the block of the next word. -/
def restore (saved : Dice) : Window :=
  { ofSeed saved.seed with ahead := UInt64.ofNat (saved.taken / 16) }.fill (saved.taken % 16)

/-- A draw of two words is two draws of one word, wherever the window ends. -/
theorem word64_eq (w : Window) :
    w.word64 = (w.word32.2.word32.1 * 0x1_0000_0000 + w.word32.1, w.word32.2.word32.2) := by
  unfold word64 word32
  rcases Nat.lt_trichotomy w.index (size - 1) with hlt | heq | hgt
  · have hnext : w.index + 1 < size := Nat.add_lt_of_lt_sub hlt
    simp only [if_pos hlt, if_pos (Nat.lt_of_succ_lt hnext), if_pos hnext]
    rfl
  · simp [heq, size, fill, word]
  · have hend : size ≤ w.index := by
      unfold size at hgt ⊢
      omega
    simp only [if_neg (Nat.not_lt.2 hend), if_neg (Nat.not_lt.2 (Nat.le_of_lt hgt)), if_pos hend]
    rfl

theorem word_lt (w : Window) (i : Nat) : w.word i < 0x1_0000_0000 := UInt32.toNat_lt _

theorem word32_lt (w : Window) : w.word32.1 < 0x1_0000_0000 := word_lt _ _

theorem word64_lt (w : Window) : w.word64.1 < 0x1_0000_0000_0000_0000 := by
  have hlow := w.word32_lt
  have hhigh := w.word32.2.word32_lt
  rw [word64_eq]
  dsimp only
  omega

/-- The words that draws take from a window. -/
def source : Source Window := ⟨word32, word64, word32_lt, word64_lt⟩

/-! ## What a window shows -/

/-- The number of the first word of the window. -/
def base (w : Window) : Nat := (w.ahead - 4).toNat * 16

/-- The window shows the stream of the dice: it has the words that come next, up to its end. -/
structure Shows (w : Window) (d : Dice) : Prop where
  seed : w.seed = d.seed
  index : w.index ≤ size
  taken : d.taken = (w.base + w.index) % Dice.streamLength
  words : ∀ i, w.index ≤ i → i < size → w.words.getD i 0 = ChaCha.word w.seed (w.base + i)

theorem base_fill (w : Window) (i : Nat) : (w.fill i).base = w.ahead.toNat * 16 := by
  show (w.ahead + 4 - 4).toNat * 16 = _
  rw [UInt64.add_sub_cancel]

theorem getD_fill {i j : Nat} (hj : j < size) :
    (w.fill i).words.getD j 0 = ChaCha.word w.seed ((w.fill i).base + j) := by
  rw [base_fill]
  exact ChaCha.getD_blocks hj

/-- A fresh window shows the stream from the words on that it passes over. -/
theorem shows_fill {i : Nat} (hi : i ≤ size) :
    (w.fill i).Shows (.resume w.seed (w.ahead.toNat * 16 + i)) where
  seed := rfl
  index := hi
  taken := by rw [base_fill]; rfl
  words _ _ hj := getD_fill hj

/-- After the last word of a window comes the first word of the block ahead. -/
theorem Shows.resume_fill (h : w.Shows d) (hend : ¬ w.index < size) :
    Dice.resume w.seed (w.ahead.toNat * 16 + 0) = d := by
  have hindex : w.index = size := Nat.le_antisymm h.index (Nat.not_lt.1 hend)
  have hahead : w.ahead.toNat = ((w.ahead - 4).toNat + 4) % 2 ^ 64 := by
    rw [show 4 = (4 : UInt64).toNat from rfl, ← UInt64.toNat_add, UInt64.sub_add_cancel]
  have htaken : (w.ahead.toNat * 16 + 0) % Dice.streamLength = d.taken := by
    rw [h.taken, hindex, base, hahead]
    unfold Dice.streamLength size
    omega
  rw [Dice.resume, htaken, h.seed]

/-- Once its words are used up, the next window shows the same stream. -/
theorem Shows.ready (h : w.Shows d) :
    let w' := if w.index < size then w else w.fill 0
    w'.Shows d ∧ w'.index < size := by
  dsimp only
  split
  · exact ⟨h, ‹_›⟩
  · have hfill := shows_fill (w := w) (Nat.zero_le size)
    rw [h.resume_fill ‹_›] at hfill
    exact ⟨hfill, (by decide : 0 < size)⟩

/-- Taking a word that is left in the window. -/
theorem Shows.take (h : w.Shows d) (hlt : w.index < size) :
    Mirrored Shows (w.word w.index, { w with index := w.index + 1 }) d.word32 := by
  refine ⟨?_, h.seed, hlt, ?_, fun i hi hsize => h.words i (Nat.le_of_succ_le hi) hsize⟩
  · show (w.words.getD w.index 0).toNat = (ChaCha.word d.seed d.taken).toNat
    rw [h.words _ (Nat.le_refl _) hlt, h.taken, ChaCha.word_mod, h.seed]
  · show (d.taken + 1) % Dice.streamLength = (w.base + w.index + 1) % Dice.streamLength
    rw [h.taken, Nat.mod_add_mod]

theorem Shows.word32 (h : w.Shows d) : Mirrored Shows w.word32 d.word32 :=
  h.ready.1.take h.ready.2

theorem Shows.word64 (h : w.Shows d) : Mirrored Shows w.word64 d.word64 := by
  obtain ⟨hlow, hshows⟩ := h.word32
  obtain ⟨hhigh, hshows⟩ := hshows.word32
  rw [word64_eq, hlow, hhigh]
  exact ⟨rfl, hshows⟩

/-- Windows give the words of the streams that they show. -/
theorem mirrors : Mirrors Shows source Dice.source := ⟨fun _ _ h => h.word32, fun _ _ h => h.word64⟩

/-! ## Saved states -/

theorem Shows.state_eq (h : w.Shows d) : w.state = d := by
  have hindex := h.index
  have hposition : w.position = d.taken := by
    rw [h.taken, position, base, UInt64.toNat_add, UInt64.toNat_ofNat']
    unfold Dice.streamLength size at *
    omega
  rw [state, h.seed, hposition]

theorem shows_ofSeed (seed : UInt64) : (ofSeed seed).Shows (.ofSeed seed) where
  seed := rfl
  index := Nat.le_refl _
  taken := (by decide : 0 = (((0 : UInt64) - 4).toNat * 16 + size) % Dice.streamLength)
  words _ hi hsize := absurd hsize (Nat.not_lt.2 hi)

/-- Wherever in a block the next word lies, the restored window shows the stream from there on. -/
theorem shows_restore (saved : Dice) :
    (restore saved).Shows (.resume saved.seed saved.taken) := by
  have hshows := shows_fill (i := saved.taken % 16)
    (w := { ofSeed saved.seed with ahead := UInt64.ofNat (saved.taken / 16) })
    (by unfold size; omega)
  have htaken : ((UInt64.ofNat (saved.taken / 16)).toNat * 16 + saved.taken % 16) %
      Dice.streamLength = saved.taken % Dice.streamLength := by
    rw [UInt64.toNat_ofNat']
    unfold Dice.streamLength
    omega
  rw [Dice.resume, ← htaken]
  exact hshows

/-- A word count that a window shows is less than the length of the stream. -/
theorem Shows.resume_eq (h : w.Shows d) : Dice.resume d.seed d.taken = d := by
  rw [Dice.resume, h.taken, Nat.mod_mod, ← h.taken]

theorem Shows.restore (h : w.Shows d) : (Window.restore w.state).Shows d := by
  have hshows := shows_restore d
  rw [h.resume_eq] at hshows
  rwa [h.state_eq]

/-- Two windows show the same stream, though their words may be from different blocks. -/
def Twins (w v : Window) : Prop := ∃ d, w.Shows d ∧ v.Shows d

theorem Twins.symm {v : Window} (h : w.Twins v) : v.Twins w :=
  let ⟨d, hw, hv⟩ := h
  ⟨d, hv, hw⟩

theorem Twins.state_eq {v : Window} (h : w.Twins v) : w.state = v.state := by
  obtain ⟨d, hw, hv⟩ := h
  rw [hw.state_eq, hv.state_eq]

/-- A window keeps to every other one that shows its stream. -/
theorem twins : Mirrors Twins source source where
  word32 _ _ h := by
    obtain ⟨d, hw, hv⟩ := h
    exact ⟨hw.word32.1.trans hv.word32.1.symm, d.word32.2, hw.word32.2, hv.word32.2⟩
  word64 _ _ h := by
    obtain ⟨d, hw, hv⟩ := h
    exact ⟨hw.word64.1.trans hv.word64.1.symm, d.word64.2, hw.word64.2, hv.word64.2⟩

end Window

end MudTrigger
