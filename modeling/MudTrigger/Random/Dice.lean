import MudTrigger.Random.ChaCha
import MudTrigger.Data.Width

/-!
# Dice

Every percent gate and every random field draws from one seeded stream, so the same seed and the
same events fire the same triggers. The state is the seed and the number of words taken.

A draw from a range multiplies a random word by the size of the range and takes the high half; the
low half decides whether the word is accepted, which keeps the draw uniform. All that a draw needs is
a `Source` of words.
-/

set_option autoImplicit false

namespace MudTrigger

/-- Where random words of 32 and of 64 bits are taken from. -/
structure Source (σ : Type) where
  word32 : σ → Nat × σ
  word64 : σ → Nat × σ
  word32_lt : ∀ s, (word32 s).1 < 0x1_0000_0000
  word64_lt : ∀ s, (word64 s).1 < 0x1_0000_0000_0000_0000

namespace Source

variable {σ : Type}

/-- The greatest low half that is accepted: one less than `range` moved up against the top bit. -/
def zone (bits range : Nat) : Nat := range <<< (bits - 1 - range.log2) - 1

/-- So many words in a row are refused at most; the one after them is taken as it is. -/
def patience : Nat := 0x10_0000

/-- A number below `range` from words of `bits` bits; `tries` more of them may be refused. -/
def below (bits range : Nat) (next : σ → Nat × σ) : Nat → σ → Nat × σ
  | 0, s => (((next s).1 * range) >>> bits, (next s).2)
  | tries + 1, s =>
    let product := (next s).1 * range
    if product % (1 <<< bits) ≤ zone bits range then (product >>> bits, (next s).2)
    else below bits range next tries (next s).2

/-- The size of the range from `low` to `high`; a range of all 64-bit integers has size zero. -/
def span (low high : Int) : Nat := (high - low + 1).toNat % 0x1_0000_0000_0000_0000

/-- A 64-bit integer from `low` to `high`; `low` without a draw if there is none other. -/
def number (src : Source σ) (low high : Int) (s : σ) : Int × σ :=
  if high ≤ low then (low, s)
  else if span low high = 0 then
    let (n, s) := src.word64 s
    (Width.wrap64 n, s)
  else
    let (n, s) := below 64 (span low high) src.word64 patience s
    (Width.wrap64 (low + n), s)

/-- A roll of one to a hundred is at most `chance`. -/
def percent (src : Source σ) (chance : Int) (s : σ) : Bool × σ :=
  let (n, s) := src.number 1 100 s
  (n ≤ chance, s)

/-- The place of an element in a list of this length; words of 32 bits are taken if they can count it. -/
def place (src : Source σ) (length : Nat) (s : σ) : Nat × σ :=
  if length < 0x1_0000_0000 then below 32 length src.word32 patience s
  else below 64 length src.word64 patience s

/-- An element of a list; nothing is drawn from an empty one. -/
def choose {α : Type} (src : Source σ) (xs : List α) (s : σ) : Option α × σ :=
  if xs.isEmpty then (none, s)
  else
    let (n, s) := src.place xs.length s
    (xs[n]?, s)

end Source

/-- A generator: its seed, and how many words of the stream have been taken. -/
structure Dice where
  seed : UInt64
  taken : Nat := 0
  deriving DecidableEq, Inhabited

namespace Dice

def ofSeed (seed : UInt64) : Dice := ⟨seed, 0⟩

/-- A stream has 2^64 blocks of sixteen words and then begins again. -/
def streamLength : Nat := 0x10_0000_0000_0000_0000

/-- The generator of a seed after so many words. -/
def resume (seed : UInt64) (taken : Nat) : Dice := ⟨seed, taken % streamLength⟩

def word32 (d : Dice) : Nat × Dice :=
  ((ChaCha.word d.seed d.taken).toNat, resume d.seed (d.taken + 1))

/-- Two words, the low half first. -/
def word64 (d : Dice) : Nat × Dice :=
  let (low, d) := d.word32
  let (high, d) := d.word32
  (high * 0x1_0000_0000 + low, d)

theorem word32_lt (d : Dice) : d.word32.1 < 0x1_0000_0000 := UInt32.toNat_lt _

theorem word64_lt (d : Dice) : d.word64.1 < 0x1_0000_0000_0000_0000 := by
  have hlow := d.word32_lt
  have hhigh := d.word32.2.word32_lt
  show d.word32.2.word32.1 * 0x1_0000_0000 + d.word32.1 < _
  omega

/-- The words of the stream one after another. -/
def source : Source Dice := ⟨word32, word64, word32_lt, word64_lt⟩

/-- A 64-bit integer from `low` to `high`. -/
def number (d : Dice) (low high : Int) : Int × Dice := source.number low high d

/-- A roll of one to a hundred is at most `chance`. -/
@[irreducible] def percent (d : Dice) (chance : Int) : Bool × Dice := source.percent chance d

/-- An element of a list. -/
def choose {α : Type} (d : Dice) (xs : List α) : Option α × Dice := source.choose xs d

end Dice

end MudTrigger
