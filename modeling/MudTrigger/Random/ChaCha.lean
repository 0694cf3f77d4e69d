/-!
# A stream of random words

The generator is the ChaCha stream cipher with eight rounds, run on a key of eight words that a
64-bit seed is stretched to, with a 64-bit block counter and the stream number zero. Word `n` of the
stream is word `n mod 16` of block `n / 16`.
-/

set_option autoImplicit false

namespace MudTrigger.ChaCha

def rotateLeft (x : UInt32) (n : UInt32) : UInt32 := (x <<< n) ||| (x >>> (32 - n))

/-- One step of the congruential generator that stretches the seed. -/
def advance (state : UInt64) : UInt64 := state * 6364136223846793005 + 11634580027462260723

/-- A word of the key from a state: its high bits, folded and turned by its top five bits. -/
def keyWord (state : UInt64) : UInt32 :=
  let x := (((state >>> 18) ^^^ state) >>> 27).toUInt32
  let turn := (state >>> 59).toUInt32
  (x >>> turn) ||| (x <<< ((32 - turn) % 32))

/-- The next `n` words of the key. -/
def keyWords : Nat → UInt64 → List UInt32
  | 0, _ => []
  | n + 1, state => keyWord (advance state) :: keyWords n (advance state)

/-- The key that belongs to a seed. -/
def key (seed : UInt64) : List UInt32 := keyWords 8 seed

/-- Four words of the working block. -/
structure Quarter where
  a : UInt32
  b : UInt32
  c : UInt32
  d : UInt32

def Quarter.round (q : Quarter) : Quarter :=
  let a := q.a + q.b
  let d := rotateLeft (q.d ^^^ a) 16
  let c := q.c + d
  let b := rotateLeft (q.b ^^^ c) 12
  let a := a + b
  let d := rotateLeft (d ^^^ a) 8
  let c := c + d
  let b := rotateLeft (b ^^^ c) 7
  ⟨a, b, c, d⟩

/-- The working block as its four columns. -/
structure Block where
  c0 : Quarter
  c1 : Quarter
  c2 : Quarter
  c3 : Quarter

/-- A round on the columns. -/
def Block.columns (s : Block) : Block := ⟨s.c0.round, s.c1.round, s.c2.round, s.c3.round⟩

/-- A round on the diagonals. -/
def Block.diagonals (s : Block) : Block :=
  let p := Quarter.round ⟨s.c0.a, s.c1.b, s.c2.c, s.c3.d⟩
  let q := Quarter.round ⟨s.c1.a, s.c2.b, s.c3.c, s.c0.d⟩
  let r := Quarter.round ⟨s.c2.a, s.c3.b, s.c0.c, s.c1.d⟩
  let t := Quarter.round ⟨s.c3.a, s.c0.b, s.c1.c, s.c2.d⟩
  ⟨⟨p.a, t.b, r.c, q.d⟩, ⟨q.a, p.b, t.c, r.d⟩, ⟨r.a, q.b, p.c, t.d⟩, ⟨t.a, r.b, q.c, p.d⟩⟩

def Block.rounds : Nat → Block → Block
  | 0, s => s
  | n + 1, s => Block.rounds n s.columns.diagonals

def Block.words (s : Block) : List UInt32 :=
  [s.c0.a, s.c1.a, s.c2.a, s.c3.a, s.c0.b, s.c1.b, s.c2.b, s.c3.b,
    s.c0.c, s.c1.c, s.c2.c, s.c3.c, s.c0.d, s.c1.d, s.c2.d, s.c3.d]

/-- The block before the rounds: four constants, the key, the counter and the stream number. -/
def start (seed : UInt64) (counter : UInt64) : Block :=
  let k := fun i => (key seed).getD i 0
  ⟨⟨0x61707865, k 0, k 4, counter.toUInt32⟩, ⟨0x3320646e, k 1, k 5, (counter >>> 32).toUInt32⟩,
    ⟨0x79622d32, k 2, k 6, 0⟩, ⟨0x6b206574, k 3, k 7, 0⟩⟩

/-- The sixteen words of block number `counter`. -/
def block (seed : UInt64) (counter : UInt64) : List UInt32 :=
  let s := start seed counter
  (Block.rounds 4 s).words.zipWith (· + ·) s.words

/-- Word number `n` of the stream of a seed. -/
def word (seed : UInt64) (n : Nat) : UInt32 :=
  (block seed (UInt64.ofNat (n / 16))).getD (n % 16) 0

end MudTrigger.ChaCha
