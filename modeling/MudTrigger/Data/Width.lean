/-!
# Numbers of fixed width

Script values are 64-bit integers that wrap around, pulse counts stop at the largest 64-bit number,
and numbered arguments have to fit 32 bits.
-/

set_option autoImplicit false

namespace MudTrigger.Width

/-- The integer itself, if it fits 32 bits with sign. -/
def fit32? (i : Int) : Option Int := if -0x8000_0000 ≤ i ∧ i < 0x8000_0000 then some i else none

/-- The 64-bit integer with sign that is congruent to `i` modulo 2^64. -/
def wrap64 (i : Int) : Int := Int.bmod i 0x1_0000_0000_0000_0000

/-- The number itself, or the largest one of 64 bits. -/
def saturate64 (n : Nat) : Nat := min n 0xFFFF_FFFF_FFFF_FFFF

end MudTrigger.Width
