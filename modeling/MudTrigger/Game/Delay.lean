import MudTrigger.Config.Basic
import MudTrigger.Text.Letter
import MudTrigger.Text.Numeral
import MudTrigger.World.Basic

/-!
# How long a run waits

The argument of a wait is a number of pulses, of seconds (`s`) or of game hours (`t`), or a time of
day after the word `until`, as in `until 8:30` or `until 0830`. Waiting until the time of day that
it is now means a whole day.
-/

set_option autoImplicit false

namespace MudTrigger

namespace Delay

inductive Error where
  | missing
  | badArgument
  | badTime
  deriving DecidableEq

/-- What follows the word `until`. -/
def afterUntil? (cs : List Char) : Option (List Char) :=
  if Chars.startsWith "until ".toList cs then some (Chars.trim (cs.drop "until ".length)) else none

/-- The hour and the minute that a text writes, with a colon between them or as one number. -/
def clockParts (cs : List Char) : Int × Int :=
  match cs.dropWhile (· != ':') with
  | _ :: minutes => (Chars.leadingInt (cs.takeWhile (· != ':')), Chars.leadingInt minutes)
  | [] => ((Chars.leadingInt cs).tdiv 100, (Chars.leadingInt cs).tmod 100)

/-- The minute of the day, if the text is a time of day. -/
def minuteOfDay? (cs : List Char) : Option Nat :=
  let (hours, minutes) := clockParts cs
  if 0 ≤ hours ∧ hours < GameTime.hoursPerDay ∧ 0 ≤ minutes ∧ minutes < 60 then
    some (hours.toNat * 60 + minutes.toNat)
  else none

/-- The pulses from now to a minute of the day, if they can be counted in 64 bits. -/
def untilMinute? (c : Config) (pulse hour minute : Nat) : Option Nat :=
  let hourPulses := c.pulsesPerMudHour
  if 0x1_0000_0000_0000_0000 ≤ minute * hourPulses then none
  else
    let target := minute * hourPulses / 60
    let now := Width.saturate64 (pulse % max hourPulses 1 + Width.saturate64 (hour * hourPulses))
    let day := Width.saturate64 (GameTime.hoursPerDay * hourPulses)
    some (if target ≤ now then Width.saturate64 (day - now + target) else target - now)

/-- The pulses that an amount and the letter of its unit stand for. -/
def inUnit (c : Config) (amount : Nat) : Option Char → Nat
  | some 's' => c.pulsesForSeconds amount
  | some 't' => Width.saturate64 (amount * c.pulsesPerMudHour)
  | _ => amount

/-- The pulses that a number with a unit after it stands for. -/
def ofAmount? (c : Config) (cs : List Char) : Option Nat :=
  (Chars.natBelow? 0x1_0000_0000_0000_0000 (Chars.digits cs)).map fun amount =>
    inUnit c amount (Chars.trimStart (cs.dropWhile Char.isDigit)).head?

/-- How many pulses a wait takes that begins at a pulse and an hour. -/
def pulses (c : Config) (pulse hour : Nat) (arg : String) : Except Error Nat :=
  match Chars.trim arg.toList with
  | [] => .error .missing
  | cs => match afterUntil? cs with
    | some clock => match (minuteOfDay? clock).bind (untilMinute? c pulse hour) with
      | some n => .ok n
      | none => .error .badTime
    | none => match ofAmount? c cs with
      | some n => .ok n
      | none => .error .badArgument

end Delay

end MudTrigger
