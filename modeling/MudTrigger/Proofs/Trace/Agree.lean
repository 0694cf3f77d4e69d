import MudTrigger.Game.Command
import MudTrigger.Game.Pulse
import MudTrigger.Proofs.Trace.Offer

/-!
# Events start idle triggers only

Two runners agree if they do the same with every idle trigger that is fired. They may do anything
else with a trigger that has a run, and when they make runs go on. Events are the same under runners
that agree (`Event.dispatch_agrees`), and so are commands, walks and the scans of a pulse: none of
them ever binds variables in a trigger that has a run, starts it, or takes a run up.
-/

set_option autoImplicit false

namespace MudTrigger

/-- The runners do the same with every idle trigger. -/
def Runner.Agrees (run run' : Runner) : Prop :=
  ∀ ⦃g : Game⦄ ⦃h i⦄ (bindings : List (String × String)), g.instance? h = some i →
    i.isIdle = true → g.fire run h bindings = g.fire run' h bindings

section

variable {run run' : Runner} (hr : run.Agrees run')
include hr

namespace Game

/-! ## Offers -/

theorem offer_agrees : offer run = offer run' := by
  funext u o g
  unfold offer
  split
  · rfl
  · rename_i h g' he
    obtain ⟨i, hi, hidle⟩ := triggerFor_some he
    rw [hr o.bindings hi hidle]

theorem offerUntilFired_agrees : offerUntilFired run = offerUntilFired run' := by
  funext able o us
  induction us with
  | nil => rfl
  | cons u us ih =>
    funext g
    simp only [offerUntilFired, offer_agrees hr, ih]

theorem offerUntilTaken_agrees : offerUntilTaken run = offerUntilTaken run' := by
  funext o us
  induction us with
  | nil => rfl
  | cons u us ih =>
    funext g
    simp only [offerUntilTaken, offer_agrees hr, ih]

theorem offerEach_agrees : offerEach run = offerEach run' := by
  funext able o us
  induction us with
  | nil => rfl
  | cons u us ih =>
    funext g
    simp only [offerEach, offer_agrees hr, ih]

end Game

/-! ## Events -/

namespace MobileEvent

theorem greetEach_agrees (host : Host) : greetEach host run = greetEach host run' := by
  funext actor heading mobs
  induction mobs with
  | nil => rfl
  | cons mob mobs ih =>
    funext g
    simp only [greetEach, Game.offer_agrees hr, ih]

theorem receiveEach_agrees : receiveEach run = receiveEach run' := by
  funext o hs
  induction hs with
  | nil => rfl
  | cons h hs ih =>
    funext g
    unfold receiveEach
    split
    · rw [ih]
    · rename_i i hi
      by_cases hm : i.proto.events.meets o.events = true
      · by_cases hidle : i.isIdle = true
        · have hk := o.gate.instance?_passes (g := g) i.proto h
          simp only [hm, hidle, Bool.not_true, Bool.false_eq_true, if_false]
          split
          · rename_i g' he
            rw [he] at hk
            rw [hr o.bindings (hk.trans hi) hidle]
          · rw [ih]
        · simp [hm, hidle]
      · simp only [hm, Bool.not_false, if_true, ih]

theorem deathEach_agrees : deathEach run = deathEach run' := by
  funext bindings hs
  induction hs with
  | nil => rfl
  | cons h hs ih =>
    funext result g
    unfold deathEach
    split
    · rename_i hc
      obtain ⟨i, hi, hidle⟩ := (Option.any_eq_true _ _).1 hc
      rw [hr bindings hi (Bool.and_eq_true _ _ ▸ hidle).2, ih]
    · rw [ih]

theorem dispatch_agrees (host : Host) : dispatch host run = dispatch host run' := by
  funext e g
  cases e <;>
    simp only [dispatch, onRandom, onBribe, onGreet, onEntry, onCommand, onSpeech, onSpeechTo, onAct,
      onFight, onHitPercent, onReceive, onDeath, onLoad, onCast, onLeave, onDoor, onTime,
      Game.offer_agrees hr, Game.offerUntilFired_agrees hr, Game.offerEach_agrees hr,
      greetEach_agrees hr, receiveEach_agrees hr, deathEach_agrees hr]

end MobileEvent

namespace ObjectEvent

theorem onHandling_agrees : onHandling run = onHandling run' := by
  funext object actor needs o g
  simp only [onHandling, Game.offer_agrees hr]

theorem dispatch_agrees : dispatch run = dispatch run' := by
  funext e g
  cases e <;>
    simp only [dispatch, onRandom, onTimer, onGet, onCommand, onAttack, onWear, onDeath, onDrop,
      onRemove, onGive, onLoad, onCast, onLeave, onConsume, onTime, Game.offer_agrees hr,
      Game.offerUntilFired_agrees hr, Game.offerUntilTaken_agrees hr, Game.offerEach_agrees hr,
      onHandling_agrees hr]

end ObjectEvent

namespace RoomEvent

theorem offerIn_agrees : offerIn run = offerIn run' := by
  funext room actor o g
  simp only [offerIn, Game.offer_agrees hr]

theorem offerAround_agrees : offerAround run = offerAround run' := by
  funext actor o g
  simp only [offerAround, offerIn_agrees hr]

theorem dispatch_agrees : dispatch run = dispatch run' := by
  funext e g
  cases e <;>
    simp only [dispatch, onRandom, onPreentry, onPostentry, onReset, onCommand, onSpeech, onDrop,
      onCast, onLeave, onDoor, onTime, Game.offer_agrees hr, offerIn_agrees hr,
      offerAround_agrees hr]

end RoomEvent

theorem Event.dispatch_agrees (host : Host) : dispatch host run = dispatch host run' := by
  funext e g
  cases e <;>
    simp only [dispatch, MobileEvent.dispatch_agrees hr, ObjectEvent.dispatch_agrees hr,
      RoomEvent.dispatch_agrees hr]

namespace Game

/-! ## What a pulse does besides taking up runs -/

theorem scanRandom_agrees (host : Host) : scanRandom host run = scanRandom host run' := by
  have hroll : rollRandom host run = rollRandom host run' := by
    funext g u c
    simp only [rollRandom, MobileEvent.onRandom, ObjectEvent.onRandom, RoomEvent.onRandom,
      offer_agrees hr]
  funext g
  simp only [scanRandom, hroll]

theorem checkHour_agrees : checkHour run = checkHour run' := by
  have hstrike : strikeHour run = strikeHour run' := by
    funext g u c
    simp only [strikeHour, MobileEvent.onTime, ObjectEvent.onTime, RoomEvent.onTime, offer_agrees hr]
  funext g
  simp only [checkHour, scanTime, hstrike]

end Game

end

end MudTrigger
