import MudTrigger.Proofs.Suspend.Alike

/-!
# Pulses of a calm game

A game is `Calm` if no trigger is woken by the random event and the clock has not moved since the last
pulse. What a pulse then does, once it has taken up the runs that are due, is to note the hour
(`pulse_calm`). So a pulse in which nothing is due changes nothing but the clocks of the engine, and
`Game.still` is what is left of a game without them (`still_pulse`).
-/

set_option autoImplicit false

namespace MudTrigger

open Game

namespace Game

variable {g g' p : Game} {h : Handle} {i : Instance}

/-! ## Pulses in which nothing happens by itself -/

/-- The event that the scan of a pulse offers. -/
def randomBits : Bits := MobileEventBit.random.bits

/-- The game without the clocks of the engine and the count of runs under way. -/
def still (g : Game) : Game :=
  { g with engine := { g.engine with pulseCount := 0, depth := 0, lastHour := none } }

/-- Neither the scan for random triggers nor the clock wakes a trigger. -/
structure Calm (g : Game) : Prop where
  random : ∀ h i, g.instance? h = some i → i.proto.events.meets randomBits = false
  clock : g.engine.lastHour.all (· = g.world.time.hours) = true

theorem Calm.of_same (hc : Calm g) (hs : Same g g') (hh : g'.engine.lastHour = g.engine.lastHour)
    (ht : g'.world.time = g.world.time) : Calm g' where
  random h i hi := by
    obtain ⟨j, hj, -, hp⟩ := hs.symm_instance hi
    exact hp ▸ hc.random h j hj
  clock := by
    rw [hh, ht]
    exact hc.clock

/-- Clocks are not seen. -/
theorem alike_of_still (hs : g'.still = g.still) : Alike h g g' :=
  alike_of_eq (congrArg (·.world) hs) (congrArg (·.notes) hs) (congrArg (·.log) hs)
    (congrArg (·.engine.dice) hs) (congrArg (·.engine.containers) hs)
    (congrArg (·.engine.config) hs) (congrArg (·.engine.triggers) hs)

theorem records_of_still (hs : g'.still = g.still) : g'.records = g.records := by
  rw [records, records, show g'.log = g.log from congrArg (·.log) hs]

theorem instance?_of_still (hs : g'.still = g.still) (h : Handle) :
    g'.instance? h = g.instance? h := by
  rw [instance?, instance?, show g'.engine.triggers = g.engine.triggers from
    congrArg (·.engine.triggers) hs]

theorem waits_of_still (hs : g'.still = g.still) : g'.engine.waits = g.engine.waits :=
  congrArg (·.engine.waits) hs

theorem same_of_still (hs : g'.still = g.still) : Same g g' :=
  same_of_eq (congrArg (·.engine.triggers) hs) (congrArg (·.engine.containers) hs)

theorem Calm.of_still (hc : Calm g) (hs : g'.still = g.still)
    (hclock : g'.engine.lastHour.all (· = g'.world.time.hours) = true) : Calm g' where
  random h i hi := hc.random h i (instance?_of_still hs h ▸ hi)
  clock := hclock

theorem offer_calm (hc : Calm g) (run : Runner) (u : Uid) {o : Offer} (ho : o.events = randomBits) :
    g.offer run u o = (none, g) :=
  offer_none fun _ _ h _ i hi => by rw [ho, hc.random h i hi, Bool.false_and]

theorem rollRandom_calm (hc : Calm g) (host : Host) (run : Runner) (u : Uid) (c : Container) :
    rollRandom host run g u c = g := by
  unfold rollRandom
  simp only
  split
  · unfold MobileEvent.onRandom
    rw [offer_calm hc run u rfl]
    split
    · split <;> rfl
    · rfl
  · rw [ObjectEvent.onRandom, offer_calm hc run u rfl]
  · rw [RoomEvent.onRandom, offer_calm hc run u rfl]
    split <;> rfl

theorem scanRandom_calm (hc : Calm g) (host : Host) (run : Runner) : scanRandom host run g = g := by
  unfold scanRandom
  generalize g.ownersWith _ = us
  induction us with
  | nil => rfl
  | cons e us ih => rw [List.foldl_cons, rollRandom_calm hc, ih]

theorem checkHour_calm (hc : Calm g) (run : Runner) :
    checkHour run g = g.noteHour g.world.time.hours := by
  have hsame : g.engine.lastHour.any (· ≠ g.world.time.hours) = false := by
    have hclock := hc.clock
    cases hl : g.engine.lastHour with
    | none => rfl
    | some hour =>
      rw [hl, Option.all_some, decide_eq_true_eq] at hclock
      rw [Option.any_some, hclock]
      simp
  unfold checkHour
  simp only [hsame]
  rfl

/-- What a pulse does once the runs that are due were taken up. -/
theorem pulse_calm (host : Host) (hc : Calm (resumeDue (run host) g.engine.waits.size g.tick)) :
    g.pulse host = (resumeDue (run host) g.engine.waits.size g.tick).noteHour
      (resumeDue (run host) g.engine.waits.size g.tick).world.time.hours := by
  have hscan : ∀ g1 : Game, Calm g1 →
      checkHour (run host) (if g1.isScanPulse then scanRandom host (run host) g1 else g1) =
        g1.noteHour g1.world.time.hours := fun g1 h1 => by
    rw [scanRandom_calm h1, ite_self, checkHour_calm h1]
  exact hscan _ hc

/-- A pulse in which nothing is due. -/
theorem still_pulse (host : Host) (hc : Calm g)
    (hq : g.engine.waits.popDue? (g.engine.pulseCount + 1) = none) :
    (g.pulse host).still = g.still ∧ (g.pulse host).engine.depth = g.engine.depth ∧
      (g.pulse host).engine.lastHour = some (g.pulse host).world.time.hours := by
  have hdue : ∀ fuel, resumeDue (run host) fuel g.tick = g.tick := fun fuel => by
    cases fuel with
    | zero => rfl
    | succ fuel =>
      unfold resumeDue
      rw [show g.tick.engine.waits.popDue? g.tick.engine.pulseCount = none from hq]
  have hcalm : Calm g.tick := ⟨hc.random, hc.clock⟩
  rw [pulse_calm host (by rw [hdue]; exact hcalm), hdue]
  exact ⟨rfl, rfl, rfl⟩

/-- Pulses when no run is pending. -/
theorem still_pulses (host : Host) (n : Nat) (hc : Calm g) (hq : g.engine.waits.pending = []) :
    (g.play (List.replicate n (.pulse host))).still = g.still := by
  induction n generalizing g with
  | zero => rfl
  | succ n ih =>
    have hnone : g.engine.waits.popDue? (g.engine.pulseCount + 1) = none := by
      rw [WaitQueue.popDue?, hq]
    obtain ⟨hs, -, hhour⟩ := still_pulse host hc hnone
    have hcalm : Calm (g.pulse host) := hc.of_still hs (by rw [hhour, Option.all_some]; simp)
    have hplay := ih hcalm (by rw [waits_of_still hs]; exact hq)
    exact hplay.trans hs

end Game

end MudTrigger
