import MudTrigger.Proofs.Store.Order
import MudTrigger.Proofs.Store.Reach

/-!
# The scans of a pulse

A scan goes through the entities that an event wakes, as they were when it began, while the scripts
that it fires attach, detach and purge. `Game.sweep` is a scan that keeps a record of it, one `Visit`
for each turn; the scans of a pulse are such sweeps (`scanRandom_sweep`, `scanTime_sweep`). A visit
fires nothing but an idle trigger that the entity has at its turn (`Coherent.sweep_fires`), and since
containers are sorted each entity has one turn, in increasing order (`sweep_increasing`).

The scan for random triggers passes over mobiles and rooms whose zone is empty at their turn
(`randomScan_quiet`). The scan for the hour asks for no zone: a trigger rings at its hour, whether
anybody is there or not (`timeScan_rings`, `unseen_bell`).
-/

set_option autoImplicit false

namespace MudTrigger

namespace Game

/-- The turn of an entity in a scan. -/
structure Visit where
  /-- The game when the turn comes. -/
  before : Game
  entity : Uid
  /-- The container of the entity as it was when the scan began. -/
  container : Container
  /-- The trigger that is fired, if there is one. -/
  fired : Option Handle

/-- Makes the offer, if there is one, and tells which trigger is fired. -/
def approach (run : Runner) (o? : Option Offer) (u : Uid) (g : Game) : Option Handle × Game :=
  match o? with
  | none => (none, g)
  | some o => match g.triggerFor u o with
    | (none, g) => (none, g)
    | (some h, g) => (some h, (g.fire run h o.bindings).2)

/-- Goes through these entities, and makes each the offer that it is due at its turn. -/
def sweep (run : Runner) (offer? : Game → Uid → Container → Option Offer) :
    List (Uid × Container) → Game → List Visit × Game
  | [], g => ([], g)
  | (u, c) :: es, g =>
    let (fired, g') := approach run (offer? g u c) u g
    let (visits, g') := sweep run offer? es g'
    (⟨g, u, c, fired⟩ :: visits, g')

/-- What an entity is offered in the scan for random triggers. -/
def randomOffer? (host : Host) (g : Game) (u : Uid) (c : Container) : Option Offer :=
  let active := c.hasEvent MobileEventBit.global.bits || g.zoneIsActive host u c.kind
  match c.kind with
  | .mobile =>
    if active && MobileEvent.isReady g.world u then some ⟨MobileEventBit.random.bits, .chance, []⟩
    else none
  | .object => some ⟨ObjectEventBit.random.bits, .chance, []⟩
  | .room => if active then some ⟨RoomEventBit.random.bits, .chance, []⟩ else none

/-- What an entity is offered when the hour has changed. -/
def timeOffer? (g : Game) (u : Uid) (c : Container) : Option Offer :=
  let hour := g.world.time.hours
  let bindings := [("time", toString hour)]
  match c.kind with
  | .mobile =>
    if MobileEvent.isReady g.world u then some ⟨MobileEventBit.time.bits, .exactly hour, bindings⟩
    else none
  | .object => some ⟨ObjectEventBit.time.bits, .exactly hour, bindings⟩
  | .room => some ⟨RoomEventBit.time.bits, .exactly hour, bindings⟩

variable {run : Runner} {offer? : Game → Uid → Container → Option Offer} {host : Host} {g g' : Game}
  {u : Uid} {c : Container} {h : Handle} {o : Offer} {es : List (Uid × Container)} {v : Visit}

/-! ## Scans are sweeps -/

theorem approach_some (run : Runner) (o : Offer) (u : Uid) (g : Game) :
    (approach run (some o) u g).2 = (g.offer run u o).2 := by
  unfold approach offer
  dsimp only
  rcases g.triggerFor u o with ⟨_ | h, g'⟩ <;> rfl

theorem rollRandom_approach (host : Host) (run : Runner) (g : Game) (u : Uid) (c : Container) :
    rollRandom host run g u c = (approach run (randomOffer? host g u c) u g).2 := by
  unfold rollRandom randomOffer?
  cases c.kind with
  | mobile =>
    simp only [MobileEvent.onRandom]
    by_cases ha : (c.hasEvent MobileEventBit.global.bits || g.zoneIsActive host u .mobile) = true
    · by_cases hr : MobileEvent.isReady g.world u = true
      · simp only [ha, hr, if_true, Bool.and_self, approach_some]
      · simp only [ha, hr, if_true, Bool.and_false, Bool.false_eq_true, if_false, approach]
    · simp only [ha, Bool.false_and, Bool.false_eq_true, if_false, approach]
  | object => exact (approach_some run _ u g).symm
  | room =>
    simp only
    split
    · exact (approach_some run _ u g).symm
    · rfl

theorem strikeHour_approach (run : Runner) (g : Game) (u : Uid) (c : Container) :
    strikeHour run g u c = (approach run (timeOffer? g u c) u g).2 := by
  unfold strikeHour timeOffer?
  cases c.kind with
  | mobile =>
    simp only [MobileEvent.onTime]
    split
    · exact (approach_some run _ u g).symm
    · rfl
  | object => exact (approach_some run _ u g).symm
  | room => exact (approach_some run _ u g).symm

theorem foldl_sweep {step : Game → Uid → Container → Game}
    (hstep : ∀ g u c, step g u c = (approach run (offer? g u c) u g).2) (es : List (Uid × Container))
    (g : Game) : es.foldl (fun g e => step g e.1 e.2) g = (sweep run offer? es g).2 := by
  induction es generalizing g with
  | nil => rfl
  | cons e es ih =>
    rw [List.foldl_cons, hstep, ih]
    rfl

theorem scanRandom_sweep (host : Host) (run : Runner) (g : Game) : scanRandom host run g =
    (sweep run (randomOffer? host) (g.ownersWith MobileEventBit.random.bits) g).2 :=
  foldl_sweep (rollRandom_approach host run) _ g

theorem scanTime_sweep (run : Runner) (g : Game) : scanTime run g =
    (sweep run timeOffer? (g.ownersWith MobileEventBit.time.bits) g).2 :=
  foldl_sweep (strikeHour_approach run) _ g

/-! ## Turns -/

/-- Each of the entities has its turn, and there are no others. -/
theorem sweep_visits (run : Runner) (offer? : Game → Uid → Container → Option Offer)
    (es : List (Uid × Container)) (g : Game) :
    (sweep run offer? es g).1.map (fun v => (v.entity, v.container)) = es := by
  induction es generalizing g with
  | nil => rfl
  | cons e es ih =>
    rw [sweep, List.map_cons, ih]

/-- Each entity has one turn at most, in increasing order. -/
theorem sweep_increasing (hg : g.engine.containers.Sorted) (events : Bits) (run : Runner)
    (offer? : Game → Uid → Container → Option Offer) :
    ((sweep run offer? (g.ownersWith events) g).1.map (·.entity.raw)).Pairwise (· < ·) := by
  have hmap : ∀ vs : List Visit, vs.map (·.entity.raw) =
      (vs.map fun v => (v.entity, v.container)).map (·.1.raw) := fun vs => by
    rw [List.map_map]
    rfl
  rw [hmap, sweep_visits]
  exact ownersWith_increasing hg events

/-! ## What is fired -/

theorem Coherent.triggerFor_chosen (hg : g.Coherent) (hf : (g.triggerFor u o).1 = some h) :
    ∃ i, g.instance? h = some i ∧ i.owner = u ∧ i.isIdle = true ∧
      i.proto.events.meets o.events = true := by
  rw [hg.triggerFor_eq] at hf
  obtain ⟨hmem, i, hi, hidle, hmeets⟩ := scan_chosen hf
  obtain ⟨j, hj, ho⟩ := hg.mem_listed_iff.1 hmem
  rw [hi, Option.some.injEq] at hj
  exact ⟨i, hi, hj ▸ ho, hidle, hmeets⟩

/-- A scan for a number finds a trigger just if one that is idle has this number. -/
theorem isSome_scan_exactly {value : Int} (hgate : o.gate = .exactly value) {hs : List Handle} :
    (scan o hs g).1.isSome = true ↔ ∃ h ∈ hs, ∃ i, g.instance? h = some i ∧ i.isIdle = true ∧
      i.proto.events.meets o.events = true ∧ i.proto.narg = value := by
  induction hs with
  | nil => simp [scan]
  | cons h hs ih =>
    rw [List.exists_mem_cons_iff, ← ih, scan, hgate]
    cases hi : g.instance? h with
    | none => simp
    | some i =>
      by_cases hn : i.proto.narg = value
      · by_cases hw : (i.proto.events.meets o.events && i.isIdle) = true
        · simp [Gate.passes, hn, and_comm, Bool.and_eq_true _ _ ▸ hw]
        · have hno : ¬ (i.isIdle = true ∧ i.proto.events.meets o.events = true) := by
            rwa [and_comm, ← Bool.and_eq_true]
          simp [hw, ← and_assoc, hno]
      · simp [Gate.passes, hn]

theorem fst_approach (hf : (approach run (offer? g u c) u g).1 = some h) :
    ∃ o, offer? g u c = some o ∧ (g.triggerFor u o).1 = some h := by
  unfold approach at hf
  split at hf
  · cases hf
  · rename_i o ho
    refine ⟨o, ho, ?_⟩
    split at hf
    · cases hf
    · rename_i he
      rw [he]
      exact hf

theorem approach_evolves (hr : Fires run) : Evolves [] g (approach run (offer? g u c) u g).2 := by
  cases ho : offer? g u c with
  | none => exact .refl
  | some o =>
    rw [approach_some]
    exact (offer_stirs u o).evolves hr

/-- A turn comes after changes, and what is fired in it is what was found for the offer. -/
theorem sweep_turn (hr : Fires run) (hv : v ∈ (sweep run offer? es g).1) :
    Evolves [] g v.before ∧ (v.entity, v.container) ∈ es ∧
      v.fired = (approach run (offer? v.before v.entity v.container) v.entity v.before).1 := by
  induction es generalizing g with
  | nil => cases hv
  | cons e es ih =>
    rcases List.mem_cons.1 hv with rfl | hv
    · exact ⟨.refl, List.mem_cons_self, rfl⟩
    · obtain ⟨he, hmem, hfired⟩ := ih hv
      exact ⟨(approach_evolves hr).trans he, List.mem_cons_of_mem e hmem, hfired⟩

/-- A visit fires nothing but an idle trigger that the entity has at its turn, for the offer that is
made then. -/
theorem Coherent.sweep_fires (hg : g.Coherent) (hr : Fires run) (hv : v ∈ (sweep run offer? es g).1)
    (hf : v.fired = some h) : ∃ o i, offer? v.before v.entity v.container = some o ∧
      v.before.instance? h = some i ∧ i.owner = v.entity ∧ i.isIdle = true ∧
      i.proto.events.meets o.events = true := by
  obtain ⟨he, -, hfired⟩ := sweep_turn hr hv
  obtain ⟨o, ho, hchosen⟩ := fst_approach (hfired ▸ hf)
  obtain ⟨i, hi⟩ := (Coherent.changes he hg).triggerFor_chosen hchosen
  exact ⟨o, i, ho, hi⟩

/-! ## Empty zones, and any zone -/

/-- The scan for random triggers passes over mobiles and rooms in empty zones. -/
theorem randomOffer?_some (ho : randomOffer? host g u c = some o) :
    o.events = MobileEventBit.random.bits ∧ (c.kind ≠ .object →
      c.hasEvent MobileEventBit.global.bits = true ∨ g.zoneIsActive host u c.kind = true) := by
  unfold randomOffer? at ho
  rw [← Bool.or_eq_true]
  generalize (c.hasEvent MobileEventBit.global.bits || g.zoneIsActive host u c.kind) = active at ho ⊢
  cases hk : c.kind with
  | mobile =>
    simp only [hk, Option.ite_none_right_eq_some, Option.some.injEq] at ho
    obtain ⟨hready, rfl⟩ := ho
    exact ⟨rfl, fun _ => (Bool.and_eq_true _ _ ▸ hready).1⟩
  | object =>
    simp only [hk, Option.some.injEq] at ho
    exact ⟨ho ▸ rfl, fun hne => absurd rfl hne⟩
  | room =>
    simp only [hk, Option.ite_none_right_eq_some, Option.some.injEq] at ho
    obtain ⟨hactive, rfl⟩ := ho
    exact ⟨rfl, fun _ => hactive⟩

/-- All are offered the same when the hour has changed, but a mobile only when it is ready. -/
theorem timeOffer?_eq (g : Game) (u : Uid) (c : Container) : timeOffer? g u c =
    if c.kind = .mobile → MobileEvent.isReady g.world u = true then
      some ⟨MobileEventBit.time.bits, .exactly g.world.time.hours,
        [("time", toString g.world.time.hours)]⟩
    else none := by
  unfold timeOffer?
  cases c.kind with
  | mobile => simp
  | object => rfl
  | room => rfl

theorem timeOffer?_events (ho : timeOffer? g u c = some o) : o.events = MobileEventBit.time.bits := by
  rw [timeOffer?_eq, Option.ite_none_right_eq_some, Option.some.injEq] at ho
  obtain ⟨-, rfl⟩ := ho
  rfl

/-- For the hour, an entity has a trigger just if an idle one of its triggers names this hour. -/
theorem Coherent.triggerFor_exactly {value : Int} (hg : g.Coherent) (hgate : o.gate = .exactly value) :
    (g.triggerFor u o).1.isSome = true ↔ ∃ h i, g.instance? h = some i ∧ i.owner = u ∧
      i.isIdle = true ∧ i.proto.events.meets o.events = true ∧ i.proto.narg = value := by
  rw [hg.triggerFor_eq, isSome_scan_exactly hgate]
  constructor
  · rintro ⟨h, hmem, i, hi, hrest⟩
    obtain ⟨j, hj, ho⟩ := hg.mem_listed_iff.1 hmem
    rw [hi, Option.some.injEq] at hj
    exact ⟨h, i, hi, hj ▸ ho, hrest⟩
  · rintro ⟨h, i, hi, ho, hrest⟩
    exact ⟨h, hg.mem_listed_iff.2 ⟨i, hi, ho⟩, i, hi, hrest⟩

theorem isSome_approach : (approach run (some o) u g).1.isSome = (g.triggerFor u o).1.isSome := by
  unfold approach
  dsimp only
  rcases g.triggerFor u o with ⟨_ | h, g'⟩ <;> rfl

/-! ## The scans of a pulse -/

/-- The entities that the events wake have their turns, each once and in increasing order, and a turn
fires nothing but an idle trigger that the entity has for these events. -/
structure ScansOnce (events : Bits) (g : Game) (visits : List Visit) : Prop where
  owners : ∀ u c, (u, c) ∈ visits.map (fun v => (v.entity, v.container)) ↔
    g.container? u = some c ∧ c.hasEvent events = true
  increasing : (visits.map (·.entity.raw)).Pairwise (· < ·)
  fires : ∀ v ∈ visits, ∀ h, v.fired = some h → ∃ i, v.before.instance? h = some i ∧
    i.owner = v.entity ∧ i.isIdle = true ∧ i.proto.events.meets events = true

theorem sweep_scansOnce (hg : g.Coherent) (hs : g.engine.containers.Sorted) (hr : Fires run)
    {events : Bits} (hev : ∀ {g u c o}, offer? g u c = some o → o.events = events) :
    ScansOnce events g (sweep run offer? (g.ownersWith events) g).1 where
  owners u c := by
    rw [sweep_visits]
    exact mem_ownersWith hs
  increasing := sweep_increasing hs events run offer?
  fires v hv h hf := by
    obtain ⟨o, i, ho, hi, howner, hidle, hmeets⟩ := hg.sweep_fires hr hv hf
    exact ⟨i, hi, howner, hidle, hev ho ▸ hmeets⟩

/-- The scan for random triggers, with its record. -/
def randomScan (host : Host) (g : Game) : List Visit × Game :=
  sweep (Game.run host) (randomOffer? host) (g.ownersWith MobileEventBit.random.bits) g

/-- The scan for the triggers of the hour, with its record. -/
def timeScan (host : Host) (g : Game) : List Visit × Game :=
  sweep (Game.run host) timeOffer? (g.ownersWith MobileEventBit.time.bits) g

/-- A visit that fires nothing in an empty zone, unless the entity is an object or has a trigger that is
global. -/
def Visit.Quiet (host : Host) (v : Visit) : Prop :=
  v.fired.isSome = true → v.container.kind ≠ .object →
    v.container.hasEvent MobileEventBit.global.bits = true ∨
      v.before.zoneIsActive host v.entity v.container.kind = true

instance (host : Host) (v : Visit) : Decidable (v.Quiet host) :=
  inferInstanceAs (Decidable (_ → _ → _))

/-- A visit that fires something just if the entity has an idle trigger for the hour, and is ready if it
is a mobile. -/
def Visit.Rings (v : Visit) : Prop :=
  v.fired.isSome = true ↔
    (v.container.kind = .mobile → MobileEvent.isReady v.before.world v.entity = true) ∧
    ∃ h i, v.before.instance? h = some i ∧ i.owner = v.entity ∧ i.isIdle = true ∧
      i.proto.events.meets MobileEventBit.time.bits = true ∧
      i.proto.narg = v.before.world.time.hours

theorem randomScan_quiet (hv : v ∈ (g.randomScan host).1) : v.Quiet host := by
  intro hf hk
  obtain ⟨h, hf⟩ := Option.isSome_iff_exists.1 hf
  obtain ⟨-, -, hfired⟩ := sweep_turn (fires_run host) hv
  obtain ⟨o, ho, -⟩ := fst_approach (hfired ▸ hf)
  exact (randomOffer?_some ho).2 hk

theorem timeScan_rings (hg : g.Coherent) (hv : v ∈ (g.timeScan host).1) : v.Rings := by
  obtain ⟨he, -, hfired⟩ := sweep_turn (fires_run host) hv
  rw [Visit.Rings, hfired, timeOffer?_eq]
  split
  · rename_i hready
    rw [isSome_approach, (Coherent.changes he hg).triggerFor_exactly rfl]
    exact (and_iff_right hready).symm
  · rename_i hbusy
    exact ⟨nofun, fun h => absurd h.1 hbusy⟩

/-- The game in a pulse when the runs that were due have been taken up, and the scan for random triggers
comes next. -/
def resumed (host : Host) (g : Game) : Game := resumeDue (Game.run host) g.engine.waits.size g.tick

/-- The game in a pulse when that scan is over, and the hour has been noted. -/
def scanned (host : Host) (g : Game) : Game :=
  let g := g.resumed host
  if g.isScanPulse then (g.randomScan host).2 else g

/-- The hour is another one than at the last pulse. -/
def hourChanged (g : Game) : Bool := g.engine.lastHour.any (· ≠ g.world.time.hours)

/-- The game in a pulse when the hour has been noted. -/
def struck (host : Host) (g : Game) : Game :=
  (g.scanned host).noteHour (g.scanned host).world.time.hours

theorem checkHour_eq (host : Host) (g : Game) : checkHour (Game.run host) g =
    if g.hourChanged then ((g.noteHour g.world.time.hours).timeScan host).2
    else g.noteHour g.world.time.hours := by
  simp only [checkHour, scanTime_sweep]
  rfl

/-- A pulse makes the two scans, each if it falls on the pulse. -/
theorem pulse_eq (host : Host) (g : Game) : g.pulse host =
    if (g.scanned host).hourChanged then ((g.struck host).timeScan host).2 else g.struck host := by
  have hscanned : g.pulse host = checkHour (Game.run host) (g.scanned host) := by
    simp only [scanned, randomScan, ← scanRandom_sweep]
    rfl
  rw [hscanned, checkHour_eq]
  rfl

theorem resumed_evolves (host : Host) (g : Game) : Evolves [] g.tick (g.resumed host) :=
  resumeDue_evolves host _

theorem scanned_evolves (host : Host) (g : Game) : Evolves [] g.tick (g.scanned host) := by
  refine (resumed_evolves host g).trans ?_
  simp only [scanned, randomScan, ← scanRandom_sweep]
  split
  · exact (scanRandom_stirs host).evolves (fires_run host)
  · exact .refl

end Game

open Game

/-- However a game came about, the scans of a pulse visit each entity with such a trigger once, in
increasing order, whatever happens meanwhile. The random scan is quiet in empty zones; the other one
rings what is to ring at the hour, in any zone. -/
theorem scans_visit_once (config : Config) (registry : Registry) (world : World)
    (ops : List Operation) (host : Host) :
    let g := (Game.start config registry world).play ops
    (g.pulse host = if (g.scanned host).hourChanged then ((g.struck host).timeScan host).2
      else g.struck host) ∧
    g.scanned host = (if (g.resumed host).isScanPulse then ((g.resumed host).randomScan host).2
      else g.resumed host) ∧
    ScansOnce MobileEventBit.random.bits (g.resumed host) ((g.resumed host).randomScan host).1 ∧
    ScansOnce MobileEventBit.time.bits (g.struck host) ((g.struck host).timeScan host).1 ∧
    (∀ v ∈ ((g.resumed host).randomScan host).1, v.Quiet host) ∧
    ∀ v ∈ ((g.struck host).timeScan host).1, v.Rings := by
  intro g
  have hcoherent : g.tick.Coherent :=
    (play_coherent config registry world ops).of_same (same_of_eq rfl rfl)
  have hsorted : g.tick.engine.containers.Sorted := play_sorted config registry world ops
  have hresumed := resumed_evolves host g
  have hstruck : Evolves [] g.tick (g.struck host) :=
    (scanned_evolves host g).tail (.noteHour _)
  exact ⟨pulse_eq host g, rfl,
    sweep_scansOnce (.changes hresumed hcoherent) (hsorted.edits (Changes.shelves hresumed))
      (fires_run host) fun ho => (randomOffer?_some ho).1,
    sweep_scansOnce (.changes hstruck hcoherent) (hsorted.edits (Changes.shelves hstruck))
      (fires_run host) timeOffer?_events,
    fun v hv => randomScan_quiet hv, fun v hv => timeScan_rings (.changes hstruck hcoherent) hv⟩

/-! ## A bell that nobody hears -/

/-- A trigger of rooms that rings at six. -/
def bell : Prototype :=
  { vnum := 40, name := "dawn bell", kind := .room, events := RoomEventBit.time.bits, narg := 6
    script := Script.compile "echo The bell rings at %time%." }

/-- A room without anybody. -/
def tower : World := (({} : World).addRoom 100 "Bell Tower").2

/-- The bell is put up and it becomes six, between two pulses. -/
def belfry : Game :=
  (Game.start {} ((∅ : Registry).register bell) tower).play
    [.attach 40 (Uid.room 0) none, .pulse .standard, .replaceWorld (tower.setHour 6)]

/-- The bell rings in an empty zone, though it is not global. -/
theorem unseen_bell :
    ¬ ∀ (config : Config) (registry : Registry) (world : World) (ops : List Operation) (host : Host),
      let g := (Game.start config registry world).play ops
      (∀ v ∈ ((g.resumed host).randomScan host).1, v.Quiet host) ∧
      ((g.scanned host).hourChanged = true → ∀ v ∈ ((g.struck host).timeScan host).1, v.Quiet host) := by
  intro hall
  have hchanged : (belfry.scanned .standard).hourChanged = true := by decide +kernel
  have hloud : ((belfry.struck .standard).timeScan .standard).1.all
      (fun v => decide (v.Quiet .standard)) = false := by decide +kernel
  have hquiet : ∀ v ∈ ((belfry.struck .standard).timeScan .standard).1, v.Quiet .standard :=
    (hall {} _ tower _ .standard).2 hchanged
  rw [List.all_eq_true.2 fun v hv => decide_eq_true (hquiet v hv)] at hloud
  cases hloud

end MudTrigger
