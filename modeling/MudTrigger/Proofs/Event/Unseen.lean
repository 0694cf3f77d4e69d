import MudTrigger.Proofs.World.Craft

/-!
# Events of actors invisible to triggers

Whoever is invisible to triggers wakes none. Every event that has an actor asks for that before
anything else, and has then happened: nothing is fired, the game is what it was, and the answer is the
one that leaves the actor alone (`Event.permissive`). One event does not ask. When somebody who wears
objects dies these are offered the death in any case, so the game stays as it is only if none of them
listens (`unseen_ignored`); an object that does listen runs its script and may prevent the death
(`shroud_forbids`).
-/

set_option autoImplicit false

namespace MudTrigger

/-! ## Actors and answers -/

/-- The character whose deed the event is. -/
def MobileEvent.actor? : MobileEvent → Option Uid
  | .bribe _ actor _ | .greet actor _ | .command actor _ _ | .speech actor _ | .speechTo actor _ _
  | .receive _ actor _ | .cast actor _ _ _ | .leave actor _ | .door actor _ _ => some actor
  | .entry mob _ => some mob
  | .act _ _ parties => some parties.actor
  | .death _ actor => actor
  | .random _ | .fight _ | .hitPercent _ | .load _ | .time _ => none

@[inherit_doc MobileEvent.actor?]
def ObjectEvent.actor? : ObjectEvent → Option Uid
  | .get _ actor | .command actor _ _ | .attack actor _ _ | .wear _ actor _ | .death actor
  | .drop _ actor | .remove _ actor | .give _ actor _ | .cast actor _ _ _ | .leave _ actor _
  | .consume _ actor _ => some actor
  | .random _ | .timer _ | .load _ | .time _ => none

@[inherit_doc MobileEvent.actor?]
def RoomEvent.actor? : RoomEvent → Option Uid
  | .preentry _ actor _ | .postentry actor _ | .command actor _ _ | .speech actor _ | .drop _ actor
  | .cast actor _ _ _ _ | .leave _ actor _ | .door actor _ _ => some actor
  | .random _ | .reset _ | .time _ => none

@[inherit_doc MobileEvent.actor?]
def Event.actor? : Event → Option Uid
  | .mobile e => e.actor?
  | .object e => e.actor?
  | .room e => e.actor?

/-- The answer of an event that nobody has noticed: what can be blocked may happen, and a command is
not taken. -/
def MobileEvent.permissive : MobileEvent → Option Bool
  | .greet .. | .entry .. | .receive .. | .death .. | .cast .. | .leave .. | .door .. => some true
  | .command .. => some false
  | .random _ | .bribe .. | .speech .. | .speechTo .. | .act .. | .fight _ | .hitPercent _ | .load _
  | .time _ => none

@[inherit_doc MobileEvent.permissive]
def ObjectEvent.permissive : ObjectEvent → Option Bool
  | .timer _ | .get .. | .wear .. | .death _ | .drop .. | .remove .. | .give .. | .cast .. | .leave ..
  | .consume .. => some true
  | .command .. => some false
  | .random _ | .attack .. | .load _ | .time _ => none

@[inherit_doc MobileEvent.permissive]
def RoomEvent.permissive : RoomEvent → Option Bool
  | .preentry .. | .postentry .. | .drop .. | .cast .. | .leave .. | .door .. => some true
  | .command .. => some false
  | .random _ | .reset _ | .speech .. | .time _ => none

@[inherit_doc MobileEvent.permissive]
def Event.permissive : Event → Option Bool
  | .mobile e => e.permissive
  | .object e => e.permissive
  | .room e => e.permissive

/-! ## Nobody listens -/

/-- None of the triggers of an entity would be woken by these events: it is of another type, is
running or is not attached any more. -/
def Game.Deaf (g : Game) (u : Uid) (events : Bits) : Prop :=
  ∀ c, g.container? u = some c → ∀ h ∈ c.triggers, ∀ i, g.instance? h = some i →
    i.proto.events.meets events = true → i.isIdle = false

section

variable {g : Game} {run : Runner}

theorem Game.offer_deaf {u : Uid} {o : Offer} (h : g.Deaf u o.events) :
    g.offer run u o = (none, g) :=
  Game.offer_none fun c hc h' hm i hi => Bool.and_eq_false_imp.2 (h c hc h' hm i hi)

theorem Game.offerUntilFired_deaf {able : Game → Uid → Bool} {o : Offer} {us : List Uid}
    (h : ∀ u ∈ us, g.Deaf u o.events) : g.offerUntilFired run able o us = (none, g) := by
  induction us with
  | nil => rfl
  | cons u us ih =>
    have hrest := ih fun v hv => h v (List.mem_cons_of_mem _ hv)
    rw [Game.offerUntilFired, Game.offer_deaf (h u List.mem_cons_self)]
    show (if able g u = true then g.offerUntilFired run able o us else _) = _
    rw [hrest, ite_self]

/-! ## Nobody is woken -/

theorem MobileEvent.dispatch_unseen (host : Host) {e : MobileEvent} {u : Uid}
    (ha : e.actor? = some u) (hu : g.world.wakesTriggers u = false) :
    e.dispatch host run g = (e.permissive, g) := by
  cases e <;> cases ha <;>
    simp [dispatch, permissive, onBribe, onGreet, onEntry, onCommand, onSpeech, onSpeechTo, onAct,
      onReceive, onDeath, onCast, onLeave, onDoor, isReady, hu]

/-- Whatever is done with an object by someone invisible. -/
theorem ObjectEvent.onHandling_unseen {object u : Uid} {needs : World → Bool} {o : Offer}
    (hu : g.world.wakesTriggers u = false) : onHandling run object u needs o g = (true, g) := by
  rw [onHandling, hu, if_neg Bool.false_ne_true]

theorem ObjectEvent.onDeath_deaf {u : Uid}
    (h : ∀ object ∈ wornBy g.world u, g.Deaf object ObjectEventBit.death.bits) :
    onDeath run u g = (true, g) := by
  rw [onDeath, Game.offerUntilFired_deaf h]
  rfl

theorem ObjectEvent.dispatch_unseen {e : ObjectEvent} {u : Uid} (ha : e.actor? = some u)
    (hu : g.world.wakesTriggers u = false) (he : e ≠ .death u) :
    e.dispatch run g = (e.permissive, g) := by
  cases e with
  | death => cases ha; exact absurd rfl he
  | _ =>
    cases ha <;>
      simp [dispatch, permissive, onGet, onCommand, onAttack, onWear, onDrop, onRemove, onGive, onCast,
        onLeave, onConsume, onHandling_unseen, hu]

theorem RoomEvent.offerIn_unseen {room u : Uid} {o : Offer}
    (hu : g.world.wakesTriggers u = false) : offerIn run room u o g = (none, g) := by
  rw [offerIn, hu, if_neg Bool.false_ne_true]

theorem RoomEvent.offerAround_unseen {u : Uid} {o : Offer}
    (hu : g.world.wakesTriggers u = false) : offerAround run u o g = (none, g) := by
  unfold offerAround
  split
  · rfl
  · exact offerIn_unseen hu

theorem RoomEvent.dispatch_unseen {e : RoomEvent} {u : Uid} (ha : e.actor? = some u)
    (hu : g.world.wakesTriggers u = false) : e.dispatch run g = (e.permissive, g) := by
  cases e <;> cases ha <;>
    simp [dispatch, permissive, onPreentry, onPostentry, onCommand, onSpeech, onDrop, onCast, onLeave,
      onDoor, offerIn_unseen, offerAround_unseen, Game.allows, Game.takes, hu]

end

/--
Whatever somebody does whose invisibility level is above zero: no trigger is run, by any runner and
for any host, the game stays as it is, and the answer is the permissive one. Only the death of one
who wears objects needs more, that none of these objects has an idle trigger for it.
-/
theorem unseen_ignored (host : Host) (run : Runner) (e : Event) (g : Game) {u : Uid} {c : Character}
    (ha : e.actor? = some u) (hc : g.world.character? u = some c) (hi : 0 < c.invisLevel)
    (hdeath : e = .object (.death u) →
      ∀ object ∈ ObjectEvent.wornBy g.world u, g.Deaf object ObjectEventBit.death.bits) :
    e.dispatch host run g = (e.permissive, g) := by
  have hu : g.world.wakesTriggers u = false := by
    have hne : c.invisLevel ≠ 0 := Int.ne_of_gt hi
    simp [World.wakesTriggers, hc, Character.wakesTriggers, hne]
  cases e with
  | mobile e => exact e.dispatch_unseen host ha hu
  | room e => exact e.dispatch_unseen ha hu
  | object e =>
    by_cases he : e = .death u
    · subst he
      have hd : ObjectEvent.onDeath run u g = (true, g) := ObjectEvent.onDeath_deaf (hdeath rfl)
      show ((ObjectEvent.onDeath run u g).map some id) = _
      rw [hd]
      rfl
    · exact e.dispatch_unseen ha hu he

/-- A trigger of objects that forbids what they are asked about. -/
def forbidding (events : Bits) : Prototype :=
  { vnum := 1, name := "forbid", kind := .object, events, narg := 100
    script := Script.compile "return 0\n" }

/-- A player whose invisibility level is 1, wearing a shroud. -/
def vault : World :=
  let w := ((({} : World).addRoom 100 "vault").2.addPlayer "Ann" (Uid.room 0)).2
  (w.addObject 5 "a shroud" (.worn ⟨100000⟩ 3)).2.modifyCharacter ⟨100000⟩
    ({ · with invisLevel := 1 })

/-- The shroud has been given a trigger for these events. -/
def shrouded (events : Bits) : Game :=
  (Game.start {} ((∅ : Registry).register (forbidding events)) {}).play
    [.replaceWorld vault, .attach 1 ⟨100001⟩ none]

/-- A shroud that forbids to be taken off does not notice its invisible wearer, who takes it off and
dies. -/
theorem shroud_ignores :
    let g := shrouded ObjectEventBit.remove.bits
    (Event.object (.remove ⟨100001⟩ ⟨100000⟩)).dispatch .standard (Game.run .standard) g =
        (some true, g) ∧
      (Event.object (.death ⟨100000⟩)).dispatch .standard (Game.run .standard) g =
        (some true, g) := by
  intro g
  have hann : (g.world.character? ⟨100000⟩).map (·.invisLevel) = some 1 := by decide +kernel
  obtain ⟨c, hc, hi⟩ := Option.map_eq_some_iff.1 hann
  have hpos : 0 < c.invisLevel := by rw [hi]; decide
  have hworn : ObjectEvent.wornBy g.world ⟨100000⟩ = [⟨100001⟩] := by decide +kernel
  have hdeaf : ((g.container? ⟨100001⟩).map (·.triggers)).all (·.all fun h =>
      (g.instance? h).all fun i => !i.proto.events.meets ObjectEventBit.death.bits) = true := by
    decide +kernel
  refine ⟨unseen_ignored _ _ (.object (.remove ⟨100001⟩ ⟨100000⟩)) g rfl hc hpos nofun,
    unseen_ignored _ _ (.object (.death ⟨100000⟩)) g rfl hc hpos ?_⟩
  intro _ object hobj k hk h hh i hi' hmeets
  rw [hworn, List.mem_singleton] at hobj
  subst hobj
  simp only [hk, Option.map_some, Option.all_some, List.all_eq_true] at hdeaf
  have hno := hdeaf h hh
  simp only [hi', Option.all_some, hmeets] at hno
  cases hno

/-- Invisibility alone is not enough: a shroud may forbid its invisible wearer to die. -/
theorem shroud_forbids :
    ¬ ∀ (host : Host) (run : Runner) (e : Event) (g : Game) (u : Uid) (c : Character),
      e.actor? = some u → g.world.character? u = some c → 0 < c.invisLevel →
        e.dispatch host run g = (e.permissive, g) := by
  intro hall
  have hann : ((shrouded ObjectEventBit.death.bits).world.character? ⟨100000⟩).map
      (·.invisLevel) = some 1 := by decide +kernel
  obtain ⟨c, hc, hi⟩ := Option.map_eq_some_iff.1 hann
  have hpos : 0 < c.invisLevel := by rw [hi]; decide
  have hfired : ((Event.object (.death ⟨100000⟩)).dispatch .standard (Game.run .standard)
      (shrouded ObjectEventBit.death.bits)).1 = some false := by decide +kernel
  rw [hall .standard (Game.run .standard) (.object (.death ⟨100000⟩)) _ ⟨100000⟩ c rfl hc hpos]
    at hfired
  cases hfired

end MudTrigger
