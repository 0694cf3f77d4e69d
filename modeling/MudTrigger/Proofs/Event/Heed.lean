import MudTrigger.Proofs.Trace.Inward
import MudTrigger.Proofs.World.Craft

/-!
# Events leave barred mobiles alone

A mobile with the flag that forbids scripts is barred (`World.isBarred`). Events look for that before
they offer anything to a mobile, but for those that name the entity they are offered to
(`Event.unchecked?`). So in a sound world, where only things are listed as worn, carried or lying
around, an event is offered to entities that are not barred. `Game.Heeds w g g'` says what comes of
that: as long as the game is a later one of the world `w`, the triggers of those that were barred in
`w` do nothing from `g` to `g'`. Every event heeds them if the runner does (`Event.dispatch_heeds`);
only the death of a mobile needs more, because it fires triggers that were listed before others ran.
-/

set_option autoImplicit false

namespace MudTrigger

open Game

namespace World

/-! ## Barred mobiles -/

/-- A mobile that must not run scripts. -/
def isBarred (w : World) (u : Uid) : Bool :=
  (w.character? u).any fun c => c.isMobile && c.flags.meets Character.noScript

variable {w w' : World} {u x : Uid}

theorem isBarred_of_thing (hx : w.Thing x) : w.isBarred x = false := by
  have hc : w.character? x = none := by
    cases hc : w.character? x with
    | none => rfl
    | some c =>
      obtain ⟨h, hi, -⟩ := character?_eq_some.1 hc
      exact absurd hi (hx.1 h)
  rw [isBarred, hc]
  rfl

theorem isBarred_of_room {r : Room} (hr : w.room? u = some r) : w.isBarred u = false := by
  obtain ⟨h, hi, -⟩ := room?_eq_some.1 hr
  rw [isBarred, character?, resolve_of_get? hi]
  rfl

/-- Who runs scripts later was not barred. -/
theorem Wanes.isBarred (h : w.Wanes w') (hp : w'.performsScripts u = true) :
    w.isBarred u = false := by
  obtain ⟨c', hc', hp⟩ := (Option.any_eq_true _ _).1 hp
  obtain ⟨c, hc, hf⟩ := h.character? hc'
  rw [Character.performsScripts, Bool.and_eq_true, hf.flags, Bool.not_eq_true'] at hp
  rw [World.isBarred, hc, Option.any_some, hp.2, Bool.and_false]

end World

/-! ## Who notices -/

namespace MobileEvent

variable {w : World} {mob actor opponent : Uid}

theorem performs_of_isReady (h : isReady w mob = true) : w.performsScripts mob = true :=
  (Bool.and_eq_true _ _ ▸ h).1

theorem performs_of_isAttentive (h : isAttentive w mob = true) : w.performsScripts mob = true := by
  obtain ⟨c, hc, h⟩ := (Option.any_eq_true _ _).1 h
  exact (Option.any_eq_true _ _).2 ⟨c, hc, (Bool.and_eq_true _ _ ▸ h).1⟩

theorem performs_of_isWatcher (h : isWatcher w mob actor = true) : w.performsScripts mob = true := by
  obtain ⟨c, hc, h⟩ := (Option.any_eq_true _ _).1 (Bool.and_eq_true _ _ ▸ h).2
  rw [Bool.and_eq_true, Bool.and_eq_true] at h
  exact (Option.any_eq_true _ _).2 ⟨c, hc, h.1.1⟩

theorem performs_of_opponent? (h : opponent? w mob = some opponent) :
    w.performsScripts mob = true := by
  obtain ⟨c, hc, -⟩ := Option.bind_eq_some_iff.1 h
  obtain ⟨hc, hp⟩ := Option.filter_eq_some_iff.1 hc
  exact (Option.any_eq_true _ _).2 ⟨c, hc, hp⟩

/-- The triggers that an event looks for in a container are those of its entity. -/
theorem owner_of_triggersWith {g : Game} (hg : g.Coherent) {events : Bits} :
    ∀ h ∈ triggersWith g mob events, ∀ i, g.instance? h = some i → i.owner = mob := by
  intro h hh i hi
  unfold triggersWith at hh
  cases hc : g.container? mob with
  | none =>
    rw [hc] at hh
    cases hh
  | some c =>
    rw [hc, Option.filter_some] at hh
    split at hh
    · obtain ⟨j, hj, ho⟩ := hg.live hc hh
      rw [hi, Option.some.injEq] at hj
      rw [hj, ho]
    · cases hh

end MobileEvent

/-- The entity whose triggers the event fires without asking whether it is a barred mobile. -/
def MobileEvent.unchecked? : MobileEvent → Option Uid
  | .load mob => some mob
  | _ => none

@[inherit_doc MobileEvent.unchecked?]
def ObjectEvent.unchecked? : ObjectEvent → Option Uid
  | .random object | .timer object | .get object _ | .wear object _ _ | .drop object _
  | .remove object _ | .give object _ _ | .load object | .cast _ object _ _ | .consume object _ _
  | .time object => some object
  | .command .. | .attack .. | .death _ | .leave .. => none

@[inherit_doc MobileEvent.unchecked?]
def RoomEvent.unchecked? : RoomEvent → Option Uid
  | .random room | .preentry room _ _ | .reset room | .leave room _ _ | .time room => some room
  | .postentry .. | .command .. | .speech .. | .drop .. | .cast .. | .door .. => none

@[inherit_doc MobileEvent.unchecked?]
def Event.unchecked? : Event → Option Uid
  | .mobile e => e.unchecked?
  | .object e => e.unchecked?
  | .room e => e.unchecked?

namespace Game

/-! ## Heeding the barred -/

/-- A coherent game whose world has come of `w`. -/
structure Later (w : World) (g : Game) : Prop where
  coherent : g.Coherent
  wanes : w.Wanes g.world

/-- The triggers of those that were barred in `w` do nothing (module doc). -/
def Heeds (w : World) (g g' : Game) : Prop :=
  Later w g → Later w g' ∧ ∀ u, w.isBarred u = true → g'.deeds u = g.deeds u

/-- The runner heeds the barred when it is given a trigger of somebody else. -/
def Heeding (w : World) (run : Runner) : Prop :=
  ∀ ⦃g h i⦄ (bindings : List (String × String)), g.instance? h = some i →
    w.isBarred i.owner = false → Heeds w g (g.fire run h bindings).2

variable {w : World} {g g' g1 : Game} {run : Runner} {u : Uid}

namespace Heeds

theorem refl : Heeds w g g := fun hl => ⟨hl, fun _ _ => rfl⟩

theorem trans (h : Heeds w g g1) (h' : Heeds w g1 g') : Heeds w g g' := by
  intro hl
  obtain ⟨hl1, hd⟩ := h hl
  obtain ⟨hl', hd'⟩ := h' hl1
  exact ⟨hl', fun u hu => (hd' u hu).trans (hd u hu)⟩

theorem of_inward (hu : w.isBarred u = false) (h : Inward u g g') : Heeds w g g' := by
  refine fun hl => ⟨⟨hl.coherent.of_same h.same, h.world ▸ hl.wanes⟩, fun v hv => h.others v ?_⟩
  rintro rfl
  rw [hu] at hv
  cases hv

theorem of_silent (hs : Same g g') (hd : Silent g g') : Heeds w g g' := fun hl =>
  ⟨⟨hl.coherent.of_same hs, hd.world ▸ hl.wanes⟩, fun u _ => hd.deeds u⟩

/-- What is made of changes and is no deed of anybody's. -/
theorem of_evolves (h : Evolves [] g g') (hd : ∀ u, g'.deeds u = g.deeds u) : Heeds w g g' :=
  fun hl => ⟨⟨Coherent.changes h hl.coherent, hl.wanes.trans (Changes.wanes h)⟩, fun u _ => hd u⟩

end Heeds

/-! ### Who is not barred -/

namespace Later

variable {x : Uid} (hl : Later w g)
include hl

theorem performs (hp : g.world.performsScripts x = true) : w.isBarred x = false :=
  hl.wanes.isBarred hp

section

variable (hw : w.Sound)
include hw

theorem held {c : Character} (hc : g.world.character? u = some c) (hx : x ∈ c.held) :
    w.isBarred x = false := by
  obtain ⟨c0, hc0, hf⟩ := hl.wanes.character? hc
  obtain ⟨h, -, hc0⟩ := World.character?_eq_some.1 hc0
  exact World.isBarred_of_thing (hw.held hc0 (hf.held hx))

theorem held_in {part : Character → List Uid} (hp : ∀ c, part c ⊆ c.held)
    (hx : x ∈ ((g.world.character? u).map part).getD []) : w.isBarred x = false := by
  cases hc : g.world.character? u with
  | none =>
    rw [hc] at hx
    cases hx
  | some c =>
    rw [hc] at hx
    exact hl.held hw hc (hp c hx)

theorem worn (hx : x ∈ ObjectEvent.wornBy g.world u) : w.isBarred x = false :=
  hl.held_in hw (fun c => List.subset_append_right c.inventory _) hx

theorem carried (hx : x ∈ ObjectEvent.carriedBy g.world u) : w.isBarred x = false :=
  hl.held_in hw (fun c => List.subset_append_left _ c.equipment.values) hx

theorem floor {r : Room} (hr : g.world.room? u = some r) (hx : x ∈ r.contents) :
    w.isBarred x = false := by
  obtain ⟨r0, hr0, hf⟩ := hl.wanes.room? hr
  obtain ⟨h, -, hr0⟩ := World.room?_eq_some.1 hr0
  exact World.isBarred_of_thing (hw.floor hr0 (hf.contents hx))

theorem lying (hx : x ∈ ObjectEvent.lyingNear g.world u) : w.isBarred x = false := by
  unfold ObjectEvent.lyingNear at hx
  cases hr : g.world.roomOf? u with
  | none =>
    rw [hr] at hx
    cases hx
  | some r =>
    rw [hr] at hx
    obtain ⟨y, hy⟩ := World.room?_of_roomOf? hr
    exact hl.floor hw hy hx

theorem room {r : Room} (hr : g.world.roomOf? u = some r) : w.isBarred r.uid = false := by
  obtain ⟨y, hy⟩ := World.room?_of_roomOf? hr
  obtain ⟨r0, hr0, hf⟩ := hl.wanes.room? hy
  obtain ⟨h, hi, hget⟩ := World.room?_eq_some.1 hr0
  obtain ⟨r1, hr1, rfl⟩ := hw.room hi
  rw [hget, Option.some.injEq] at hr1
  rw [hf.uid, hr1]
  exact World.isBarred_of_room hr0

end

end Later

/-! ## Offers -/

theorem inward_withTextArg (p : Prototype) (passed : Bool) :
    Inward u g (Gate.withTextArg p g passed).2 := by
  unfold Gate.withTextArg
  split
  · exact inward_blame p _
  · exact .refl

theorem inward_passes (gate : Gate) (p : Prototype) : Inward u g (gate.passes p g).2 := by
  cases gate with
  | always | reached | within | exactly => exact .refl
  | chance => exact inward_withDice _
  | command word => exact inward_withTextArg p _
  | heardFrom scope word =>
    rw [Gate.passes]
    split
    · exact inward_withTextArg p _
    · exact .refl
  | hearing text => exact inward_withTextArg p _
  | greeting sees =>
    rw [Gate.passes]
    split
    · exact inward_withDice _
    · exact .refl

theorem inward_scan (o : Offer) (hs : List Handle) : Inward u g (scan o hs g).2 := by
  induction hs generalizing g with
  | nil => exact .refl
  | cons h hs ih =>
    unfold scan
    split
    · exact ih
    · rename_i i hi
      split
      · have hp := inward_passes (u := u) (g := g) o.gate i.proto
        split
        · rename_i g1 he
          rw [he] at hp
          exact hp
        · rename_i g1 he
          rw [he] at hp
          exact hp.trans ih
      · exact ih

theorem inward_triggerFor (o : Offer) (v : Uid) : Inward u g (triggerFor v o g).2 := by
  unfold triggerFor
  split
  · exact .refl
  · split
    · exact inward_scan o _
    · exact .refl

/-- An offer fires a trigger of the one to whom it is made. -/
theorem Coherent.owner_triggerFor (hg : g.Coherent) {o : Offer} {h : Handle}
    (hf : triggerFor u o g = (some h, g')) : ∃ i, g'.instance? h = some i ∧ i.owner = u := by
  have hs : Same g g' := by
    have hi := (inward_triggerFor (u := u) (g := g) o u).same
    rwa [hf] at hi
  rw [hg.triggerFor_eq] at hf
  obtain ⟨i, hi, rfl⟩ := hg.mem_listed_iff.1 (scan_some hf).1
  obtain ⟨j, hj, ho, -⟩ := hs.instance hi
  exact ⟨j, hj, ho⟩

section

variable (hr : Heeding w run)
include hr

theorem offer_heeds (hu : w.isBarred u = false) (o : Offer) : Heeds w g (g.offer run u o).2 := by
  intro hl
  have ht := Heeds.of_inward hu (inward_triggerFor (u := u) (g := g) o u)
  unfold offer
  split
  · rename_i g1 he
    rw [he] at ht
    exact ht hl
  · rename_i h g1 he
    rw [he] at ht
    obtain ⟨i, hi, rfl⟩ := hl.coherent.owner_triggerFor he
    exact ht.trans (hr o.bindings hi hu) hl

/-- Who runs scripts may be offered anything. -/
theorem offer_heeds_performer (hp : g.world.performsScripts u = true) (o : Offer) :
    Heeds w g (g.offer run u o).2 := fun hl => offer_heeds hr (hl.performs hp) o hl

theorem offerUntilFired_heeds {able : Game → Uid → Bool} (o : Offer) (us : List Uid)
    (hus : ∀ u ∈ us, ∀ g, Later w g → able g u = true → w.isBarred u = false) :
    Heeds w g (offerUntilFired run able o us g).2 := by
  induction us generalizing g with
  | nil => exact .refl
  | cons u us ih =>
    have hrest := fun v hv => hus v (List.mem_cons_of_mem u hv)
    intro hl
    unfold offerUntilFired
    split
    · rename_i ha
      have ho := offer_heeds hr (g := g) (hus u List.mem_cons_self g hl ha) o
      split
      · rename_i he
        rw [he] at ho
        exact ho hl
      · rename_i he
        rw [he] at ho
        exact ho.trans (ih hrest) hl
    · exact ih hrest hl

theorem offerUntilTaken_heeds (o : Offer) (us : List Uid) (hus : ∀ u ∈ us, w.isBarred u = false) :
    Heeds w g (offerUntilTaken run o us g).2 := by
  induction us generalizing g with
  | nil => exact .refl
  | cons u us ih =>
    have ho := offer_heeds hr (g := g) (hus u List.mem_cons_self) o
    unfold offerUntilTaken
    simp only
    split
    · exact ho
    · exact ho.trans (ih fun v hv => hus v (List.mem_cons_of_mem _ hv))

theorem offerEach_heeds {able : Game → Uid → Bool} (o : Offer) (us : List Uid)
    (hus : ∀ u ∈ us, ∀ g, Later w g → able g u = true → w.isBarred u = false) :
    Heeds w g (offerEach run able o us g).2 := by
  induction us generalizing g with
  | nil => exact .refl
  | cons u us ih =>
    have hrest := fun v hv => hus v (List.mem_cons_of_mem u hv)
    intro hl
    unfold offerEach
    split
    · rename_i ha
      exact (offer_heeds hr (hus u List.mem_cons_self g hl ha) o).trans (ih hrest) hl
    · exact ih hrest hl

end

end Game

section

variable {w : World} {g : Game} {run : Runner} (hr : Heeding w run)
include hr

/-! ## Mobiles -/

namespace MobileEvent

theorem greetEach_heeds (host : Host) (actor : Uid) (heading : Direction) (mobs : List Uid) :
    Heeds w g (greetEach host run actor heading mobs g).2 := by
  induction mobs generalizing g with
  | nil => exact .refl
  | cons mob mobs ih =>
    intro hl
    unfold greetEach
    split
    · rename_i ha
      have ho := offer_heeds_performer hr (performs_of_isWatcher ha)
        (greetOffer actor heading (host.canSee g.world mob actor))
      split
      · rename_i he
        rw [he] at ho
        exact ho.trans ih hl
      · rename_i he
        rw [he] at ho
        split
        · exact ho.trans ih hl
        · exact ho hl
    · exact ih hl

theorem receiveEach_heeds {mob : Uid} (hm : w.isBarred mob = false) (o : Offer) {hs : List Handle}
    (ho : ∀ h ∈ hs, ∀ i, g.instance? h = some i → i.owner = mob) :
    Heeds w g (receiveEach run o hs g).2 := by
  induction hs generalizing g with
  | nil => exact .refl
  | cons h hs ih =>
    have hrest := fun x hx => ho x (List.mem_cons_of_mem h hx)
    unfold receiveEach
    split
    · exact ih hrest
    · rename_i i hi
      split
      · exact ih hrest
      · split
        · exact .refl
        · have hp := inward_passes (u := mob) (g := g) o.gate i.proto
          have hk := o.gate.instance?_passes (g := g) i.proto
          split
          · rename_i g1 he
            rw [he] at hp hk
            have hown : w.isBarred i.owner = false := by
              rw [ho h List.mem_cons_self i hi]
              exact hm
            exact (Heeds.of_inward hm hp).trans (hr o.bindings ((hk h).trans hi) hown)
          · rename_i g1 he
            rw [he] at hp hk
            exact (Heeds.of_inward hm hp).trans (ih fun x hx j hj => hrest x hx j ((hk x).symm.trans hj))

/-- Every event of a mobile but its death heeds the barred. -/
theorem dispatch_heeds (host : Host) {e : MobileEvent}
    (he : ∀ u, e.unchecked? = some u → w.isBarred u = false) (hd : ∀ mob actor, e ≠ .death mob actor) :
    Heeds w g (e.dispatch host run g).2 := by
  cases e with
  | random mob =>
    show Heeds w g (onRandom run mob g)
    unfold onRandom
    split
    · rename_i ha
      exact offer_heeds_performer hr (performs_of_isReady ha) _
    · exact .refl
  | bribe mob actor coins =>
    show Heeds w g (onBribe run mob actor coins g)
    unfold onBribe
    split
    · rename_i ha
      exact offer_heeds_performer hr (performs_of_isReady (Bool.and_eq_true _ _ ▸ ha).1) _
    · exact .refl
  | greet actor heading =>
    show Heeds w g (onGreet host run actor heading g).2
    unfold onGreet
    split
    · exact greetEach_heeds hr host actor heading _
    · exact .refl
  | entry mob destination =>
    show Heeds w g (onEntry run mob destination g).2
    unfold onEntry
    split
    · rename_i ha
      have ho := offer_heeds_performer hr (performs_of_isReady ha)
        ⟨MobileEventBit.entry.bits, .chance, [("destination", toString destination)]⟩
      split <;> rename_i he <;> rw [he] at ho <;> exact ho
    · exact .refl
  | command actor word arg =>
    show Heeds w g (onCommand run actor word arg g).2
    unfold onCommand
    split
    · exact offerUntilFired_heeds hr _ _ fun _ _ _ hl ha => hl.performs ha
    · exact .refl
  | speech actor text =>
    show Heeds w g (onSpeech run actor text g)
    unfold onSpeech
    split
    · refine offerEach_heeds hr _ _ fun _ _ _ hl ha => hl.performs ?_
      exact performs_of_isAttentive (Bool.and_eq_true _ _ ▸ ha).2
    · exact .refl
  | speechTo actor mob text =>
    show Heeds w g (onSpeechTo run actor mob text g)
    unfold onSpeechTo
    split
    · rename_i ha
      exact offer_heeds_performer hr (performs_of_isAttentive (Bool.and_eq_true _ _ ▸ ha).2) _
    · exact .refl
  | act mob text parties =>
    show Heeds w g (onAct run mob text parties g)
    unfold onAct
    split
    · rename_i ha
      exact offer_heeds_performer hr (Bool.and_eq_true _ _ ▸ ha).2 _
    · exact .refl
  | fight mob =>
    show Heeds w g (onFight run mob g)
    unfold onFight
    split
    · exact .refl
    · rename_i opponent ha
      exact offer_heeds_performer hr (performs_of_opponent? ha) _
  | hitPercent mob =>
    show Heeds w g (onHitPercent run mob g)
    unfold onHitPercent
    split
    · rename_i opponent percent ha _
      exact offer_heeds_performer hr (performs_of_opponent? ha) _
    · exact .refl
  | receive mob actor object =>
    show Heeds w g (onReceive run mob actor object g).2
    unfold onReceive
    split
    · rename_i ha
      have ha := performs_of_isReady (Bool.and_eq_true _ _ ▸ ha).1
      exact fun hl => receiveEach_heeds hr (hl.performs ha) _ (owner_of_triggersWith hl.coherent) hl
    · exact .refl
  | death mob actor => exact absurd rfl (hd mob actor)
  | load mob =>
    show Heeds w g (onLoad run mob g)
    unfold onLoad
    split
    · exact offer_heeds hr (he mob rfl) _
    · exact .refl
  | cast actor mob number spell =>
    show Heeds w g (onCast run actor mob number spell g).2
    unfold onCast
    split
    · rename_i ha
      exact offer_heeds_performer hr (performs_of_isReady (Bool.and_eq_true _ _ ▸ ha).1) _
    · exact .refl
  | leave actor heading =>
    show Heeds w g (onLeave host run actor heading g).2
    unfold onLeave
    split
    · refine offerUntilFired_heeds hr _ _ fun _ _ _ hl ha => hl.performs ?_
      exact performs_of_isWatcher (Bool.and_eq_true _ _ ▸ ha).1
    · exact .refl
  | door actor action side =>
    show Heeds w g (onDoor host run actor action side g).2
    unfold onDoor
    split
    · refine offerUntilFired_heeds hr _ _ fun _ _ _ hl ha => hl.performs ?_
      exact performs_of_isWatcher (Bool.and_eq_true _ _ ▸ ha).1
    · exact .refl
  | time mob =>
    show Heeds w g (onTime run mob g)
    unfold onTime
    split
    · rename_i ha
      exact offer_heeds_performer hr (performs_of_isReady ha) _
    · exact .refl

end MobileEvent

variable (hw : w.Sound)

/-! ## Objects -/

namespace ObjectEvent

theorem onHandling_heeds {object : Uid} (ho : w.isBarred object = false) (actor : Uid)
    (needs : World → Bool) (o : Offer) : Heeds w g (onHandling run object actor needs o g).2 := by
  unfold onHandling
  split
  · have ho := offer_heeds hr ho o (g := g)
    split <;> rename_i he <;> rw [he] at ho <;> exact ho
  · exact .refl

include hw

theorem onCommand_heeds (actor : Uid) (word arg : String) :
    Heeds w g (onCommand run actor word arg g).2 := by
  intro hl
  unfold onCommand
  split
  · have h1 := offerUntilTaken_heeds hr (commandOffer .worn actor word arg)
      (wornBy g.world actor) (fun _ hx => hl.worn hw hx) (g := g)
    simp only
    split
    · rename_i he
      rw [he] at h1
      exact h1 hl
    · rename_i g1 he
      rw [he] at h1
      have h2 := offerUntilTaken_heeds hr (commandOffer .carried actor word arg)
        (carriedBy g.world actor) (fun _ hx => hl.carried hw hx) (g := g1)
      split
      · rename_i he
        rw [he] at h2
        exact h1.trans h2 hl
      · rename_i he
        rw [he] at h2
        exact (h1.trans h2).trans
          (offerUntilTaken_heeds hr _ _ fun _ hx => hl.lying hw hx) hl
  · exact ⟨hl, fun _ _ => rfl⟩

theorem dispatch_heeds {e : ObjectEvent} (he : ∀ u, e.unchecked? = some u → w.isBarred u = false) :
    Heeds w g (e.dispatch run g).2 := by
  cases e with
  | random object => exact offer_heeds hr (he object rfl) _
  | timer object => exact offer_heeds hr (he object rfl) _
  | get object actor =>
    show Heeds w g (onGet run object actor g).2
    exact onHandling_heeds hr (he object rfl) actor _ _
  | command actor word arg => exact onCommand_heeds hr hw actor word arg
  | attack actor victim damage =>
    show Heeds w g (onAttack run actor victim damage g)
    unfold onAttack
    split
    · intro hl
      have h1 : Heeds w g (offerEach run (fun _ _ => true)
          ⟨ObjectEventBit.attack.bits, .chance, attackVars actor victim damage⟩
          (wornBy g.world actor) g).2 :=
        offerEach_heeds hr _ _ fun _ hx _ _ _ => hl.worn hw hx
      refine h1.trans (fun hl1 => ?_) hl
      exact offerEach_heeds hr _ _ (fun _ hx _ _ _ => hl1.worn hw hx) hl1
    · exact .refl
  | wear object actor position =>
    show Heeds w g (onWear run object actor position g).2
    exact onHandling_heeds hr (he object rfl) actor _ _
  | death actor =>
    exact fun hl => offerUntilFired_heeds hr _ _ (fun _ hx _ _ _ => hl.worn hw hx) hl
  | drop object actor =>
    show Heeds w g (onDrop run object actor g).2
    exact onHandling_heeds hr (he object rfl) actor _ _
  | remove object actor =>
    show Heeds w g (onRemove run object actor g).2
    exact onHandling_heeds hr (he object rfl) actor _ _
  | give object actor victim =>
    show Heeds w g (onGive run object actor victim g).2
    exact onHandling_heeds hr (he object rfl) actor _ _
  | load object => exact offer_heeds hr (he object rfl) _
  | cast actor object number spell =>
    show Heeds w g (onCast run actor object number spell g).2
    exact onHandling_heeds hr (he object rfl) actor _ _
  | leave room actor heading =>
    show Heeds w g (onLeave run room actor heading g).2
    unfold onLeave
    split
    · intro hl
      refine offerEach_heeds hr _ _ (fun x hx _ _ _ => ?_) hl
      cases hroom : g.world.room? room with
      | none =>
        rw [hroom] at hx
        cases hx
      | some r =>
        rw [hroom] at hx
        exact hl.floor hw hroom hx
    · exact .refl
  | consume object actor kind =>
    show Heeds w g (onConsume run object actor kind g).2
    exact onHandling_heeds hr (he object rfl) actor _ _
  | time object => exact offer_heeds hr (he object rfl) _

end ObjectEvent

/-! ## Rooms -/

namespace RoomEvent

theorem offerIn_heeds {room : Uid} (hroom : w.isBarred room = false) (actor : Uid) (o : Offer) :
    Heeds w g (offerIn run room actor o g).2 := by
  unfold offerIn
  split
  · exact offer_heeds hr hroom o
  · exact .refl

include hw

theorem offerAround_heeds (actor : Uid) (o : Offer) : Heeds w g (offerAround run actor o g).2 := by
  unfold offerAround
  split
  · exact .refl
  · rename_i room hroom
    exact fun hl => offerIn_heeds hr (hl.room hw hroom) actor o hl

theorem dispatch_heeds {e : RoomEvent} (he : ∀ u, e.unchecked? = some u → w.isBarred u = false) :
    Heeds w g (e.dispatch run g).2 := by
  cases e with
  | random room => exact offer_heeds hr (he room rfl) _
  | preentry room actor heading => exact offerIn_heeds hr (he room rfl) actor _
  | postentry actor heading => exact offerAround_heeds hr hw actor _
  | reset room => exact offer_heeds hr (he room rfl) _
  | command actor word arg => exact offerAround_heeds hr hw actor _
  | speech actor text => exact offerAround_heeds hr hw actor _
  | drop object actor =>
    show Heeds w g (onDrop run object actor g).2
    have ho := offerAround_heeds hr hw actor
      ⟨RoomEventBit.drop.bits, .chance, [actorVar actor, ("object", object.text)]⟩ (g := g)
    unfold onDrop
    split <;> rename_i he <;> rw [he] at ho <;> exact ho
  | cast actor victim object number spell => exact offerAround_heeds hr hw actor _
  | leave room actor heading => exact offerIn_heeds hr (he room rfl) actor _
  | door actor action side => exact offerAround_heeds hr hw actor _
  | time room => exact offer_heeds hr (he room rfl) _

end RoomEvent

include hw

/-- Every event but the death of a mobile heeds the barred. -/
theorem Event.dispatch_heeds (host : Host) {e : Event}
    (he : ∀ u, e.unchecked? = some u → w.isBarred u = false)
    (hd : ∀ mob actor, e ≠ .mobile (.death mob actor)) : Heeds w g (e.dispatch host run g).2 := by
  cases e with
  | mobile e =>
    exact MobileEvent.dispatch_heeds hr host he fun mob actor h => hd mob actor (congrArg _ h)
  | object e => exact ObjectEvent.dispatch_heeds hr hw he
  | room e => exact RoomEvent.dispatch_heeds hr hw he

end

end MudTrigger
