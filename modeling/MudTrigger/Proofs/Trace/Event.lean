import MudTrigger.Proofs.Trace.Offer

/-!
# Events stir a game

Every event is an offer, or some offers one after another (`Event.dispatch_stirs`), and so it is made of
changes if what the runner does is (`Event.dispatch_evolves`).
-/

set_option autoImplicit false

namespace MudTrigger

variable {s : List Activation} {g : Game} {run : Runner}

/-! ## Mobiles -/

namespace MobileEvent

theorem greetEach_stirs (host : Host) (actor : Uid) (heading : Direction) (mobs : List Uid) :
    Stirs run g (greetEach host run actor heading mobs g).2 := by
  induction mobs generalizing g with
  | nil => exact .refl
  | cons mob mobs ih =>
    unfold greetEach
    split
    · have ho : Stirs run g
          (g.offer run mob (greetOffer actor heading (host.canSee g.world mob actor))).2 :=
        Game.offer_stirs mob _
      split
      · rename_i he
        rw [he] at ho
        exact ho.trans ih
      · rename_i he
        rw [he] at ho
        split
        · exact ho.trans ih
        · exact ho
    · exact ih

theorem receiveEach_stirs (o : Offer) (hs : List Handle) :
    Stirs run g (receiveEach run o hs g).2 := by
  induction hs generalizing g with
  | nil => exact .refl
  | cons h hs ih =>
    unfold receiveEach
    split
    · exact ih
    · rename_i i hi
      split
      · exact ih
      · split
        · exact .refl
        · rename_i hidle
          have hp : Stirs run g (o.gate.passes i.proto g).2 := (o.gate.passes_looks i.proto).stirs
          have hk := o.gate.instance?_passes (g := g) i.proto h
          split
          · rename_i g' he
            rw [he] at hp hk
            exact hp.tail (.fire o.bindings (hk.trans hi) (by simpa using hidle))
          · rename_i g' he
            rw [he] at hp
            exact hp.trans ih

theorem deathEach_stirs (bindings : List (String × String)) (hs : List Handle) (result : Int) :
    Stirs run g (deathEach run bindings hs result g).2 := by
  induction hs generalizing g result with
  | nil => exact .refl
  | cons h hs ih =>
    unfold deathEach
    split
    · rename_i hc
      obtain ⟨i, hi, hidle⟩ := (Option.any_eq_true _ _).1 hc
      exact .head (.fire bindings hi (Bool.and_eq_true _ _ ▸ hidle).2) (ih _)
    · exact ih result

theorem dispatch_stirs (host : Host) (e : MobileEvent) :
    Stirs run g (e.dispatch host run g).2 := by
  cases e with
  | random mob =>
    show Stirs run g (onRandom run mob g)
    unfold onRandom
    split
    · exact Game.offer_stirs mob _
    · exact .refl
  | bribe mob actor coins =>
    show Stirs run g (onBribe run mob actor coins g)
    unfold onBribe
    split
    · exact Game.offer_stirs mob _
    · exact .refl
  | greet actor heading =>
    show Stirs run g (onGreet host run actor heading g).2
    unfold onGreet
    split
    · exact greetEach_stirs host actor heading _
    · exact .refl
  | entry mob destination =>
    show Stirs run g (onEntry run mob destination g).2
    unfold onEntry
    split
    · have ho : Stirs run g (g.offer run mob
          ⟨MobileEventBit.entry.bits, .chance, [("destination", toString destination)]⟩).2 :=
        Game.offer_stirs mob _
      split <;> rename_i he <;> rw [he] at ho <;> exact ho
    · exact .refl
  | command actor word arg =>
    show Stirs run g (onCommand run actor word arg g).2
    unfold onCommand
    split
    · exact Game.offerUntilFired_stirs _ _ _
    · exact .refl
  | speech actor text =>
    show Stirs run g (onSpeech run actor text g)
    unfold onSpeech
    split
    · exact Game.offerEach_stirs _ _ _
    · exact .refl
  | speechTo actor mob text =>
    show Stirs run g (onSpeechTo run actor mob text g)
    unfold onSpeechTo
    split
    · exact Game.offer_stirs mob _
    · exact .refl
  | act mob text parties =>
    show Stirs run g (onAct run mob text parties g)
    unfold onAct
    split
    · exact Game.offer_stirs mob _
    · exact .refl
  | fight mob =>
    show Stirs run g (onFight run mob g)
    unfold onFight
    split
    · exact .refl
    · exact Game.offer_stirs mob _
  | hitPercent mob =>
    show Stirs run g (onHitPercent run mob g)
    unfold onHitPercent
    split
    · exact Game.offer_stirs mob _
    · exact .refl
  | receive mob actor object =>
    show Stirs run g (onReceive run mob actor object g).2
    unfold onReceive
    split
    · exact receiveEach_stirs _ _
    · exact .refl
  | death mob actor =>
    show Stirs run g (onDeath run mob actor g).2
    unfold onDeath
    split
    · exact deathEach_stirs _ _ 1
    · exact .refl
  | load mob =>
    show Stirs run g (onLoad run mob g)
    unfold onLoad
    split
    · exact Game.offer_stirs mob _
    · exact .refl
  | cast actor mob number spell =>
    show Stirs run g (onCast run actor mob number spell g).2
    unfold onCast
    split
    · exact Game.offer_stirs mob _
    · exact .refl
  | leave actor heading =>
    show Stirs run g (onLeave host run actor heading g).2
    unfold onLeave
    split
    · exact Game.offerUntilFired_stirs _ _ _
    · exact .refl
  | door actor action side =>
    show Stirs run g (onDoor host run actor action side g).2
    unfold onDoor
    split
    · exact Game.offerUntilFired_stirs _ _ _
    · exact .refl
  | time mob =>
    show Stirs run g (onTime run mob g)
    unfold onTime
    split
    · exact Game.offer_stirs mob _
    · exact .refl

end MobileEvent

/-! ## Objects -/

namespace ObjectEvent

theorem onHandling_stirs (object actor : Uid) (needs : World → Bool) (o : Offer) :
    Stirs run g (onHandling run object actor needs o g).2 := by
  unfold onHandling
  split
  · have ho : Stirs run g (g.offer run object o).2 := Game.offer_stirs object o
    split <;> rename_i he <;> rw [he] at ho <;> exact ho
  · exact .refl

theorem onCommand_stirs (actor : Uid) (word arg : String) :
    Stirs run g (onCommand run actor word arg g).2 := by
  unfold onCommand
  split
  · have h1 : Stirs run g (g.offerUntilTaken run (commandOffer .worn actor word arg)
        (wornBy g.world actor)).2 := Game.offerUntilTaken_stirs _ _
    simp only
    split
    · rename_i he
      rw [he] at h1
      exact h1
    · rename_i g1 he
      rw [he] at h1
      have h2 : Stirs run g1 (g1.offerUntilTaken run (commandOffer .carried actor word arg)
          (carriedBy g.world actor)).2 := Game.offerUntilTaken_stirs _ _
      split
      · rename_i he
        rw [he] at h2
        exact h1.trans h2
      · rename_i he
        rw [he] at h2
        exact (h1.trans h2).trans (Game.offerUntilTaken_stirs _ _)
  · exact .refl

theorem dispatch_stirs (e : ObjectEvent) : Stirs run g (e.dispatch run g).2 := by
  cases e with
  | random object => exact Game.offer_stirs object _
  | timer object => exact Game.offer_stirs object _
  | get object actor =>
    show Stirs run g (onGet run object actor g).2
    exact onHandling_stirs object actor _ _
  | command actor word arg => exact onCommand_stirs actor word arg
  | attack actor victim damage =>
    show Stirs run g (onAttack run actor victim damage g)
    unfold onAttack
    split
    · exact (Game.offerEach_stirs _ _ _).trans (Game.offerEach_stirs _ _ _)
    · exact .refl
  | wear object actor position =>
    show Stirs run g (onWear run object actor position g).2
    exact onHandling_stirs object actor _ _
  | death actor => exact Game.offerUntilFired_stirs _ _ _
  | drop object actor =>
    show Stirs run g (onDrop run object actor g).2
    exact onHandling_stirs object actor _ _
  | remove object actor =>
    show Stirs run g (onRemove run object actor g).2
    exact onHandling_stirs object actor _ _
  | give object actor victim =>
    show Stirs run g (onGive run object actor victim g).2
    exact onHandling_stirs object actor _ _
  | load object => exact Game.offer_stirs object _
  | cast actor object number spell =>
    show Stirs run g (onCast run actor object number spell g).2
    exact onHandling_stirs object actor _ _
  | leave room actor heading =>
    show Stirs run g (onLeave run room actor heading g).2
    unfold onLeave
    split
    · exact Game.offerEach_stirs _ _ _
    · exact .refl
  | consume object actor kind =>
    show Stirs run g (onConsume run object actor kind g).2
    exact onHandling_stirs object actor _ _
  | time object => exact Game.offer_stirs object _

end ObjectEvent

/-! ## Rooms -/

namespace RoomEvent

theorem offerIn_stirs (room actor : Uid) (o : Offer) :
    Stirs run g (offerIn run room actor o g).2 := by
  unfold offerIn
  split
  · exact Game.offer_stirs room o
  · exact .refl

theorem offerAround_stirs (actor : Uid) (o : Offer) :
    Stirs run g (offerAround run actor o g).2 := by
  unfold offerAround
  split
  · exact .refl
  · exact offerIn_stirs _ actor o

theorem dispatch_stirs (e : RoomEvent) : Stirs run g (e.dispatch run g).2 := by
  cases e with
  | random room => exact Game.offer_stirs room _
  | preentry room actor heading => exact offerIn_stirs room actor _
  | postentry actor heading => exact offerAround_stirs actor _
  | reset room => exact Game.offer_stirs room _
  | command actor word arg => exact offerAround_stirs actor _
  | speech actor text => exact offerAround_stirs actor _
  | drop object actor =>
    show Stirs run g (onDrop run object actor g).2
    have ho : Stirs run g (offerAround run actor
        ⟨RoomEventBit.drop.bits, .chance, [actorVar actor, ("object", object.text)]⟩ g).2 :=
      offerAround_stirs actor _
    unfold onDrop
    split <;> rename_i he <;> rw [he] at ho <;> exact ho
  | cast actor victim object number spell => exact offerAround_stirs actor _
  | leave room actor heading => exact offerIn_stirs room actor _
  | door actor action side => exact offerAround_stirs actor _
  | time room => exact Game.offer_stirs room _

end RoomEvent

theorem Event.dispatch_stirs (host : Host) (e : Event) : Stirs run g (e.dispatch host run g).2 := by
  cases e with
  | mobile e => exact e.dispatch_stirs host
  | object e => exact e.dispatch_stirs
  | room e => exact e.dispatch_stirs

theorem Event.dispatch_evolves (hr : Fires run) (host : Host) (e : Event) :
    Evolves s g (e.dispatch host run g).2 := (e.dispatch_stirs host).evolves hr

end MudTrigger
