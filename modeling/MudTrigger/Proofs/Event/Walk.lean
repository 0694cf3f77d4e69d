import MudTrigger.Proofs.World.Unscripted

/-!
# What a walk reports

Five stages may keep an actor from leaving. After each of the first three the walk looks whether the
actor is still where it was (`Game.mayGo`), but not after its own entry triggers and those of the room
ahead (`Game.mayEnter`), before it puts the actor there. So if one of these takes the actor out of the
world, nobody is put anywhere and the walk still reports a move (`fallen_reports_move`). No trigger is
attached to a player, and the scripts of others do not move it, so that the walk of a player reports
real moves only, in a world of 50,000 rooms at most, and so does one that fires no trigger in its last
two stages (`walk_moves`).
-/

set_option autoImplicit false

namespace MudTrigger

open Game

variable {g g' : Game} {run : Runner} {actor start finish u : Uid} {vnum : Vnum} {d : Direction}

namespace World

variable {w w' : World} {room : Uid}

theorem isStillIn_eq_true : isStillIn w u room = true ↔
    ∃ c, w.character? u = some c ∧ c.inRoom = some room := by
  simp only [isStillIn, Option.any_eq_true, decide_eq_true_eq]

/-- A player is not moved where others only may be. -/
theorem Visit.isStillIn (h : Visit (· ≠ u) w w') (hw : w.Sound) (hp : isPlayer w u = true) :
    Game.isStillIn w' u room = Game.isStillIn w u room := by
  cases h with
  | tell => rfl
  | @place x room' hx =>
    cases hc : w.character? x with
    | none => rw [placeCharacter_of_none hc]
    | some c => rw [Game.isStillIn, hw.character?_placeCharacter hc, if_neg (Ne.symm hx), Game.isStillIn]
  | @purge x hx =>
    obtain ⟨c, hc, -⟩ := (Option.any_eq_true _ _).1 hp
    have ht := takes_extract w x
    obtain ⟨c', hc', -⟩ := (Option.any_eq_true _ _).1 ((hw.keeps_extract hx).isPlayer (hw.extract x) hp)
    obtain ⟨hd, hi, -⟩ := character?_eq_some.1 hc'
    obtain ⟨c1, _, hc1, -, hcull⟩ := ht.character? hw hc (ht.not_mem_of_get? hi)
    rw [Game.isStillIn, hc1, Game.isStillIn, hc, Option.any_some, Option.any_some, hcull.inRoom]

theorem Visits.isStillIn (h : Visits (· ≠ u) w w') (hw : w.Sound) (hp : isPlayer w u = true) :
    Game.isStillIn w' u room = Game.isStillIn w u room := by
  induction h with
  | refl => rfl
  | tail hpath h ih =>
    have hw1 := Visits.sound hpath hw
    exact (h.isStillIn hw1 ((Visits.keeps hpath hw).isPlayer hw1 hp)).trans ih

/-- A character that is put into a room is there, and on the list of it. -/
theorem Sound.placed (hw : w.Sound) {c : Character} (hc : w.character? u = some c) (room : Uid) :
    Game.isStillIn (w.placeCharacter u room) u room = true ∧
      ((w.room? room).isSome = true → (w.placeCharacter u room).HasPerson u room) := by
  refine ⟨isStillIn_eq_true.2 ⟨_, (hw.character?_placeCharacter hc room u).trans (if_pos rfl), rfl⟩,
    fun hr => ?_⟩
  obtain ⟨r, hr⟩ := Option.isSome_iff_exists.1 hr
  refine ⟨_, by rw [hw.room?_placeCharacter hc, hr, Option.map_some], List.mem_append_right _ ?_⟩
  rw [if_pos rfl]
  exact List.mem_singleton_self u

end World

/-! ## Walks -/

theorem Looks.world (h : Looks g g') : g'.world = g.world := by
  induction h with
  | refl => rfl
  | tail _ h ih => cases h <;> exact ih

namespace Game

/-- The walk passes every stage, and puts the actor into the room ahead: `left` is the game after the
first three stages, and `free` the game after the last two. -/
def Departs (run : Runner) (actor : Uid) (d : Direction) (g : Game) (start finish : Uid)
    (left free : Game) : Prop :=
  ∃ vnum, wayOut? g.world actor d = some (start, vnum, finish) ∧
    mayGo run actor start d g = (true, left) ∧
    mayEnter run actor vnum finish d left = (true, free)

variable {left free : Game}

namespace Departs

variable (h : Departs run actor d g start finish left free)
include h

theorem walk_eq : walk run actor d g = arrive run actor start finish d free := by
  obtain ⟨vnum, hway, hgo, henter⟩ := h
  have hleave : mayLeave run actor start vnum finish d g = (true, free) := by
    rw [mayLeave_eq, hgo]
    exact henter
  rw [walk, hway]
  simp only [hleave]

theorem isStillIn_left : isStillIn left.world actor start = true := by
  obtain ⟨-, -, hgo, -⟩ := h
  exact isStillIn_of_mayGo hgo

theorem stirs_left : Stirs run g left := by
  obtain ⟨-, -, hgo, -⟩ := h
  have hs : Stirs run g (mayGo run actor start d g).2 := mayGo_stirs actor start d
  rwa [hgo] at hs

theorem stirs_free : Stirs run left free := by
  obtain ⟨vnum, -, -, henter⟩ := h
  have hs : Stirs run left (mayEnter run actor vnum finish d left).2 :=
    mayEnter_stirs actor vnum finish d
  rwa [henter] at hs

/-- What the walk comes to. -/
theorem eq {start' finish' : Uid} (hway : wayOut? g.world actor d = some (start', vnum, finish')) :
    start = start' ∧ finish = finish' ∧
      free = (mayEnter run actor vnum finish' d (mayGo run actor start' d g).2).2 := by
  obtain ⟨v, hway', hgo, henter⟩ := h
  rw [hway, Option.some.injEq, Prod.mk.injEq, Prod.mk.injEq] at hway'
  obtain ⟨rfl, rfl, rfl⟩ := hway'
  rw [hgo, henter]
  exact ⟨rfl, rfl, rfl⟩

end Departs

/-- An actor that the stages hold back is not put anywhere by the walk. -/
theorem walk_cases (run : Runner) (actor : Uid) (d : Direction) (g : Game) :
    (∃ start finish left free, Departs run actor d g start finish left free) ∨
      (walk run actor d g).1 = false ∧ Stirs run g (walk run actor d g).2 := by
  cases hway : wayOut? g.world actor d with
  | none =>
    rw [walk, hway]
    exact .inr ⟨rfl, .refl⟩
  | some way =>
    obtain ⟨start, vnum, finish⟩ := way
    have hstirs : Stirs run g (mayLeave run actor start vnum finish d g).2 :=
      mayLeave_stirs actor start vnum finish d
    rw [walk, hway]
    rw [mayLeave_eq] at hstirs
    simp only [mayLeave_eq]
    rcases hgo : mayGo run actor start d g with ⟨_ | _, left⟩
    · rw [hgo] at hstirs
      exact .inr ⟨rfl, hstirs⟩
    · rcases henter : mayEnter run actor vnum finish d left with ⟨_ | _, free⟩
      · rw [hgo] at hstirs
        simp only [henter] at hstirs ⊢
        exact .inr ⟨trivial, hstirs⟩
      · exact .inl ⟨start, finish, left, free, vnum, hway, hgo, henter⟩

/-- What others' scripts do to a player to whom no trigger is attached. -/
theorem Unscripted.isStillIn {host : Host} (hu : g.Unscripted u) (hg : g.Coherent) (hw : g.world.Sound)
    (hleft : Stirs (Game.run host) g left) (hfree : Stirs (Game.run host) left free) (room : Uid) :
    Game.isStillIn free.world u room = Game.isStillIn left.world u room := by
  obtain ⟨hgoverned, -⟩ := hleft.roams (roaming_run host) (hu.governed hg hw)
  obtain ⟨-, hvisits⟩ := hfree.roams (roaming_run host) hgoverned
  exact hvisits.isStillIn hgoverned.sound (hgoverned.players fun hn => hn rfl)

end Game

/-- A walk reports a move only if the actor has passed every stage, and was still where it set out from
after the third. If it is there also at the end, as every player is, it really comes to the room ahead
and its list; an actor that is gone is not put anywhere. -/
theorem walk_moves {p : World.Policy} (config : Config) (registry : Registry) (ops : List Operation)
    (hops : (Game.start config registry {}).Allows (fun g op => op.Abides p g) ops) (host : Host)
    (actor : Uid) (d : Direction) :
    let g := (Game.start config registry {}).play ops
    let run := Game.run host
    ((walk run actor d g).1 = true →
      ∃ start finish left free, Departs run actor d g start finish left free) ∧
    ∀ start finish left free, Departs run actor d g start finish left free →
      walk run actor d g = arrive run actor start finish d free ∧
      isStillIn left.world actor start = true ∧
      (isPlayer g.world actor = true ∧ g.world.nextRoom ≤ 50000 ∨ Looks left free →
        isStillIn free.world actor start = true ∧
        isStillIn (free.world.placeCharacter actor finish) actor finish = true ∧
        ((free.world.room? finish).isSome = true →
          (free.world.placeCharacter actor finish).HasPerson actor finish)) ∧
      (free.world.character? actor = none → free.world.placeCharacter actor finish = free.world) := by
  intro g run
  have hw : g.world.Sound := play_sound World.sound_empty (hops.imp fun _ _ h => h.crafts)
  have hg : g.Coherent := play_coherent config registry {} ops
  refine ⟨fun ht => ?_, fun start finish left free h => ⟨h.walk_eq, h.isStillIn_left, fun hcond => ?_,
    fun hc => World.placeCharacter_of_none hc finish⟩⟩
  · rcases walk_cases run actor d g with h | ⟨hf, -⟩
    · exact h
    · rw [hf] at ht
      cases ht
  · have hstill : isStillIn free.world actor start = true := by
      rcases hcond with ⟨hplayer, hn⟩ | hlooks
      · have hu := players_unscripted config registry hops hn hplayer
        rw [hu.isStillIn hg hw h.stirs_left h.stirs_free]
        exact h.isStillIn_left
      · rw [hlooks.world]
        exact h.isStillIn_left
    obtain ⟨c, hc, -⟩ := World.isStillIn_eq_true.1 hstill
    have hstirs : Stirs run g free := h.stirs_left.trans h.stirs_free
    have hsound : free.world.Sound := Changes.sound (hstirs.evolves (fires_run host) (s := [])) hw
    exact ⟨hstill, hsound.placed hc finish⟩

/-! ## A ledge over a pit -/

/-- Ann and an orc stand on a ledge; there is a cave somewhere else. -/
def cliff : World :=
  let ledge := (({} : World).addRoom 3001 "ledge").2
  let way := (ledge.addRoom 3002 "pit").2.join (Uid.room 0) .down (Uid.room 1)
  ((((way.addRoom 3003 "cave").2.addPlayer "Ann" (Uid.room 0)).2).addMobile 7 "an orc" (Uid.room 0)).2

theorem cliff_acts : World.Acts .indoors {} cliff := by
  have hthere : ∀ w : World, (w.room? (Uid.room 0)).isSome = true →
      World.Policy.indoors.enter w (Uid.room 0) := fun _ h => h
  exact .head (.addRoom 3001 "ledge") (.head (.addRoom 3002 "pit")
    (.head (.join (Uid.room 0) .down (Uid.room 1)) (.head (.addRoom 3003 "cave")
      (.head (.addPlayer "Ann" (Uid.room 0) (hthere _ (by decide +kernel)))
        (.single (.addMobile 7 "an orc" (Uid.room 0) (hthere _ (by decide +kernel))))))))

/-- A trigger of rooms that purges whoever is about to enter. -/
def trap : Prototype :=
  { vnum := 1, name := "trap", kind := .room, events := RoomEventBit.preentry.bits, narg := 100
    script := Script.compile "purge %actor%" }

/-- A trigger of mobiles that go to the cave when they are about to enter a room. -/
def detour : Prototype :=
  { vnum := 2, name := "detour", kind := .mobile, events := MobileEventBit.entry.bits, narg := 100
    script := Script.compile "goto 3003" }

/-- The pit is a trap. -/
def pitfall : List Operation := [.replaceWorld cliff, .attach 1 (Uid.room 1) none]

/-- The orc would rather go to the cave. -/
def digression : List Operation := [.replaceWorld cliff, .attach 2 ⟨100001⟩ none]

def cliffTriggers : Registry := ((∅ : Registry).register trap).register detour

theorem cliff_allowed (op : Operation) (hop : ∀ w, op ≠ .replaceWorld w) :
    (Game.start {} cliffTriggers {}).Allows (fun g op => op.Abides .indoors g)
      [.replaceWorld cliff, op] :=
  ⟨fun w hw => (by cases hw; exact cliff_acts), fun w hw => absurd hw (hop w), trivial⟩

/-- The trap spares Ann, and she comes into the pit. -/
theorem ann_descends :
    let g := (Game.start {} cliffTriggers {}).play pitfall
    (Game.start {} cliffTriggers {}).Allows (fun g op => op.Abides .indoors g) pitfall ∧
    isPlayer g.world ⟨100000⟩ = true ∧ (walk (Game.run .standard) ⟨100000⟩ .down g).1 = true ∧
    ∃ start finish left free,
      Departs (Game.run .standard) ⟨100000⟩ .down g start finish left free ∧
      isStillIn free.world ⟨100000⟩ start = true ∧
      isStillIn (free.world.placeCharacter ⟨100000⟩ finish) ⟨100000⟩ finish = true := by
  intro g
  have hops := cliff_allowed (.attach 1 (Uid.room 1) none) nofun
  have htrue : (walk (Game.run .standard) ⟨100000⟩ .down g).1 = true := by decide +kernel
  have hann : isPlayer g.world ⟨100000⟩ = true := by decide +kernel
  obtain ⟨hdeparts, hall⟩ := walk_moves {} cliffTriggers pitfall hops .standard ⟨100000⟩ .down
  obtain ⟨start, finish, left, free, h⟩ := hdeparts htrue
  obtain ⟨-, -, hreal, -⟩ := hall start finish left free h
  obtain ⟨hstill, hplaced, -⟩ := hreal (.inl ⟨hann, by decide +kernel⟩)
  exact ⟨hops, hann, htrue, start, finish, left, free, h, hstill, hplaced⟩

/-- The orc that falls into the trap is put nowhere, and its walk reports a move; and the one that has gone
to the cave is put into the pit from there. -/
theorem fallen_reports_move :
    ¬ (∀ (config : Config) (registry : Registry) (ops : List Operation) (host : Host) (actor : Uid)
      (d : Direction), let g := (Game.start config registry {}).play ops
      (Game.start config registry {}).Allows (fun g op => op.Abides .indoors g) ops →
        (walk (Game.run host) actor d g).1 = true →
        ∃ start finish left free, Departs (Game.run host) actor d g start finish left free ∧
          isStillIn (free.world.placeCharacter actor finish) actor finish = true) ∧
    ¬ ∀ (config : Config) (registry : Registry) (ops : List Operation) (host : Host) (actor : Uid)
      (d : Direction) (start finish : Uid) (left free : Game),
      let g := (Game.start config registry {}).play ops
      (Game.start config registry {}).Allows (fun g op => op.Abides .indoors g) ops →
        Departs (Game.run host) actor d g start finish left free →
        isStillIn free.world actor start = true := by
  constructor
  · intro hall
    let g := (Game.start {} cliffTriggers {}).play pitfall
    have hway : wayOut? g.world ⟨100001⟩ .down = some (Uid.room 0, 3002, Uid.room 1) := by
      decide +kernel
    have htrue : (walk (Game.run .standard) ⟨100001⟩ .down g).1 = true := by decide +kernel
    have hgone : isStillIn ((mayEnter (Game.run .standard) ⟨100001⟩ 3002 (Uid.room 1) .down
        (mayGo (Game.run .standard) ⟨100001⟩ (Uid.room 0) .down g).2).2.world.placeCharacter ⟨100001⟩
          (Uid.room 1)) ⟨100001⟩ (Uid.room 1) = false := by decide +kernel
    obtain ⟨start, finish, left, free, h, hplaced⟩ :=
      hall {} cliffTriggers pitfall .standard ⟨100001⟩ .down (cliff_allowed _ nofun) htrue
    obtain ⟨rfl, rfl, rfl⟩ := h.eq hway
    rw [hgone] at hplaced
    cases hplaced
  · intro hall
    let g := (Game.start {} cliffTriggers {}).play digression
    have hway : wayOut? g.world ⟨100001⟩ .down = some (Uid.room 0, 3002, Uid.room 1) := by
      decide +kernel
    have htrue : (walk (Game.run .standard) ⟨100001⟩ .down g).1 = true := by decide +kernel
    have hgone : isStillIn (mayEnter (Game.run .standard) ⟨100001⟩ 3002 (Uid.room 1) .down
        (mayGo (Game.run .standard) ⟨100001⟩ (Uid.room 0) .down g).2).2.world ⟨100001⟩
          (Uid.room 0) = false := by decide +kernel
    rcases walk_cases (Game.run .standard) ⟨100001⟩ .down g with
      ⟨start, finish, left, free, h⟩ | ⟨hf, -⟩
    · have hstill := hall {} cliffTriggers digression .standard ⟨100001⟩ .down start finish left free
        (cliff_allowed _ nofun) h
      obtain ⟨rfl, rfl, rfl⟩ := h.eq hway
      rw [hgone] at hstill
      cases hstill
    · rw [hf] at htrue
      cases htrue

end MudTrigger
