import MudTrigger.Proofs.Trace.Inward
import MudTrigger.Proofs.Trace.Pulse
import MudTrigger.Proofs.Wait.Effect
import MudTrigger.Proofs.World.Housed
import MudTrigger.Proofs.World.Players

/-!
# Who is moved by scripts, and where to

Scripts and commands say something, put characters into rooms that are there, and purge entities other
than players (`World.Visit`). A command moves nobody but the one who carries it out, so if no trigger is
attached to some players, then those stay where they are, whatever the others' scripts do
(`Game.Governed`): triggers are never attached to players. This holds of runs however deeply they are
nested (`Game.roaming_run`), of events, and of calls of the host's (`Operation.roams`).
-/

set_option autoImplicit false

namespace MudTrigger

open Game

namespace World

/-- The identity is that of a room, or a vnum leads to it. -/
def Reaches (w : World) (room : Uid) : Prop :=
  (∃ h, w.index.get? room = some (.room h)) ∨ ∃ vnum, w.roomVnums.get? vnum = some room

/-- What scripts and commands do to the world, if none but these may be moved. -/
inductive Visit (may : Uid → Prop) : World → World → Prop
  | tell {w} (message : String) : Visit may w (w.tell message)
  | place {w u room} : may u → w.Reaches room → Visit may w (w.placeCharacter u room)
  | purge {w u} : isPlayer w u = false → Visit may w (w.extract u).2

/-- One after another. -/
abbrev Visits (may : Uid → Prop) : World → World → Prop := Relation.ReflTransGen (Visit may)

variable {may : Uid → Prop} {w w' w1 : World} {u x : Uid}

theorem Visit.sound (h : Visit may w w') (hw : w.Sound) : w'.Sound := by
  cases h with
  | tell message => exact hw.craft (.tell message)
  | place => exact hw.placeCharacter _ _
  | purge => exact hw.extract _

theorem Visits.sound (h : Visits may w w') (hw : w.Sound) : w'.Sound := by
  induction h with
  | refl => exact hw
  | tail _ h ih => exact h.sound ih

theorem Visit.leads (h : Visit may w w') : w.Leads w' := by
  cases h with
  | tell => exact .of_index rfl rfl
  | place => exact .placeCharacter _ _
  | purge => exact (takes_extract w _).leads

theorem Visits.leads (h : Visits may w w') : w.Leads w' := by
  induction h with
  | refl => exact .of_index rfl rfl
  | tail _ h ih => exact ⟨h.leads.vnums.trans ih.vnums, fun hi => h.leads.rooms (ih.rooms hi)⟩

theorem Visit.keeps (h : Visit may w w') (hw : w.Sound) : w.Keeps w' := by
  cases h with
  | tell => exact .of_index (.of_eq rfl rfl rfl rfl rfl) rfl
  | place => exact .of_index (.placeCharacter _ _) (index_placeCharacter _ _)
  | purge hp => exact hw.keeps_extract hp

theorem Visits.keeps (h : Visits may w w') (hw : w.Sound) : w.Keeps w' := by
  induction h with
  | refl => exact .refl
  | tail hpath h ih =>
    have hw1 := Visits.sound hpath hw
    exact ih.trans hw1 (h.keeps hw1)

theorem Leads.reaches (h : w.Leads w') (hx : w.Reaches x) : w'.Reaches x :=
  hx.imp (fun ⟨hd, hi⟩ => ⟨hd, h.rooms hi⟩) fun ⟨vnum, hv⟩ => ⟨vnum, h.vnums ▸ hv⟩

theorem Mapped.isSome_of_reaches (hm : w.Mapped) (hw : w.Sound) (hx : w.Reaches x) :
    (w.room? x).isSome = true := by
  obtain ⟨h, hi⟩ : ∃ h, w.index.get? x = some (.room h) := by
    rcases hx with hi | ⟨vnum, hv⟩
    · exact hi
    · exact hm vnum x hv
  obtain ⟨r, hr, -⟩ := hw.room hi
  exact Option.isSome_iff_exists.2 ⟨r, room?_eq_some.2 ⟨h, hi, hr⟩⟩

theorem Keeps.isPlayer (h : w.Keeps w') (hw' : w'.Sound) (hu : isPlayer w u = true) :
    isPlayer w' u = true := by
  obtain ⟨c, hc, hplayer⟩ := (Option.any_eq_true _ _).1 hu
  obtain ⟨hd, hi, hc⟩ := character?_eq_some.1 hc
  have hmobile : c.isMobile = false := by simpa using hplayer
  obtain ⟨c', hc', hf⟩ := h.player_record hw' hi hc hmobile
  refine (Option.any_eq_true _ _).2 ⟨c', character?_eq_some.2 ⟨hd, h.player hi hc hmobile, hc'⟩, ?_⟩
  rw [Character.isMobile, hf.vnum, ← Character.isMobile, hmobile]
  rfl

theorem reaches_of_room? {r : Room} (hr : w.room? x = some r) : w.Reaches x := by
  obtain ⟨h, hi, -⟩ := room?_eq_some.1 hr
  exact .inl ⟨h, hi⟩

/-- The room that somebody is found in is there. -/
theorem Sound.reaches_roomOf (hw : w.Sound) {r : Room} (hr : w.roomOf? u = some r) :
    w.Reaches r.uid := by
  obtain ⟨y, hy⟩ := room?_of_roomOf? hr
  obtain ⟨h, hi, hrec⟩ := room?_eq_some.1 hy
  obtain ⟨r0, hr0, hu⟩ := hw.room hi
  rw [hrec, Option.some.injEq] at hr0
  rw [hr0, hu]
  exact .inl ⟨h, hi⟩

end World

variable {may : Uid → Prop} {g g' g1 : Game} {run : Runner} {u actor room : Uid}

/-- Nobody becomes the owner of a trigger but by attaching one. -/
theorem Effect.owner {m m' : Moment} (h : Effect m m') (hs : m.game.engine.triggers.Sound)
    {x : Handle} {j : Instance} (hj : m'.game.instance? x = some j) :
    (∃ i, m.game.instance? x = some i ∧ i.owner = j.owner) ∨
      ∃ vnum position, m.game.attach vnum j.owner position = .ok (x, m'.game) := by
  -- All triggers but one are as before, and that one has the same owner.
  have one : ∀ {y : Handle}, (∀ x, x ≠ y → m'.game.instance? x = m.game.instance? x) →
      (∀ j, m'.game.instance? y = some j → ∃ i, m.game.instance? y = some i ∧ i.owner = j.owner) →
      ∃ i, m.game.instance? x = some i ∧ i.owner = j.owner := by
    intro y hother hself
    by_cases hxy : x = y
    · exact hxy ▸ hself j (hxy ▸ hj)
    · exact ⟨j, (hother x hxy).symm.trans hj, rfl⟩
  cases h with
  | spare _ _ hi =>
    rcases hi x with he | he
    · exact .inl ⟨j, he.symm.trans hj, rfl⟩
    · rw [he] at hj
      cases hj
  | @attach vnum target position h _ ha =>
    obtain ⟨p, rfl, he⟩ := attach_ok ha
    have hi := he ▸ hj
    rw [instance?_attachTo target vnum p position hs] at hi
    split at hi
    · rename_i hx
      cases hi
      exact .inr ⟨vnum, position, hx ▸ ha⟩
    · exact .inl ⟨j, hi, rfl⟩
  | work _ _ _ _ hother hself =>
    refine .inl (one hother fun j hj => ?_)
    obtain ⟨i, hi, ho, -⟩ := hself j hj
    exact ⟨i, hi, ho.symm⟩
  | leave _ _ _ hother hself =>
    refine .inl (one hother fun j hj => ?_)
    obtain ⟨i, hi, ho, -⟩ := hself j hj
    exact ⟨i, hi, ho.symm⟩
  | enter _ _ hother hi _ _ hself =>
    refine .inl (one hother fun j hj => ?_)
    obtain ⟨j', hj', ho, -⟩ := hself
    rw [hj', Option.some.injEq] at hj
    exact ⟨_, hi, ho.symm.trans (congrArg Instance.owner hj)⟩
  | refuse _ _ hother hi _ hself =>
    refine .inl (one hother fun j hj => ?_)
    rw [hself, Option.some.injEq] at hj
    subst hj
    exact ⟨_, hi, rfl⟩

namespace Game

theorem kindOf_of_attach {vnum : Vnum} {target : Uid} {position : Option Nat} {h : Handle}
    (ha : g.attach vnum target position = .ok (h, g')) : ∃ k, g.kindOf target = .ok k := by
  unfold attach at ha
  split at ha
  · cases ha
  · split at ha
    · cases ha
    · rename_i k hk
      exact ⟨k, hk⟩

theorem not_player_of_kindOf {k : Kind} (hk : g.kindOf u = .ok k) : isPlayer g.world u = false := by
  unfold isPlayer
  cases hc : g.world.character? u with
  | none => rfl
  | some c =>
    obtain ⟨hd, hi, -⟩ := World.character?_eq_some.1 hc
    have hr : g.world.resolve u = .character hd := by rw [World.resolve, hi]; rfl
    unfold kindOf at hk
    rw [hr] at hk
    simp only [hc] at hk
    split at hk
    · rename_i hm
      simp [hm]
    · cases hk

/-! ## Games in which some stay where they are -/

/-- No trigger is attached to those who may not be moved, and they are players (module doc). -/
structure Governed (may : Uid → Prop) (g : Game) : Prop where
  coherent : g.Coherent
  sound : g.world.Sound
  owners : ∀ {h i}, g.instance? h = some i → may i.owner
  players : ∀ {u}, ¬ may u → isPlayer g.world u = true

/-- A player to whom no trigger is attached. -/
def Unscripted (g : Game) (u : Uid) : Prop :=
  isPlayer g.world u = true ∧ ∀ h i, g.instance? h = some i → i.owner ≠ u

theorem Unscripted.governed (hu : g.Unscripted u) (hg : g.Coherent) (hw : g.world.Sound) :
    g.Governed (· ≠ u) where
  coherent := hg
  sound := hw
  owners hi := hu.2 _ _ hi
  players hn := Decidable.not_not.1 hn ▸ hu.1

theorem Governed.change {m m' : Moment} (hg : m.game.Governed may) (h : Change m m') :
    m'.game.Governed may where
  coherent := hg.coherent.change h
  sound := h.sound hg.sound
  owners := by
    intro x j hj
    rcases h.effect.owner hg.coherent.sound hj with ⟨i, hi, ho⟩ | ⟨vnum, position, ha⟩
    · exact ho ▸ hg.owners hi
    · by_contra hn
      obtain ⟨k, hk⟩ := kindOf_of_attach ha
      have hp := hg.players hn
      rw [not_player_of_kindOf hk] at hp
      cases hp
  players hn := (h.keeps hg.sound).isPlayer (h.sound hg.sound) (hg.players hn)

theorem Governed.of_same (hg : g.Governed may) (hs : Same g g') (hw : g'.world = g.world) :
    g'.Governed may where
  coherent := hg.coherent.of_same hs
  sound := hw ▸ hg.sound
  owners hj := by
    obtain ⟨i, hi, ho, -⟩ := hs.symm_instance hj
    exact ho ▸ hg.owners hi
  players hn := hw ▸ hg.players hn

/-- The game stays such a game, and nobody is moved but those who may be. -/
def Roams (may : Uid → Prop) (g g' : Game) : Prop :=
  g.Governed may → g'.Governed may ∧ World.Visits may g.world g'.world

/-- Nobody else is moved when the runner is given a trigger. -/
def Roaming (may : Uid → Prop) (run : Runner) : Prop :=
  ∀ ⦃g h i⦄ (bindings : List (String × String)), g.instance? h = some i →
    Roams may g (g.fire run h bindings).2

namespace Roams

theorem refl : Roams may g g := fun hg => ⟨hg, .refl⟩

theorem trans (h : Roams may g g1) (h' : Roams may g1 g') : Roams may g g' := by
  intro hg
  obtain ⟨hg1, hv⟩ := h hg
  obtain ⟨hg', hv'⟩ := h' hg1
  exact ⟨hg', hv.trans hv'⟩

theorem of_same (hs : Same g g') (hw : g'.world = g.world) : Roams may g g' :=
  fun hg => ⟨hg.of_same hs hw, hw ▸ .refl⟩

theorem of_change {s s' : List Activation} (h : Change ⟨s, g⟩ ⟨s', g'⟩) (hw : g'.world = g.world) :
    Roams may g g' := fun hg => ⟨hg.change h, hw ▸ .refl⟩

theorem place (hm : may u) (hroom : g.world.Reaches room) :
    Roams may g (g.withWorld (g.world.placeCharacter u room)) := fun hg =>
  ⟨hg.change (m := ⟨[], g⟩) (.place u room), .single (.place hm hroom)⟩

end Roams

end Game

/-! ## Events -/

theorem Look.roams (h : Look g g') : Roams may g g' := by
  cases h with
  | roll d => exact .of_same (same_of_eq rfl rfl) rfl
  | blame p faults => exact .of_same (same_of_eq rfl rfl) rfl

theorem Stirs.roams (h : Stirs run g g') (hr : Roaming may run) : Roams may g g' := by
  induction h with
  | refl => exact .refl
  | tail _ h ih =>
    cases h with
    | look h => exact ih.trans h.roams
    | fire bindings hi => exact ih.trans (hr bindings hi)

/-! ## Commands -/

namespace Game

theorem reaches_of_destination {w : World} {arg : String} (hd : destination? w arg = some room) :
    w.Reaches room := by
  unfold destination? at hd
  split at hd
  · rename_i u hu
    obtain ⟨vnum, -, hv⟩ := Option.bind_eq_some_iff.1 hu
    exact .inr ⟨vnum, Option.some.inj hd ▸ hv⟩
  · obtain ⟨r, hr⟩ := Option.isSome_iff_exists.1 (Option.filter_eq_some_iff.1 hd).2
    exact World.reaches_of_room? hr

end Game

theorem Chore.roams (h : Chore actor g g') (hm : may actor) : Roams may g g' := by
  cases h with
  | report => exact .of_same (same_of_eq rfl rfl) rfl
  | tell message => exact fun hg => ⟨hg.change (m := ⟨[], g⟩) (.tell message), .single (.tell message)⟩
  | goto hd => exact .place hm (reaches_of_destination hd)
  | @purge u hp =>
    refine fun hg => ⟨hg.change (m := ⟨[], g⟩) (.purge hp), ?_⟩
    rw [(silent_purge u).world]
    exact .single (.purge hp)
  | attach ha => exact .of_change (s := []) (.attach ha) (silent_attach ha).world
  | detach hc hx => exact .of_change (s := []) (.detach hc hx) (silent_removeInstance _ _).world
  | detachAll target => exact .of_change (s := []) (.detachAll target) (silent_detachAll target).world

theorem Errands.roams (h : Errands run actor g g') (hr : Roaming may run) (hm : may actor) :
    Roams may g g' := by
  induction h with
  | refl => exact .refl
  | tail _ h ih =>
    cases h with
    | chore h => exact ih.trans (h.roams hm)
    | stir h => exact ih.trans (Stirs.roams (.single h) hr)

namespace Game

/-! ## Runs -/

theorem Roams.of_acts {r : Run} (hx : ∀ g text, Roams may g (r.execute g r.owner text))
    (h : r.Acts g g') : Roams may g g' := by
  induction h with
  | refl => exact .refl
  | tail _ h ih =>
    rcases h with h | ⟨text, rfl⟩
    · exact ih.trans (.of_same h.same h.world)
    · exact ih.trans (hx _ text)

theorem leave_roams : Roams may g g.leave := .of_same same_leave rfl

/-- Nobody is moved by nested runs but those who may be, by induction on how many more may be nested. -/
theorem runWithin_roams (fuel : Nat) (host : Host) (h : Handle) (mode : RunMode) :
    Roams may g (runWithin fuel host g h mode).2 := by
  induction fuel generalizing g host h mode with
  | zero =>
    cases hi : g.instance? h with
    | none =>
      rw [runWithin_stale 0 host mode hi]
      exact .refl
    | some i =>
      rw [runWithin_refused host mode hi (.inl rfl)]
      exact .of_same (same_refuse _ _ _) (silent_refuse _ _ _).world
  | succ fuel ih =>
    cases hi : g.instance? h with
    | none =>
      rw [runWithin_stale _ host mode hi]
      exact .refl
    | some i =>
      by_cases hd : g.engine.config.maxScriptDepth < g.engine.depth
      · rw [runWithin_refused host mode hi (.inr hd)]
        exact .of_same (same_refuse _ _ _) (silent_refuse _ _ _).world
      · rw [runWithin_succ fuel host mode hi (Nat.not_lt.1 hd)]
        intro hg
        have hfire : Roaming may (runWithin fuel .standard) := by
          intro g h i bindings _
          have hbind : Roams may g (g.bindLocals h bindings) :=
            .of_same (same_bindLocals h bindings) rfl
          unfold fire
          exact hbind.trans (ih .standard h .new)
        have hexecute : ∀ g text,
            Roams may g (perform host (runWithin fuel .standard) g i.owner text) := fun g text => by
          unfold perform
          split
          · exact .of_same (same_of_eq rfl rfl) rfl
          · exact (execute_errands i.owner text).roams hfire (hg.owners hi)
        have hdrive := Roams.of_acts hexecute (Run.drive_acts
          (r := ⟨host, perform host (runWithin fuel .standard), h, i.owner, i.proto, mode⟩)
          (g := g.enter h i.owner) i)
        have henter : Roams may g (g.enter h i.owner) := .of_same (same_enter h i.owner) rfl
        exact ((henter.trans hdrive).trans leave_roams) hg

theorem run_roams (host : Host) (h : Handle) (mode : RunMode) :
    Roams may g (Game.run host g h mode).2 := runWithin_roams _ host h mode

theorem roaming_run (host : Host) : Roaming may (Game.run host) := by
  intro g h i bindings _
  have hbind : Roams may g (g.bindLocals h bindings) := .of_same (same_bindLocals h bindings) rfl
  unfold fire
  exact hbind.trans (run_roams host h .new)

theorem execute_roams (hr : Roaming may run) (hm : may actor) (line : String) :
    Roams may g (g.execute run actor line) := (execute_errands actor line).roams hr hm

theorem interpret_roams (hr : Roaming may run) (hm : may actor) (line : String) :
    Roams may g (interpret run actor line g) := (interpret_errands actor line).roams hr hm

/-! ## Walking -/

theorem reaches_of_wayOut {w : World} (hw : w.Sound) {d : Direction} {start finish : Uid} {vnum : Vnum}
    (hway : wayOut? w actor d = some (start, vnum, finish)) : w.Reaches start ∧ w.Reaches finish := by
  simp only [wayOut?, Option.bind_eq_bind, Option.bind_eq_some_iff, Option.pure_def,
    Option.some.injEq, Prod.mk.injEq] at hway
  obtain ⟨r, hr, x, -, v, -, u, hu, rfl, rfl, rfl⟩ := hway
  exact ⟨hw.reaches_roomOf hr, .inr ⟨v, hu⟩⟩

theorem walk_roams (hr : Roaming may run) (hm : may actor) (d : Direction) :
    Roams may g (walk run actor d g).2 := by
  intro hg
  unfold walk
  split
  · exact ⟨hg, .refl⟩
  · rename_i start vnum finish hway
    obtain ⟨hstart, hfinish⟩ := reaches_of_wayOut hg.sound hway
    have hleave := (mayLeave_stirs actor start vnum finish d).roams hr hg
    split
    · rename_i he
      rw [he] at hleave
      exact hleave
    · rename_i g1 he
      rw [he] at hleave
      obtain ⟨hg1, h1⟩ := hleave
      -- The rooms of the way are still there when the actor is put into them.
      have hthere : ∀ {g2 : Game} {room}, World.Visits may g.world g2.world →
          g.world.Reaches room →
          Roams may g2 (g2.withWorld (g2.world.placeCharacter actor room)) := fun hv hroom =>
        .place hm (hv.leads.reaches hroom)
      obtain ⟨hg2, h2⟩ := hthere h1 hfinish hg1
      obtain ⟨g3, hstir, ⟨-, hlast⟩ | ⟨-, hlast⟩⟩ := arrive_stirs run actor start finish d g1
      · obtain ⟨hg', h'⟩ := ((hstir.roams hr).trans (hlast.roams hr)) hg2
        exact ⟨hg', (h1.trans h2).trans h'⟩
      · obtain ⟨hg3, h3⟩ := hstir.roams hr hg2
        have hway3 := (h1.trans h2).trans h3
        obtain ⟨hg', h'⟩ := hthere hway3 hstart hg3
        rw [hlast]
        exact ⟨hg', hway3.trans h'⟩

/-! ## Pulses -/

theorem resumeDue_roams (host : Host) (fuel : Nat) :
    Roams may g (resumeDue (Game.run host) fuel g) := by
  induction fuel generalizing g with
  | zero => exact .refl
  | succ fuel ih =>
    unfold resumeDue
    split
    · exact .refl
    · rename_i w q _
      have hq : Roams may g (g.withWaits q) := .of_same (same_withWaits q) rfl
      simp only
      split
      · have hn : Roams may (g.withWaits q)
            ((g.withWaits q).report (.resuming w.continuation.owner w.continuation.resumeAt)) :=
          .of_same (same_of_eq rfl rfl) rfl
        exact ((hq.trans hn).trans (run_roams host _ .resume)).trans ih
      · exact hq.trans ih

theorem checkHour_roams (hr : Roaming may run) : Roams may g (checkHour run g) := by
  have hn : Roams may g (g.noteHour g.world.time.hours) := .of_same (same_of_eq rfl rfl) rfl
  unfold checkHour
  simp only
  split
  · exact hn.trans (scanTime_stirs.roams hr)
  · exact hn

theorem pulse_roams (host : Host) : Roams may g (g.pulse host) := by
  have htick : Roams may g g.tick := .of_same (same_of_eq rfl rfl) rfl
  have hscan : ∀ g : Game,
      Roams may g (if g.isScanPulse then scanRandom host (Game.run host) g else g) := by
    intro g
    split
    · exact (scanRandom_stirs host).roams (roaming_run host)
    · exact .refl
  exact ((htick.trans (resumeDue_roams host _)).trans (hscan _)).trans
    (checkHour_roams (roaming_run host))

end Game

/-! ## Calls of the host's -/

/-- Who a call is made for, if it may move the one. -/
def Operation.mover? : Operation → Option Uid
  | interpret _ actor _ | execute _ actor _ | walk _ actor _ => some actor
  | _ => none

theorem Operation.roams {op : Operation} (hop : op.isPlay = true)
    (hm : ∀ u, op.mover? = some u → may u) : Roams may g (op.apply g) := by
  cases op with
  | attach vnum target position =>
    rw [Operation.apply]
    split
    · rename_i ha
      exact .of_change (s := []) (.attach ha) (silent_attach ha).world
    · exact .refl
  | detach target spec =>
    show Roams may g (g.detach target spec).2
    rcases detach_cases (g := g) target spec with he | ⟨c, h, hc, hx, he⟩ <;> rw [he]
    · exact .refl
    · exact .of_change (s := []) (.detach hc hx) (silent_removeInstance _ _).world
  | detachAll target => exact .of_change (s := []) (.detachAll target) (silent_detachAll target).world
  | extractEntity u =>
    have hw : (g.extractEntity u).world = g.world := (silent_extractEntity u).world
    refine fun hg => ⟨⟨hg.coherent.extractEntity u, hw ▸ hg.sound, fun {h j} hj => ?_,
      fun hn => hw ▸ hg.players hn⟩, hw ▸ .refl⟩
    rcases spares_extractEntity (g := g) u h with he | he
    · exact hg.owners (he.symm.trans hj)
    · exact absurd (he.symm.trans hj) (Option.some_ne_none j).symm
  | setGlobal u name value => exact .of_same (same_modifyContainer u fun _ => rfl) rfl
  | dispatch host e => exact (e.dispatch_stirs host).roams (roaming_run host)
  | run host h mode => exact run_roams host h mode
  | pulse host => exact pulse_roams host
  | interpret host actor line => exact interpret_roams (roaming_run host) (hm actor rfl) line
  | execute host actor line => exact execute_roams (roaming_run host) (hm actor rfl) line
  | walk host actor d => exact walk_roams (roaming_run host) (hm actor rfl) d
  | purge | replaceWorld => cases hop

end MudTrigger
