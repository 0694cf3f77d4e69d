import MudTrigger.Proofs.Event.Barred
import MudTrigger.Proofs.Recursion.Level

/-!
# Death triggers run from a snapshot

When a mobile dies, its triggers are listed once and then run by their handles, while each of them may
detach the others, attach new ones or purge the mobile. `MobileEvent.Rites` is what should come of
this: every trigger of the list has its turn, and is run if it is still attached and idle. It is still
the trigger that was listed, because a handle that was issued before a game is not issued again after
it (`Game.Snapshot`), though its slot may be taken. That is what the loop does and it does nothing else
(`death_runs_snapshot`), whatever the host did before and does meanwhile: for a mobile that runs scripts
and is visible as its killer is, below the ceiling of nested runs, and as long as its scripts do not
attach so many triggers that a handle is issued again. Where nothing is run, the death is allowed.
-/

set_option autoImplicit false

namespace MudTrigger

open Game

namespace Game

/-! ## Handles that were issued before -/

/-- A change leaves the triggers that stay attached those they were, but for one that it attaches. -/
theorem origin_change {m m' : Moment} (h : Change m m') (hs : m.game.engine.triggers.Sound)
    {x : Handle} {i : Instance} (hi : m'.game.instance? x = some i) :
    (m.game.instance? x).map Instance.origin = some i.origin ∨
      ∃ target p, x = m.game.nextHandle target p ∧
        m'.game.attachments = m.game.attachments + 1 := by
  have spared : Spares x m.game m'.game →
      (m.game.instance? x).map Instance.origin = some i.origin := by
    rintro (he | he)
    · rw [← he, hi, Option.map_some]
    · rw [hi] at he
      cases he
  rcases same_or_alters h with hsame | halters
  · refine .inl ?_
    rw [← hsame.origin, hi, Option.map_some]
  · cases halters with
    | purge u => exact .inl (spared (.purge u))
    | @attach _ vnum target position _ _ hattach =>
      obtain ⟨p, -, he⟩ := attach_ok hattach
      rw [he, instance?_attachTo target vnum p position hs] at hi
      split at hi
      · exact .inr ⟨target, p, ‹_›, by rw [he, attachments_attachTo]⟩
      · rw [hi]
        exact .inl rfl
    | detach => exact .inl (spared (.of_remove (instance?_removeInstance _ _)))
    | detachAll target => exact .inl (spared (spares_detachAll target _))

/-- These handles reach in `g`, if anything, the triggers that they reached in `g0`. -/
structure Snapshot (g0 : Game) (hs : List Handle) (g : Game) : Prop where
  coherent : g.Coherent
  le : g0.attachments ≤ g.attachments
  within : ∀ h ∈ hs, g.engine.triggers.Within h (g.attachments - g0.attachments)
  origin : ∀ h ∈ hs, ∀ i, g.instance? h = some i →
    (g0.instance? h).map Instance.origin = some i.origin

namespace Snapshot

variable {g0 g g' : Game} {h : Handle} {hs : List Handle} {m m' : Moment}

theorem start (hg : g.Coherent) (hs' : ∀ h ∈ hs, ∃ i, g.instance? h = some i) : Snapshot g hs g where
  coherent := hg
  le := Nat.le_refl _
  within h hh := by
    obtain ⟨i, hi⟩ := hs' h hh
    exact Arena.within_of_get? hi _
  origin h _ i hi := by rw [hi, Option.map_some]

theorem tail (hg : Snapshot g0 (h :: hs) g) : Snapshot g0 hs g :=
  ⟨hg.coherent, hg.le, fun x hx => hg.within x (List.mem_cons_of_mem h hx),
    fun x hx => hg.origin x (List.mem_cons_of_mem h hx)⟩

/-- The handle that is issued next is none of these. -/
theorem nextHandle_ne (hg : Snapshot g0 hs g) (hn : g.attachments + 1 < g0.attachments + 0x1_0000_0000)
    (hh : h ∈ hs) (target : Uid) (p : Prototype) : g.nextHandle target p ≠ h :=
  ((hg.within h hh).insert hg.coherent.sound (by omega) _).1

theorem change (hg : Snapshot g0 hs m.game) (h : Change m m')
    (hn : m'.game.attachments < g0.attachments + 0x1_0000_0000) : Snapshot g0 hs m'.game := by
  refine ⟨hg.coherent.change h, Nat.le_trans hg.le h.attachments_le, fun x hx => ?_,
    fun x hx i hi => ?_⟩
  · exact h.within hg.coherent.sound hg.le hn (hg.within x hx)
  · rcases origin_change h hg.coherent.sound hi with ho | ⟨target, p, hnext, hone⟩
    · obtain ⟨j, hj, hji⟩ := Option.map_eq_some_iff.1 ho
      rw [hg.origin x hx j hj, hji]
    · rw [hone] at hn
      exact absurd hnext.symm (hg.nextHandle_ne hn hx target p)

theorem changes (hg : Snapshot g0 hs m.game) (h : Changes m m')
    (hn : m'.game.attachments < g0.attachments + 0x1_0000_0000) : Snapshot g0 hs m'.game := by
  induction h with
  | refl => exact hg
  | tail _ h ih => exact (ih (Nat.lt_of_le_of_lt h.attachments_le hn)).change h hn

end Snapshot

end Game

namespace MobileEvent

/-- The trigger was attached, for deaths. -/
def diesIn (g : Game) (h : Handle) : Bool :=
  (g.instance? h).any fun i => i.proto.events.meets MobileEventBit.death.bits

/-- The triggers of a mobile that are for its death, in the order in which they fire. -/
def deathTriggers (g : Game) (mob : Uid) : List Handle := (g.listed mob).filter (diesIn g)

/-- Triggers that were attached in `g0` have their turns. Who is still attached and idle is run from
the first line of its script, and the others are passed over; `ran` are those who were run, with the
results. -/
inductive Rites (host : Host) (bindings : List (String × String)) (g0 : Game) :
    List Handle → Game → List (Handle × Int) → Game → Prop
  | over {g} : Rites host bindings g0 [] g [] g
  | run {h hs g i result g1 ran g'} : g.instance? h = some i → i.isIdle = true →
    (g0.instance? h).map Instance.origin = some i.origin →
    (g.bindLocals h bindings).letIn host (Game.run .standard) h
      { i with locals := i.locals.setAll bindings } .new = (result, g1) →
    Rites host bindings g0 hs g1 ran g' →
    Rites host bindings g0 (h :: hs) g ((h, result) :: ran) g'
  | pass {h hs g ran g'} : (∀ i, g.instance? h = some i → i.isIdle = false) →
    Rites host bindings g0 hs g ran g' → Rites host bindings g0 (h :: hs) g ran g'

/-- The verdict of the last run, or else this one. -/
def verdict (ran : List (Handle × Int)) (otherwise : Int) : Int :=
  (ran.getLast?.map (·.2)).getD otherwise

variable {host : Host} {bindings : List (String × String)} {g0 g g' : Game} {h : Handle}
  {hs : List Handle} {ran : List (Handle × Int)} {mob : Uid} {result : Int} {d k : Nat}

theorem verdict_cons (otherwise : Int) :
    verdict ((h, result) :: ran) otherwise = verdict ran result := by
  cases ran with
  | nil => rfl
  | cons x ran => simp [verdict, List.getLast?_cons]

/-- Below the ceiling no run is refused. -/
theorem fire_letIn {i : Instance} (hi : g.instance? h = some i) (hl : g.AtLevel d k) (hd : d ≤ k) :
    g.fire (Game.run host) h bindings = (g.bindLocals h bindings).letIn host (Game.run .standard) h
      { i with locals := i.locals.setAll bindings } .new := by
  have hlow : ¬ (g.bindLocals h bindings).engine.config.maxScriptDepth <
      (g.bindLocals h bindings).engine.depth := by
    show ¬ g.engine.config.maxScriptDepth < g.engine.depth
    rw [hl.depth, hl.ceiling]
    exact Nat.not_lt.2 hd
  rw [fire, run_eq, instance?_bindLocals hi bindings]
  simp only [if_neg hlow]

theorem diesIn_of_origin {i : Instance} (ho : (g0.instance? h).map Instance.origin = some i.origin) :
    diesIn g0 h = i.proto.events.meets MobileEventBit.death.bits := by
  obtain ⟨j, hj, he⟩ := Option.map_eq_some_iff.1 ho
  rw [diesIn, hj, Option.any_some, show j.proto = i.proto from congrArg Prod.snd he]

/-- One after another the death triggers of a list have their turns. -/
theorem deathEach_rites (hg : Snapshot g0 hs g) (hl : g.AtLevel d k) (hd : d ≤ k) (result : Int)
    (hn : (deathEach (Game.run host) bindings hs result g).2.attachments <
      g0.attachments + 0x1_0000_0000) :
    ∃ ran, Rites host bindings g0 (hs.filter (diesIn g0)) g ran
        (deathEach (Game.run host) bindings hs result g).2 ∧
      (deathEach (Game.run host) bindings hs result g).1 = verdict ran result := by
  have hf := fires_run host
  induction hs generalizing g result with
  | nil => exact ⟨[], .over, rfl⟩
  | cons h hs ih =>
    unfold deathEach at hn ⊢
    by_cases hready : (g.instance? h).any fun i =>
        i.proto.events.meets MobileEventBit.death.bits && i.isIdle
    · simp only [if_pos hready] at hn ⊢
      obtain ⟨i, hi, hi'⟩ := (Option.any_eq_true _ _).1 hready
      obtain ⟨hdies, hidle⟩ := Bool.and_eq_true _ _ ▸ hi'
      have ho := hg.origin h List.mem_cons_self i hi
      have hrest := (deathEach_stirs (g := (g.fire (Game.run host) h bindings).2) bindings hs
        (g.fire (Game.run host) h bindings).1).evolves hf (s := [])
      have hfew := Nat.lt_of_le_of_lt (Changes.attachments_le hrest) hn
      obtain ⟨ran, hrites, hverdict⟩ := ih (hg.changes (hf (s := []) bindings hi hidle) hfew).tail
        (hl.evolves (hf bindings hi hidle)) _ hn
      rw [List.filter_cons_of_pos (by rw [diesIn_of_origin ho, hdies])]
      exact ⟨(h, (g.fire (Game.run host) h bindings).1) :: ran,
        .run hi hidle ho (fire_letIn hi hl hd).symm hrites, by rw [hverdict, verdict_cons]⟩
    · simp only [if_neg hready] at hn ⊢
      obtain ⟨ran, hrites, hverdict⟩ := ih hg.tail hl result hn
      refine ⟨ran, ?_, hverdict⟩
      by_cases hdies : diesIn g0 h = true
      · rw [List.filter_cons_of_pos hdies]
        refine .pass (fun i hi => ?_) hrites
        rw [diesIn_of_origin (hg.origin h List.mem_cons_self i hi)] at hdies
        simpa [hi, hdies] using hready
      · rwa [List.filter_cons_of_neg hdies]

/-- Testing the event bits of the container first makes no difference. -/
theorem filter_triggersWith (hg : g.Coherent) :
    (triggersWith g mob MobileEventBit.death.bits).filter (diesIn g) = deathTriggers g mob := by
  unfold triggersWith deathTriggers
  cases hc : g.container? mob with
  | none => rw [listed_eq_nil hc]; rfl
  | some c =>
    rw [listed_eq hc, Option.filter_some]
    split
    · rfl
    · rename_i hno
      refine (List.filter_eq_nil_iff.2 fun h hh hdies => hno ?_).symm
      obtain ⟨i, hi, hbit⟩ := (Option.any_eq_true _ _).1 hdies
      exact (hg.hasEvent_iff hc).2 ⟨h, hh, i, hi, hbit⟩

theorem mem_listed_of_triggersWith {events : Bits} (hh : h ∈ triggersWith g mob events) :
    h ∈ g.listed mob := by
  unfold triggersWith at hh
  cases hc : g.container? mob with
  | none =>
    rw [hc] at hh
    cases hh
  | some c =>
    rw [hc, Option.filter_some] at hh
    rw [listed_eq hc]
    split at hh
    · exact hh
    · cases hh

theorem mem_deathTriggers (hg : g.Coherent) : h ∈ deathTriggers g mob ↔
    ∃ i, g.instance? h = some i ∧ i.owner = mob ∧
      i.proto.events.meets MobileEventBit.death.bits = true := by
  rw [deathTriggers, List.mem_filter, hg.mem_listed_iff]
  constructor
  · rintro ⟨⟨i, hi, ho⟩, hdies⟩
    rw [diesIn, hi] at hdies
    exact ⟨i, hi, ho, hdies⟩
  · rintro ⟨i, hi, ho, hbit⟩
    exact ⟨⟨i, hi, ho⟩, by rw [diesIn, hi]; exact hbit⟩

end MobileEvent

/-- When a mobile dies, at any stage of a game, the death triggers that it has then get their turns in
order, each once. Those that are still attached and idle are run and no others; the last run decides.
No trigger that is attached later goes by one of their handles. -/
theorem death_runs_snapshot (config : Config) (registry : Registry) (world : World)
    (may : Game → Operation → Prop) (p : Stage) (host : Host) (mob : Uid) (actor : Option Uid)
    (hp : Course may (Stage.start (Game.start config registry world)) p) :
    let g := p.game
    let snapshot := MobileEvent.deathTriggers g mob
    let answer := MobileEvent.onDeath (Game.run host) mob actor g
    MobileEvent.isReady g.world mob = true → actor.all g.world.wakesTriggers = true →
    g.engine.depth ≤ g.engine.config.maxScriptDepth →
    answer.2.attachments < g.attachments + 0x1_0000_0000 →
    snapshot.Nodup ∧
    (∀ h, h ∈ snapshot ↔ ∃ i, g.instance? h = some i ∧ i.owner = mob ∧
      i.proto.events.meets MobileEventBit.death.bits = true) ∧
    (∃ ran, MobileEvent.Rites host (actor.map actorVar).toList g snapshot g ran answer.2 ∧
      answer.1 = decide (MobileEvent.verdict ran 1 ≠ 0)) ∧
    ∀ m vnum target position h g1, Changes ⟨p.moment.stack, g⟩ m →
      m.game.attach vnum target position = .ok (h, g1) →
      g1.attachments < g.attachments + 0x1_0000_0000 → h ∉ snapshot := by
  intro g snapshot answer hmob hactor hdepth hn
  have hg : g.Coherent := ((Stage.sane_start config registry world).course hp).coherent
  have hsnap : Snapshot g (MobileEvent.triggersWith g mob MobileEventBit.death.bits) g :=
    .start hg fun h hh => (hg.mem_listed_iff.1 (MobileEvent.mem_listed_of_triggersWith hh)).imp
      fun _ => And.left
  refine ⟨(hg.nodup_listed mob).filter _, fun h => MobileEvent.mem_deathTriggers hg, ?_,
    fun m vnum target position h g1 hm hattach hfew hh => ?_⟩
  · have hanswer : answer = (decide ((MobileEvent.deathEach (Game.run host)
        (actor.map actorVar).toList (MobileEvent.triggersWith g mob MobileEventBit.death.bits) 1 g).1
          ≠ 0), (MobileEvent.deathEach (Game.run host) (actor.map actorVar).toList
            (MobileEvent.triggersWith g mob MobileEventBit.death.bits) 1 g).2) := by
      show MobileEvent.onDeath _ _ _ _ = _
      rw [MobileEvent.onDeath, hmob, hactor, Bool.and_self, if_pos rfl]
    rw [hanswer] at hn ⊢
    obtain ⟨ran, hrites, hverdict⟩ := MobileEvent.deathEach_rites hsnap ⟨rfl, rfl⟩ hdepth 1 hn
    rw [MobileEvent.filter_triggersWith hg] at hrites
    exact ⟨ran, hrites, by rw [hverdict]⟩
  · obtain ⟨q, rfl, hg1⟩ := attach_ok hattach
    rw [hg1, attachments_attachTo] at hfew
    have hstart : Snapshot g snapshot g := .start hg fun h hh =>
      ((MobileEvent.mem_deathTriggers hg).1 hh).imp fun _ => And.left
    exact (hstart.changes hm (Nat.lt_of_succ_lt hfew)).nextHandle_ne hfew hh target q rfl

/-- A trigger for the death of its mobile. -/
def dirge (vnum : Vnum) (name body : String) : Prototype :=
  { vnum, name, kind := .mobile, events := MobileEventBit.death.bits, script := Script.compile body }

def dirges : Registry :=
  [dirge 1 "first" "detach %self% second\nattach 4 %self%\necho one", dirge 2 "second" "echo two",
    dirge 3 "third" "echo three\nreturn 0", dirge 4 "late" "echo late"].foldl Registry.register ∅

/-- A player, and a mobile. -/
def circus : World :=
  let w := ((({} : World).addRoom 100 "circus").2.addPlayer "Ann" (Uid.room 0)).2
  (w.addMobile 7 "a lion" (Uid.room 0)).2

/-- The mobile is given three triggers. -/
def rehearsal : List Operation :=
  [.attach 1 ⟨100001⟩ none, .attach 2 ⟨100001⟩ none, .attach 3 ⟨100001⟩ none]

def mortal : Game := (Game.start {} dirges circus).play rehearsal

/-- The first trigger detaches the second one and attaches another, which takes over its slot: this one
is not run, and the third one decides. -/
theorem mortal_runs_snapshot :
    let snapshot := MobileEvent.deathTriggers mortal ⟨100001⟩
    let answer := MobileEvent.onDeath (Game.run .standard) ⟨100001⟩ (some ⟨100000⟩) mortal
    snapshot = [⟨0, 0⟩, ⟨1, 0⟩, ⟨2, 0⟩] ∧
    MobileEvent.deathTriggers answer.2 ⟨100001⟩ = [⟨0, 0⟩, ⟨2, 0⟩, ⟨1, 1⟩] ∧
    answer.2.world.messages = ["one", "three"] ∧
    ∃ ran, MobileEvent.Rites .standard [actorVar ⟨100000⟩] mortal snapshot mortal ran answer.2 ∧
      false = decide (MobileEvent.verdict ran 1 ≠ 0) := by
  intro snapshot answer
  have hsnapshot : snapshot = [⟨0, 0⟩, ⟨1, 0⟩, ⟨2, 0⟩] := by decide +kernel
  obtain ⟨hafter, hmessages, hfalse, hfew⟩ :
      MobileEvent.deathTriggers answer.2 ⟨100001⟩ = [⟨0, 0⟩, ⟨2, 0⟩, ⟨1, 1⟩] ∧
      answer.2.world.messages = ["one", "three"] ∧ answer.1 = false ∧
      answer.2.attachments < mortal.attachments + 0x1_0000_0000 := by decide +kernel
  have hpaced : (Game.start {} dirges circus).Paced rehearsal := by decide +kernel
  have hmay : (Game.start {} dirges circus).Allows (fun _ _ => True) rehearsal :=
    ⟨trivial, trivial, trivial, trivial⟩
  have hready : MobileEvent.isReady mortal.world ⟨100001⟩ = true := by decide +kernel
  have hann : (some ⟨100000⟩ : Option Uid).all mortal.world.wakesTriggers = true := by decide +kernel
  have hdepth : mortal.engine.depth ≤ mortal.engine.config.maxScriptDepth := by decide +kernel
  obtain ⟨n, hc⟩ := play_course hmay hpaced (Game.start {} dirges circus).attachments
  obtain ⟨-, -, ⟨ran, hrites, hverdict⟩, -⟩ := death_runs_snapshot {} dirges circus _
    ⟨⟨[], mortal⟩, n⟩ .standard ⟨100001⟩ (some ⟨100000⟩) hc hready hann hdepth hfew
  exact ⟨hsnapshot, hafter, hmessages, ran, hrites, hfalse.symm.trans hverdict⟩

end MudTrigger
