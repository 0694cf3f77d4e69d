import MudTrigger.Proofs.Event.Heed
import MudTrigger.Proofs.Wait.Frame

/-!
# Barred mobiles run no scripts

A run of somebody who is not barred heeds the barred, because all it does to others is done by its
commands, and of these only speaking fires triggers, by events that heed the barred; so runs do,
however deeply they are nested (`Game.heeding_runWithin`). When a mobile dies its death triggers are
fired one after another by their handles, and a handle may be issued again for a trigger of somebody
else once 2^32 triggers have been attached meanwhile; short of that the handles stay those of the
mobile's own triggers (`Game.Owned`). So no event that looks first makes a barred mobile run a script
(`barred_run_nothing`), if the lists of the world are in order. The one event of mobiles that does not
look is their loading (`lodger_runs`).
-/

set_option autoImplicit false

namespace MudTrigger

open Game

namespace Game

variable {w : World} {g g' : Game} {run : Runner}

/-! ## Commands -/

theorem deeds_purgeAll (us : List Uid) (u : Uid) : (g.purgeAll us).deeds u = g.deeds u := by
  unfold purgeAll
  induction us generalizing g with
  | nil => rfl
  | cons v us ih =>
    rw [List.foldl_cons, ih]
    split
    · rfl
    · exact (silent_purge v).deeds u

theorem doPurge_heeds (actor : Uid) (arg : String) : Heeds w g (g.doPurge actor arg) := by
  refine .of_evolves (doPurge_chores actor arg).evolves fun u => ?_
  unfold doPurge
  split
  · exact (silent_report rfl).deeds u
  · exact deeds_purgeAll _ u

theorem doAttach_heeds (actor : Uid) (arg : String) : Heeds w g (g.doAttach actor arg) := by
  refine .of_evolves (doAttach_chores actor arg).evolves fun u => ?_
  unfold doAttach
  simp only
  split
  · exact (silent_report rfl).deeds u
  · split
    · exact (silent_report rfl).deeds u
    · split
      · exact (silent_report rfl).deeds u
      · rename_i ha
        exact (silent_attach ha).deeds u

theorem doDetach_heeds (actor : Uid) (arg : String) : Heeds w g (g.doDetach actor arg) := by
  refine .of_evolves (doDetach_chores actor arg).evolves fun u => ?_
  unfold doDetach
  simp only
  split
  · exact (silent_report rfl).deeds u
  · split
    · exact (silent_detachAll _).deeds u
    · unfold detach
      split
      · rfl
      · exact (silent_removeInstance _ _).deeds u

theorem doGoto_heeds (actor : Uid) (arg : String) : Heeds w g (g.doGoto actor arg) := by
  refine .of_evolves (doGoto_chores actor arg).evolves fun u => ?_
  unfold doGoto
  split
  · rfl
  · exact (silent_report rfl).deeds u

theorem tell_heeds (message : String) : Heeds w g (g.withWorld (g.world.tell message)) :=
  .of_evolves (.single (.tell message)) fun _ => rfl

section

variable (hw : w.Sound) (hr : Heeding w run)
include hw hr

theorem doSay_heeds (actor : Uid) (text : String) : Heeds w g (g.doSay run actor text) := by
  have hm := Event.dispatch_heeds hr hw .standard (e := .mobile (.speech actor text)) nofun nofun
    (g := g.withWorld (g.world.tell s!"{g.world.displayName actor} says, '{text}'"))
  exact ((tell_heeds _).trans hm).trans
    (Event.dispatch_heeds hr hw .standard (e := .room (.speech actor text)) nofun nofun)

theorem execute_heeds (actor : Uid) (line : String) : Heeds w g (g.execute run actor line) := by
  unfold execute
  simp only
  split
  · exact tell_heeds _
  · exact tell_heeds _
  · exact doSay_heeds hw hr actor _
  · exact doPurge_heeds actor _
  · exact doAttach_heeds actor _
  · exact doDetach_heeds actor _
  · exact doGoto_heeds actor _
  · exact .refl
  · exact .of_silent (same_of_eq rfl rfl) (silent_report rfl)

end

/-! ## Runs -/

/-- A run heeds the barred if its owner is not barred and its commands heed them. -/
theorem Heeds.of_acts {r : Run} (hu : w.isBarred r.owner = false)
    (hx : ∀ g text, Heeds w g (r.execute g r.owner text)) (h : r.Acts g g') : Heeds w g g' := by
  induction h with
  | refl => exact .refl
  | tail _ h ih =>
    rcases h with h | ⟨text, rfl⟩
    · exact ih.trans (.of_inward hu h)
    · exact ih.trans (hx _ text)

theorem leave_heeds : Heeds w g g.leave := .of_silent same_leave (silent_of_eq rfl rfl)

/-- Nested runs heed the barred, by induction on how many more may be nested. -/
theorem heeding_runWithin (hw : w.Sound) (fuel : Nat) (host : Host) :
    Heeding w (runWithin fuel host) := by
  induction fuel generalizing host with
  | zero =>
    intro g h i bindings hi _
    have hbind : Heeds w g (g.bindLocals h bindings) :=
      .of_silent (same_bindLocals h bindings) (silent_of_eq rfl rfl)
    unfold fire
    rw [runWithin_refused host .new (instance?_bindLocals hi bindings) (.inl rfl)]
    exact hbind.trans (.of_silent (same_refuse _ _ _) (silent_refuse _ _ _))
  | succ fuel ih =>
    intro g h i bindings hi hu
    have hb := instance?_bindLocals hi bindings
    have hbind : Heeds w g (g.bindLocals h bindings) :=
      .of_silent (same_bindLocals h bindings) (silent_of_eq rfl rfl)
    unfold fire
    generalize g.bindLocals h bindings = g1 at hb hbind ⊢
    by_cases hd : g1.engine.config.maxScriptDepth < g1.engine.depth
    · rw [runWithin_refused host .new hb (.inr hd)]
      exact hbind.trans (.of_silent (same_refuse _ _ _) (silent_refuse _ _ _))
    · rw [runWithin_succ fuel host .new hb (Nat.not_lt.1 hd)]
      have hexecute : ∀ g text,
          Heeds w g (perform host (runWithin fuel .standard) g i.owner text) := fun g text => by
        unfold perform
        split
        · exact .of_silent (same_of_eq rfl rfl) (silent_of_eq rfl rfl)
        · exact execute_heeds hw (ih .standard) i.owner text
      have hdrive := Heeds.of_acts hu hexecute (Run.drive_acts
        (r := ⟨host, perform host (runWithin fuel .standard), h, i.owner, i.proto, .new⟩)
        (g := g1.enter h i.owner) { i with locals := i.locals.setAll bindings })
      exact ((hbind.trans (.of_inward hu (inward_enter h))).trans hdrive).trans leave_heeds

theorem heeding_run (hw : w.Sound) (host : Host) : Heeding w (Game.run host) :=
  fun _ _ _ bindings hi hu => heeding_runWithin hw _ host bindings hi hu

/-! ## The triggers of one who dies -/

/-- These handles are or were those of `u`'s triggers, and their slots have been taken at most as
often as triggers were attached since there were `n` attachments. -/
structure Owned (u : Uid) (n : Nat) (hs : List Handle) (g : Game) : Prop where
  coherent : g.Coherent
  le : n ≤ g.attachments
  within : ∀ h ∈ hs, g.engine.triggers.Within h (g.attachments - n)
  owner : ∀ h ∈ hs, ∀ i, g.instance? h = some i → i.owner = u

variable {u : Uid} {n : Nat} {h : Handle} {hs : List Handle}

/-- Triggers keep their owners, unless a handle is issued. -/
theorem Effect.owner {m m' : Moment} (he : Effect m m') (hs : m.game.engine.triggers.Sound)
    {j : Instance} (hj : m'.game.instance? h = some j) :
    (∃ i, m.game.instance? h = some i ∧ i.owner = j.owner) ∨
      ∃ target p, h = m.game.nextHandle target p ∧
        m'.game.attachments = m.game.attachments + 1 := by
  -- All but one of the triggers are as they were.
  have other : ∀ {x : Handle}, (∀ y, y ≠ x → m'.game.instance? y = m.game.instance? y) →
      (h = x → ∃ i, m.game.instance? h = some i ∧ i.owner = j.owner) →
      ∃ i, m.game.instance? h = some i ∧ i.owner = j.owner := fun {x} hx hself => by
    by_cases he : h = x
    · exact hself he
    · exact ⟨j, (hx h he).symm.trans hj, rfl⟩
  cases he with
  | spare _ _ hx =>
    rcases hx h with he | he
    · exact .inl ⟨j, he.symm.trans hj, rfl⟩
    · rw [hj] at he
      cases he
  | @attach vnum target position _ _ ha =>
    obtain ⟨p, -, hg⟩ := attach_ok ha
    rw [hg, instance?_attachTo target vnum p position hs] at hj
    split at hj
    · rename_i hnext
      exact .inr ⟨target, p, hnext, by rw [hg, attachments_attachTo]⟩
    · exact .inl ⟨j, hj, rfl⟩
  | work _ _ _ _ hx hself | leave _ _ _ hx hself =>
    refine .inl (other hx fun he => ?_)
    subst he
    obtain ⟨i, hi, ho, -⟩ := hself j hj
    exact ⟨i, hi, ho.symm⟩
  | enter _ _ hx hi _ _ hself =>
    refine .inl (other hx fun he => ?_)
    subst he
    obtain ⟨k, hk, ho, -⟩ := hself
    rw [hj, Option.some.injEq] at hk
    exact ⟨_, hi, by rw [hk, ho]⟩
  | refuse _ _ hx hi _ hself =>
    refine .inl (other hx fun he => ?_)
    subst he
    rw [hj, Option.some.injEq] at hself
    exact ⟨_, hi, by rw [hself]; rfl⟩

namespace Owned

theorem change {m m' : Moment} (hg : Owned u n hs m.game) (h : Change m m')
    (hn : m'.game.attachments < n + 0x1_0000_0000) : Owned u n hs m'.game := by
  have hsound := hg.coherent.sound
  refine ⟨hg.coherent.change h, Nat.le_trans hg.le h.attachments_le,
    fun x hx => h.within hsound hg.le hn (hg.within x hx), fun x hx j hj => ?_⟩
  rcases Effect.owner h.effect hsound hj with ⟨i, hi, ho⟩ | ⟨target, p, hnext, hone⟩
  · rw [← ho]
    exact hg.owner x hx i hi
  · have hle := hg.le
    rw [hone] at hn
    exact absurd hnext.symm
      ((hg.within x hx).insert hsound (by omega) { proto := p, owner := target }).1

theorem changes {m m' : Moment} (hg : Owned u n hs m.game) (h : Changes m m')
    (hn : m'.game.attachments < n + 0x1_0000_0000) : Owned u n hs m'.game := by
  induction h with
  | refl => exact hg
  | tail _ h ih => exact (ih (Nat.lt_of_le_of_lt h.attachments_le hn)).change h hn

theorem tail (hg : Owned u n (h :: hs) g) : Owned u n hs g :=
  ⟨hg.coherent, hg.le, fun x hx => hg.within x (List.mem_cons_of_mem h hx),
    fun x hx => hg.owner x (List.mem_cons_of_mem h hx)⟩

end Owned

end Game

namespace MobileEvent

variable {w : World} {g : Game} {run : Runner}

theorem deathEach_heeds (hf : Fires run) (hr : Heeding w run) {mob : Uid} {n : Nat}
    (hm : w.isBarred mob = false) (bindings : List (String × String)) {hs : List Handle}
    (result : Int) (hg : Owned mob n hs g)
    (hn : (deathEach run bindings hs result g).2.attachments < n + 0x1_0000_0000) :
    Heeds w g (deathEach run bindings hs result g).2 := by
  induction hs generalizing g result with
  | nil => exact .refl
  | cons h hs ih =>
    unfold deathEach at hn ⊢
    split at hn
    · rename_i hc
      rw [if_pos hc]
      obtain ⟨i, hi, hidle⟩ := (Option.any_eq_true _ _).1 hc
      have he := hf (s := []) bindings hi (Bool.and_eq_true _ _ ▸ hidle).2
      have hown : w.isBarred i.owner = false := by
        rw [hg.owner h List.mem_cons_self i hi]
        exact hm
      have hrest := (deathEach_stirs (g := (g.fire run h bindings).2) bindings hs
        (g.fire run h bindings).1).evolves hf (s := [])
      have hfew := Nat.lt_of_le_of_lt (Changes.attachments_le hrest) hn
      exact (hr bindings hi hown).trans (ih _ (hg.changes he hfew).tail hn)
    · rename_i hc
      rw [if_neg hc]
      exact ih result hg.tail hn

theorem onDeath_heeds (hf : Fires run) (hr : Heeding w run) (mob : Uid) (actor : Option Uid)
    (hn : (onDeath run mob actor g).2.attachments < g.attachments + 0x1_0000_0000) :
    Heeds w g (onDeath run mob actor g).2 := by
  intro hl
  unfold onDeath at hn ⊢
  split at hn
  · rename_i hc
    rw [if_pos hc]
    have hown : Owned mob g.attachments (triggersWith g mob MobileEventBit.death.bits) g := by
      refine ⟨hl.coherent, Nat.le_refl _, fun h hh => ?_, owner_of_triggersWith hl.coherent⟩
      unfold triggersWith at hh
      cases hcont : g.container? mob with
      | none =>
        rw [hcont] at hh
        cases hh
      | some c =>
        rw [hcont, Option.filter_some] at hh
        split at hh
        · obtain ⟨i, hi, -⟩ := hl.coherent.live hcont hh
          exact Arena.within_of_get? hi _
        · cases hh
    have hm := hl.performs (performs_of_isReady (Bool.and_eq_true _ _ ▸ hc).1)
    exact deathEach_heeds hf hr hm _ 1 hown hn hl
  · rename_i hc
    rw [if_neg hc]
    exact ⟨hl, fun _ _ => rfl⟩

end MobileEvent

/-- However a game came about, the triggers of a mobile that is barred from scripts are not run by an
event, nor by any script that the event makes others run, at any depth; unless the event names the
mobile itself and does not look whether it is barred. -/
theorem barred_run_nothing (config : Config) (registry : Registry) (world : World)
    (ops : List Operation) (host : Host) (e : Event) :
    let g := (Game.start config registry world).play ops
    let g' := (e.dispatch host (Game.run host) g).2
    g.world.Sound →
    (∀ u, e.unchecked? = some u → g.world.isBarred u = false) →
    (∀ mob actor, e = .mobile (.death mob actor) →
      g'.attachments < g.attachments + 0x1_0000_0000) →
    ∀ u, g.world.isBarred u = true → g'.deeds u = g.deeds u := by
  intro g g' hw he hn u hu
  have hl : Later g.world g := ⟨play_coherent config registry world ops, .refl⟩
  have hr := heeding_run hw host
  by_cases hd : ∃ mob actor, e = .mobile (.death mob actor)
  · obtain ⟨mob, actor, rfl⟩ := hd
    exact (MobileEvent.onDeath_heeds (Game.fires_run host) hr mob actor (hn mob actor rfl) hl).2 u hu
  · have hd : ∀ mob actor, e ≠ .mobile (.death mob actor) := fun mob actor h => hd ⟨mob, actor, h⟩
    exact (Event.dispatch_heeds hr hw host he hd hl).2 u hu

/-- A trigger of mobiles that repeats what it hears. -/
def parroting (events : Bits) : Prototype :=
  { vnum := 1, name := "parrot", kind := .mobile, events, narg := 100, arg := "hello"
    script := Script.compile "say hello\n" }

/-- A player, a mobile that is barred from scripts, and another one. -/
def inn : World :=
  let w := ((({} : World).addRoom 100 "inn").2.addPlayer "Ann" (Uid.room 0)).2
  ((w.addMobile 7 "an orc" (Uid.room 0)).2.addMobile 8 "a parrot" (Uid.room 0)).2.modifyCharacter
    ⟨100001⟩ ({ · with flags := Character.noScript })

theorem inn_crafted : Relation.ReflTransGen World.Craft {} inn :=
  .head (.addRoom 100 "inn") (.head (.addPlayer "Ann" (Uid.room 0))
    (.head (.addMobile 7 "an orc" (Uid.room 0)) (.head (.addMobile 8 "a parrot" (Uid.room 0))
      (.single (.modifyCharacter ⟨100001⟩ _ (fun _ _ => rfl) fun _ _ _ hx => .inl hx)))))

/-- Both mobiles are given a trigger. -/
def lodging : List Operation :=
  [.replaceWorld inn, .attach 1 ⟨100001⟩ none, .attach 1 ⟨100002⟩ none]

/-- The game in which these triggers are for such events. -/
def lodged (events : Bits) : Game :=
  (Game.start {} ((∅ : Registry).register (parroting events)) {}).play lodging

theorem lodged_sound (events : Bits) : (lodged events).world.Sound :=
  play_sound World.sound_empty ⟨fun w hw => (by cases hw; exact inn_crafted),
    fun w hw => (by cases hw), fun w hw => (by cases hw), trivial⟩

/-- A word is heard by the parrot, which repeats it, but nothing comes of it with the orc, neither
when the player says it nor when the parrot does. -/
theorem parrot_unheard :
    let g := lodged MobileEventBit.speech.bits
    let g' := ((Event.mobile (.speech ⟨100000⟩ "hello")).dispatch .standard
      (Game.run .standard) g).2
    (g'.deeds ⟨100002⟩).length = 3 ∧ g'.deeds ⟨100001⟩ = g.deeds ⟨100001⟩ := by
  intro g g'
  have hbarred : g.world.isBarred ⟨100001⟩ = true := by decide +kernel
  exact ⟨by decide +kernel, barred_run_nothing {} _ {} lodging .standard
    (.mobile (.speech ⟨100000⟩ "hello")) (lodged_sound _) nofun nofun ⟨100001⟩ hbarred⟩

/-- A barred mobile that has just been loaded runs its trigger for that. -/
theorem lodger_runs :
    ¬ ∀ (config : Config) (registry : Registry) (world : World) (ops : List Operation)
      (host : Host) (e : Event),
      let g := (Game.start config registry world).play ops
      g.world.Sound → ∀ u, g.world.isBarred u = true →
        (e.dispatch host (Game.run host) g).2.deeds u = g.deeds u := by
  intro hall
  have hdeeds := hall {} ((∅ : Registry).register (parroting MobileEventBit.load.bits)) {} lodging
    .standard (.mobile (.load ⟨100001⟩)) (lodged_sound _) ⟨100001⟩ (by decide +kernel)
  have hran : (((Event.mobile (.load ⟨100001⟩)).dispatch .standard (Game.run .standard)
      (lodged MobileEventBit.load.bits)).2.deeds ⟨100001⟩).length = 3 := by decide +kernel
  have hbefore : ((lodged MobileEventBit.load.bits).deeds ⟨100001⟩).length = 0 := by decide +kernel
  unfold lodged at hran hbefore
  rw [hdeeds, hbefore] at hran
  cases hran

end MudTrigger
