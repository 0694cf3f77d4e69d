import MudTrigger.Proofs.Trace.Run
import MudTrigger.Proofs.Wait.Change

/-!
# A run that waits for its command

While a command of a run is carried out the run is held, and other runs may come and go on top of
it. `Held i n m` says what they leave of its trigger `i`: it is as it was, or it is gone. Every change
keeps this (`Held.change`), because a trigger with a run under way is not idle, and only idle
triggers are fired from within a run. So a command either removes the trigger that gave it, or leaves
it as it was (`Executes.spares`).
-/

set_option autoImplicit false

namespace MudTrigger

open Game

/-- The trigger is as it was, or gone. -/
def Game.Spares (h : Handle) (g g' : Game) : Prop :=
  g'.instance? h = g.instance? h ∨ g'.instance? h = none

namespace Game.Spares

variable {h : Handle} {g g' g1 : Game}

theorem of_eq (hi : g'.instance? h = g.instance? h) : Spares h g g' := .inl hi

theorem trans (hs : Spares h g g') (hs' : Spares h g' g1) : Spares h g g1 := by
  rcases hs' with he | he
  · rw [Spares, he]
    exact hs
  · exact .inr he

theorem of_remove {p : Handle → Prop} [DecidablePred p]
    (hi : ∀ x, g'.instance? x = if p x then none else g.instance? x) : Spares h g g' := by
  rw [Spares, hi]
  split
  · exact .inr rfl
  · exact .inl rfl

theorem modifyInstance {x : Handle} (hne : h ≠ x) (f : Instance → Instance) :
    Spares h g (g.modifyInstance x f) := .inl (instance?_modifyInstance_ne g h f hne)

theorem purge (u : Uid) : Spares h g (g.purge u) := by
  have hf : ∀ (us : List Uid) (g1 : Game), Spares h g1 (us.foldl extractEntity g1) := by
    intro us
    induction us with
    | nil => exact fun g1 => of_eq rfl
    | cons v us ih =>
      intro g1
      have hv : Spares h g1 (g1.extractEntity v) :=
        of_remove (p := (· ∈ g1.listed v)) fun _ => instance?_extractEntity v
      exact hv.trans (ih _)
  exact hf _ (g.withWorld (g.world.extract u).2)

theorem makeGlobal {x : Handle} (hne : h ≠ x) (u : Uid) (v : Variable) :
    Spares h g (g.makeGlobal x u v) :=
  modifyInstance hne fun i => { i with locals := i.locals.erase v.name }

theorem unset {x : Handle} (hne : h ≠ x) (u : Uid) (name : String) :
    Spares h g (g.unset x u name) := by
  unfold Game.unset
  split
  · exact of_eq rfl
  · exact modifyInstance hne _

theorem suspend {x : Handle} (hne : h ≠ x) (u : Uid) (line delay : Nat) (kind : WaitKind) :
    Spares h g (g.suspend x u line delay kind) := by
  unfold Game.suspend
  simp only
  split
  · exact of_eq rfl
  · exact (modifyInstance (g := g.withWaits _) hne _).trans (of_eq rfl)

theorem refuse {x : Handle} (hne : h ≠ x) (bindings : List (String × String)) (i : Instance) :
    Spares h g ((g.bindLocals x bindings).refuse x i .new) :=
  (modifyInstance hne _).trans (modifyInstance (g := (g.bindLocals x bindings).report _) hne _)

end Game.Spares

/-- The trigger `b.trigger`, which was `i`, of the held run at the bottom of the stack. -/
structure Held (b : Activation) (i : Instance) (n : Nat) (m : Moment) : Prop where
  coherent : m.game.Coherent
  tracked : Tracked n m
  above : ∃ t, m.stack = t ++ [b] ∧ ∀ a ∈ t, a.trigger ≠ b.trigger
  spared : m.game.instance? b.trigger = some i ∨ m.game.instance? b.trigger = none

namespace Held

variable {a b : Activation} {s : List Activation} {i : Instance} {n : Nat} {m m' : Moment}
  {g g' : Game}

/-- A run that is not held is another one than the held run. -/
theorem other (hm : Held b i n ⟨a :: s, g⟩) (hb : b.held = true) (ha : a.held = false) :
    b.trigger ≠ a.trigger ∧ ∃ t, s = t ++ [b] ∧ ∀ a ∈ t, a.trigger ≠ b.trigger := by
  obtain ⟨t, hs, ht⟩ := hm.above
  cases t with
  | nil =>
    cases hs
    rw [hb] at ha
    cases ha
  | cons c t =>
    cases hs
    exact ⟨(ht a List.mem_cons_self).symm, t, rfl, fun x hx => ht x (List.mem_cons_of_mem _ hx)⟩

theorem not_nil (hm : Held b i n ⟨[], g⟩) : False := by
  obtain ⟨t, hs, -⟩ := hm.above
  exact List.append_ne_nil_of_right_ne_nil t (List.cons_ne_nil b []) hs.symm

theorem spares (hm : Held b i n m) (hg : Spares b.trigger m.game g) :
    g.instance? b.trigger = some i ∨ g.instance? b.trigger = none := by
  rcases hg with he | he
  · rw [he]
    exact hm.spared
  · exact .inr he

/-- An idle trigger is another one than that of the held run. -/
theorem ne_of_idle (hm : Held b i n ⟨s, g⟩) (hi : i.isIdle = false) {h : Handle} {j : Instance}
    (hj : g.instance? h = some j) (hidle : j.isIdle = true ∨ s = []) : b.trigger ≠ h := by
  rintro rfl
  rcases hidle with hidle | rfl
  · rcases hm.spared with he | he
    · rw [hj, Option.some.injEq] at he
      rw [he, hi] at hidle
      cases hidle
    · rw [hj] at he
      cases he
  · exact hm.not_nil

theorem change (hm : Held b i n m) (hb : b.held = true) (hi : i.isIdle = false)
    (h : Change m m') (hn : m'.game.attachments < n + 0x1_0000_0000) : Held b i n m' := by
  have hc := hm.coherent.change h
  have ht := hm.tracked.change h hm.coherent.sound hn
  have same : m'.stack = m.stack → Spares b.trigger m.game m'.game → Held b i n m' :=
    fun hst hs => ⟨hc, ht, hst ▸ hm.above, hm.spares hs⟩
  cases h with
  | report | blame | addNote | roll | tell | place =>
    exact same rfl (.of_eq rfl)
  | purge => exact same rfl (.purge _)
  | @attach s g g1 vnum target position h ha =>
    obtain ⟨p, -, rfl⟩ := attach_ok ha
    rw [attachments_attachTo] at hn
    refine same rfl (.of_eq ?_)
    obtain ⟨t, hs, -⟩ := hm.above
    have hmem : b ∈ s := by
      rw [show s = t ++ [b] from hs]
      exact List.mem_append_right t List.mem_cons_self
    rw [instance?_attachTo target vnum p position hm.coherent.sound,
      if_neg (hm.tracked.attach hm.coherent.sound hn hmem target p)]
  | detach => exact same rfl (.of_remove (instance?_removeInstance _ _))
  | @detachAll s g target =>
    refine same rfl (.of_remove (p := (· ∈ g.listed target)) fun h => ?_)
    rw [instance?, triggers_detachAll]
    exact get?_foldl_remove _ _ h
  | reach | evaluate | command => exact same rfl (.of_eq rfl)
  | setLocal _ _ free | deepen free | rise _ free =>
    exact same rfl (.modifyInstance (hm.other hb free).1 _)
  | makeGlobal v free => exact same rfl (.makeGlobal (hm.other hb free).1 _ v)
  | unset name free => exact same rfl (.unset (hm.other hb free).1 _ name)
  | @loopOver a s g free =>
    obtain ⟨hne, t, rfl, hall⟩ := hm.other hb free
    refine ⟨hc, ht, ⟨{ a with loops := 0 } :: t, rfl, fun x hx => ?_⟩, hm.spared⟩
    rcases List.mem_cons.1 hx with rfl | hx
    · exact hne.symm
    · exact hall x hx
  | @loopAgain a s g j _ _ _ free =>
    obtain ⟨hne, t, rfl, hall⟩ := hm.other hb free
    refine ⟨hc, ht, ⟨{ a with loops := a.loops + 1 } :: t, rfl, fun x hx => ?_⟩,
      hm.spares (.modifyInstance hne _)⟩
    rcases List.mem_cons.1 hx with rfl | hx
    · exact hne.symm
    · exact hall x hx
  | @loopYield a s g _ line _ _ free =>
    obtain ⟨hne, hs⟩ := hm.other hb free
    exact ⟨hc, ht, hs, hm.spares ((Spares.modifyInstance hne _).trans (.suspend hne _ _ _ _))⟩
  | @loopHalt a s g _ _ _ _ free =>
    obtain ⟨hne, hs⟩ := hm.other hb free
    exact ⟨hc, ht, hs, hm.spares ((Spares.modifyInstance hne _).trans
      (.modifyInstance (g := (g.countLoop a.trigger).report _) hne _))⟩
  | suspend line delay kind _ free =>
    obtain ⟨hne, hs⟩ := hm.other hb free
    exact ⟨hc, ht, hs, hm.spares (.suspend hne _ _ _ _)⟩
  | finish free =>
    obtain ⟨hne, hs⟩ := hm.other hb free
    exact ⟨hc, ht, hs, hm.spares (.modifyInstance hne _)⟩
  | vanish _ free => exact ⟨hc, ht, (hm.other hb free).2, hm.spared⟩
  | @start s g h j bindings hj hidle =>
    have hne := hm.ne_of_idle hi hj hidle
    obtain ⟨t, rfl, hall⟩ := hm.above
    refine ⟨hc, ht, ⟨⟨h, j.owner, j.proto, 0, false⟩ :: t, rfl, fun x hx => ?_⟩, hm.spares ?_⟩
    · rcases List.mem_cons.1 hx with rfl | hx
      · exact hne.symm
      · exact hall x hx
    · refine .of_eq ?_
      rw [instance?_begin, if_neg hne]
      exact instance?_modifyInstance_ne g b.trigger _ hne
  | refuse bindings hj hidle =>
    exact same rfl (.refuse (hm.ne_of_idle hi hj (hidle.imp id And.left)) bindings _)
  | noteHour | skip | resume | refuseResume => exact hm.not_nil.elim

theorem changes (hm : Held b i n m) (hb : b.held = true) (hi : i.isIdle = false)
    (h : Changes m m') (hn : m'.game.attachments < n + 0x1_0000_0000) : Held b i n m' := by
  induction h with
  | refl => exact hm
  | tail _ h ih => exact (ih (Nat.lt_of_le_of_lt h.attachments_le hn)).change hb hi h hn

end Held

/-- A run that gives a command is held. -/
theorem Held.of_instance {g : Game} {h : Handle} {i : Instance} (hg : g.Coherent)
    (hi : g.instance? h = some i) (owner : Uid) :
    Held ⟨h, owner, i.proto, 0, true⟩ i g.attachments ⟨[⟨h, owner, i.proto, 0, true⟩], g⟩ := by
  refine ⟨hg, ⟨Nat.le_refl _, fun ha => ?_⟩, ⟨[], rfl, nofun⟩, .inl hi⟩
  rw [List.mem_singleton.1 ha]
  exact Arena.within_of_get? hi _

/-- A command leaves the trigger that gives it as it is, or removes it. -/
theorem Executes.spares {execute : Executor} (hx : Executes execute) {g : Game} {h : Handle}
    {i : Instance} (hg : g.Coherent) (hi : g.instance? h = some i) (hr : i.isIdle = false)
    (owner : Uid) (text : String)
    (hn : (execute g owner text).attachments < g.attachments + 0x1_0000_0000) :
    Spares h g (execute g owner text) := by
  have hb := Held.of_instance hg hi owner
  have he := (hb.changes rfl hr (hx ⟨h, owner, i.proto, 0, true⟩ [] g text) hn).spared
  rw [Spares, hi]
  exact he

end MudTrigger
