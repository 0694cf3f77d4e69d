import MudTrigger.Proofs.Flow.Program
import MudTrigger.Proofs.Loop.Ceiling
import MudTrigger.Proofs.Wait.Held

/-!
# What a command leaves of the run that gives it

`r.Steady g0 d k g`: since the game was `g0` its trigger has stayed attached, and its run is nested
deeper than `d` and has repeated loop bodies at least `k` times. What a script does to variables does
not touch this, and neither does a command that is carried out in the world, unless it removes the
trigger (`command_steady`): that is where fewer than 2^32 triggers must have been attached.
-/

set_option autoImplicit false

namespace MudTrigger

open Game

theorem Changes.config_eq {m m' : Moment} (h : Changes m m') :
    m'.game.engine.config = m.game.engine.config := by
  induction h with
  | refl => rfl
  | tail _ h ih => exact h.config_eq.trans ih

namespace Game

/-- What a game keeps of an earlier one. -/
structure Since (g0 g : Game) : Prop where
  coherent : g.Coherent
  config : g.engine.config = g0.engine.config
  attachments : g0.attachments ≤ g.attachments

theorem Since.quiet {g0 g g' : Game} (h : Since g0 g) (hq : Quiet g g') (hs : Same g g') :
    Since g0 g' :=
  ⟨h.coherent.of_same hs, hq.config.trans h.config, hq.attachments ▸ h.attachments⟩

theorem Quiet.le {g g' : Game} (h : Quiet g g') : g.attachments ≤ g'.attachments :=
  Nat.le_of_eq h.attachments.symm

theorem Since.changes {g0 g g' : Game} {s s' : List Activation} (h : Since g0 g)
    (hc : Changes ⟨s, g⟩ ⟨s', g'⟩) : Since g0 g' :=
  ⟨h.coherent.changes hc, (Changes.config_eq hc).trans h.config,
    Nat.le_trans h.attachments (Changes.attachments_le hc)⟩

theorem Since.evolves {g0 g g' : Game} {s : List Activation} (h : Since g0 g)
    (he : Evolves s g g') : Since g0 g' := h.changes he

/-- So few triggers were attached since the game was `g0` that no handle was issued twice. -/
def FewSince (g0 g : Game) : Prop := g.attachments < g0.attachments + 0x1_0000_0000

theorem FewSince.of_le {g0 g g' : Game} (h : FewSince g0 g') (hle : g.attachments ≤ g'.attachments) :
    FewSince g0 g := Nat.lt_of_le_of_lt hle h

/-- The run of the trigger is nested as deep, and has repeated loop bodies as often. -/
def SameRun (h : Handle) (g g' : Game) : Prop :=
  (g'.instance? h).map (fun i => (i.depth, i.loops)) =
    (g.instance? h).map fun i => (i.depth, i.loops)

variable {h : Handle} {g g' g1 : Game}

theorem SameRun.of_eq (he : g'.instance? h = g.instance? h) : SameRun h g g' := by
  rw [SameRun, he]

theorem SameRun.trans (hs : SameRun h g g') (hs' : SameRun h g' g1) : SameRun h g g1 :=
  Eq.trans hs' hs

theorem SameRun.instance (hs : SameRun h g g') {i : Instance} (hi : g.instance? h = some i) :
    ∃ j, g'.instance? h = some j ∧ j.depth = i.depth ∧ j.loops = i.loops := by
  rw [SameRun, hi, Option.map_some, Option.map_eq_some_iff] at hs
  obtain ⟨j, hj, he⟩ := hs
  exact ⟨j, hj, congrArg Prod.fst he, congrArg Prod.snd he⟩

theorem instance_of_depthOf (hd : 0 < g.depthOf h) :
    ∃ i, g.instance? h = some i ∧ 0 < i.depth := by
  cases hi : g.instance? h with
  | none =>
    rw [depthOf, hi] at hd
    cases hd
  | some i =>
    rw [depthOf, hi] at hd
    exact ⟨i, rfl, hd⟩

theorem sameRun_modifyInstance (h : Handle) {f : Instance → Instance}
    (hd : ∀ i, (f i).depth = i.depth) (hl : ∀ i, (f i).loops = i.loops) :
    SameRun h g (g.modifyInstance h f) := by
  rw [SameRun, instance?_modifyInstance_self, Option.map_map]
  exact congrArg (Option.map · (g.instance? h)) (funext fun i => Prod.ext (hd i) (hl i))

theorem sameRun_setLocal (h : Handle) (name value : String) :
    SameRun h g (g.setLocal h name value) := sameRun_modifyInstance h (fun _ => rfl) fun _ => rfl

theorem sameRun_makeGlobal (h : Handle) (u : Uid) (v : Variable) :
    SameRun h g (g.makeGlobal h u v) :=
  sameRun_modifyInstance h (f := fun i => { i with locals := i.locals.erase v.name }) (fun _ => rfl)
    fun _ => rfl

theorem sameRun_unset (h : Handle) (u : Uid) (name : String) : SameRun h g (g.unset h u name) := by
  unfold unset
  split
  · exact .of_eq rfl
  · exact sameRun_modifyInstance h (fun _ => rfl) fun _ => rfl

end Game

namespace Run

variable {r : Run} {g0 g g' : Game} {d k : Nat}

/-- The run is still there, nested deep enough, and has repeated enough (module doc). -/
structure Steady (r : Run) (g0 : Game) (d k : Nat) (g : Game) : Prop where
  since : Since g0 g
  live : ∃ i, g.instance? r.trigger = some i ∧ d < i.depth ∧ k ≤ i.loops

theorem Steady.hasTrigger (h : r.Steady g0 d k g) : g.hasTrigger r.trigger = true := by
  obtain ⟨i, hi, -⟩ := h.live
  exact (hasTrigger_iff g r.trigger).2 ⟨i, hi⟩

theorem Steady.sameRun (h : r.Steady g0 d k g) (hs : Since g0 g') (hr : SameRun r.trigger g g') :
    r.Steady g0 d k g' := by
  obtain ⟨i, hi, hd, hk⟩ := h.live
  obtain ⟨j, hj, hjd, hjk⟩ := hr.instance hi
  exact ⟨hs, j, hj, hjd ▸ hd, hjk ▸ hk⟩

theorem Steady.evolves {s : List Activation} (h : r.Steady g0 d k g) (he : Evolves s g g')
    (hi : g'.instance? r.trigger = g.instance? r.trigger) : r.Steady g0 d k g' :=
  h.sameRun (h.since.evolves he) (.of_eq hi)

theorem Steady.shallower {d' k' : Nat} (h : r.Steady g0 d k g) (hd : d' ≤ d) (hk : k' ≤ k) :
    r.Steady g0 d' k' g := by
  obtain ⟨i, hi, hid, hik⟩ := h.live
  exact ⟨h.since, i, hi, Nat.lt_of_le_of_lt hd hid, Nat.le_trans hk hik⟩

theorem Steady.note (h : r.Steady g0 d k g) (line : Nat) : r.Steady g0 d k (r.note line g) :=
  h.sameRun (h.since.quiet (quiet_report rfl) (same_of_eq rfl rfl)) (.of_eq rfl)

theorem Steady.look (h : r.Steady g0 d k g) (read : Scene → Expand String) :
    r.Steady g0 d k (r.look g read).2 := h.evolves (look_evolves (s := []) read) (look_snd read _)

theorem Steady.evaluate (h : r.Steady g0 d k g) (e : String) :
    r.Steady g0 d k (r.evaluate g e).2 :=
  h.evolves (evaluate_evolves (s := []) (n := 0) e h.hasTrigger) (evaluate_instance? e _)

theorem Steady.holds (h : r.Steady g0 d k g) (e : String) : r.Steady g0 d k (r.holds g e).2 :=
  h.evaluate e

theorem Steady.deepen (h : r.Steady g0 d k g) : r.Steady g0 (d + 1) k (g.deepen r.trigger) := by
  obtain ⟨i, hi, hd, hk⟩ := h.live
  refine ⟨h.since.quiet (quiet_modifyInstance _ _) (same_deepen _),
    { i with depth := i.depth + 1 }, ?_, Nat.succ_lt_succ hd, hk⟩
  rw [Game.deepen, instance?_modifyInstance_self, hi, Option.map_some]

theorem Steady.rise (h : r.Steady g0 (d + 1) k g) : r.Steady g0 d k (g.rise r.trigger) := by
  obtain ⟨i, hi, hd, hk⟩ := h.live
  refine ⟨h.since.quiet (quiet_modifyInstance _ _) (same_rise _),
    { i with depth := i.depth - 1 }, ?_, Nat.lt_sub_of_add_lt hd, hk⟩
  rw [Game.rise, instance?_modifyInstance_self, hi, Option.map_some]

theorem Steady.countLoop (h : r.Steady g0 d k g) :
    r.Steady g0 d (k + 1) (g.countLoop r.trigger) := by
  obtain ⟨i, hi, hd, hk⟩ := h.live
  refine ⟨h.since.quiet (quiet_countLoop _) (same_countLoop _),
    { i with loops := i.loops + 1 }, ?_, hd, Nat.succ_le_succ hk⟩
  rw [Game.countLoop, instance?_modifyInstance_self, hi, Option.map_some]

/-- The trigger is nested deeper than the ifs that were entered. -/
theorem Steady.depthOf (h : r.Steady g0 d k g) : d < g.depthOf r.trigger := by
  obtain ⟨i, hi, hd, -⟩ := h.live
  rw [Game.depthOf, hi]
  exact hd

theorem Steady.repeated (h : r.Steady g0 d k g) : k ≤ r.repeated g := by
  obtain ⟨i, hi, -, hk⟩ := h.live
  rw [Run.repeated, hi]
  exact hk

/-! ## Commands -/

theorem sameRun_evaluate (e : String) : SameRun r.trigger g (r.evaluate g e).2 :=
  .of_eq (evaluate_instance? e _)

theorem sameRun_moveGlobals (names : List String) :
    SameRun r.trigger g (r.moveGlobals g names) := by
  unfold moveGlobals
  induction names generalizing g with
  | nil => exact .of_eq rfl
  | cons name names ih =>
    rw [List.foldl_cons]
    split
    · rename_i v _
      exact (sameRun_makeGlobal r.trigger r.owner v).trans ih
    · exact ih

section

variable (hx : Executes r.execute)
include hx

/-- A command of the world that does not remove the trigger leaves it as it was. -/
theorem Steady.execute (h : r.Steady g0 d k g) (text : String)
    (hlive : (r.execute g r.owner text).hasTrigger r.trigger = true)
    (hn : FewSince g0 (r.execute g r.owner text)) :
    SameRun r.trigger g (r.execute g r.owner text) := by
  obtain ⟨i, hi, hd, -⟩ := h.live
  have hidle : i.isIdle = false := beq_eq_false_iff_ne.2 (Nat.ne_of_gt (Nat.zero_lt_of_lt hd))
  have hle : g0.attachments + 0x1_0000_0000 ≤ g.attachments + 0x1_0000_0000 :=
    Nat.add_le_add_right h.since.attachments _
  rcases hx.spares h.since.coherent hi hidle r.owner text (Nat.lt_of_lt_of_le hn hle) with he | he
  · exact .of_eq he
  · rw [hasTrigger_eq, he] at hlive
    cases hlive

/-- A command after which the run goes on leaves it as it was. -/
theorem command_sameRun {f f' : Frame} {text : String} (h : r.Steady g0 d k g)
    (hn : FewSince g0 g')
    (he : r.command f text g = (.next f', g')) :
    f' = f.after f.line ∧ SameRun r.trigger g g' := by
  unfold command at he
  simp only at he
  split at he
  · split at he
    · cases he
      exact ⟨rfl, .of_eq rfl⟩
    · have hs := sameRun_evaluate (r := r) (g := g) (Text.splitWord (Text.splitWord text).2).2
      cases he
      exact ⟨rfl, hs.trans (sameRun_setLocal _ _ _)⟩
  · cases he
  · cases he
    refine ⟨rfl, ?_⟩
    split
    · exact (show SameRun r.trigger g (r.fault g _) from .of_eq rfl).trans (sameRun_moveGlobals _)
    · exact sameRun_moveGlobals _
  · split at he <;> cases he
  · split at he
    · cases he
      exact ⟨rfl, .of_eq rfl⟩
    · cases he
      exact ⟨rfl, sameRun_setLocal _ _ _⟩
  · split at he
    · cases he
      exact ⟨rfl, .of_eq rfl⟩
    · cases he
      exact ⟨rfl, sameRun_unset _ _ _⟩
  · split at he
    · cases he
    · cases he
      exact ⟨rfl, .of_eq rfl⟩
  · split at he
    · rename_i hlive
      cases he
      have hs : r.Steady g0 d k (g.report (.executed r.owner text)) :=
        h.sameRun (h.since.quiet (quiet_report rfl) (same_of_eq rfl rfl)) (.of_eq rfl)
      exact ⟨rfl, hs.execute hx text hlive hn⟩
    · cases he

theorem command_steady {f f' : Frame} {text : String} (h : r.Steady g0 d k g)
    (hn : FewSince g0 g')
    (he : r.command f text g = (.next f', g')) :
    f' = f.after f.line ∧ r.Steady g0 d k g' := by
  obtain ⟨rfl, hr⟩ := command_sameRun hx h hn he
  have hl := command_leads hx f text h.hasTrigger (s := [])
  rw [he] at hl
  cases hl with
  | next hc => exact ⟨rfl, h.sameRun (h.since.evolves hc) hr⟩

end

/-! ## What is attached meanwhile -/

theorem quiet_look (read : Scene → Expand String) : Quiet g (r.look g read).2 := by
  unfold Run.look
  split
  · exact .refl
  · rename_i s _
    generalize read s { dice := g.engine.dice } = p
    have hd : Quiet g (g.withDice p.2.dice) := quiet_of_eq rfl rfl rfl
    exact hd.trans (quiet_blame _ _)

theorem quiet_evaluate (e : String) : Quiet g (r.evaluate g e).2 := (quiet_look _).report rfl

theorem quiet_setLocal (h : Handle) (name value : String) : Quiet g (g.setLocal h name value) :=
  quiet_modifyInstance h _

theorem quiet_fault (f : Fault) : Quiet g (r.fault g f) := quiet_blame _ _

theorem quiet_moveGlobals (names : List String) : Quiet g (r.moveGlobals g names) := by
  refine quiet_foldl (fun g name => ?_) names
  split
  · exact quiet_makeGlobal _ _ _
  · exact quiet_fault _

theorem attachments_command (hx : Executes r.execute) (f : Frame) (text : String) :
    g.attachments ≤ (r.command f text g).2.attachments := by
  unfold command
  simp only
  split
  · split
    · exact (quiet_fault _).le
    · have hq := quiet_evaluate (r := r) (g := g) (Text.splitWord (Text.splitWord text).2).2
      exact (hq.trans (quiet_setLocal _ _ _)).le
  · exact Nat.le_refl _
  · dsimp only
    split
    · exact ((quiet_fault _).trans (quiet_moveGlobals _)).le
    · exact (quiet_moveGlobals _).le
  · split
    · exact (quiet_fault _).le
    · exact Nat.le_refl _
  · split
    · exact (quiet_fault _).le
    · exact (quiet_setLocal _ _ _).le
  · split
    · exact (quiet_fault _).le
    · exact (quiet_unset _ _ _).le
  · split
    · exact (quiet_suspend _ _ _ _ _).le
    · exact (quiet_fault _).le
  · have hq : Quiet g (g.report (.executed r.owner text)) := quiet_report rfl
    have hle := Nat.le_trans hq.le (Changes.attachments_le (hx (r.activation 0) [] _ text))
    split
    · exact hle
    · exact Nat.le_trans hle (quiet_report (n := .removedByOwnCommand r.proto.vnum r.owner) rfl).le

end Run

end MudTrigger
