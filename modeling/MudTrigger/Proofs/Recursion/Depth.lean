import MudTrigger.Proofs.Recursion.Level

/-!
# The ceiling of the nesting

At every moment of a call of the host's the depth of the engine is the number of runs under way, and
at most one more than the ceiling (`Measured`): a run is let in only at or below the ceiling, and counts
itself out however it ends. A fresh run beyond the ceiling is refused: it answers one, and of its
trigger nothing is left but that it is attached, whatever had been bound for it (`fire_refused`).
-/

set_option autoImplicit false

namespace MudTrigger

open Game

/-! ## Every moment -/

/-- At most one run begins in a step. -/
theorem Effect.length_le {m m' : Moment} (he : Effect m m') :
    m'.stack.length ≤ m.stack.length + 1 := by
  cases he with
  | spare hs | attach hs | refuse hs => rw [hs]; omega
  | work n hs hs' => rw [hs, hs']; simp
  | leave hs hs' => rw [hs, hs']; simp; omega
  | enter hs => rw [hs]; simp

/-- A run begins at or below the ceiling. -/
theorem Change.admitted {m m' : Moment} (h : Change m m')
    (hlt : m.stack.length < m'.stack.length) :
    m.game.engine.depth ≤ m.game.engine.config.maxScriptDepth := by
  cases h with
  | start _ _ _ hd => exact hd
  | resume _ _ _ hd => exact hd
  | _ => exact absurd hlt (by simp)

/-- The depth of the engine counts the runs under way, and is at most one above the ceiling. -/
structure Measured (m : Moment) : Prop where
  depth : m.game.engine.depth = m.stack.length
  le : m.game.engine.depth ≤ m.game.engine.config.maxScriptDepth + 1

theorem Measured.change {m m' : Moment} (hm : Measured m) (h : Change m m') : Measured m' := by
  have hd := h.effect.depth_eq (b := 0) hm.depth
  have hlen := h.effect.length_le
  refine ⟨hd, ?_⟩
  rw [h.config_eq, hd]
  by_cases hlt : m.stack.length < m'.stack.length
  · have hle := h.admitted hlt
    rw [hm.depth] at hle
    omega
  · have hle := hm.le
    rw [hm.depth] at hle
    omega

theorem Measured.changes {m m' : Moment} (hm : Measured m) (h : Changes m m') : Measured m' := by
  induction h with
  | refl => exact hm
  | tail _ h ih => exact ih.change h

namespace Game

variable {g : Game} {h : Handle} {i : Instance}

/-- A call that is made while no run is under way. -/
theorem measured_opening (hg : g.engine.depth = 0) (op : Operation) : Measured (op.opening g) := by
  have he := op.effect g
  have hd := he.depth_eq (b := 0) hg
  refine ⟨hd, ?_⟩
  have hlen := he.length_le
  simp only [List.length_nil] at hlen
  omega

theorem changes_apply (g : Game) (op : Operation) : Changes (op.opening g) ⟨[], op.apply g⟩ :=
  (op.opening_leads g).lift id fun _ _ => Fair.change

/-! ## A run -/

/-- However a run ends, it leaves the depth as it was. -/
theorem depth_run (host : Host) (g : Game) (h : Handle) (mode : RunMode) :
    (run host g h mode).2.engine.depth = g.engine.depth := by
  have hopen := (Operation.effect g (.run host h mode)).depth_eq (b := g.engine.depth) (by simp)
  have hrun := (changes_apply g (.run host h mode)).depth_eq hopen
  exact hrun.trans (Nat.zero_add _)

/-! ## A refusal -/

/-- What was bound for a run is gone when the run is refused. -/
theorem refuse_bindLocals (bindings : List (String × String)) (i : Instance) :
    (g.bindLocals h bindings).refuse h i .new = g.refuse h i .new := by
  have hreset : Instance.reset ∘ (fun i : Instance => { i with locals := i.locals.setAll bindings }) =
      Instance.reset := rfl
  simp only [refuse, finish, bindLocals, modifyInstance, withTriggers, report, Arena.modify_modify,
    hreset]

/-- An event that would fire a trigger beyond the ceiling leaves a notice, and the trigger idle. -/
theorem fire_refused (host : Host) (bindings : List (String × String))
    (hi : g.instance? h = some i)
    (hd : g.engine.config.maxScriptDepth < g.engine.depth) :
    g.fire (run host) h bindings =
      (1, (g.report (.recursionCeiling i.proto.vnum i.proto.name)).finish h) := by
  have hb := instance?_bindLocals hi bindings
  have hr := run_eq host (g.bindLocals h bindings) h .new
  simp only [hb] at hr
  rw [if_pos (by exact hd)] at hr
  rw [fire, hr, refuse_bindLocals]
  rfl

end Game

/-- A run is refused beyond the ceiling and nowhere else, and what it fires is run by the same rule. At
every moment of a call the depth is the number of runs under way. However a run ends, it leaves the
depth as it was; one that is refused leaves its trigger idle and without variables. -/
theorem nesting_bounded :
    (∀ (host : Host) (g : Game) (h : Handle) (mode : RunMode),
      Game.run host g h mode = match g.instance? h with
        | none => (1, g)
        | some i =>
          if g.engine.config.maxScriptDepth < g.engine.depth then (1, g.refuse h i mode)
          else g.letIn host (Game.run .standard) h i mode) ∧
    (∀ (g : Game) (op : Operation), g.engine.depth = 0 →
      Changes (op.opening g) ⟨[], op.apply g⟩ ∧
      ∀ m, Changes (op.opening g) m → m.game.engine.depth = m.stack.length ∧
        m.game.engine.depth ≤ g.engine.config.maxScriptDepth + 1) ∧
    (∀ (host : Host) (g : Game) (h : Handle) (mode : RunMode),
      (Game.run host g h mode).2.engine.depth = g.engine.depth) ∧
    ∀ (host : Host) (g : Game) (h : Handle) (i : Instance) (bindings : List (String × String)),
      g.instance? h = some i → g.engine.config.maxScriptDepth < g.engine.depth →
      g.fire (Game.run host) h bindings =
        (1, (g.report (.recursionCeiling i.proto.vnum i.proto.name)).finish h) ∧
      ∃ j, (g.fire (Game.run host) h bindings).2.instance? h = some j ∧ j.isIdle = true ∧
        j.locals = ∅ := by
  refine ⟨run_eq, fun g op hg => ⟨changes_apply g op, fun m hm => ?_⟩, depth_run,
    fun host g h i bindings hi hd => ?_⟩
  · have hmeasured := (measured_opening hg op).changes hm
    have hconfig : m.game.engine.config = g.engine.config :=
      (Changes.config_eq hm).trans (quiet_opening g op).config
    exact ⟨hmeasured.depth, hconfig ▸ hmeasured.le⟩
  · have hf := fire_refused host bindings hi hd
    refine ⟨hf, i.reset, ?_, rfl, rfl⟩
    rw [hf, finish, instance?_modifyInstance_self, instance?_report, hi, Option.map_some]

/-- A trigger of mobiles that hears one word and says the next. -/
def relaying (vnum : Vnum) (word next : String) : Prototype :=
  { vnum, name := "relay", kind := .mobile, events := MobileEventBit.speech.bits, arg := word
    script := Script.compile ("say " ++ next ++ "\n") }

/-- A player and two mobiles, one of which hears the other. -/
def echoChamber : World :=
  let w := ((({} : World).addRoom 100 "Echo Chamber").2.addPlayer "Ann" (Uid.room 0)).2
  ((w.addMobile 500 "relay0" (Uid.room 0)).2.addMobile 501 "relay1" (Uid.room 0)).2

/-- The game in which no run may be nested in another. -/
def relays : Game :=
  (Game.start { maxScriptDepth := 0 } (((∅ : Registry).register (relaying 100 "one" "two")).register
    (relaying 101 "two" "three")) {}).play
      [.replaceWorld echoChamber, .attach 100 ⟨100001⟩ none, .attach 101 ⟨100002⟩ none]

/-- While the first relay speaks, the second is refused. -/
theorem relays_bounded :
    let speech : Operation := .dispatch .standard (.mobile (.speech ⟨100000⟩ "one"))
    let g := relays.enter ⟨0, 0⟩ ⟨100001⟩
    let refused := g.fire (Game.run .standard) ⟨1, 0⟩ [("speech", "two")]
    (speech.apply relays).world.messages = ["relay0 says, 'two'"] ∧
    (∀ m, Changes (speech.opening relays) m →
      m.game.engine.depth = m.stack.length ∧ m.game.engine.depth ≤ 1) ∧
    refused.1 = 1 ∧ ∃ j, refused.2.instance? ⟨1, 0⟩ = some j ∧ j.isIdle = true ∧ j.locals = ∅ := by
  intro speech g refused
  obtain ⟨-, hmoments, -, hrefused⟩ := nesting_bounded
  obtain ⟨i, hi⟩ : ∃ i, g.instance? ⟨1, 0⟩ = some i := (hasTrigger_iff g ⟨1, 0⟩).1 (by decide +kernel)
  obtain ⟨hf, hj⟩ := hrefused .standard g ⟨1, 0⟩ i [("speech", "two")] hi (by decide +kernel)
  exact ⟨by decide +kernel, (hmoments relays speech (by decide +kernel)).2, congrArg Prod.fst hf, hj⟩

end MudTrigger
