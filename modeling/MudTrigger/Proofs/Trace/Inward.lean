import MudTrigger.Proofs.Trace.Work
import MudTrigger.Proofs.World.Deed

/-!
# What a run does by itself

A run looks at the world, sets variables, counts its loops and puts its own steps on the trace. None
of this concerns anybody else: the world stays the same, the same triggers are attached, and there is
nothing new in the traces of other entities (`Game.Inward`). Whatever else a run does is done by the
commands that it gives (`Run.drive_acts`), so a relation between games that covers steps of the first
kind and commands covers whole runs.
-/

set_option autoImplicit false

namespace MudTrigger

open Game

namespace Game

/-- A step of a run of `u`'s triggers that concerns nobody else (module doc). -/
structure Inward (u : Uid) (g g' : Game) : Prop where
  same : Same g g'
  world : g'.world = g.world
  others : ∀ v, v ≠ u → g'.deeds v = g.deeds v

variable {u : Uid} {g g' g1 : Game}

namespace Inward

theorem refl : Inward u g g := ⟨.refl, rfl, fun _ _ => rfl⟩

theorem trans (h : Inward u g g1) (h' : Inward u g1 g') : Inward u g g' :=
  ⟨h.same.trans h'.same, h'.world.trans h.world,
    fun v hv => (h'.others v hv).trans (h.others v hv)⟩

theorem of_silent (hs : Same g g') (hd : Silent g g') : Inward u g g' :=
  ⟨hs, hd.world, fun v _ => hd.deeds v⟩

end Inward

theorem inward_report {n : Notice} (hn : n.doer? = none) : Inward u g (g.report n) :=
  .of_silent (same_of_eq rfl rfl) (silent_report hn)

/-- A step of the run is put on its trace. -/
theorem inward_trace {n : Notice} (hn : n.doer? = some u) : Inward u g (g.report n) := by
  refine ⟨same_of_eq rfl rfl, rfl, fun v hv => ?_⟩
  rw [deeds_report, hn, if_neg fun he => hv (Option.some.inj he).symm, List.append_nil]

theorem inward_blame (p : Prototype) (faults : List Fault) : Inward u g (g.blame p faults) :=
  .of_silent (same_of_eq rfl rfl) (silent_blame p faults)

theorem inward_withDice (d : Dice) : Inward u g (g.withDice d) :=
  .of_silent (same_of_eq rfl rfl) (silent_of_eq rfl rfl)

theorem inward_modifyInstance (h : Handle) {f : Instance → Instance}
    (hf : ∀ i, (f i).origin = i.origin) : Inward u g (g.modifyInstance h f) :=
  .of_silent (same_modifyInstance h hf) (silent_of_eq rfl rfl)

theorem inward_finish (h : Handle) : Inward u g (g.finish h) := inward_modifyInstance h fun _ => rfl

theorem inward_enter (h : Handle) : Inward u g (g.enter h u) := by
  have hd : Inward u g (g.withDepth (g.engine.depth + 1)) :=
    .of_silent (same_of_eq rfl rfl) (silent_of_eq rfl rfl)
  exact hd.trans (inward_trace rfl)

theorem inward_suspend (h : Handle) (v : Uid) (line delay : Nat) (kind : WaitKind) :
    Inward u g (g.suspend h v line delay kind) :=
  .of_silent (same_suspend h v line delay kind) (silent_suspend h v line delay kind)

end Game

namespace Run

variable {r : Run} {g g' : Game}

/-- What a run does by itself concerns nobody else. -/
theorem Work.inward (h : r.Work g g') : Inward r.owner g g' := by
  cases h with
  | roll d => exact inward_withDice d
  | blame faults => exact inward_blame _ faults
  | evaluate => exact inward_trace rfl
  | deepen => exact inward_modifyInstance _ fun _ => rfl
  | rise => exact inward_modifyInstance _ fun _ => rfl
  | countLoop => exact inward_modifyInstance _ fun _ => rfl
  | setLocal => exact inward_modifyInstance _ fun _ => rfl
  | makeGlobal v => exact .of_silent (same_makeGlobal _ _ v) (silent_of_eq rfl rfl)
  | unset name => exact .of_silent (same_unset _ _ name) (silent_unset _ name)

theorem Works.inward (h : r.Works g g') : Inward r.owner g g' := by
  induction h with
  | refl => exact .refl
  | tail _ h ih => exact ih.trans h.inward

/-! ## Passes -/

/-- The run does something by itself, or gives a command. -/
def Act (r : Run) (g g' : Game) : Prop :=
  Inward r.owner g g' ∨ ∃ text, g' = r.execute g r.owner text

/-- One act after another. -/
abbrev Acts (r : Run) : Game → Game → Prop := Relation.ReflTransGen r.Act

theorem Acts.of_inward (h : Inward r.owner g g') : r.Acts g g' := .single (.inl h)

theorem carryOut_acts (text : String) : r.Acts g (r.carryOut text g) :=
  .head (.inl (inward_trace rfl)) (.single (.inr ⟨text, rfl⟩))

theorem Does.acts {f : Frame} {p : Step × Game} (h : r.Does f g p) : r.Acts g p.2 := by
  cases h with
  | next hw | ended hw | endless hw => exact .of_inward hw.inward
  | halted times hw => exact .of_inward (hw.inward.trans (inward_report rfl))
  | suspended j delay hw => exact .of_inward (hw.inward.trans (inward_suspend _ _ _ _ _))
  | command text read => exact .head (.inl (look_works read).inward) (carryOut_acts text)
  | removed text read =>
    exact .head (.inl (look_works read).inward)
      ((carryOut_acts text).tail (.inl (inward_report rfl)))

theorem doLine_acts (f : Frame) (hg : g.hasTrigger r.trigger = true) :
    r.Acts g (r.doLine f g).2 := by
  cases hline : r.proto.script.line? f.line with
  | none =>
    rw [doLine, hline]
  | some line => exact .head (.inl (inward_trace rfl)) (doLine_does hline hg).acts

theorem pass_acts (f : Frame) : r.Acts g (r.pass f g).2 := by
  have hput : r.Acts g (r.putOff f g).2 := .of_inward (inward_suspend _ _ _ _ _)
  unfold pass
  split
  · exact .refl
  · rename_i hg
    have hlive : g.hasTrigger r.trigger = true := by simpa using hg
    split
    · exact doLine_acts f hlive
    · split
      · exact .refl
      · split
        · split
          · exact .refl
          · exact hput
        · split
          · exact hput
          · exact doLine_acts f hlive

theorem passes_acts (fuel : Nat) (f : Frame) : r.Acts g (r.passes fuel f g).2 := by
  induction fuel generalizing f g with
  | zero =>
    unfold passes
    split
    · exact .of_inward (inward_finish _)
    · exact .refl
  | succ fuel ih =>
    unfold passes
    split
    · exact .of_inward (inward_finish _)
    · have hp := pass_acts (r := r) (g := g) f
      split <;> rename_i he <;> rw [he] at hp
      · exact hp.trans (ih _)
      · exact hp.tail (.inl (inward_finish _))
      · exact hp
      · exact hp

theorem Acts.conclude {g1 : Game} {p : Option Int × Game} (h : r.Acts g1 p.2) :
    r.Acts g1 (r.conclude p).2 := by
  obtain ⟨result, g2⟩ := p
  cases result with
  | none => exact h.tail (.inl (inward_finish _))
  | some result => exact h

/-- A run does what it does by itself, and gives commands. -/
theorem drive_acts (i : Instance) : r.Acts g (r.drive i g).2 := by
  cases hm : r.mode with
  | new =>
    rw [drive_new hm]
    exact .head (.inl (.of_silent (same_begin _) (silent_begin _))) (Acts.conclude (passes_acts _ _))
  | resume =>
    rw [drive_resume hm]
    exact .head (.inl (.of_silent (same_takeUp _) (silent_of_eq rfl rfl)))
      (Acts.conclude (passes_acts _ _))

end Run

end MudTrigger
