import MudTrigger.Proofs.Flow.Moves

/-!
# The passes of a run

`r.Reach exit out o f g`: from the frame `f` and the game `g` on, the passes of the run come to the
outcome `o`, which goes on at line `exit`, or behind line `out` if it is a `break`. Where the outcome
is that of the whole script, the run has its answer, if it is given enough passes (`Reach.passes`).

In a compiled script every pass leads ahead, but for the end of a loop body, which leads back only as
long as the run has not repeated too often (`pass_advances`).
-/

set_option autoImplicit false

namespace MudTrigger

open Game

namespace Run

/-- The passes come to an outcome (module doc). -/
inductive Reach (r : Run) (exit out : Nat) (o : Outcome) : Frame → Game → Prop
  | onward : o.ending = .onward → Reach r exit out o { line := exit, loops := o.loops } o.game
  | broken : o.ending = .broken → Reach r exit out o { line := out + 1, loops := o.loops } o.game
  | ended {f g result} : f.line < r.proto.script.length → o.ending = .ended result →
    r.pass f g = (.ended result, o.game) → Reach r exit out o f g
  | left {f g result} : f.line < r.proto.script.length → o.ending = .left result →
    r.pass f g = (.left result, o.game) → Reach r exit out o f g
  | next {f g f' g'} : f.line < r.proto.script.length → r.pass f g = (.next f', g') →
    Reach r exit out o f' g' → Reach r exit out o f g

variable {r : Run} {exit out mid : Nat} {o : Outcome} {f f' : Frame} {g g' g0 : Game} {d k : Nat}

namespace Reach

theorem andThen {next : Nat → Game → Outcome} (h : r.Reach mid out o f g)
    (hn : o.ending = .onward →
      r.Reach exit out (next o.loops o.game) { line := mid, loops := o.loops } o.game) :
    r.Reach exit out (o.andThen next) f g := by
  induction h with
  | onward he =>
    have hn := hn he
    rw [Outcome.andThen, he]
    exact hn
  | broken he =>
    rw [show o.andThen next = o by rw [Outcome.andThen, he]]
    exact .broken he
  | ended hl he hp =>
    rw [show o.andThen next = o by rw [Outcome.andThen, he]]
    exact .ended hl he hp
  | left hl he hp =>
    rw [show o.andThen next = o by rw [Outcome.andThen, he]]
    exact .left hl he hp
  | next hl hp _ ih => exact .next hl hp ih

theorem uptoBreak {out' : Nat} (h : r.Reach (out + 1) out o f g) :
    r.Reach (out + 1) out' o.uptoBreak f g := by
  have hne : o.ending ≠ .broken → o.uptoBreak = o := fun hne => by
    unfold Outcome.uptoBreak
    split
    · exact absurd ‹_› hne
    · rfl
  induction h with
  | onward he =>
    rw [hne (by rw [he]; nofun)]
    exact .onward he
  | broken he =>
    rw [show o.uptoBreak = { o with ending := .onward } by rw [Outcome.uptoBreak, he]]
    exact .onward (o := { o with ending := .onward }) rfl
  | ended hl he hp =>
    rw [hne (by rw [he]; nofun)]
    exact .ended hl he hp
  | left hl he hp =>
    rw [hne (by rw [he]; nofun)]
    exact .left hl he hp
  | next hl hp _ ih => exact .next hl hp ih

/-- A run that comes to an outcome behind its last line answers so, given enough passes. -/
theorem passes (h : r.Reach exit out o f g) (hexit : r.proto.script.length ≤ exit)
    (ho : o.ending ≠ .broken) :
    ∃ n, r.passes n f g = (some (o.answer r.trigger).1, (o.answer r.trigger).2) := by
  induction h with
  | onward he =>
    refine ⟨0, ?_⟩
    rw [Run.passes, if_pos hexit, Outcome.answer, he]
  | broken he => exact absurd he ho
  | ended hl he hp =>
    refine ⟨1, ?_⟩
    rw [Run.passes, if_neg (Nat.not_le.2 hl), hp, Outcome.answer, he]
  | left hl he hp =>
    refine ⟨1, ?_⟩
    rw [Run.passes, if_neg (Nat.not_le.2 hl), hp, Outcome.answer, he]
  | next hl hp _ ih =>
    obtain ⟨n, hn⟩ := ih
    refine ⟨n + 1, ?_⟩
    rw [Run.passes, if_neg (Nat.not_le.2 hl), hp]
    exact hn

end Reach

/-! ## Where a pass leads -/

theorem pass_line (hg : g.hasTrigger r.trigger = true) (hu : r.proto.isGuarded = false)
    {line : Line} (hline : r.proto.script.line? f.line = some line) :
    r.pass f g = r.perform f line (r.note f.line g) := by
  rw [pass, hg, hu, doLine, hline]
  rfl

end Run

theorem Script.lt_of_line {s : Script} {i : Nat} {line : Line} (h : s.line? i = some line) :
    i < s.length := (List.getElem?_eq_some_iff.1 h).1

namespace Run

variable {r : Run} {f f' : Frame} {g g' g0 : Game} {k n : Nat}

/-- What a pass after which the run goes on does to what is left of it: it goes ahead, or it goes back
and has one repetition less. -/
def Advances (r : Run) (g0 : Game) (k line : Nat) (f' : Frame) (g' : Game) : Prop :=
  (line < f'.line ∧ r.Steady g0 0 k g') ∨
    (k + 1 < g0.engine.config.loopAbortAfter ∧ r.Steady g0 0 (k + 1) g')

/-- After a pass that goes on, the game keeps what it kept of the first one. -/
theorem Steady.since_pass {d : Nat} (hs : r.Steady g0 d k g) (hx : Executes r.execute)
    (he : r.pass f g = (.next f', g')) : Since g0 g' := by
  have hleads := pass_leads hx f (s := []) (g := g)
  rw [he] at hleads
  cases hleads with
  | next hc => exact hs.since.changes hc

section

variable (hx : Executes r.execute) (hf : r.proto.script.Forward)
include hx hf

theorem pass_advances (hs : r.Steady g0 0 k g) (hn : FewSince g0 g')
    (he : r.pass f g = (.next f', g')) : r.Advances g0 k f.line f' g' := by
  have hmoves := pass_moves (pass_undisturbed hx hs hn he) he
  have hsince := hs.since_pass hx he
  have hdepth : 0 < (r.tally g').depth := hmoves.depth_pos hs.depthOf
  have hloops : k ≤ (r.tally g).loops := hs.repeated
  have hlimit : (r.tally g).limit = g0.engine.config.loopAbortAfter :=
    congrArg Config.loopAbortAfter hs.since.config
  rcases hmoves.advances hf with ⟨hlt, heq⟩ | ⟨hlt, heq⟩
  · exact .inl ⟨hlt, steady_of_tally hsince hdepth (by omega)⟩
  · exact .inr ⟨by omega, steady_of_tally hsince hdepth (by omega)⟩

end

end Run

end MudTrigger
