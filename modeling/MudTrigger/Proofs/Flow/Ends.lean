import MudTrigger.Proofs.Flow.Passes

/-!
# Runs come to an end

What is left of a run is measured by the lines ahead of it and the repetitions it has left
(`Script.left`); every move makes that less, and a search for a clause goes ahead from line to line.
So a run has its answer within as many passes as are left to it (`Run.passes_end`), and more would
change nothing (`Run.passes_enough`).

This holds whatever the world does, as long as it leaves the tally of a run while it carries out the
commands of this run (`Run.Spared`). A world that fires triggers through events does, since these wake
idle triggers only (`Run.spared_of_executes`).
-/

set_option autoImplicit false

namespace MudTrigger

open Game

namespace Script

variable {s : Script} {i j : Nat} {t u : Tally}

/-- What is left of a run at a line: the lines ahead, and the whole script for each repetition left. -/
def left (s : Script) (i : Nat) (t : Tally) : Nat :=
  (t.limit - 1 - t.loops) * s.length + (s.length - i)

theorem Moves.left_lt (hf : s.Forward) (hi : i < s.length) (h : s.Moves i t j u) :
    s.left j u < s.left i t := by
  unfold left
  rw [h.limit_eq]
  rcases h.advances hf with ⟨hlt, hloops⟩ | ⟨hlt, hloops⟩
  · rw [hloops]
    omega
  · have hroom : t.limit - 1 - t.loops = t.limit - 1 - u.loops + 1 := by omega
    rw [hroom, Nat.succ_mul]
    omega

theorem left_le (s : Script) (i : Nat) (t : Tally) : s.left i t ≤ s.length * max 1 t.limit := by
  have hroom := Nat.mul_le_mul_left s.length
    (show t.limit - 1 - t.loops + 1 ≤ max 1 t.limit by omega)
  rw [Nat.mul_succ, Nat.mul_comm] at hroom
  unfold left
  omega

end Script

namespace Run

variable {r : Run} {f f' f1 : Frame} {g g' g1 g0 : Game} {k n m fuel : Nat} {a : Int}

/-! ## Searches -/

/-- The search for a clause ends, however far it may go beyond the lines of the script. -/
theorem clauseWithin_ends (hf : r.proto.script.Forward) {next : Option Nat} {i : Nat}
    (hnext : ∀ j ∈ next, i < j ∧ j < r.proto.script.length)
    (hfuel : r.proto.script.length ≤ i + 1 + fuel) :
    (r.clauseWithin fuel next g).1 ≠ .endless ∧
      ∀ more, r.clauseWithin (fuel + more) next g = r.clauseWithin fuel next g := by
  induction fuel generalizing next g i with
  | zero =>
    cases next with
    | none =>
      refine ⟨by simp [clauseWithin], fun more => ?_⟩
      cases more <;> rfl
    | some j =>
      obtain ⟨hlo, hhi⟩ := hnext j rfl
      omega
  | succ fuel ih =>
    cases next with
    | none =>
      refine ⟨by simp [clauseWithin], fun more => ?_⟩
      rw [Nat.succ_add]
      rfl
    | some j =>
      obtain ⟨hlo, hhi⟩ := hnext j rfl
      have hrest : ∀ c next close, r.proto.script.op? j = some (.elseIf c next close) →
          ∀ x ∈ next, j < x ∧ x < r.proto.script.length := fun c next close hop x hx =>
        hf.ahead hop (List.mem_append_left _ (Option.mem_toList.2 hx))
      refine ⟨?_, fun more => ?_⟩
      · unfold clauseWithin
        split
        · simp
        · rename_i c next close hop
          dsimp only
          split
          · simp
          · exact (ih (hrest c next close hop) (by omega)).1
        · simp
        · simp
      · rw [Nat.succ_add]
        unfold clauseWithin
        split
        · rfl
        · rename_i c next close hop
          dsimp only
          split
          · rfl
          · exact (ih (hrest c next close hop) (by omega)).2 more
        · rfl
        · rfl

theorem length_le_patience (r : Run) (g : Game) : r.proto.script.length ≤ r.patience g := by
  have hmul := Nat.le_mul_of_pos_right r.proto.script.length
    (Nat.le_max_left 1 g.engine.config.loopAbortAfter)
  rw [patience]
  omega

/-- No pass looks for a clause without end. -/
theorem pass_ne_endless (hf : r.proto.script.Forward) : (r.pass f g).1 ≠ .endless := by
  intro he
  have hyields := r.pass_yields f g
  generalize r.pass f g = p at he hyields
  cases hyields with
  | @endless c next g1 _ hop hsearch =>
    have hnext : ∀ j ∈ next, f.line < j ∧ j < r.proto.script.length := fun j hj =>
      hf.ahead hop (Option.mem_toList.2 hj)
    have hpatience : r.proto.script.length ≤ f.line + 1 + r.patience g1 :=
      Nat.le_add_left_of_le (r.length_le_patience g1)
    exact (clauseWithin_ends hf hnext hpatience).1 hsearch
  | next | ended | left => cases he

/-! ## Passes -/

/-- The passes of a run lead from a frame and a game to others. -/
inductive Comes (r : Run) : Frame → Game → Frame → Game → Prop
  | here {f : Frame} {g : Game} : Comes r f g f g
  | pass {f f1 f' : Frame} {g g1 g' : Game} : f.line < r.proto.script.length →
    r.pass f g = (.next f1, g1) → Comes r f1 g1 f' g' → Comes r f g f' g'

/-- No command that the run comes to disturbs it. -/
def Spared (r : Run) (f : Frame) (g : Game) : Prop :=
  ∀ f1 g1 f' g', r.Comes f g f1 g1 → r.pass f1 g1 = (.next f', g') → r.Undisturbed f1 g1 g'

theorem lt_of_pass (he : r.pass f g = (.next f', g')) : f.line < r.proto.script.length := by
  obtain ⟨-, hdo⟩ := doLine_of_pass he
  unfold doLine at hdo
  split at hdo
  · cases hdo
  · rename_i line hline
    exact Script.lt_of_line hline

section

variable (hx : Executes r.execute)
include hx

/-- What is attached when the run comes to a game stays attached or is counted until its end. -/
theorem Comes.attachments_le (hc : r.Comes f g f1 g1) (he : r.passes n f g = (some a, g')) :
    g1.attachments ≤ g'.attachments := by
  induction hc generalizing n with
  | @here f g =>
    have hchanges := passes_changes hx n f (s := []) (g := g)
    rw [he] at hchanges
    exact Changes.attachments_le hchanges
  | pass hin hp _ ih =>
    cases n with
    | zero =>
      rw [passes, if_neg (Nat.not_le.2 hin)] at he
      cases he
    | succ n =>
      rw [passes, if_neg (Nat.not_le.2 hin), hp] at he
      exact ih he

/-- A world that acts through the engine spares the run, as long as no handle is issued twice. -/
theorem spared_of_executes (hf : r.proto.script.Forward) (hs : r.Steady g0 0 k g)
    (hn : ∀ f1 g1, r.Comes f g f1 g1 → FewSince g0 g1) : r.Spared f g := by
  intro f1 g1 f' g' hc hp
  induction hc generalizing k with
  | @here f g =>
    have hfew := hn f' g' (.pass (lt_of_pass hp) hp .here)
    exact pass_undisturbed hx hs hfew hp
  | pass hin hp1 _ ih =>
    have hfew := hn _ _ (.pass hin hp1 .here)
    have hn1 := fun f2 g2 hc => hn f2 g2 (.pass hin hp1 hc)
    rcases pass_advances hx hf hs hfew hp1 with ⟨-, hs1⟩ | ⟨-, hs1⟩
    · exact ih hs1 hn1 hp
    · exact ih hs1 hn1 hp

theorem spared_of_passes (hf : r.proto.script.Forward) (hs : r.Steady g0 0 k g)
    (he : (r.passes n f g).1 = some a) (hn : FewSince g0 (r.passes n f g).2) : r.Spared f g :=
  spared_of_executes hx hf hs fun _ _ hc => hn.of_le (hc.attachments_le hx (Prod.ext he rfl))

end

/-- A run that is spared ends within as many passes as are left to it. -/
theorem passes_end (hf : r.proto.script.Forward) (hs : r.Spared f g)
    (hfuel : r.proto.script.left f.line (r.tally g) ≤ fuel) :
    ∃ a, (r.passes fuel f g).1 = some a := by
  induction fuel generalizing f g with
  | zero =>
    have hend : r.proto.script.length ≤ f.line := by
      unfold Script.left at hfuel
      omega
    rw [passes, if_pos hend]
    exact ⟨_, rfl⟩
  | succ fuel ih =>
    by_cases hend : r.proto.script.length ≤ f.line
    · rw [passes, if_pos hend]
      exact ⟨_, rfl⟩
    · have hin : f.line < r.proto.script.length := Nat.not_le.1 hend
      have hne := pass_ne_endless (f := f) (g := g) hf
      rw [passes, if_neg hend]
      generalize hp : r.pass f g = p at hne
      obtain ⟨step, g1⟩ := p
      cases step with
      | next f1 =>
        have hmoves := pass_moves (hs f g f1 g1 .here hp) hp
        have hlt := hmoves.left_lt hf hin
        exact ih (fun f2 g2 f' g' hc => hs f2 g2 f' g' (.pass hin hp hc)) (by omega)
      | ended result => exact ⟨result, rfl⟩
      | left result => exact ⟨result, rfl⟩
      | endless => exact absurd rfl hne

/-- A run that has its answer has it too if it may make more passes. -/
theorem passes_more (he : r.passes n f g = (some a, g')) (hle : n ≤ m) :
    r.passes m f g = (some a, g') := by
  induction n generalizing f g m with
  | zero =>
    unfold passes at he
    split at he
    · rename_i hend
      cases m <;> rwa [passes, if_pos hend]
    · cases he
  | succ n ih =>
    obtain ⟨m, rfl⟩ : ∃ x, m = x + 1 := ⟨m - 1, by omega⟩
    unfold passes at he ⊢
    split at he
    · rename_i hend
      rwa [if_pos hend]
    · rename_i hend
      rw [if_neg hend]
      generalize r.pass f g = p at he
      obtain ⟨step, g1⟩ := p
      cases step with
      | next f1 => exact ih he (Nat.le_of_succ_le_succ hle)
      | ended result => exact he
      | left result => exact he
      | endless => cases he

/-- More passes than are left to a run would change nothing. -/
theorem passes_enough (hf : r.proto.script.Forward) (hs : r.Spared f g)
    (hfuel : r.proto.script.left f.line (r.tally g) ≤ fuel) (he : r.passes n f g = (some a, g')) :
    r.passes fuel f g = (some a, g') := by
  obtain ⟨b, hb⟩ := passes_end hf hs hfuel
  rcases Nat.le_total n fuel with hle | hle
  · exact passes_more he hle
  · rw [← he, passes_more (Prod.ext hb rfl) hle]
    exact Prod.ext hb rfl

end Run

end MudTrigger
