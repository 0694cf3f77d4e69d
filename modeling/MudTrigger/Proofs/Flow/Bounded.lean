import MudTrigger.Proofs.Flow.Refine
import Mathlib.Data.List.Perm.Subperm

/-!
# Every drive comes to an end

A drive of a compiled script makes no more passes than the script has lines, times the repetitions that
it may make (`Run.drive_bounded`), from whatever line it is taken up and however often it has repeated
loop bodies before. Within a pass the search for a clause goes ahead from line to line, and that for an
arm goes once through the arms of a switch.

What counts the repetitions belongs to the trigger. A world that fires triggers through events wakes
idle ones only, and leaves it alone (`Run.spared_of_executes`); but one that runs the trigger anew, from
a command of its own script, takes the count back, and the bound fails (`Run.winding_unbounded`).
-/

set_option autoImplicit false

namespace MudTrigger

open Game

/-- A switch has fewer arms than its script has lines. -/
theorem Script.length_arms_lt {body v : String} {i : Nat} {arms : List Nat} {out : Option Nat}
    (hop : (compile body).op? i = some (.switchOn v arms out)) :
    arms.length < (compile body).length := by
  obtain ⟨line, hline, hline'⟩ := Option.map_eq_some_iff.1 hop
  have hahead : ∀ a ∈ arms, i < a ∧ a < (compile body).length := fun a ha =>
    (compile_forward body).ahead hop (List.mem_append_left _ ha)
  have hsorted : arms.Pairwise (· < ·) := by
    have hlinked := linked_of_line hline
    rw [hline'] at hlinked
    cases hk : Keyword.ofText line.text with
    | switchOn _ =>
      rw [hk] at hlinked
      exact hlinked.2.1
    | _ =>
      rw [hk] at hlinked
      exact hlinked.elim
  have hnodup : (i :: arms).Nodup := by
    refine List.nodup_cons.2 ⟨fun hi => Nat.lt_irrefl i (hahead i hi).1, hsorted.imp fun h => ?_⟩
    exact Nat.ne_of_lt h
  have hrange : i :: arms ⊆ List.range (compile body).length := by
    intro a ha
    rcases List.mem_cons.1 ha with rfl | ha
    · exact List.mem_range.2 (lt_of_line hline)
    · exact List.mem_range.2 (hahead a ha).2
  have hle := (hnodup.subperm hrange).length_le
  rwa [List.length_range] at hle

namespace Run

variable {r : Run} {g : Game}

/-- Where a drive enters the script, and the game in which it does. -/
def entry (r : Run) (i : Instance) (g : Game) : Frame × Game :=
  match r.mode with
  | .new => ({ line := 0 }, g.begin r.trigger)
  | .resume => ({ line := i.resumeAt.getD 0 }, g.takeUp r.trigger)

theorem drive_eq (r : Run) (i : Instance) (g : Game) :
    r.drive i g =
      r.conclude (r.passes (r.patience (r.entry i g).2) (r.entry i g).1 (r.entry i g).2) := by
  unfold drive entry
  cases r.mode <;> rfl

theorem config_entry (r : Run) (i : Instance) (g : Game) :
    (r.entry i g).2.engine.config = g.engine.config := by
  unfold entry
  cases r.mode with
  | new => exact (quiet_begin r.trigger).config
  | resume => exact (quiet_takeUp r.trigger).config

/-- A run that has just been entered. -/
theorem steady_entry (hg : g.Coherent) (hr : g.hasTrigger r.trigger = true) (i : Instance) :
    r.Steady (r.entry i g).2 0 0 (r.entry i g).2 := by
  unfold entry
  cases r.mode with
  | new => exact hg.steady_begin hr
  | resume =>
    obtain ⟨x, hx⟩ := (hasTrigger_iff g r.trigger).1 hr
    have htaken : (g.takeUp r.trigger).instance? r.trigger =
        some { x with depth := max x.depth 1, resumeAt := none, wait := none } := by
      rw [takeUp, instance?_modifyInstance_self, hx, Option.map_some]
    exact ⟨⟨hg.of_same (same_takeUp _), rfl, Nat.le_refl _⟩, _, htaken,
      Nat.lt_of_lt_of_le Nat.one_pos (Nat.le_max_right _ _), Nat.zero_le _⟩

/-- A drive of a compiled script has its answer after so many passes at most as the script has lines,
times the repetitions a run may make, if the commands spare it. The search for a clause looks at no more
lines than the script has, and a switch has fewer arms. -/
theorem drive_bounded {body : String} (i : Instance)
    (hp : r.proto.script = Script.compile body)
    (hs : r.Spared (r.entry i g).1 (r.entry i g).2) :
    (∀ fuel, r.proto.script.length * max 1 g.engine.config.loopAbortAfter ≤ fuel →
      r.passes fuel (r.entry i g).1 (r.entry i g).2 =
        (some (r.drive i g).1, (r.drive i g).2)) ∧
    (∀ line c next g' fuel, r.proto.script.op? line = some (.ifThen c next) →
      r.proto.script.length ≤ fuel →
        (r.clauseWithin fuel next g').1 ≠ .endless ∧
          r.clauseWithin fuel next g' = r.clauseWithin r.proto.script.length next g') ∧
    ∀ line v arms out, r.proto.script.op? line = some (.switchOn v arms out) →
      arms.length < r.proto.script.length := by
  have hf : r.proto.script.Forward := hp ▸ Script.compile_forward body
  refine ⟨fun fuel hfuel => ?_, fun line c next g' fuel hop hfuel => ?_, fun line v arms out hop => ?_⟩
  · have hlimit : (r.tally (r.entry i g).2).limit = g.engine.config.loopAbortAfter :=
      congrArg Config.loopAbortAfter (config_entry r i g)
    have hleft := r.proto.script.left_le (r.entry i g).1.line (r.tally (r.entry i g).2)
    rw [hlimit] at hleft
    obtain ⟨a, ha⟩ := passes_end hf hs hleft
    have hend := passes_more (Prod.ext ha rfl) (Nat.le_refl _)
    have hpatience : r.proto.script.length * max 1 g.engine.config.loopAbortAfter ≤
        r.patience (r.entry i g).2 := by
      rw [patience, config_entry]
      exact Nat.le_add_right _ _
    rw [drive_eq, passes_more hend hpatience, passes_more hend hfuel]
    rfl
  · have hnext : ∀ j ∈ next, line < j ∧ j < r.proto.script.length := fun j hj =>
      hf.ahead hop (Option.mem_toList.2 hj)
    obtain ⟨more, rfl⟩ := Nat.exists_eq_add_of_le hfuel
    have hends := clauseWithin_ends (g := g') hf hnext (Nat.le_add_left _ _)
    have hmore := hends.2 more
    rw [hmore]
    exact ⟨hends.1, rfl⟩
  · rw [hp] at hop ⊢
    exact Script.length_arms_lt hop

end Run

/-- A trigger of rooms that goes round and round and says so. -/
def Prototype.milling : Prototype :=
  { vnum := 1, name := "mill", kind := .room
    script := Script.compile "while 1\necho round\ndone" }

/-- A room whose trigger yields at every second repetition, and is halted at the fifth. -/
def Game.mill : Game :=
  (start (({} : Config).withLoopLimits 2 5) ((∅ : Registry).register .milling)
    (({} : World).addRoom 100 "mill").2).play [.attach 1 (Uid.room 0) none, .run .standard ⟨0, 0⟩ .new]

/-- The trigger after its run has yielded. -/
def Game.miller : Instance := (mill.instance? ⟨0, 0⟩).get (by decide +kernel)

/-- The run that is taken up. -/
def Run.milling : Run := mill.runOf .standard ⟨0, 0⟩ miller .resume

theorem Run.drive_bounded_mill :
    miller.resumeAt = some 1 ∧ miller.loops = 2 ∧
    milling.proto.script = Script.compile "while 1\necho round\ndone" ∧
    milling.Spared (milling.entry miller mill).1 (milling.entry miller mill).2 ∧
    milling.passes 15 (milling.entry miller mill).1 (milling.entry miller mill).2 =
      (some (milling.drive miller mill).1, (milling.drive miller mill).2) := by
  have hg : mill.Coherent := play_coherent _ _ _ _
  have hr : mill.hasTrigger milling.trigger = true := by decide +kernel
  have hx : Executes milling.execute := executes_runOf .standard .resume
  have hp : milling.proto.script = Script.compile "while 1\necho round\ndone" := by decide +kernel
  have hf : milling.proto.script.Forward := hp ▸ Script.compile_forward _
  have hend : (milling.passes 15 (milling.entry miller mill).1 (milling.entry miller mill).2).1 =
      some 1 := by decide +kernel
  have hfew : FewSince (milling.entry miller mill).2
      (milling.passes 15 (milling.entry miller mill).1 (milling.entry miller mill).2).2 := by
    rw [FewSince]
    decide +kernel
  have hs : milling.Spared (milling.entry miller mill).1 (milling.entry miller mill).2 :=
    spared_of_passes hx hf (steady_entry hg hr miller) hend hfew
  have hbounded := (drive_bounded miller hp hs).1
  exact ⟨by decide +kernel, by decide +kernel, hp, hs, hbounded 15 (by decide +kernel)⟩

/-! ## A run that is never spared -/

/-- A trigger of rooms whose script is begun anew by its own command. -/
def Prototype.winding : Prototype :=
  { vnum := 1, name := "winch", kind := .room
    script := Script.compile "while 1\nrerun\ndone" }

/-- A room with this trigger, during a run; no other may be nested in it. -/
def Game.winch : Game :=
  ((start ((({} : Config).withLoopLimits 100 2).withMaxDepth 0)
    ((∅ : Registry).register .winding) (({} : World).addRoom 100 "loft").2).play
      [.attach 1 (Uid.room 0) none]).withDepth 1

def Game.winder : Instance := (winch.instance? ⟨0, 0⟩).get (by decide +kernel)

/-- The run, in a world that runs its trigger anew. The engine refuses that, and resets the trigger. -/
def Run.winding : Run :=
  { winch.runOf .standard ⟨0, 0⟩ winder .new with
    execute := fun g _ text => if text = "rerun" then (Game.run .standard g ⟨0, 0⟩ .new).2 else g }

/-- The bound does not hold in a world that does not spare the run. -/
theorem Run.winding_unbounded :
    ¬ ∀ (r : Run) (i : Instance) (g : Game) (body : String),
      r.proto.script = Script.compile body →
        r.passes (r.proto.script.length * max 1 g.engine.config.loopAbortAfter)
            (r.entry i g).1 (r.entry i g).2 =
          (some (r.drive i g).1, (r.drive i g).2) := by
  intro hall
  have hp : winding.proto.script = Script.compile "while 1\nrerun\ndone" := by decide +kernel
  have hbounded := hall winding winder winch _ hp
  have hunended : (winding.passes
      (winding.proto.script.length * max 1 winch.engine.config.loopAbortAfter)
      (winding.entry winder winch).1 (winding.entry winder winch).2).1 = none := by
    decide +kernel
  rw [hbounded] at hunended
  cases hunended

end MudTrigger
