import MudTrigger.Proofs.Trace.Command
import MudTrigger.Proofs.Trace.Drive

/-!
# Nested runs are made of changes

By induction on the number of runs that may still be nested: the commands of a run make changes
because the runs nested in it do. So the runner of a game `Fires`, and the host may also run a
trigger that is not idle, or take up a run that is due, as long as no run is under way.
-/

set_option autoImplicit false

namespace MudTrigger

namespace Game

variable {s : List Activation} {g : Game} {h : Handle} {i : Instance}

theorem executes_perform {run : Runner} (hr : Fires run) (host : Host) :
    Executes (perform host run) := by
  intro a s g text
  unfold perform
  split
  · exact .single (.addNote _)
  · exact execute_evolves hr a.owner text

theorem instance?_bindLocals (hi : g.instance? h = some i) (bindings : List (String × String)) :
    (g.bindLocals h bindings).instance? h = some { i with locals := i.locals.setAll bindings } := by
  rw [bindLocals, instance?_modifyInstance_self, hi, Option.map_some]

/-- A run of a trigger that is attached, and not refused. -/
theorem runWithin_entered (fuel : Nat) (host : Host) (mode : RunMode)
    (hi : g.instance? h = some i) (hd : g.engine.depth ≤ g.engine.config.maxScriptDepth) :
    runWithin (fuel + 1) host g h mode =
      let r : Run := ⟨host, perform host (runWithin fuel .standard), h, i.owner, i.proto, mode⟩
      ((r.drive i (g.enter h i.owner)).1, (r.drive i (g.enter h i.owner)).2.leave) := by
  rw [runWithin]
  simp only [hi]
  rw [if_neg (Nat.not_lt.2 hd)]
  rfl

theorem runWithin_succ (fuel : Nat) (host : Host) (mode : RunMode) (hi : g.instance? h = some i)
    (hd : g.engine.depth ≤ g.engine.config.maxScriptDepth) :
    (runWithin (fuel + 1) host g h mode).2 =
      (Run.drive ⟨host, perform host (runWithin fuel .standard), h, i.owner, i.proto, mode⟩ i
        (g.enter h i.owner)).2.leave :=
  congrArg Prod.snd (runWithin_entered fuel host mode hi hd)

theorem runWithin_stale (fuel : Nat) (host : Host) (mode : RunMode) (hi : g.instance? h = none) :
    runWithin fuel host g h mode = (1, g) := by
  cases fuel with
  | zero =>
    rw [runWithin]
    simp only [hi]
  | succ fuel =>
    rw [runWithin]
    simp only [hi]

theorem runWithin_refusal {fuel : Nat} (host : Host) (mode : RunMode) (hi : g.instance? h = some i)
    (hd : fuel = 0 ∨ g.engine.config.maxScriptDepth < g.engine.depth) :
    runWithin fuel host g h mode = (1, g.refuse h i mode) := by
  cases fuel with
  | zero =>
    rw [runWithin]
    simp only [hi]
  | succ fuel =>
    rw [runWithin]
    simp only [hi]
    rw [if_pos (hd.resolve_left (Nat.succ_ne_zero _))]

theorem runWithin_refused {fuel : Nat} (host : Host) (mode : RunMode) (hi : g.instance? h = some i)
    (hd : fuel = 0 ∨ g.engine.config.maxScriptDepth < g.engine.depth) :
    (runWithin fuel host g h mode).2 = g.refuse h i mode :=
  congrArg Prod.snd (runWithin_refusal host mode hi hd)

/-- A fresh run of a trigger that is idle, or that the host runs. -/
theorem fire_runWithin (fuel : Nat) (host : Host) (bindings : List (String × String))
    (hr : ∀ n, n < fuel → Fires (runWithin n .standard)) (hi : g.instance? h = some i)
    (hs : i.isIdle = true ∨
      s = [] ∧ g.engine.config.maxScriptDepth + 2 ≤ g.engine.depth + fuel) :
    Evolves s g (g.fire (runWithin fuel host) h bindings).2 := by
  have hb := instance?_bindLocals hi bindings
  unfold fire
  by_cases hd : fuel = 0 ∨ g.engine.config.maxScriptDepth < g.engine.depth
  · rw [runWithin_refused host .new hb hd]
    refine .single (.refuse bindings hi (hs.imp id fun hs => ⟨hs.1, ?_⟩))
    rcases hd with rfl | hd
    · exact Nat.lt_of_lt_of_le (Nat.lt_add_of_pos_right (by decide)) hs.2
    · exact hd
  · obtain ⟨h0, hn⟩ := not_or.1 hd
    obtain ⟨n, rfl⟩ := Nat.exists_eq_succ_of_ne_zero h0
    rw [runWithin_succ n host .new hb (Nat.not_lt.1 hn), Run.drive_new rfl]
    exact .head (.start bindings hi (hs.imp id And.left) (Nat.not_lt.1 hn))
      (Run.passes_changes (r := ⟨host, perform host (runWithin n .standard), h, i.owner, i.proto, .new⟩)
        (executes_perform (hr n (Nat.lt_succ_self n)) host) _ { line := 0 })

theorem fires_runWithin (fuel : Nat) (host : Host) : Fires (runWithin fuel host) := by
  induction fuel using Nat.strongRecOn generalizing host with
  | _ fuel ih =>
    intro s g h i bindings hi hidle
    exact fire_runWithin fuel host bindings (fun n hn => ih n hn .standard) hi (.inl hidle)

theorem fires_run (host : Host) : Fires (run host) := by
  intro s g h i bindings hi hidle
  exact fires_runWithin _ host bindings hi hidle

/-- The host may run any trigger, idle or not, while no run is under way. -/
theorem run_new_evolves (host : Host) (h : Handle) : Evolves [] g (run host g h .new).2 := by
  cases hi : g.instance? h with
  | none =>
    rw [run, runWithin_stale _ host .new hi]
  | some i =>
    have hb : g.bindLocals h [] = g := by
      exact congrArg g.withTriggers (Arena.modify_self g.engine.triggers h _ fun _ => rfl)
    have hf := fire_runWithin (g.engine.config.maxScriptDepth + 2 - g.engine.depth) host []
      (fun n _ => fires_runWithin n .standard) hi (.inr ⟨rfl, by omega⟩)
    unfold fire at hf
    rw [hb] at hf
    exact hf

/-- A run that is made to go on either is refused or is under way until it is over or suspended. -/
theorem run_resume_changes (host : Host) (hi : g.instance? h = some i) :
    (g.engine.config.maxScriptDepth < g.engine.depth ∧
      (run host g h .resume).2 = g.refuse h i .resume) ∨
    (g.engine.depth ≤ g.engine.config.maxScriptDepth ∧
      Changes ⟨[⟨h, i.owner, i.proto, 0, false⟩], (g.enter h i.owner).takeUp h⟩
        ⟨[], (run host g h .resume).2⟩) := by
  unfold run
  by_cases hd : g.engine.config.maxScriptDepth < g.engine.depth
  · exact .inl ⟨hd, runWithin_refused host .resume hi (.inr hd)⟩
  · refine .inr ⟨Nat.not_lt.1 hd, ?_⟩
    obtain ⟨n, hn⟩ : ∃ n, g.engine.config.maxScriptDepth + 2 - g.engine.depth = n + 1 :=
      ⟨g.engine.config.maxScriptDepth + 1 - g.engine.depth, by omega⟩
    rw [hn, runWithin_succ n host .resume hi (Nat.not_lt.1 hd), Run.drive_resume rfl]
    exact Run.passes_changes (r := ⟨host, perform host (runWithin n .standard), h, i.owner, i.proto,
      .resume⟩) (executes_perform (fires_runWithin n .standard) host) _ { line := i.resumeAt.getD 0 }

/-- A run that is due is taken up. -/
theorem run_resume_evolves (host : Host) {w : Wait} {q : WaitQueue}
    (hq : g.engine.waits.popDue? g.engine.pulseCount = some (w, q))
    (hi : g.instance? w.continuation.trigger = some i) (hw : i.wait = some w.id) :
    Evolves [] g (run host ((g.withWaits q).report
      (.resuming w.continuation.owner w.continuation.resumeAt)) w.continuation.trigger .resume).2 := by
  rcases run_resume_changes host (g := (g.withWaits q).report
      (.resuming w.continuation.owner w.continuation.resumeAt)) hi with ⟨hd, he⟩ | ⟨hd, hc⟩
  · rw [he]
    exact .single (.refuseResume hq hi hd)
  · exact .head (.resume hq hi hw hd) hc

end Game

end MudTrigger
