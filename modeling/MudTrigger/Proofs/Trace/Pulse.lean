import MudTrigger.Proofs.Trace.Event
import MudTrigger.Proofs.Trace.Run

/-!
# Pulses are made of changes

A pulse counts itself, and then takes up or drops the runs that are due, offers events and notes the
hour (`pulse_evolves`). It happens while no run is under way.
-/

set_option autoImplicit false

namespace MudTrigger

namespace Game

variable {g : Game}

/-- The runs that are due are taken up one after another. -/
theorem resumeDue_evolves (host : Host) (fuel : Nat) :
    Evolves [] g (resumeDue (run host) fuel g) := by
  induction fuel generalizing g with
  | zero => exact .refl
  | succ fuel ih =>
    unfold resumeDue
    split
    · exact .refl
    · rename_i w q hq
      simp only
      split
      · rename_i hw
        obtain ⟨i, hi, hw⟩ := (Option.any_eq_true _ _).1 hw
        exact (run_resume_evolves host hq hi (of_decide_eq_true hw)).trans ih
      · rename_i hw
        exact .head (.skip hq (Bool.eq_false_iff.2 hw)) ih

section

variable {run : Runner}

theorem foldl_stirs {α : Type} {f : Game → α → Game} (hf : ∀ g a, Stirs run g (f g a))
    (as : List α) : Stirs run g (as.foldl f g) := by
  induction as generalizing g with
  | nil => exact .refl
  | cons a as ih => exact (hf g a).trans ih

theorem rollRandom_stirs (host : Host) (u : Uid) (c : Container) :
    Stirs run g (rollRandom host run g u c) := by
  unfold rollRandom
  simp only
  split
  · split
    · exact MobileEvent.dispatch_stirs host (.random u)
    · exact .refl
  · exact ObjectEvent.dispatch_stirs (.random u)
  · split
    · exact RoomEvent.dispatch_stirs (.random u)
    · exact .refl

theorem scanRandom_stirs (host : Host) : Stirs run g (scanRandom host run g) :=
  foldl_stirs (fun _ _ => rollRandom_stirs host _ _) _

theorem strikeHour_stirs (u : Uid) (c : Container) : Stirs run g (strikeHour run g u c) := by
  unfold strikeHour
  split
  · exact MobileEvent.dispatch_stirs .standard (.time u)
  · exact ObjectEvent.dispatch_stirs (.time u)
  · exact RoomEvent.dispatch_stirs (.time u)

theorem scanTime_stirs : Stirs run g (scanTime run g) :=
  foldl_stirs (fun _ _ => strikeHour_stirs _ _) _

end

theorem checkHour_evolves {run : Runner} (hr : Fires run) : Evolves [] g (checkHour run g) := by
  unfold checkHour
  simp only
  split
  · exact .head (.noteHour _) (scanTime_stirs.evolves hr)
  · exact .single (.noteHour _)

/-- What a pulse does once the runs that are due have been taken up. -/
theorem pulse_tail_evolves (host : Host) :
    Evolves [] (resumeDue (run host) g.engine.waits.size g.tick) (g.pulse host) := by
  have hr := fires_run host
  have hs : ∀ g : Game, Evolves [] g (if g.isScanPulse then scanRandom host (run host) g else g) := by
    intro g
    split
    · exact (scanRandom_stirs host).evolves hr
    · exact .refl
  exact (hs _).trans (checkHour_evolves hr)

theorem pulse_evolves (host : Host) : Evolves [] g.tick (g.pulse host) :=
  (resumeDue_evolves host _).trans (pulse_tail_evolves host)

end Game

end MudTrigger
