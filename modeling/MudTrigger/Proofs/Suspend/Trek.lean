import MudTrigger.Proofs.Flow.Passes
import MudTrigger.Proofs.Suspend.Lockstep

/-!
# The way of a run across its suspensions

`Trek r c s line g g'`: from a line of the script `s` on, and from the game `g`, the run comes to its
end in `g'`, pass by pass, whether or not it is suspended in between. What happens to a game while a
run is suspended is not part of it, as long as the run cannot see it.

Editions of a script that differ only in waits and comments take the same way: by `pass_agree` their
treks go through the same lines, and they end in games that are alike (`Trek.alike`). And the passes of
a run are a part of a trek, up to the end or to the next suspension (`passes_finish`).
-/

set_option autoImplicit false

namespace MudTrigger

open Game

namespace Run

/-- A run of an edition stands at a line, before a pass that does not cut it short. -/
structure Stands (r : Run) (c : Config) (s : Script) (line : Nat) (g : Game) (x : Executor)
    (m : RunMode) (f : Frame) (g1 : Game) : Prop where
  echoes : (r.recut x s m).Echoes
  line : f.line = line
  within : f.line < s.length
  alike : Alike r.trigger g g1
  config : g1.engine.config = c
  live : 0 < g1.depthOf r.trigger
  records : ((r.recut x s m).pass f g1).2.records = g1.records

/-- The way of a run to its end (module doc). -/
inductive Trek (r : Run) (c : Config) (s : Script) : Nat → Game → Game → Prop
  | ended {line g g'} : s.length ≤ line → Alike r.trigger (g.finish r.trigger) g' →
    Trek r c s line g g'
  | stop {line g g' x m f g1} : r.Stands c s line g x m f g1 →
    landing r.trigger ((r.recut x s m).pass f g1) = none →
    Alike r.trigger (((r.recut x s m).pass f g1).2.finish r.trigger) g' → Trek r c s line g g'
  | pass {line there g g' x m f g1} : r.Stands c s line g x m f g1 →
    landing r.trigger ((r.recut x s m).pass f g1) = some there →
    Trek r c s there ((r.recut x s m).pass f g1).2 g' → Trek r c s line g g'

variable {r : Run} {c c' : Config} {s s' : Script} {line : Nat} {g g' ga gb : Game}

/-! ## Treks of two editions -/

section

variable (hs : Script.Recut c s s') (hscript : s.IsScripted) (hu : r.proto.isGuarded = false)
  (hhost : ∀ e e' u text, r.host.answer e u text = r.host.answer e' u text)
include hs hscript hu hhost

theorem Stands.agree {x x' : Executor} {m m' : RunMode} {f f' : Frame} {g1 g1' : Game}
    (h : r.Stands c s line g x m f g1) (h' : r.Stands c' s' line g' x' m' f' g1')
    (ha : Alike r.trigger g g') :
    landing r.trigger ((r.recut x' s' m').pass f' g1') =
        landing r.trigger ((r.recut x s m).pass f g1) ∧
      Alike r.trigger ((r.recut x s m).pass f g1).2 ((r.recut x' s' m').pass f' g1').2 := by
  have hconfig : Script.Recut g1.engine.config (r.recut x s m).proto.script s' := by
    rw [h.config]
    exact hs
  have hagree := pass_agree (r := r.recut x s m) (x := x') (m := m') h.echoes h'.echoes hhost hconfig
    hscript hu (h'.line.trans h.line.symm) ((h.alike.symm.trans ha).trans h'.alike) h.live
  exact (hagree.resolve_left (not_not_intro h.records)).resolve_left (not_not_intro h'.records)

/-- The treks of two editions end alike. -/
theorem Trek.alike (h : Trek r c s line g ga) (h' : Trek r c' s' line g' gb)
    (ha : Alike r.trigger g g') : Alike r.trigger ga gb := by
  induction h generalizing g' gb with
  | ended hl hend =>
    have hl' := Nat.le_trans (Nat.le_of_eq hs.length) hl
    cases h' with
    | ended _ hend' => exact (hend.symm.trans ha.finish).trans hend'
    | stop st' => exact absurd st'.within (Nat.not_lt.2 (st'.line ▸ hl'))
    | pass st' => exact absurd st'.within (Nat.not_lt.2 (st'.line ▸ hl'))
  | stop st hland hend =>
    cases h' with
    | ended hl' _ =>
      have hl := Nat.le_trans (Nat.le_of_eq hs.length.symm) hl'
      exact absurd st.within (Nat.not_lt.2 (st.line ▸ hl))
    | stop st' _ hend' =>
      have hpass := (st.agree hs hscript hu hhost st' ha).2
      exact (hend.symm.trans hpass.finish).trans hend'
    | pass st' hland' _ =>
      have hsame := (st.agree hs hscript hu hhost st' ha).1
      rw [hland, hland'] at hsame
      cases hsame
  | pass st hland _ ih =>
    cases h' with
    | ended hl' _ =>
      have hl := Nat.le_trans (Nat.le_of_eq hs.length.symm) hl'
      exact absurd st.within (Nat.not_lt.2 (st.line ▸ hl))
    | stop st' hland' _ =>
      have hsame := (st.agree hs hscript hu hhost st' ha).1
      rw [hland, hland'] at hsame
      cases hsame
    | pass st' hland' h' =>
      obtain ⟨hsame, hpass⟩ := st.agree hs hscript hu hhost st' ha
      rw [hland, hland'] at hsame
      exact ih (Option.some.inj hsame ▸ h') hpass

end

/-! ## The passes of a run -/

/-- How the passes of a run end: with its trek, with a suspension on the way, or cut short. -/
inductive Finish (r : Run) (c : Config) (s : Script) (line : Nat) (g : Game) : Game → Prop
  | ended {g1} : Keeps g g1 →
    (∀ g', Alike r.trigger (g1.finish r.trigger) g' → Trek r c s line g g') →
    Finish r c s line g (g1.finish r.trigger)
  | left {g1} (there delay : Nat) : Keeps g g1 → 0 < g1.depthOf r.trigger →
    (∀ g', Trek r c s there (g1.suspend r.trigger r.owner there delay .wait) g' → Trek r c s line g g') →
    Finish r c s line g (g1.suspend r.trigger r.owner there delay .wait)
  | halted {g1} (times : Nat) : Keeps g g1 →
    Finish r c s line g ((g1.report (.looped r.proto.vnum r.proto.name times)).finish r.trigger)

theorem Finish.head {there : Nat} {g1 : Game} (hk : Keeps g g1)
    (ht : ∀ g', Trek r c s there g1 g' → Trek r c s line g g') (h : r.Finish c s there g1 ga) :
    r.Finish c s line g ga := by
  cases h with
  | ended hk' h => exact .ended (hk.trans hk') fun g' hg' => ht g' (h g' hg')
  | left there delay hk' hd h => exact .left there delay (hk.trans hk') hd fun g' hg' => ht g' (h g' hg')
  | halted times hk' => exact .halted times (hk.trans hk')

section

variable {x : Executor} {m : RunMode} {g0 : Game} {k : Nat}

/-- The passes of a run go along a trek (module doc). -/
theorem passes_finish (hexec : Executes x) (hecho : (r.recut x s m).Echoes)
    (hscript : s.IsScripted) (hu : r.proto.isGuarded = false) (hfwd : s.Forward) (fuel : Nat)
    (f : Frame) (hg0 : Keeps g0 g) (hc : g.engine.config = c)
    (hsteady : (r.recut x s m).Steady g0 0 k g)
    (hfuel : (g0.engine.config.loopAbortAfter - 1 - k) * s.length + (s.length - f.line) ≤ fuel) :
    r.Finish c s f.line g
      ((r.recut x s m).conclude ((r.recut x s m).passes fuel f g)).2 := by
  induction fuel generalizing f g k with
  | zero =>
    have hl : (r.recut x s m).proto.script.length ≤ f.line := Nat.le_of_sub_eq_zero
      (Nat.eq_zero_of_add_eq_zero_left (Nat.le_zero.1 hfuel))
    rw [passes, if_pos hl]
    exact .ended .refl fun g' hg' => .ended hl hg'
  | succ fuel ih =>
    unfold passes
    split
    · rename_i hl
      exact .ended .refl fun g' hg' => .ended hl hg'
    · rename_i hl
      have hl : ¬ s.length ≤ f.line := hl
      have hd : 0 < g.depthOf r.trigger := hsteady.depthOf
      have hres := pass_result (r := r.recut x s m) (f := f) hecho hscript hu hd
      have stands : ((r.recut x s m).pass f g).2.records = g.records →
          r.Stands c s f.line g x m f g := fun hrec =>
        ⟨hecho, rfl, Nat.not_le.1 hl, .refl, hc, hd, hrec⟩
      generalize hp : (r.recut x s m).pass f g = p at hres stands
      cases hres with
      | @next f1 g1 hk =>
        have hstands := stands hk.quiet.records
        have hfew : FewSince g0 g1 := by
          rw [FewSince, hk.quiet.attachments, hg0.quiet.attachments]
          exact Nat.lt_add_of_pos_right (by decide)
        have hstep : ∀ g', Trek r c s f1.line g1 g' → Trek r c s f.line g g' := fun g' ht =>
          .pass hstands (by rw [hp]; rfl) (by rw [hp]; exact ht)
        rcases pass_advances hexec hfwd hsteady hfew hp with ⟨hlt, hs'⟩ | ⟨hlt, hs'⟩
        · refine Finish.head hk hstep (ih f1 (hg0.trans hk) (hk.quiet.config.trans hc) hs' ?_)
          omega
        · refine Finish.head hk hstep (ih f1 (hg0.trans hk) (hk.quiet.config.trans hc) hs' ?_)
          have hroom : g0.engine.config.loopAbortAfter - 1 - k =
              g0.engine.config.loopAbortAfter - 1 - (k + 1) + 1 := by omega
          rw [hroom, Nat.succ_mul] at hfuel
          omega
      | ended hk =>
        exact .ended hk fun g' hg' =>
          .stop (stands hk.quiet.records) (by rw [hp]; rfl) (by rw [hp]; exact hg')
      | endless hk =>
        exact .ended hk fun g' hg' =>
          .stop (stands hk.quiet.records) (by rw [hp]; rfl) (by rw [hp]; exact hg')
      | halted times hk => exact .halted times hk
      | @left result g1 there delay hk hd1 =>
        refine .left there delay hk hd1 fun g' hg' => ?_
        obtain ⟨i, hi, -⟩ := instance_of_depthOf hd1
        have hq := hk.quiet.trans (quiet_suspend r.trigger r.owner there delay .wait)
        exact .pass (stands hq.records) (by rw [hp]; exact landing_suspend hi _ _ _)
          (by rw [hp]; exact hg')

end

end Run

end MudTrigger
