import MudTrigger.Proofs.Trace.Change

/-!
# Runs are made of changes

`Run.Leads` says what a pass amounts to as changes: the run goes on in its activation, or it is over,
suspended or lost, and its activation is off the stack. Every pass leads there (`pass_leads`), and so
does a whole run (`passes_changes`), if what its commands do is made of changes.
-/

set_option autoImplicit false

namespace MudTrigger

namespace Run

variable {r : Run} {s : List Activation} {g : Game} {n : Nat}

/-- The activation of a run that has repeated loop bodies so often. -/
def activation (r : Run) (loops : Nat) : Activation := ⟨r.trigger, r.owner, r.proto, loops, false⟩

/-- What the result of a pass means for a run that has repeated loop bodies `n` times. -/
inductive Leads (r : Run) (s : List Activation) (n : Nat) (g : Game) : Step × Game → Prop
  | next {f g'} : Changes ⟨r.activation n :: s, g⟩ ⟨r.activation f.loops :: s, g'⟩ →
    Leads r s n g (.next f, g')
  | ended {result g'} : Changes ⟨r.activation n :: s, g⟩ ⟨s, (g'.finish r.trigger).leave⟩ →
    Leads r s n g (.ended result, g')
  | left {result g'} : Changes ⟨r.activation n :: s, g⟩ ⟨s, g'.leave⟩ →
    Leads r s n g (.left result, g')
  | endless {g'} : Changes ⟨r.activation n :: s, g⟩ ⟨s, (g'.finish r.trigger).leave⟩ →
    Leads r s n g (.endless, g')

theorem Leads.head {n' : Nat} {g1 : Game} {p : Step × Game}
    (h : Changes ⟨r.activation n :: s, g⟩ ⟨r.activation n' :: s, g1⟩) (hp : r.Leads s n' g1 p) :
    r.Leads s n g p := by
  cases hp with
  | next hp => exact .next (h.trans hp)
  | ended hp => exact .ended (h.trans hp)
  | left hp => exact .left (h.trans hp)
  | endless hp => exact .endless (h.trans hp)

theorem Leads.next_of {g' : Game} {f : Frame} (hf : f.loops = n)
    (h : Evolves (r.activation n :: s) g g') : r.Leads s n g (.next f, g') := by
  subst hf
  exact .next h

theorem Leads.ended_of {g' : Game} {result : Int} (h : Evolves (r.activation n :: s) g g') :
    r.Leads s n g (.ended result, g') := .ended (h.tail (.finish rfl))

theorem Leads.endless_of {g' : Game} (h : Evolves (r.activation n :: s) g g') :
    r.Leads s n g (.endless, g') := .endless (h.tail (.finish rfl))

/-! ## Looking at the world -/

theorem look_snd (read : Scene → Expand String) (h : Handle) :
    (r.look g read).2.instance? h = g.instance? h := by
  unfold look
  split <;> rfl

theorem look_evolves (read : Scene → Expand String) : Evolves s g (r.look g read).2 := by
  unfold look
  split
  · exact .refl
  · exact .head (.roll _) (.single (.blame _ _))

@[simp] theorem hasTrigger_look (read : Scene → Expand String) (h : Handle) :
    (r.look g read).2.hasTrigger h = g.hasTrigger h := by
  rw [Game.hasTrigger_eq, look_snd, ← Game.hasTrigger_eq]

theorem evaluate_instance? (e : String) (h : Handle) :
    (r.evaluate g e).2.instance? h = g.instance? h := look_snd _ h

@[simp] theorem hasTrigger_evaluate (e : String) (h : Handle) :
    (r.evaluate g e).2.hasTrigger h = g.hasTrigger h := hasTrigger_look _ h

@[simp] theorem hasTrigger_holds (e : String) (h : Handle) :
    (r.holds g e).2.hasTrigger h = g.hasTrigger h := hasTrigger_look _ h

theorem evaluate_evolves (e : String) (hg : g.hasTrigger r.trigger = true) :
    Evolves (r.activation n :: s) g (r.evaluate g e).2 := by
  refine Relation.ReflTransGen.tail (look_evolves (r := r) (·.evaluate e)) ?_
  exact Change.evaluate (a := r.activation n) e _ (by rw [hasTrigger_look]; exact hg) rfl

theorem holds_evolves (e : String) (hg : g.hasTrigger r.trigger = true) :
    Evolves (r.activation n :: s) g (r.holds g e).2 := evaluate_evolves e hg

theorem fault_evolves (f : Fault) : Evolves s g (r.fault g f) := .single (.blame _ _)

/-! ## Choosing a branch -/

theorem deepen_evolves : Evolves (r.activation n :: s) g (g.deepen r.trigger) :=
  .single (Change.deepen (a := r.activation n) rfl)

theorem clauseWithin_evolves (fuel : Nat) (line : Option Nat) (hg : g.hasTrigger r.trigger = true) :
    Evolves (r.activation n :: s) g (r.clauseWithin fuel line g).2 := by
  induction fuel generalizing line g with
  | zero =>
    cases line with
    | none => exact fault_evolves _
    | some line => exact .refl
  | succ fuel ih =>
    cases line with
    | none => exact fault_evolves _
    | some line =>
      unfold clauseWithin
      split
      · exact fault_evolves _
      · rename_i condition next _ _
        have hh := holds_evolves condition hg (s := s) (n := n)
        simp only
        split
        · exact hh.trans deepen_evolves
        · exact hh.trans (ih next (by rw [hasTrigger_holds]; exact hg))
      · exact deepen_evolves
      · exact .refl

theorem findArm_evolves (subject : String) (arms : List Nat)
    (hg : g.hasTrigger r.trigger = true) :
    Evolves (r.activation n :: s) g (r.findArm subject arms g).2 := by
  induction arms generalizing g with
  | nil => exact .refl
  | cons arm arms ih =>
    unfold findArm
    split
    · rename_i expression _
      have he := evaluate_evolves expression hg (s := s) (n := n)
      simp only
      split
      · exact he
      · exact he.trans (ih (by rw [hasTrigger_evaluate]; exact hg))
    · exact .refl
    · exact ih hg

/-! ## Commands of scripts -/

theorem moveGlobals_evolves (names : List String) :
    Evolves (r.activation n :: s) g (r.moveGlobals g names) := by
  unfold moveGlobals
  induction names generalizing g with
  | nil => exact .refl
  | cons name names ih =>
    rw [List.foldl_cons]
    split
    · rename_i v _
      exact .head (Change.makeGlobal (a := r.activation n) v rfl) ih
    · exact (fault_evolves _).trans ih

theorem suspend_leads {f : Frame} (line delay : Nat) (kind : WaitKind)
    (hg : g.hasTrigger r.trigger = true) :
    r.Leads s n g (.left f.result, g.suspend r.trigger r.owner line delay kind) :=
  .left (.single (Change.suspend (a := r.activation n) line delay kind hg rfl))

theorem setLocal_evolves (name value : String) :
    Evolves (r.activation n :: s) g (g.setLocal r.trigger name value) :=
  .single (Change.setLocal (a := r.activation n) name value rfl)

/-! ## A pass -/

theorem rise_evolves (hd : ¬ g.depthOf r.trigger ≤ 1) :
    Evolves (r.activation n :: s) g (g.rise r.trigger) :=
  .single (Change.rise (a := r.activation n) (Nat.not_le.1 hd) rfl)

theorem follow_leads (f : Frame) (p : Clause × Game)
    (hp : Evolves (r.activation f.loops :: s) g p.2) : r.Leads s f.loops g (f.follow p) := by
  obtain ⟨clause, g'⟩ := p
  cases clause with
  | found line => exact .next_of rfl hp
  | unclosed => exact .ended_of hp
  | endless => exact .endless_of hp

theorem loopBack_leads (f : Frame) (head : Nat) (condition : String)
    (hg : g.hasTrigger r.trigger = true) :
    r.Leads s f.loops g (r.loopBack f head condition g) := by
  have hh := holds_evolves condition hg (s := s) (n := f.loops)
  have ht : (r.holds g condition).2.hasTrigger r.trigger = true := by
    rw [hasTrigger_holds]; exact hg
  unfold loopBack
  generalize r.holds g condition = p at hh ht
  obtain ⟨truth, g1⟩ := p
  simp only at hh ht ⊢
  refine Leads.head hh ?_
  obtain ⟨i, hi⟩ := (Game.hasTrigger_iff _ _).1 ht
  have hc : (g1.countLoop r.trigger).instance? r.trigger = some { i with loops := i.loops + 1 } := by
    rw [Game.countLoop, Game.instance?_modifyInstance_self, hi, Option.map_some]
  split
  · exact .next_of rfl .refl
  · rw [hc]
    simp only
    split
    · rename_i hd
      exact .left (.single (Change.loopYield (a := r.activation f.loops) _ hi hd rfl))
    · rename_i hd
      split
      · rename_i ha
        exact .ended
          (.single (Change.loopHalt (a := r.activation f.loops) hi (Nat.not_le.1 hd) ha rfl))
      · rename_i ha
        exact .next
          (.single (Change.loopAgain (a := r.activation f.loops) hi (Nat.not_le.1 hd) (Nat.not_le.1 ha)
            rfl))

theorem putOff_leads (f : Frame) (hg : g.hasTrigger r.trigger = true) :
    r.Leads s f.loops g (r.putOff f g) := suspend_leads _ _ _ hg

section

variable (hx : Executes r.execute)
include hx

theorem command_leads (f : Frame) (text : String) (hg : g.hasTrigger r.trigger = true) :
    r.Leads s f.loops g (r.command f text g) := by
  unfold command
  simp only
  split
  · split
    · exact .next_of rfl (fault_evolves _)
    · exact .next_of rfl ((evaluate_evolves _ hg).trans (setLocal_evolves _ _))
  · exact .ended_of .refl
  · split
    · exact .next_of rfl ((fault_evolves _).trans (moveGlobals_evolves _))
    · exact .next_of rfl (moveGlobals_evolves _)
  · split
    · exact .ended_of (fault_evolves _)
    · exact .ended_of .refl
  · split
    · exact .next_of rfl (fault_evolves _)
    · exact .next_of rfl (setLocal_evolves _ _)
  · split
    · exact .next_of rfl (fault_evolves _)
    · exact .next_of rfl (.single (Change.unset (a := r.activation f.loops) _ rfl))
  · split
    · exact suspend_leads _ _ _ hg
    · exact .next_of rfl (fault_evolves _)
  · have he : Evolves (r.activation f.loops :: s) g
        (r.execute (g.report (.executed r.owner text)) r.owner text) :=
      .head (Change.command (a := r.activation f.loops) text hg rfl) (hx (r.activation f.loops) _ _ _)
    split
    · exact .next_of rfl he
    · exact .ended_of (he.trans (Evolves.report rfl))

theorem perform_leads (f : Frame) (line : Line) (hg : g.hasTrigger r.trigger = true) :
    r.Leads s f.loops g (r.perform f line g) := by
  unfold perform
  simp only
  split
  · exact .next_of rfl .refl
  · exact .next_of rfl .refl
  · exact .next_of rfl .refl
  · exact .next_of rfl .refl
  · rename_i condition clause _
    have hh := holds_evolves condition hg (s := s) (n := f.loops)
    split
    · exact .next_of rfl (hh.trans deepen_evolves)
    · exact follow_leads f _ (hh.trans (clauseWithin_evolves _ clause
        (by rw [hasTrigger_holds]; exact hg)))
  · split
    · exact .next_of rfl (fault_evolves _)
    · rename_i hd
      split
      · exact .next_of rfl (rise_evolves hd)
      · exact .ended_of ((rise_evolves hd).trans (fault_evolves _))
  · split
    · exact .next_of rfl (fault_evolves _)
    · rename_i hd
      split
      · exact .next_of rfl (rise_evolves hd)
      · exact .ended_of ((rise_evolves hd).trans (fault_evolves _))
  · split
    · exact .next_of rfl (fault_evolves _)
    · rename_i hd
      exact .next_of rfl (rise_evolves hd)
  · split
    · exact .ended_of (fault_evolves _)
    · rename_i condition _ _ done
      have hh := holds_evolves condition hg (s := s) (n := f.loops)
      split
      · exact .next_of rfl hh
      · exact .next (hh.tail (Change.loopOver (a := r.activation f.loops) rfl))
  · split
    · exact loopBack_leads f _ _ hg
    · exact .next_of rfl .refl
  · rename_i subject arms done _
    have he := evaluate_evolves subject hg (s := s) (n := f.loops)
    have ha := findArm_evolves (r.evaluate g subject).1 arms (s := s) (n := f.loops)
      (g := (r.evaluate g subject).2) (by rw [hasTrigger_evaluate]; exact hg)
    split
    · rename_i hf
      rw [hf] at ha
      exact .next_of rfl (he.trans ha)
    · rename_i hf
      rw [hf] at ha
      split
      · exact .next_of rfl (he.trans ha)
      · exact .ended_of (he.trans ha)
  · split
    · exact .next_of rfl .refl
    · exact .next_of rfl (fault_evolves _)
  · exact .head (look_evolves _) (command_leads hx f _ (by rw [hasTrigger_look]; exact hg))

theorem doLine_leads (f : Frame) (hg : g.hasTrigger r.trigger = true)
    (ha : (r.activation f.loops).CanAct g.world) : r.Leads s f.loops g (r.doLine f g) := by
  unfold doLine
  split
  · exact .ended_of .refl
  · exact .head (.single (Change.reach (a := r.activation f.loops) f.line hg ha rfl))
      (perform_leads hx f _ hg)

theorem pass_leads (f : Frame) : r.Leads s f.loops g (r.pass f g) := by
  unfold pass
  split
  · rename_i hg
    have hg : g.hasTrigger r.trigger = false := by simpa using hg
    exact .left (.single (Change.vanish (a := r.activation f.loops) hg rfl))
  · rename_i hg
    have hg : g.hasTrigger r.trigger = true := by simpa using hg
    split
    · rename_i hu
      have hu : r.proto.isGuarded = false := by simpa using hu
      exact doLine_leads hx f hg fun hp => absurd (hu.symm.trans hp) Bool.false_ne_true
    · split
      · exact .ended_of .refl
      · rename_i c hc
        split
        · split
          · exact .ended_of .refl
          · exact putOff_leads f hg
        · rename_i hw
          split
          · exact putOff_leads f hg
          · rename_i hk
            exact doLine_leads hx f hg fun _ => ⟨c, hc, by simpa using hw, by simpa using hk⟩

/-! ## A run -/

/-- The moments after passes that came to an end, and after passes that did not. -/
theorem passes_changes (fuel : Nat) (f : Frame) :
    Changes ⟨r.activation f.loops :: s, g⟩ ⟨s, (r.conclude (r.passes fuel f g)).2.leave⟩ := by
  induction fuel generalizing f g with
  | zero =>
    unfold passes
    split
    · exact .single (Change.finish (a := r.activation f.loops) rfl)
    · exact .single (Change.finish (a := r.activation f.loops) rfl)
  | succ fuel ih =>
    unfold passes
    split
    · exact .single (Change.finish (a := r.activation f.loops) rfl)
    · have hp := pass_leads hx f (s := s) (g := g)
      split <;> rename_i he <;> rw [he] at hp
      · cases hp with
        | next hp => exact hp.trans (ih _)
      · cases hp with
        | ended hp => exact hp
      · cases hp with
        | left hp => exact hp
      · cases hp with
        | endless hp => exact hp

end

theorem drive_new (hm : r.mode = .new) (i : Instance) :
    r.drive i g = r.conclude (r.passes (r.patience (g.begin r.trigger)) { line := 0 }
      (g.begin r.trigger)) := by
  unfold drive
  rw [hm]

theorem drive_resume (hm : r.mode = .resume) (i : Instance) :
    r.drive i g = r.conclude (r.passes (r.patience (g.takeUp r.trigger))
      { line := i.resumeAt.getD 0 } (g.takeUp r.trigger)) := by
  unfold drive
  rw [hm]

end Run

end MudTrigger
