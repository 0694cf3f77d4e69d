import MudTrigger.Proofs.Flow.Steady
import MudTrigger.Proofs.Suspend.Lines

/-!
# What a script does by itself

`Keeps g g'`: the same triggers are attached, the same runs wait, and the clocks show the same. A run
whose lines stay within its script does nothing else, pass by pass, but that a pass may suspend the
run, or cut it short when it has repeated loop bodies too often (`pass_result`).
-/

set_option autoImplicit false

namespace MudTrigger

open Game

namespace Game

/-- What decides when something happens by itself. -/
def schedule (g : Game) : WaitQueue × Nat × Nat × Option Nat × GameTime :=
  (g.engine.waits, g.engine.pulseCount, g.engine.depth, g.engine.lastHour, g.world.time)

/-- The triggers, the queue and the clocks are the same (module doc). -/
structure Keeps (g g' : Game) : Prop where
  quiet : Quiet g g'
  same : Same g g'
  schedule : g'.schedule = g.schedule

variable {g g' g1 : Game}

namespace Keeps

theorem refl : Keeps g g := ⟨.refl, .refl, rfl⟩

theorem trans (h : Keeps g g') (h' : Keeps g' g1) : Keeps g g1 :=
  ⟨h.quiet.trans h'.quiet, h.same.trans h'.same, h'.schedule.trans h.schedule⟩

theorem waits (h : Keeps g g') : g'.engine.waits = g.engine.waits := congrArg Prod.fst h.schedule

theorem depth (h : Keeps g g') : g'.engine.depth = g.engine.depth := congrArg (·.2.2.1) h.schedule

theorem lastHour (h : Keeps g g') : g'.engine.lastHour = g.engine.lastHour :=
  congrArg (·.2.2.2.1) h.schedule

theorem time (h : Keeps g g') : g'.world.time = g.world.time := congrArg (·.2.2.2.2) h.schedule

end Keeps

theorem keeps_report {n : Notice} (hn : n.isRecord = false) : Keeps g (g.report n) :=
  ⟨quiet_report hn, same_of_eq rfl rfl, rfl⟩

theorem keeps_blame (p : Prototype) (fs : List Fault) : Keeps g (g.blame p fs) :=
  ⟨quiet_blame p fs, same_of_eq rfl rfl, rfl⟩

theorem keeps_withDice (d : Dice) : Keeps g (g.withDice d) :=
  ⟨quiet_of_eq rfl rfl rfl, same_of_eq rfl rfl, rfl⟩

theorem keeps_modifyInstance (h : Handle) {f : Instance → Instance}
    (hf : ∀ i, (f i).origin = i.origin) : Keeps g (g.modifyInstance h f) :=
  ⟨quiet_modifyInstance h f, same_modifyInstance h hf, rfl⟩

theorem keeps_deepen (h : Handle) : Keeps g (g.deepen h) := keeps_modifyInstance h fun _ => rfl

theorem keeps_rise (h : Handle) : Keeps g (g.rise h) := keeps_modifyInstance h fun _ => rfl

theorem keeps_finish (h : Handle) : Keeps g (g.finish h) := keeps_modifyInstance h fun _ => rfl

theorem keeps_makeGlobal (h : Handle) (u : Uid) (v : Variable) : Keeps g (g.makeGlobal h u v) :=
  ⟨quiet_makeGlobal h u v, same_makeGlobal h u v, rfl⟩

theorem keeps_unset (h : Handle) (u : Uid) (name : String) : Keeps g (g.unset h u name) := by
  refine ⟨quiet_unset h u name, same_unset h u name, ?_⟩
  unfold unset
  split <;> rfl

/-- What an echo does: the host answers it, or everyone hears it. -/
def echo (host : Host) (g : Game) (actor : Uid) (line : String) : Game :=
  match host.answer g.engine actor line with
  | some note => g.addNote note
  | none => g.withWorld (g.world.tell (Text.splitWord line).2)

theorem keeps_echo (host : Host) (actor : Uid) (line : String) : Keeps g (g.echo host actor line) := by
  unfold echo
  split
  · exact ⟨quiet_of_eq rfl rfl rfl, same_of_eq rfl rfl, rfl⟩
  · exact ⟨quiet_of_eq rfl rfl rfl, same_of_eq rfl rfl, rfl⟩

theorem perform_echo (host : Host) (run : Runner) (actor : Uid) {line : String}
    (h : Text.command line = "echo") : perform host run g actor line = g.echo host actor line := by
  have hword : Text.fold (Text.splitWord line).1 = "echo" := h
  unfold perform echo
  cases host.answer g.engine actor line with
  | some note => rfl
  | none =>
    simp only [execute]
    rw [hword]
    rfl

theorem depthOf_eq {h : Handle} (he : g'.instance? h = g.instance? h) :
    g'.depthOf h = g.depthOf h := by
  rw [depthOf, he, depthOf]

end Game

namespace Run

variable {r : Run} {f : Frame} {g : Game}

/-- The echoes of a run do nothing but what an echo does. -/
def Echoes (r : Run) : Prop :=
  ∀ g text, Text.command text = "echo" → r.execute g r.owner text = g.echo r.host r.owner text

theorem keeps_look (read : Scene → Expand String) : Keeps g (r.look g read).2 := by
  unfold look
  split
  · exact .refl
  · exact (keeps_withDice _).trans (keeps_blame _ _)

theorem keeps_evaluate (e : String) : Keeps g (r.evaluate g e).2 :=
  (keeps_look _).trans (keeps_report rfl)

theorem keeps_holds (e : String) : Keeps g (r.holds g e).2 := keeps_evaluate e

theorem keeps_fault (x : Fault) : Keeps g (r.fault g x) := keeps_blame _ _

theorem keeps_clauseWithin (fuel : Nat) (line : Option Nat) :
    Keeps g (r.clauseWithin fuel line g).2 := by
  induction fuel generalizing line g with
  | zero =>
    cases line with
    | none => exact keeps_fault _
    | some line => exact .refl
  | succ fuel ih =>
    cases line with
    | none => exact keeps_fault _
    | some line =>
      unfold clauseWithin
      split
      · exact keeps_fault _
      · rename_i c next _ _
        have hh := keeps_holds (r := r) (g := g) c
        simp only
        split
        · exact hh.trans (keeps_deepen _)
        · exact hh.trans (ih next)
      · exact keeps_deepen _
      · exact .refl

theorem keeps_findArm (subject : String) (arms : List Nat) :
    Keeps g (r.findArm subject arms g).2 := by
  induction arms generalizing g with
  | nil => exact .refl
  | cons arm arms ih =>
    unfold findArm
    split
    · rename_i e _
      simp only
      split
      · exact keeps_evaluate e
      · exact (keeps_evaluate e).trans ih
    · exact .refl
    · exact ih

theorem keeps_moveGlobals (names : List String) : Keeps g (r.moveGlobals g names) := by
  unfold moveGlobals
  induction names generalizing g with
  | nil => exact .refl
  | cons name names ih =>
    rw [List.foldl_cons]
    split
    · exact (keeps_makeGlobal _ _ _).trans ih
    · exact (keeps_fault _).trans ih

/-- A line that stays within its script is still the same command when it is expanded. -/
theorem command_look {text : String} (ht : Text.command text ∈ Text.scripted)
    (hd : 0 < g.depthOf r.trigger) :
    Text.command (r.look g (·.expand text)).1 = Text.command text := by
  obtain ⟨i, hi, -⟩ := instance_of_depthOf hd
  obtain ⟨s, hs⟩ : ∃ s, r.scene? g = some s := ⟨_, by rw [scene?, hi, Option.map_some]⟩
  have hlook : (r.look g (·.expand text)).1 = (s.expand text { dice := g.engine.dice }).1 := by
    rw [look, hs]
    rfl
  rw [hlook, Text.command_expand s _ ht]

/-- What a pass of a script that stays by itself comes to. -/
inductive Result (r : Run) (g : Game) : Step × Game → Prop
  | next {f g'} : Keeps g g' → Result r g (.next f, g')
  | ended {result g'} : Keeps g g' → Result r g (.ended result, g')
  | endless {g'} : Keeps g g' → Result r g (.endless, g')
  | halted {result g'} (times : Nat) : Keeps g g' →
    Result r g (.ended result, g'.report (.looped r.proto.vnum r.proto.name times))
  | left {result g'} (line delay : Nat) : Keeps g g' → 0 < g'.depthOf r.trigger →
    Result r g (.left result, g'.suspend r.trigger r.owner line delay .wait)

theorem Result.head {g1 : Game} {p : Step × Game} (h : Keeps g g1) (hp : r.Result g1 p) :
    r.Result g p := by
  cases hp with
  | next hk => exact .next (h.trans hk)
  | ended hk => exact .ended (h.trans hk)
  | endless hk => exact .endless (h.trans hk)
  | halted times hk => exact .halted times (h.trans hk)
  | left line delay hk hd => exact .left line delay (h.trans hk) hd

theorem command_result (he : r.Echoes) {text : String} (ht : Text.command text ∈ Text.scripted)
    (hd : 0 < g.depthOf r.trigger) : r.Result g (r.command f text g) := by
  unfold command
  simp only
  split
  · split
    · exact .next (keeps_fault _)
    · exact .next ((keeps_evaluate _).trans (keeps_modifyInstance _ fun _ => rfl))
  · exact .ended .refl
  · split
    · exact .next ((keeps_fault _).trans (keeps_moveGlobals _))
    · exact .next (keeps_moveGlobals _)
  · split
    · exact .ended (keeps_fault _)
    · exact .ended .refl
  · split
    · exact .next (keeps_fault _)
    · exact .next (keeps_modifyInstance _ fun _ => rfl)
  · split
    · exact .next (keeps_fault _)
    · exact .next (keeps_unset _ _ _)
  · split
    · exact .left _ _ .refl hd
    · exact .next (keeps_fault _)
  · rename_i h1 h2 h3 h4 h5 h6 h7
    have hecho : Text.command text = "echo" := Text.echo_of_scripted ht h1 h2 h3 h4 h5 h6 h7
    have hk : Keeps g (r.execute (g.report (.executed r.owner text)) r.owner text) := by
      rw [he _ _ hecho]
      exact (keeps_report rfl).trans (keeps_echo _ _ _)
    split
    · exact .next hk
    · exact .ended (hk.trans (keeps_report rfl))

theorem loopBack_result (head : Nat) (c : String) (hd : 0 < g.depthOf r.trigger) :
    r.Result g (r.loopBack f head c g) := by
  have hh := keeps_holds (r := r) (g := g) c
  have hi : (r.holds g c).2.instance? r.trigger = g.instance? r.trigger := evaluate_instance? c _
  unfold loopBack
  generalize r.holds g c = p at hh hi
  obtain ⟨truth, g1⟩ := p
  simp only at hh hi ⊢
  refine Result.head hh ?_
  have hc : Keeps g1 (g1.countLoop r.trigger) := keeps_modifyInstance _ fun _ => rfl
  obtain ⟨i, hgi, hid⟩ := instance_of_depthOf hd
  have hci : (g1.countLoop r.trigger).instance? r.trigger = some { i with loops := i.loops + 1 } := by
    rw [Game.countLoop, instance?_modifyInstance_self, hi, hgi, Option.map_some]
  split
  · exact .next .refl
  · rw [hci]
    simp only
    split
    · refine .left _ _ hc ?_
      rw [depthOf, hci]
      exact hid
    · split
      · exact .halted _ hc
      · exact .next hc

theorem perform_result (he : r.Echoes) {line : Line}
    (hl : line.op = .command → Text.command line.text ∈ Text.scripted)
    (hd : 0 < g.depthOf r.trigger) : r.Result g (r.perform f line g) := by
  unfold perform
  simp only
  split
  · exact .next .refl
  · exact .next .refl
  · exact .next .refl
  · exact .next .refl
  · rename_i c clause _
    refine Result.head (keeps_holds (r := r) c) ?_
    split
    · exact .next (keeps_deepen _)
    · have hk := keeps_clauseWithin (r := r) (r.patience (r.holds g c).2) clause
        (g := (r.holds g c).2)
      generalize r.clauseWithin (r.patience (r.holds g c).2) clause (r.holds g c).2 = p at hk
      obtain ⟨clause, g1⟩ := p
      cases clause with
      | found line => exact .next hk
      | unclosed => exact .ended hk
      | endless => exact .endless hk
  · split
    · exact .next (keeps_fault _)
    · split
      · exact .next (keeps_rise _)
      · exact .ended ((keeps_rise _).trans (keeps_fault _))
  · split
    · exact .next (keeps_fault _)
    · split
      · exact .next (keeps_rise _)
      · exact .ended ((keeps_rise _).trans (keeps_fault _))
  · split
    · exact .next (keeps_fault _)
    · exact .next (keeps_rise _)
  · split
    · exact .ended (keeps_fault _)
    · rename_i c _ _ done
      refine Result.head (keeps_holds (r := r) c) ?_
      split
      · exact .next .refl
      · exact .next .refl
  · split
    · exact loopBack_result _ _ hd
    · exact .next .refl
  · rename_i subject arms done _
    refine Result.head (keeps_evaluate (r := r) subject) ?_
    have hk := keeps_findArm (r := r) (r.evaluate g subject).1 arms (g := (r.evaluate g subject).2)
    generalize r.findArm (r.evaluate g subject).1 arms (r.evaluate g subject).2 = p at hk
    obtain ⟨arm, g1⟩ := p
    cases arm with
    | some arm => exact .next hk
    | none =>
      simp only
      split
      · exact .next hk
      · exact .ended hk
  · split
    · exact .next .refl
    · exact .next (keeps_fault _)
  · rename_i hop
    refine Result.head (keeps_look _) (command_result he ?_ ?_)
    · rw [command_look (hl hop) hd]
      exact hl hop
    · rw [depthOf_eq (look_snd _ _)]
      exact hd

/-- A pass of a script that stays by itself (module doc). -/
theorem pass_result (he : r.Echoes) (hs : r.proto.script.IsScripted)
    (hu : r.proto.isGuarded = false) (hd : 0 < g.depthOf r.trigger) :
    r.Result g (r.pass f g) := by
  obtain ⟨i, hi, -⟩ := instance_of_depthOf hd
  have hlive : g.hasTrigger r.trigger = true := (hasTrigger_iff g r.trigger).2 ⟨i, hi⟩
  unfold pass
  rw [hlive, hu]
  show r.Result g (r.doLine f g)
  unfold doLine
  split
  · exact .ended .refl
  · rename_i line hline
    exact Result.head (keeps_report rfl) (perform_result he (hs f.line line hline) hd)

end Run

end MudTrigger
