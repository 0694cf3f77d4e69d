import MudTrigger.Proofs.Flow.Steady
import MudTrigger.Proofs.Wait.Effect

/-!
# Nested runs without fuel

`g.AtLevel d k`: the depth of the engine is `d` and its ceiling `k`. Whatever happens while the same
runs stay under way keeps the level (`AtLevel.evolves`), so the commands of a run are all carried out
at one level, that of the game in which the run was begun and one deeper (`Run.drive_congr`). A run
that is refused at the ceiling has therefore fuel left, and more fuel makes no difference
(`runWithin_congr`): a run of a trigger is a run whose commands run triggers, and nothing but the
ceiling ends the nesting (`run_eq`).
-/

set_option autoImplicit false

namespace MudTrigger

open Game

/-! ## The depth counts the runs under way -/

/-- A step counts the runs that it begins and ends, on top of `b` others. -/
theorem Effect.depth_eq {m m' : Moment} {b : Nat} (he : Effect m m')
    (hm : m.game.engine.depth = m.stack.length + b) :
    m'.game.engine.depth = m'.stack.length + b := by
  cases he with
  | spare hs hd => rw [hd, hs, hm]
  | attach hs ha =>
    obtain ⟨p, -, hg⟩ := attach_ok ha
    rw [hs, hg]
    exact hm
  | work n hs hs' hd => rw [hd, hs', hm, hs]; rfl
  | leave hs hs' hd =>
    rw [hs, List.length_cons] at hm
    rw [hs']
    omega
  | enter hs hd =>
    rw [hd, hs, hm, List.length_cons]
    omega
  | refuse hs hd => rw [hd, hs, hm]

theorem Changes.depth_eq {m m' : Moment} {b : Nat} (h : Changes m m')
    (hm : m.game.engine.depth = m.stack.length + b) :
    m'.game.engine.depth = m'.stack.length + b := by
  induction h with
  | refl => exact hm
  | tail _ h ih => exact h.effect.depth_eq ih

namespace Game

variable {g g' : Game} {d k : Nat}

/-- How many runs are under way, and how deep they may be nested. -/
structure AtLevel (d k : Nat) (g : Game) : Prop where
  depth : g.engine.depth = d
  ceiling : g.engine.config.maxScriptDepth = k

theorem AtLevel.evolves (h : g.AtLevel d k) (he : Evolves [] g g') : g'.AtLevel d k := by
  have hd := Changes.depth_eq he (b := d) (by simp [h.depth])
  exact ⟨by simpa using hd, by rw [Changes.config_eq he, h.ceiling]⟩

/-- The runners do the same with every game at this level. -/
def AgreeAt (d k : Nat) (run run' : Runner) : Prop := ∀ ⦃g⦄, g.AtLevel d k → run g = run' g

/-! ## What a command does at its level -/

section

variable {run run' : Runner} (hf : Fires run) (hr : AgreeAt d k run run')
include hr

theorem offer_agreeAt (hg : g.AtLevel d k) (u : Uid) (o : Offer) :
    g.offer run u o = g.offer run' u o := by
  have ht := (triggerFor_looks (g := g) u o).evolves (s := [])
  unfold offer
  split
  · rfl
  · rename_i h g1 he
    rw [he] at ht
    have hg1 := hg.evolves ht
    have hb : (g1.bindLocals h o.bindings).AtLevel d k := ⟨hg1.depth, hg1.ceiling⟩
    rw [fire, fire, hr hb]

include hf

theorem offerEach_agreeAt (hg : g.AtLevel d k) (able : Game → Uid → Bool) (o : Offer)
    (us : List Uid) : offerEach run able o us g = offerEach run' able o us g := by
  induction us generalizing g with
  | nil => rfl
  | cons u us ih =>
    unfold offerEach
    rw [← offer_agreeAt hr hg]
    simp only [ih hg, ih (hg.evolves ((offer_stirs u o).evolves hf))]

omit hf in
theorem offerAround_agreeAt (hg : g.AtLevel d k) (actor : Uid) (o : Offer) :
    RoomEvent.offerAround run actor o g = RoomEvent.offerAround run' actor o g := by
  simp only [RoomEvent.offerAround, RoomEvent.offerIn, offer_agreeAt hr hg]

/-- A speech is heard by the mobiles and then by the room, at one level. -/
theorem onSpeech_agreeAt (hg : g.AtLevel d k) (actor : Uid) (text : String) :
    RoomEvent.onSpeech run actor text (MobileEvent.onSpeech run actor text g) =
      RoomEvent.onSpeech run' actor text (MobileEvent.onSpeech run' actor text g) := by
  have hm : MobileEvent.onSpeech run actor text g = MobileEvent.onSpeech run' actor text g := by
    simp only [MobileEvent.onSpeech, offerEach_agreeAt hf hr hg]
  have he : (MobileEvent.onSpeech run actor text g).AtLevel d k :=
    hg.evolves ((MobileEvent.dispatch_stirs .standard (.speech actor text)).evolves hf)
  rw [← hm, RoomEvent.onSpeech, RoomEvent.onSpeech, offerAround_agreeAt hr he]

theorem execute_agreeAt (hg : g.AtLevel d k) (actor : Uid) (line : String) :
    g.execute run actor line = g.execute run' actor line := by
  have hsay : ∀ text, g.doSay run actor text = g.doSay run' actor text := fun text => by
    unfold doSay
    dsimp only
    refine onSpeech_agreeAt hf hr ?_ actor text
    exact ⟨hg.depth, hg.ceiling⟩
  simp only [execute, hsay]

theorem perform_agreeAt (hg : g.AtLevel d k) (host : Host) (actor : Uid) (line : String) :
    perform host run g actor line = perform host run' g actor line := by
  simp only [perform, execute_agreeAt hf hr hg]

end

end Game

namespace Run

variable {r : Run} {x : Executor} {g : Game} {d k : Nat}

/-! ## A run under another executor -/

/-- The run with its commands carried out in another way. -/
def under (r : Run) (x : Executor) : Run := { r with execute := x }

section

variable (r : Run) (x : Executor) (g : Game)

@[simp] theorem under_trigger : (r.under x).trigger = r.trigger := rfl

@[simp] theorem under_owner : (r.under x).owner = r.owner := rfl

@[simp] theorem under_proto : (r.under x).proto = r.proto := rfl

@[simp] theorem under_mode : (r.under x).mode = r.mode := rfl

@[simp] theorem under_execute : (r.under x).execute = x := rfl

@[simp] theorem under_patience : (r.under x).patience g = r.patience g := rfl

@[simp] theorem under_look (read : Scene → Expand String) :
    (r.under x).look g read = r.look g read := rfl

@[simp] theorem under_evaluate (e : String) : (r.under x).evaluate g e = r.evaluate g e := rfl

@[simp] theorem under_holds (e : String) : (r.under x).holds g e = r.holds g e := rfl

@[simp] theorem under_fault (f : Fault) : (r.under x).fault g f = r.fault g f := rfl

@[simp] theorem under_moveGlobals (names : List String) :
    (r.under x).moveGlobals g names = r.moveGlobals g names := rfl

@[simp] theorem under_loopBack (f : Frame) (head : Nat) (condition : String) :
    (r.under x).loopBack f head condition g = r.loopBack f head condition g := rfl

@[simp] theorem under_clauseWithin (fuel : Nat) (line : Option Nat) :
    (r.under x).clauseWithin fuel line g = r.clauseWithin fuel line g := by
  induction fuel generalizing line g with
  | zero => cases line <;> rfl
  | succ fuel ih =>
    cases line with
    | none => rfl
    | some line =>
      simp only [clauseWithin, under_holds, under_fault, under_proto, under_trigger, ih]

@[simp] theorem under_findArm (subject : String) (arms : List Nat) :
    (r.under x).findArm subject arms g = r.findArm subject arms g := by
  induction arms generalizing g with
  | nil => rfl
  | cons arm arms ih =>
    simp only [findArm, under_evaluate, under_proto, ih]

@[simp] theorem under_conclude (p : Option Int × Game) :
    (r.under x).conclude p = r.conclude p := rfl

end

section

variable (hx : ∀ ⦃g⦄, g.AtLevel d k → ∀ text, r.execute g r.owner text = x g r.owner text)
include hx

theorem command_congr (hg : g.AtLevel d k) (f : Frame) (text : String) :
    (r.under x).command f text g = r.command f text g := by
  have ht : (g.report (.executed r.owner text)).AtLevel d k := ⟨hg.depth, hg.ceiling⟩
  simp only [command, under_fault, under_evaluate, under_moveGlobals, under_trigger, under_owner,
    under_proto, under_execute, hx ht]
  split <;> rfl

theorem perform_congr (hg : g.AtLevel d k) (f : Frame) (line : Line) :
    (r.under x).perform f line g = r.perform f line g := by
  cases hop : line.op with
  | command =>
    have hl := hg.evolves (look_evolves (r := r) (·.expand line.text))
    simp only [perform, hop, under_look, command_congr hx hl]
  | done head =>
    cases head <;> simp only [perform, hop, under_loopBack, under_proto]
  | elseIf | elseThen | endIf | whileDo =>
    unfold perform
    rw [hop]
    rfl
  | _ =>
    simp only [perform, hop, under_holds, under_evaluate, under_fault, under_clauseWithin,
      under_findArm, under_trigger, under_patience]

theorem doLine_congr (hg : g.AtLevel d k) (f : Frame) :
    (r.under x).doLine f g = r.doLine f g := by
  have hr : (g.report (.reached r.trigger r.owner f.line)).AtLevel d k := ⟨hg.depth, hg.ceiling⟩
  simp only [doLine, under_trigger, under_owner, under_proto, perform_congr hx hr]

theorem pass_congr (hg : g.AtLevel d k) (f : Frame) : (r.under x).pass f g = r.pass f g := by
  have hp : (r.under x).putOff f g = r.putOff f g := rfl
  simp only [pass, under_trigger, under_owner, under_proto, under_mode, doLine_congr hx hg, hp]

end

section

variable (he : Executes r.execute)
  (hx : ∀ ⦃g⦄, g.AtLevel (d + 1) k → ∀ text, r.execute g r.owner text = x g r.owner text)
include he hx

theorem passes_congr (hg : g.AtLevel (d + 1) k) (fuel : Nat) (f : Frame) :
    (r.under x).passes fuel f g = r.passes fuel f g := by
  induction fuel generalizing f g with
  | zero =>
    simp only [passes, under_proto, under_trigger]
    rfl
  | succ fuel ih =>
    simp only [passes, under_proto, under_trigger, pass_congr hx hg]
    split
    · rfl
    · have hp := pass_leads he f (s := []) (g := g)
      split <;> rename_i heq <;> rw [heq] at hp
      · cases hp with
        | next hp =>
          rename_i f' g'
          have hd : g'.engine.depth = 1 + d :=
            Changes.depth_eq hp (by rw [hg.depth, Nat.add_comm]; rfl)
          exact ih ⟨hd.trans (Nat.add_comm 1 d), (Changes.config_eq hp).symm ▸ hg.ceiling⟩ f'

/-- What a run does depends on what its commands do at the level at which it is begun. -/
theorem drive_congr (hg : g.AtLevel (d + 1) k) (i : Instance) :
    (r.under x).drive i g = r.drive i g := by
  cases hm : r.mode with
  | new =>
    have hb : (g.begin r.trigger).AtLevel (d + 1) k :=
      ⟨depth_begin.trans hg.depth,
        (congrArg Config.maxScriptDepth (quiet_begin r.trigger).config).trans hg.ceiling⟩
    rw [drive_new hm, drive_new (r := r.under x) hm, under_conclude, under_trigger, under_patience,
      passes_congr he hx hb]
  | resume =>
    have ht : (g.takeUp r.trigger).AtLevel (d + 1) k := ⟨hg.depth, hg.ceiling⟩
    rw [drive_resume hm, drive_resume (r := r.under x) hm, under_conclude, under_trigger,
      under_patience, passes_congr he hx ht]

end

end Run

namespace Game

variable {g : Game} {h : Handle} {i : Instance}

/-- A run that is let in, under a runner for the triggers that its commands fire. -/
def letIn (host : Host) (run : Runner) (g : Game) (h : Handle) (i : Instance) (mode : RunMode) :
    Int × Game :=
  let r : Run :=
    { host, execute := perform host run, trigger := h, owner := i.owner, proto := i.proto, mode }
  let outcome := r.drive i (g.enter h i.owner)
  (outcome.1, outcome.2.leave)

theorem runWithin_letIn (fuel : Nat) (host : Host) (mode : RunMode) (hi : g.instance? h = some i)
    (hd : g.engine.depth ≤ g.engine.config.maxScriptDepth) :
    runWithin (fuel + 1) host g h mode = g.letIn host (runWithin fuel .standard) h i mode :=
  runWithin_entered fuel host mode hi hd

/-- A run fires triggers one level deeper than it is itself. -/
theorem letIn_congr (host : Host) {run run' : Runner} (hf : Fires run)
    (hr : AgreeAt (g.engine.depth + 1) g.engine.config.maxScriptDepth run run') (mode : RunMode) :
    g.letIn host run h i mode = g.letIn host run' h i mode := by
  have hdrive := Run.drive_congr (r := ⟨host, perform host run, h, i.owner, i.proto, mode⟩)
    (x := perform host run') (executes_perform hf host)
    (fun g' hg' text => perform_agreeAt hf hr hg' host i.owner text) (g := g.enter h i.owner)
    ⟨rfl, rfl⟩ i
  unfold letIn
  simp only
  rw [← hdrive]
  rfl

/-- Of fuel for all levels up to the ceiling, more makes no difference. -/
theorem runWithin_congr {n m : Nat} (host : Host) (mode : RunMode)
    (hn : g.engine.config.maxScriptDepth + 2 ≤ g.engine.depth + n)
    (hm : g.engine.config.maxScriptDepth + 2 ≤ g.engine.depth + m) :
    runWithin n host g h mode = runWithin m host g h mode := by
  induction n generalizing m host g h mode with
  | zero =>
    cases hi : g.instance? h with
    | none => rw [runWithin_stale _ host mode hi, runWithin_stale _ host mode hi]
    | some i =>
      rw [runWithin_refusal host mode hi (.inl rfl), runWithin_refusal host mode hi (.inr (by omega))]
  | succ n ih =>
    cases hi : g.instance? h with
    | none => rw [runWithin_stale _ host mode hi, runWithin_stale _ host mode hi]
    | some i =>
      by_cases hd : g.engine.config.maxScriptDepth < g.engine.depth
      · rw [runWithin_refusal host mode hi (.inr hd), runWithin_refusal host mode hi (.inr hd)]
      · obtain ⟨m, rfl⟩ : ∃ k, m = k + 1 := ⟨m - 1, by omega⟩
        have hd := Nat.not_lt.1 hd
        rw [runWithin_letIn n host mode hi hd, runWithin_letIn m host mode hi hd]
        refine letIn_congr host (fires_runWithin n .standard) (fun g' hg' => ?_) mode
        funext h' mode'
        exact ih .standard mode' (by rw [hg'.depth, hg'.ceiling]; omega)
          (by rw [hg'.depth, hg'.ceiling]; omega)

/-- A run is refused at the ceiling and nowhere else, and the triggers that a run fires are run by the
same rule. -/
theorem run_eq (host : Host) (g : Game) (h : Handle) (mode : RunMode) :
    run host g h mode = match g.instance? h with
      | none => (1, g)
      | some i =>
        if g.engine.config.maxScriptDepth < g.engine.depth then (1, g.refuse h i mode)
        else g.letIn host (run .standard) h i mode := by
  cases hi : g.instance? h with
  | none => exact runWithin_stale _ host mode hi
  | some i =>
    simp only
    split
    · rename_i hd
      exact runWithin_refusal host mode hi (.inr hd)
    · rename_i hd
      obtain ⟨n, hn⟩ : ∃ n, g.engine.config.maxScriptDepth + 2 - g.engine.depth = n + 1 :=
        ⟨g.engine.config.maxScriptDepth + 1 - g.engine.depth, by omega⟩
      rw [run, hn, runWithin_letIn n host mode hi (Nat.not_lt.1 hd)]
      refine letIn_congr host (fires_runWithin n .standard) (fun g' hg' => ?_) mode
      funext h' mode'
      exact runWithin_congr .standard mode' (by rw [hg'.depth, hg'.ceiling]; omega) (by omega)

end Game

end MudTrigger
