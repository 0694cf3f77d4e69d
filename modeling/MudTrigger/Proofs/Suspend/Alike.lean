import MudTrigger.Proofs.Suspend.Keeps

/-!
# Games that are alike to a script

`Alike h g g'`: the games differ, as far as the run of trigger `h` goes, only in when it is suspended
and in the limit after which its loops yield. A run cannot see that difference: whatever it does to
both games, they stay alike, and what it reads in them is the same (`Alike.look`, `Alike.evaluate`).
What a suspension does to a game by itself is not seen either (`alike_suspend`, `alike_takeUp`).
-/

set_option autoImplicit false

namespace MudTrigger

open Game

/-- The notice tells when a run begins, is suspended or is taken up. -/
def Notice.isTiming : Notice → Bool
  | started .. => true
  | resuming .. => true
  | suspended .. => true
  | _ => false

/-- Where a run stands, but for when and where it goes on. -/
def Instance.standing (i : Instance) : Uid × Nat × Nat × Variables :=
  (i.owner, i.depth, i.loops, i.locals)

/-- The configuration without the limit after which loops yield. -/
def Config.unhurried (c : Config) : Config := { c with loopDeferAfter := 0 }

theorem Delay.pulses_unhurried (c : Config) (pulse hour : Nat) (arg : String) :
    pulses c.unhurried pulse hour arg = pulses c pulse hour arg := rfl

/-- Which waits are valid does not depend on when loops yield. -/
theorem Text.Recut.unhurried {c c' : Config} (hc : c'.unhurried = c.unhurried) {line line' : String}
    (h : Recut c line line') : Recut c' line line' := by
  refine h.imp_right fun ⟨hw, hcomment⟩ => ⟨⟨hw.command, hw.fixed, ?_⟩, hcomment⟩
  obtain ⟨pulse, hour, delay, hd⟩ := hw.valid
  refine ⟨pulse, hour, delay, ?_⟩
  rw [← Delay.pulses_unhurried, hc, Delay.pulses_unhurried]
  exact hd

namespace Game

/-- What was reported, but for when runs began, were suspended and were taken up. -/
def story (g : Game) : List Notice := g.log.filter (!·.isTiming)

/-- The games are the same to a run of this trigger (module doc). -/
structure Alike (h : Handle) (g g' : Game) : Prop where
  world : g'.world = g.world
  notes : g'.notes = g.notes
  dice : g'.engine.dice = g.engine.dice
  containers : g'.engine.containers = g.engine.containers
  config : g'.engine.config.unhurried = g.engine.config.unhurried
  story : g'.story = g.story
  standing : (g'.instance? h).map Instance.standing = (g.instance? h).map Instance.standing

variable {h : Handle} {g g' g1 : Game}

theorem story_report (n : Notice) :
    (g.report n).story = g.story ++ if n.isTiming then [] else [n] := by
  rw [story, report, List.filter_append, ← story, List.filter_singleton]
  cases n.isTiming <;> rfl

namespace Alike

theorem refl : Alike h g g := ⟨rfl, rfl, rfl, rfl, rfl, rfl, rfl⟩

theorem symm (ha : Alike h g g') : Alike h g' g :=
  ⟨ha.world.symm, ha.notes.symm, ha.dice.symm, ha.containers.symm, ha.config.symm, ha.story.symm,
    ha.standing.symm⟩

theorem trans (ha : Alike h g g') (hb : Alike h g' g1) : Alike h g g1 :=
  ⟨hb.world.trans ha.world, hb.notes.trans ha.notes, hb.dice.trans ha.dice,
    hb.containers.trans ha.containers, hb.config.trans ha.config, hb.story.trans ha.story,
    hb.standing.trans ha.standing⟩

theorem abortAfter (ha : Alike h g g') :
    g'.engine.config.loopAbortAfter = g.engine.config.loopAbortAfter := by
  have hc := congrArg Config.loopAbortAfter ha.config
  exact hc

theorem pulses (ha : Alike h g g') (pulse hour : Nat) (arg : String) :
    Delay.pulses g'.engine.config pulse hour arg = Delay.pulses g.engine.config pulse hour arg := by
  rw [← Delay.pulses_unhurried, ha.config, Delay.pulses_unhurried]

theorem container? (ha : Alike h g g') (u : Uid) : g'.container? u = g.container? u := by
  rw [Game.container?, ha.containers, ← Game.container?]

/-- Both games have the trigger, and its runs stand at the same. -/
theorem exists_standing (ha : Alike h g g') {i : Instance} (hi : g.instance? h = some i) :
    ∃ j, g'.instance? h = some j ∧ j.standing = i.standing := by
  have hs := ha.standing
  rw [hi, Option.map_some, Option.map_eq_some_iff] at hs
  exact hs

theorem depthOf (ha : Alike h g g') : g'.depthOf h = g.depthOf h := by
  have hs := congrArg (Option.map (·.2.1)) ha.standing
  rw [Option.map_map, Option.map_map] at hs
  exact congrArg (·.getD 0) hs

theorem hasTrigger (ha : Alike h g g') : g'.hasTrigger h = g.hasTrigger h := by
  have hs := congrArg Option.isSome ha.standing
  rwa [Option.isSome_map, Option.isSome_map] at hs

/-! ## What is done to both games -/

theorem report (ha : Alike h g g') (n : Notice) : Alike h (g.report n) (g'.report n) :=
  { ha with story := by rw [story_report, story_report, ha.story] }

theorem blame (ha : Alike h g g') (p : Prototype) (faults : List Fault) :
    Alike h (g.blame p faults) (g'.blame p faults) := by
  have hs : (g'.blame p faults).story = (g.blame p faults).story := by
    rw [Game.story, Game.blame, List.filter_append, ← Game.story, ha.story, Game.story,
      ← List.filter_append]
    rfl
  exact { ha with story := hs }

theorem addNote (ha : Alike h g g') (note : String) : Alike h (g.addNote note) (g'.addNote note) :=
  { ha with notes := by rw [Game.addNote, Game.addNote, ha.notes] }

theorem withWorld (ha : Alike h g g') (w : World) : Alike h (g.withWorld w) (g'.withWorld w) :=
  { ha with world := rfl }

theorem withDice (ha : Alike h g g') (d : Dice) : Alike h (g.withDice d) (g'.withDice d) :=
  { ha with dice := rfl }

theorem modifyContainer (ha : Alike h g g') (u : Uid) (f : Container → Container) :
    Alike h (g.modifyContainer u f) (g'.modifyContainer u f) :=
  { ha with containers := congrArg (·.modify u f) ha.containers }

/-- A change of where the run stands, by where it stands only. -/
theorem modifyInstance (ha : Alike h g g') {f : Instance → Instance}
    (hf : ∀ i j : Instance, j.standing = i.standing → (f j).standing = (f i).standing) :
    Alike h (g.modifyInstance h f) (g'.modifyInstance h f) := by
  refine { ha with standing := ?_ }
  rw [instance?_modifyInstance_self, instance?_modifyInstance_self]
  cases hi : g.instance? h with
  | none =>
    have hs := ha.standing
    rw [hi, Option.map_none, Option.map_eq_none_iff] at hs
    rw [hs]
  | some i =>
    obtain ⟨j, hj, hij⟩ := ha.exists_standing hi
    rw [hj]
    exact congrArg some (hf i j hij)

theorem setLocal (ha : Alike h g g') (name value : String) :
    Alike h (g.setLocal h name value) (g'.setLocal h name value) := by
  refine ha.modifyInstance fun i j hij => ?_
  simp only [Instance.standing, Prod.mk.injEq] at hij ⊢
  exact ⟨hij.1, hij.2.1, hij.2.2.1, by rw [hij.2.2.2]⟩

theorem eraseLocal (ha : Alike h g g') (name : String) :
    Alike h (g.modifyInstance h fun i => { i with locals := i.locals.erase name })
      (g'.modifyInstance h fun i => { i with locals := i.locals.erase name }) := by
  refine ha.modifyInstance fun i j hij => ?_
  simp only [Instance.standing, Prod.mk.injEq] at hij ⊢
  exact ⟨hij.1, hij.2.1, hij.2.2.1, by rw [hij.2.2.2]⟩

theorem makeGlobal (ha : Alike h g g') (u : Uid) (v : Variable) :
    Alike h (g.makeGlobal h u v) (g'.makeGlobal h u v) :=
  (ha.eraseLocal v.name).modifyContainer u _

theorem unset (ha : Alike h g g') (u : Uid) (name : String) :
    Alike h (g.unset h u name) (g'.unset h u name) := by
  unfold Game.unset
  rw [ha.container? u]
  split
  · exact ha.modifyContainer u _
  · exact ha.eraseLocal name

theorem deepen (ha : Alike h g g') : Alike h (g.deepen h) (g'.deepen h) := by
  refine ha.modifyInstance fun i j hij => ?_
  simp only [Instance.standing, Prod.mk.injEq] at hij ⊢
  exact ⟨hij.1, by rw [hij.2.1], hij.2.2⟩

theorem rise (ha : Alike h g g') : Alike h (g.rise h) (g'.rise h) := by
  refine ha.modifyInstance fun i j hij => ?_
  simp only [Instance.standing, Prod.mk.injEq] at hij ⊢
  exact ⟨hij.1, by rw [hij.2.1], hij.2.2⟩

theorem countLoop (ha : Alike h g g') : Alike h (g.countLoop h) (g'.countLoop h) := by
  refine ha.modifyInstance fun i j hij => ?_
  simp only [Instance.standing, Prod.mk.injEq] at hij ⊢
  exact ⟨hij.1, hij.2.1, by rw [hij.2.2.1], hij.2.2.2⟩

theorem finish (ha : Alike h g g') : Alike h (g.finish h) (g'.finish h) := by
  refine ha.modifyInstance fun i j hij => ?_
  simp only [Instance.standing, Prod.mk.injEq] at hij
  simp only [Instance.standing, Instance.reset, hij.1]

theorem echo (ha : Alike h g g') {host : Host}
    (hhost : ∀ e e' u line, host.answer e u line = host.answer e' u line) (actor : Uid)
    (line : String) : Alike h (g.echo host actor line) (g'.echo host actor line) := by
  unfold Game.echo
  rw [hhost g'.engine g.engine]
  split
  · exact ha.addNote _
  · rw [ha.world]
    exact ha.withWorld _

end Alike

/-! ## What a run does not see -/

/-- Queues, clocks and counters of runs may be any. -/
theorem alike_of_eq (hw : g'.world = g.world) (hn : g'.notes = g.notes) (hl : g'.log = g.log)
    (hd : g'.engine.dice = g.engine.dice) (hc : g'.engine.containers = g.engine.containers)
    (hcfg : g'.engine.config = g.engine.config) (ht : g'.engine.triggers = g.engine.triggers) :
    Alike h g g' :=
  ⟨hw, hn, hd, hc, by rw [hcfg], by rw [story, hl, story], by rw [instance?, ht, instance?]⟩

theorem alike_report {n : Notice} (hn : n.isTiming = true) : Alike h g (g.report n) :=
  { Alike.refl with story := by rw [story_report, hn, if_pos rfl, List.append_nil] }

theorem alike_withWaits (q : WaitQueue) : Alike h g (g.withWaits q) :=
  alike_of_eq rfl rfl rfl rfl rfl rfl rfl

theorem alike_enter (h' : Handle) (u : Uid) : Alike h g (g.enter h' u) := by
  have hd : Alike h g (g.withDepth (g.engine.depth + 1)) := alike_of_eq rfl rfl rfl rfl rfl rfl rfl
  exact hd.trans (alike_report rfl)

theorem alike_modifyInstance {f : Instance → Instance}
    (hf : ∀ i, g.instance? h = some i → (f i).standing = i.standing) :
    Alike h g (g.modifyInstance h f) := by
  have ha : Alike h g g := .refl
  refine { ha with standing := ?_ }
  rw [instance?_modifyInstance_self]
  cases hi : g.instance? h with
  | none => rfl
  | some i => exact congrArg some (hf i hi)

/-- Taking a run up does not change where it stands. -/
theorem alike_takeUp (hd : 0 < g.depthOf h) : Alike h g (g.takeUp h) := by
  refine alike_modifyInstance fun i hi => ?_
  rw [depthOf, hi] at hd
  have hmax : max i.depth 1 = i.depth := Nat.max_eq_left hd
  simp only [Instance.standing, hmax]

theorem alike_suspend (h : Handle) (u : Uid) (line delay : Nat) (kind : WaitKind) :
    Alike h g (g.suspend h u line delay kind) := by
  unfold suspend
  simp only
  generalize g.engine.waits.schedule g.engine.pulseCount delay ⟨h, u, line, kind⟩ = entry
  have hq : Alike h g (g.withWaits entry.2) := alike_withWaits _
  split
  · exact hq
  · have hi : Alike h (g.withWaits entry.2) ((g.withWaits entry.2).modifyInstance h fun i =>
        { i with resumeAt := some line, wait := some entry.1 }) := alike_modifyInstance fun _ _ => rfl
    exact (hq.trans hi).trans (alike_report rfl)

/-- A run begins in the same way whether or not one was pending. -/
theorem exists_begin (g : Game) (h : Handle) :
    ∃ q, g.begin h = (g.withWaits q).modifyInstance h fun i =>
      { i with depth := 1, loops := 0, resumeAt := none, wait := none } := by
  unfold Game.begin
  simp only
  split
  · exact ⟨_, rfl⟩
  · exact ⟨g.engine.waits, rfl⟩

/-- Where a run stands when it begins depends on nothing but its owner and its variables. -/
theorem Alike.begin (ha : Alike h g g') : Alike h (g.begin h) (g'.begin h) := by
  have hf : ∀ i j : Instance, j.standing = i.standing →
      Instance.standing { j with depth := 1, loops := 0, resumeAt := none, wait := none } =
        Instance.standing { i with depth := 1, loops := 0, resumeAt := none, wait := none } := by
    intro i j hij
    simp only [Instance.standing, Prod.mk.injEq] at hij ⊢
    exact ⟨hij.1, trivial, trivial, hij.2.2.2⟩
  obtain ⟨q, hq⟩ := exists_begin g h
  obtain ⟨q', hq'⟩ := exists_begin g' h
  rw [hq, hq']
  exact (((alike_withWaits q).symm.trans ha).trans (alike_withWaits q')).modifyInstance hf

end Game

/-! ## What a run reads -/

namespace Run

variable {r : Run} {g g' : Game}

theorem scene_alike (ha : Alike r.trigger g g') : r.scene? g' = r.scene? g := by
  have hs := congrArg (Option.map fun x : Uid × Nat × Nat × Variables =>
    ({ host := r.host, world := g.world, owner := x.1, locals := x.2.2.2,
       globals := ((g.container? x.1).map (·.globals)).getD ∅ } : Scene)) ha.standing
  rw [Option.map_map, Option.map_map] at hs
  unfold scene?
  simp only [ha.world, ha.container?]
  exact hs

end Run

namespace Game.Alike

variable {r : Run} {g g' : Game}

theorem look (ha : Alike r.trigger g g') (read : Scene → Expand String) :
    (r.look g' read).1 = (r.look g read).1 ∧
      Alike r.trigger (r.look g read).2 (r.look g' read).2 := by
  unfold Run.look
  rw [Run.scene_alike ha, ha.dice]
  split
  · exact ⟨rfl, ha⟩
  · exact ⟨rfl, (ha.withDice _).blame _ _⟩

theorem evaluate (ha : Alike r.trigger g g') (e : String) :
    (r.evaluate g' e).1 = (r.evaluate g e).1 ∧
      Alike r.trigger (r.evaluate g e).2 (r.evaluate g' e).2 := by
  obtain ⟨hv, hg⟩ := ha.look (r := r) (·.evaluate e)
  refine ⟨hv, ?_⟩
  unfold Run.evaluate
  simp only [hv]
  exact hg.report _

theorem holds (ha : Alike r.trigger g g') (e : String) :
    (r.holds g' e).1 = (r.holds g e).1 ∧
      Alike r.trigger (r.holds g e).2 (r.holds g' e).2 := by
  obtain ⟨hv, hg⟩ := ha.evaluate (r := r) e
  exact ⟨congrArg Text.isTruthy hv, hg⟩

theorem fault (ha : Alike r.trigger g g') (f : Fault) :
    Alike r.trigger (r.fault g f) (r.fault g' f) := ha.blame _ _

theorem find? (ha : Alike r.trigger g g') (name : String) :
    (g'.instance? r.trigger).bind (·.locals.find? name) =
      (g.instance? r.trigger).bind (·.locals.find? name) := by
  have hs := congrArg (Option.bind · fun x => x.2.2.2.find? name) ha.standing
  rw [Option.bind_map, Option.bind_map] at hs
  exact hs

theorem moveGlobals (ha : Alike r.trigger g g') (names : List String) :
    Alike r.trigger (r.moveGlobals g names) (r.moveGlobals g' names) := by
  unfold Run.moveGlobals
  induction names generalizing g g' with
  | nil => exact ha
  | cons name names ih =>
    rw [List.foldl_cons, List.foldl_cons, ha.find? name]
    split
    · exact ih (ha.makeGlobal _ _)
    · exact ih (ha.fault _)

end Game.Alike

end MudTrigger
