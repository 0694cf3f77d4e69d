import MudTrigger.Proofs.Trace.Operation
import MudTrigger.Proofs.Wait.Reach

/-!
# The course of a game

`Operation.opening` is the moment at which a call of the host's opens: the host has intervened, or
begun a run, or a pulse has counted itself. From there the call is carried out by changes that are
`Tame` (`Operation.opening_tame`): they start no trigger that has a run. Only a pulse also takes up
runs, those whose continuations are due; its changes are `Fair` (`Operation.opening_leads`). `Course`
goes from stage to stage of a game, by fair changes and by calls of the host's; every play is a course
(`play_course`).

That the changes of a call are tame is seen by putting the host at the bottom of the stack, as if it
were a run that waits for its command: from within a run only idle triggers are started.
-/

set_option autoImplicit false

namespace MudTrigger

/-- A pulse is about to take up the run of this trigger. -/
def Moment.Takes (m : Moment) (h : Handle) : Prop :=
  m.stack = [] ∧ ∃ w q i, m.game.engine.waits.popDue? m.game.engine.pulseCount = some (w, q) ∧
    w.continuation.trigger = h ∧ m.game.instance? h = some i ∧ i.wait = some w.id

/-- A change that starts no trigger that has a run. -/
structure Tame (m m' : Moment) : Prop where
  change : Change m m'
  starts : ∀ h ∈ m'.stack.map (·.trigger), h ∉ m.stack.map (·.trigger) →
    ∃ i, m.game.instance? h = some i ∧ i.isIdle = true

/-- A change that starts no trigger that has a run; only a continuation that is due is taken up. -/
structure Fair (m m' : Moment) : Prop where
  change : Change m m'
  starts : ∀ h ∈ m'.stack.map (·.trigger), h ∉ m.stack.map (·.trigger) →
    (∃ i, m.game.instance? h = some i ∧ i.isIdle = true) ∨ m.Takes h

namespace Operation

/-- How a run opens that the host begins or makes go on. -/
def runOpening (g : Game) (h : Handle) (mode : RunMode) : Moment :=
  match g.instance? h with
  | none => ⟨[], g⟩
  | some i =>
    if g.engine.config.maxScriptDepth < g.engine.depth then ⟨[], g.refuse h i mode⟩
    else
      ⟨[⟨h, i.owner, i.proto, 0, false⟩], match mode with
        | .new => (g.enter h i.owner).begin h
        | .resume => (g.enter h i.owner).takeUp h⟩

/-- What the opening of a run may be. -/
inductive RunOpens (g : Game) (h : Handle) : RunMode → Moment → Prop
  | stale {mode : RunMode} : g.instance? h = none → RunOpens g h mode ⟨[], g⟩
  | refused {mode : RunMode} {i : Instance} : g.instance? h = some i →
    g.engine.config.maxScriptDepth < g.engine.depth → RunOpens g h mode ⟨[], g.refuse h i mode⟩
  | begun {i : Instance} : g.instance? h = some i →
    g.engine.depth ≤ g.engine.config.maxScriptDepth →
    RunOpens g h .new ⟨[⟨h, i.owner, i.proto, 0, false⟩], (g.enter h i.owner).begin h⟩
  | takenUp {i : Instance} : g.instance? h = some i →
    g.engine.depth ≤ g.engine.config.maxScriptDepth →
    RunOpens g h .resume ⟨[⟨h, i.owner, i.proto, 0, false⟩], (g.enter h i.owner).takeUp h⟩

theorem runOpening_opens (g : Game) (h : Handle) (mode : RunMode) :
    RunOpens g h mode (runOpening g h mode) := by
  unfold runOpening
  cases hi : g.instance? h with
  | none => exact .stale hi
  | some i =>
    simp only
    split
    · rename_i hd
      exact .refused hi hd
    · rename_i hd
      cases mode with
      | new => exact .begun hi (Nat.not_lt.1 hd)
      | resume => exact .takenUp hi (Nat.not_lt.1 hd)

theorem runOpening_entered {g : Game} {h : Handle} {i : Instance} (mode : RunMode)
    (hi : g.instance? h = some i) (hd : g.engine.depth ≤ g.engine.config.maxScriptDepth) :
    runOpening g h mode = ⟨[⟨h, i.owner, i.proto, 0, false⟩], match mode with
      | .new => (g.enter h i.owner).begin h
      | .resume => (g.enter h i.owner).takeUp h⟩ := by
  simp only [runOpening, hi, if_neg (Nat.not_lt.2 hd)]

/-- The moment at which a call of the host's opens. -/
def opening (g : Game) : Operation → Moment
  | extractEntity u => ⟨[], g.extractEntity u⟩
  | setGlobal u name value => ⟨[], g.setGlobal u name value⟩
  | run _ h mode => runOpening g h mode
  | pulse _ => ⟨[], g.tick⟩
  | purge u => ⟨[], g.purge u⟩
  | replaceWorld w => ⟨[], g.withWorld w⟩
  | _ => ⟨[], g⟩

end Operation

/-! ## The host at the bottom of the stack -/

section

variable {a b : Activation} {s t v : List Activation} {g g' : Game} {m : Moment}

theorem Tame.fair {m m' : Moment} (h : Tame m m') : Fair m m' :=
  ⟨h.change, fun x hx hn => .inl (h.starts x hx hn)⟩

theorem fair_of_tame {m m' : Moment} (h : Relation.ReflTransGen Tame m m') :
    Relation.ReflTransGen Fair m m' := h.lift id fun _ _ => Tame.fair

theorem changes_of_tame {m m' : Moment} (h : Relation.ReflTransGen Tame m m') : Changes m m' :=
  h.lift id fun _ _ => Tame.change

theorem tame_of_stack (h : Change ⟨s, g⟩ m) (hs : ∀ h ∈ m.stack.map (·.trigger),
    h ∈ s.map (·.trigger)) : Tame ⟨s, g⟩ m := ⟨h, fun x hx hn => absurd (hs x hx) hn⟩

/-- A run that is not held is above the one at the bottom. -/
theorem above_held (hb : b.held = true) (hs : t ++ [b] = a :: s) (ha : a.held = false) :
    ∃ t0, t = a :: t0 ∧ s = t0 ++ [b] := by
  cases t with
  | nil =>
    cases hs
    rw [hb] at ha
    cases ha
  | cons c t =>
    cases hs
    exact ⟨t, rfl, rfl⟩

theorem Change.tame (hb : b.held = true) (h : Change ⟨t ++ [b], g⟩ m) :
    ∃ t', m.stack = t' ++ [b] ∧ Tame ⟨t, g⟩ ⟨t', m.game⟩ := by
  generalize hs : t ++ [b] = s at h
  -- What happens in any run, and in the innermost one.
  have still : ∀ {g'}, Change ⟨t, g⟩ ⟨t, g'⟩ → Tame ⟨t, g⟩ ⟨t, g'⟩ := fun h =>
    tame_of_stack h fun _ hx => hx
  have leave : ∀ {a t0 g'}, Change ⟨a :: t0, g⟩ ⟨t0, g'⟩ → Tame ⟨a :: t0, g⟩ ⟨t0, g'⟩ := fun h =>
    tame_of_stack h fun _ hx => List.mem_cons_of_mem _ hx
  have inner : ∀ {a t0 n g'}, Change ⟨a :: t0, g⟩ ⟨{ a with loops := n } :: t0, g'⟩ →
      Tame ⟨a :: t0, g⟩ ⟨{ a with loops := n } :: t0, g'⟩ := fun h => tame_of_stack h fun _ hx => hx
  cases h with
  | report hn => exact ⟨t, hs.symm, still (.report hn)⟩
  | blame p faults => exact ⟨t, hs.symm, still (.blame p faults)⟩
  | addNote note => exact ⟨t, hs.symm, still (.addNote note)⟩
  | roll d => exact ⟨t, hs.symm, still (.roll d)⟩
  | tell message => exact ⟨t, hs.symm, still (.tell message)⟩
  | place u room => exact ⟨t, hs.symm, still (.place u room)⟩
  | purge hp => exact ⟨t, hs.symm, still (.purge hp)⟩
  | attach ha => exact ⟨t, hs.symm, still (.attach ha)⟩
  | detach hc hm => exact ⟨t, hs.symm, still (.detach hc hm)⟩
  | detachAll target => exact ⟨t, hs.symm, still (.detachAll target)⟩
  | reach line live able free =>
    obtain ⟨t0, rfl, rfl⟩ := above_held hb hs free
    exact ⟨_, rfl, still (.reach line live able free)⟩
  | evaluate expression value live free =>
    obtain ⟨t0, rfl, rfl⟩ := above_held hb hs free
    exact ⟨_, rfl, still (.evaluate expression value live free)⟩
  | command text live free =>
    obtain ⟨t0, rfl, rfl⟩ := above_held hb hs free
    exact ⟨_, rfl, still (.command text live free)⟩
  | setLocal name value free =>
    obtain ⟨t0, rfl, rfl⟩ := above_held hb hs free
    exact ⟨_, rfl, still (.setLocal name value free)⟩
  | makeGlobal v free =>
    obtain ⟨t0, rfl, rfl⟩ := above_held hb hs free
    exact ⟨_, rfl, still (.makeGlobal v free)⟩
  | unset name free =>
    obtain ⟨t0, rfl, rfl⟩ := above_held hb hs free
    exact ⟨_, rfl, still (.unset name free)⟩
  | deepen free =>
    obtain ⟨t0, rfl, rfl⟩ := above_held hb hs free
    exact ⟨_, rfl, still (.deepen free)⟩
  | rise nested free =>
    obtain ⟨t0, rfl, rfl⟩ := above_held hb hs free
    exact ⟨_, rfl, still (.rise nested free)⟩
  | @loopOver a _ _ free =>
    obtain ⟨t0, rfl, rfl⟩ := above_held hb hs free
    exact ⟨{ a with loops := 0 } :: t0, rfl, inner (.loopOver free)⟩
  | @loopAgain a _ _ _ live soon few free =>
    obtain ⟨t0, rfl, rfl⟩ := above_held hb hs free
    exact ⟨{ a with loops := a.loops + 1 } :: t0, rfl, inner (.loopAgain live soon few free)⟩
  | loopYield line live late free =>
    obtain ⟨t0, rfl, rfl⟩ := above_held hb hs free
    exact ⟨t0, rfl, leave (.loopYield line live late free)⟩
  | loopHalt live soon many free =>
    obtain ⟨t0, rfl, rfl⟩ := above_held hb hs free
    exact ⟨t0, rfl, leave (.loopHalt live soon many free)⟩
  | suspend line delay kind live free =>
    obtain ⟨t0, rfl, rfl⟩ := above_held hb hs free
    exact ⟨t0, rfl, leave (.suspend line delay kind live free)⟩
  | finish free =>
    obtain ⟨t0, rfl, rfl⟩ := above_held hb hs free
    exact ⟨t0, rfl, leave (.finish free)⟩
  | vanish gone free =>
    obtain ⟨t0, rfl, rfl⟩ := above_held hb hs free
    exact ⟨t0, rfl, leave (.vanish gone free)⟩
  | @start _ _ h i bindings hi hidle hd =>
    have hidle : i.isIdle = true := hidle.resolve_right fun he =>
      List.append_ne_nil_of_right_ne_nil t (List.cons_ne_nil b []) (hs.trans he)
    refine ⟨⟨h, i.owner, i.proto, 0, false⟩ :: t, by rw [← hs]; rfl,
      .start bindings hi (.inl hidle) hd, fun x hx hn => ?_⟩
    rcases List.mem_cons.1 hx with rfl | hx
    · exact ⟨i, hi, hidle⟩
    · exact absurd hx hn
  | refuse bindings hi hidle =>
    have hidle := hidle.resolve_right fun he =>
      List.append_ne_nil_of_right_ne_nil t (List.cons_ne_nil b []) (hs.trans he.1)
    exact ⟨t, hs.symm, still (.refuse bindings hi (.inl hidle))⟩
  | noteHour | skip | resume | refuseResume =>
    exact absurd hs (List.append_ne_nil_of_right_ne_nil t (List.cons_ne_nil b []))

/-- What happens above a held run is tame. -/
theorem Changes.tame (hb : b.held = true) (h : Changes ⟨t ++ [b], g⟩ m) :
    ∃ t', m.stack = t' ++ [b] ∧ Relation.ReflTransGen Tame ⟨t, g⟩ ⟨t', m.game⟩ := by
  induction h with
  | refl => exact ⟨t, rfl, .refl⟩
  | @tail m1 m2 _ h ih =>
    obtain ⟨t1, hs, h1⟩ := ih
    obtain ⟨s1, g1⟩ := m1
    cases hs
    obtain ⟨t2, hs2, h2⟩ := h.tame hb
    exact ⟨t2, hs2, h1.tail h2⟩

/-- The host, as if it were a run that waits for its command. -/
def Activation.host : Activation := ⟨⟨0, 0⟩, Uid.room 0, default, 0, true⟩

theorem Changes.tame_of_host (h : Changes ⟨t ++ [.host], g⟩ ⟨v ++ [.host], g'⟩) :
    Relation.ReflTransGen Tame ⟨t, g⟩ ⟨v, g'⟩ := by
  obtain ⟨t1, hs, h1⟩ := Changes.tame rfl h
  rwa [List.append_cancel_right hs]

end

/-! ## The calls of the host -/

namespace Operation

variable {g : Game} {h : Handle} {i : Instance}

/-- A run that the host begins is under way until it is over or suspended. -/
theorem runOpening_leads (host : Host) (h : Handle) (mode : RunMode) :
    Relation.ReflTransGen Tame (runOpening g h mode) ⟨[], (Game.run host g h mode).2⟩ := by
  unfold runOpening
  cases hi : g.instance? h with
  | none =>
    rw [Game.run, Game.runWithin_stale _ host mode hi]
  | some i =>
    by_cases hd : g.engine.config.maxScriptDepth < g.engine.depth
    · simp only [if_pos hd]
      rw [Game.run, Game.runWithin_refused host mode hi (.inr hd)]
    · simp only [if_neg hd]
      obtain ⟨n, hn⟩ : ∃ n, g.engine.config.maxScriptDepth + 2 - g.engine.depth = n + 1 :=
        ⟨g.engine.config.maxScriptDepth + 1 - g.engine.depth, by omega⟩
      have hx := Game.executes_perform (Game.fires_runWithin n .standard) host
      rw [Game.run, hn, Game.runWithin_succ n host mode hi (Nat.not_lt.1 hd)]
      cases mode with
      | new =>
        rw [Run.drive_new rfl]
        exact Changes.tame_of_host (t := [_]) (v := []) (Run.passes_changes
          (r := ⟨host, Game.perform host (Game.runWithin n .standard), h, i.owner, i.proto, .new⟩) hx
          _ { line := 0 })
      | resume =>
        rw [Run.drive_resume rfl]
        exact Changes.tame_of_host (t := [_]) (v := []) (Run.passes_changes
          (r := ⟨host, Game.perform host (Game.runWithin n .standard), h, i.owner, i.proto, .resume⟩)
          hx _ { line := i.resumeAt.getD 0 })

end Operation

namespace Game

variable {g : Game}

/-- A pulse takes up runs one after another. -/
theorem resumeDue_fair (host : Host) (fuel : Nat) :
    Relation.ReflTransGen Fair ⟨[], g⟩ ⟨[], resumeDue (run host) fuel g⟩ := by
  induction fuel generalizing g with
  | zero => exact .refl
  | succ fuel ih =>
    unfold resumeDue
    cases hq : g.engine.waits.popDue? g.engine.pulseCount with
    | none => exact .refl
    | some popped =>
      obtain ⟨w, q⟩ := popped
      simp only
      by_cases hw : ((g.withWaits q).instance? w.continuation.trigger).any (·.wait = some w.id) = true
      · rw [if_pos hw]
        obtain ⟨i, hi, hwait⟩ := (Option.any_eq_true _ _).1 hw
        have hi : g.instance? w.continuation.trigger = some i := hi
        have hwait := of_decide_eq_true hwait
        refine .trans ?_ ih
        have hrun := fair_of_tame <| Operation.runOpening_leads (g := (g.withWaits q).report
          (.resuming w.continuation.owner w.continuation.resumeAt)) host w.continuation.trigger .resume
        refine .head ?_ hrun
        unfold Operation.runOpening
        simp only [instance?_report, instance?_withWaits, hi]
        by_cases hd : g.engine.config.maxScriptDepth < g.engine.depth
        · rw [if_pos (by exact hd)]
          exact (tame_of_stack (.refuseResume hq hi hd) fun _ hx => hx).fair
        · rw [if_neg (by exact hd)]
          refine ⟨.resume hq hi hwait (Nat.not_lt.1 hd), fun x hx _ => .inr ⟨rfl, ?_⟩⟩
          obtain rfl := List.mem_singleton.1 hx
          exact ⟨w, q, i, hq, rfl, hi, hwait⟩
      · rw [if_neg hw]
        exact .head (tame_of_stack (.skip hq (Bool.eq_false_iff.2 hw)) fun _ hx => hx).fair ih

theorem scanRandom_tame (host : Host) :
    Relation.ReflTransGen Tame ⟨[], g⟩
      ⟨[], if g.isScanPulse then scanRandom host (run host) g else g⟩ := by
  split
  · exact Changes.tame_of_host (t := []) (v := [])
      ((scanRandom_stirs host).evolves (fires_run host))
  · exact .refl

theorem checkHour_tame (host : Host) :
    Relation.ReflTransGen Tame ⟨[], g⟩ ⟨[], checkHour (run host) g⟩ := by
  unfold checkHour
  simp only
  split
  · exact .head (tame_of_stack (.noteHour _) fun _ hx => hx)
      (Changes.tame_of_host (t := []) (v := [])
        (scanTime_stirs.evolves (fires_run host)))
  · exact .single (tame_of_stack (.noteHour _) fun _ hx => hx)

/-- What a pulse does once the runs that are due have been taken up. -/
theorem pulse_tail_tame (host : Host) :
    Relation.ReflTransGen Tame ⟨[], resumeDue (run host) g.engine.waits.size g.tick⟩
      ⟨[], g.pulse host⟩ :=
  (scanRandom_tame host).trans (checkHour_tame host)

theorem pulse_fair (host : Host) : Relation.ReflTransGen Fair ⟨[], g.tick⟩ ⟨[], g.pulse host⟩ :=
  (resumeDue_fair host _).trans (fair_of_tame (pulse_tail_tame host))

end Game

/-- Any other call of the host's than a pulse is carried out by tame changes from the moment at which
it opens. -/
theorem Operation.opening_tame (g : Game) {op : Operation} (hop : ∀ host, op ≠ pulse host) :
    Relation.ReflTransGen Tame (op.opening g) ⟨[], op.apply g⟩ := by
  cases op with
  | attach vnum target position =>
    rw [Operation.apply]
    split
    · rename_i he
      exact .single (tame_of_stack (.attach he) fun _ hx => hx)
    · exact .refl
  | detach target spec =>
    exact Changes.tame_of_host (t := []) (v := []) (Game.detach_evolves target spec)
  | detachAll target => exact .single (tame_of_stack (.detachAll target) fun _ hx => hx)
  | dispatch host e =>
    exact Changes.tame_of_host (t := []) (v := []) (e.dispatch_evolves (Game.fires_run host) host)
  | interpret host actor line =>
    exact Changes.tame_of_host (t := []) (v := [])
      (Game.interpret_evolves (Game.fires_run host) actor line)
  | execute host actor line =>
    exact Changes.tame_of_host (t := []) (v := [])
      (Game.execute_evolves (Game.fires_run host) actor line)
  | walk host actor d =>
    exact Changes.tame_of_host (t := []) (v := []) (Game.walk_evolves (Game.fires_run host) actor d)
  | run host h mode => exact runOpening_leads host h mode
  | pulse host => exact absurd rfl (hop host)
  | extractEntity | setGlobal | purge | replaceWorld => exact .refl

/-- A call of the host's is carried out by fair changes from the moment at which it opens. -/
theorem Operation.opening_leads (g : Game) (op : Operation) :
    Relation.ReflTransGen Fair (op.opening g) ⟨[], op.apply g⟩ := by
  by_cases hop : ∃ host, op = pulse host
  · obtain ⟨host, rfl⟩ := hop
    exact Game.pulse_fair host
  · exact fair_of_tame (opening_tame g (not_exists.1 hop))

/-! ## Courses -/

/-- A moment, and how many triggers had been attached when the host made its last call. -/
structure Stage where
  moment : Moment
  issued : Nat

namespace Stage

abbrev game (p : Stage) : Game := p.moment.game

/-- A game before the first call. -/
def start (g : Game) : Stage := ⟨⟨[], g⟩, g.attachments⟩

/-- How a game goes on: by a fair change, or by a call that the host may make. A call does not attach
so many triggers that a handle may be issued again while it is under way. -/
inductive Next (may : Game → Operation → Prop) : Stage → Stage → Prop
  | change {m m' n} : Fair m m' → m'.game.attachments < n + 0x1_0000_0000 → Next may ⟨m, n⟩ ⟨m', n⟩
  | call {g n} (op : Operation) : may g op →
    Next may ⟨⟨[], g⟩, n⟩ ⟨op.opening g, g.attachments⟩

end Stage

/-- The course of a game from one stage to another. -/
abbrev Course (may : Game → Operation → Prop) : Stage → Stage → Prop :=
  Relation.ReflTransGen (Stage.Next may)

section

variable {may : Game → Operation → Prop} {g : Game} {n : Nat} {m m' : Moment}

theorem course_of_fair (h : Relation.ReflTransGen Fair m m')
    (hn : m'.game.attachments < n + 0x1_0000_0000) : Course may ⟨m, n⟩ ⟨m', n⟩ := by
  induction h with
  | refl => exact .refl
  | tail _ h ih => exact (ih (Nat.lt_of_le_of_lt h.change.attachments_le hn)).tail (.change h hn)

/-- The calls of a play are ones that the host may make. -/
def Game.Allows (may : Game → Operation → Prop) (g : Game) : List Operation → Prop
  | [] => True
  | op :: ops => may g op ∧ (op.apply g).Allows may ops

theorem quiet_opening (g : Game) (op : Operation) : Game.Quiet g (op.opening g).game := by
  cases op with
  | extractEntity u => exact Game.quiet_extractEntity u
  | purge u => exact Game.quiet_purge u
  | run host h mode =>
    show Game.Quiet g (Operation.runOpening g h mode).game
    have hopens := Operation.runOpening_opens g h mode
    generalize Operation.runOpening g h mode = m at hopens
    cases hopens with
    | stale => exact .refl
    | @refused _ i => exact Game.quiet_refuse h i mode
    | @begun i => exact (Game.quiet_enter h i.owner).trans (Game.quiet_begin h)
    | @takenUp i => exact (Game.quiet_enter h i.owner).trans (Game.quiet_takeUp h)
  | _ => exact Game.quiet_of_eq rfl rfl rfl

theorem attachments_opening (g : Game) (op : Operation) :
    (op.opening g).game.attachments = g.attachments := (quiet_opening g op).attachments

/-- The host begins a run. -/
theorem Stage.Next.begin {h : Handle} {i : Instance} (host : Host)
    (hmay : may g (.run host h .new)) (hi : g.instance? h = some i)
    (hd : g.engine.depth ≤ g.engine.config.maxScriptDepth) :
    Stage.Next may ⟨⟨[], g⟩, n⟩
      ⟨⟨[⟨h, i.owner, i.proto, 0, false⟩], (g.enter h i.owner).begin h⟩, g.attachments⟩ := by
  have hcall := Stage.Next.call (n := n) (.run host h .new) hmay
  rwa [Operation.opening, Operation.runOpening_entered .new hi hd] at hcall

/-- Every play is a course. -/
theorem play_course {ops : List Operation} (hmay : g.Allows may ops) (hn : g.Paced ops) (n : Nat) :
    ∃ k, Course may ⟨⟨[], g⟩, n⟩ ⟨⟨[], g.play ops⟩, k⟩ := by
  induction ops generalizing g n with
  | nil => exact ⟨n, .refl⟩
  | cons op ops ih =>
    obtain ⟨k, hk⟩ := ih hmay.2 hn.2 g.attachments
    exact ⟨k, .head (.call op hmay.1) ((course_of_fair (op.opening_leads g) hn.1).trans hk)⟩

end

end MudTrigger
