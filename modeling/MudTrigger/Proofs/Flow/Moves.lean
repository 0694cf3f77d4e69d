import MudTrigger.Proofs.Blocks.Links
import MudTrigger.Proofs.Flow.Steady

/-!
# How control flow moves a run

Of all that a game holds, control flow looks at little beside the line: at how deep the ifs of the run
are nested, how often the run has repeated loop bodies, and how often it may. This is its `Tally`.
`Script.Moves` says from which line and tally to which the lines of a script lead, whatever the
conditions come to.

All that a pass can come to is told by `Run.Yields` (`Run.pass_yields`). Where the run goes on, the pass
is such a move (`Run.pass_moves`), provided that a command leaves the tally of the run that gives it
(`Run.Undisturbed`). The engine's own commands do, and so does a world that acts through the engine
(`Run.pass_undisturbed`).
-/

set_option autoImplicit false

namespace MudTrigger

open Game

/-- What control flow looks at beside the line (module doc). -/
structure Tally where
  depth : Nat
  loops : Nat
  limit : Nat

namespace Op

/-- Begins a further clause of an `if`. -/
def isBranch : Op → Bool
  | elseIf .. => true
  | elseThen _ => true
  | _ => false

/-- An `elseif`, `else` or `end`, at which a clause of an `if` is over. -/
def isOver : Op → Bool
  | endIf => true
  | o => o.isBranch

/-- The nesting of ifs matters to the line. -/
def nests : Op → Bool
  | ifThen .. => true
  | o => o.isOver

/-- The `end` to which an `elseif` or `else` leads when the clause before it is over. -/
def exit? : Op → Option Nat
  | elseIf _ _ close => close
  | elseThen close => close
  | _ => none

/-- The lines behind which a loop, a switch or a break may go on. -/
def jumps : Op → List Nat
  | whileDo _ out => out.toList
  | switchOn _ arms out => arms ++ out.toList
  | breakOut out => out.toList
  | _ => []

end Op

namespace Script

/-- From a clause on, a failed `if` may be led to a line, and enters so many clauses there: one, or
none if it is the `end`. -/
inductive Finds (s : Script) : Option Nat → Nat → Nat → Prop
  | skip {j c next close l k} : s.op? j = some (.elseIf c next close) → Finds s next l k →
    Finds s (some j) l k
  | branch {j op} : s.op? j = some op → op.isBranch = true → Finds s (some j) j 1
  | close {j op} : s.op? j = some op → op.isBranch = false → Finds s (some j) j 0

/-- Line `i` may lead a run with this tally to a line and a tally. -/
inductive Moves (s : Script) (i : Nat) (t : Tally) : Nat → Tally → Prop
  | onward {op} : s.op? i = some op → op.nests = false → Moves s i t (i + 1) t
  | enter {c next} : s.op? i = some (.ifThen c next) →
    Moves s i t (i + 1) { t with depth := t.depth + 1 }
  | skip {c next l k} : s.op? i = some (.ifThen c next) → s.Finds next l k →
    Moves s i t (l + 1) { t with depth := t.depth + k }
  | leave {op close} : s.op? i = some op → op.exit? = some close → 1 < t.depth →
    Moves s i t (close + 1) { t with depth := t.depth - 1 }
  | close : s.op? i = some .endIf → 1 < t.depth → Moves s i t (i + 1) { t with depth := t.depth - 1 }
  | stray {op} : s.op? i = some op → op.isOver = true → t.depth ≤ 1 → Moves s i t (i + 1) t
  | jump {op j} : s.op? i = some op → j ∈ op.jumps → Moves s i t (j + 1) t
  | back {head} : s.op? i = some (.done (some head)) → t.loops + 1 < t.limit →
    Moves s i t (head + 1) { t with loops := t.loops + 1 }

/-- The lines of a script lead ahead, and not out of it. -/
def Forward (s : Script) : Prop :=
  ∀ i line, s.line? i = some line → ∀ j ∈ line.op.ahead, i < j ∧ j < s.length

theorem ofLines_forward (texts : List String) : (ofLines texts).Forward := by
  intro i line h j hj
  have hahead := (ofLines_linked h).ahead hj
  rwa [List.length_map, ← length_ofLines] at hahead

theorem compile_forward (body : String) : (compile body).Forward := ofLines_forward _

section

variable {s : Script} {i j l k : Nat} {t u : Tally} {op : Op}

theorem Forward.ahead (hf : s.Forward) (hop : s.op? i = some op) (hj : j ∈ op.ahead) :
    i < j ∧ j < s.length := by
  obtain ⟨line, hline, rfl⟩ := Option.map_eq_some_iff.1 hop
  exact hf i line hline j hj

/-- A clause that is found is ahead of where the search began. -/
theorem Finds.lt {next : Option Nat} {a : Nat} (hf : s.Forward) (h : s.Finds next l k)
    (ha : ∀ j ∈ next, a < j) : a < l := by
  induction h generalizing a with
  | @skip j c next close l k hop _ ih =>
    have hnext : ∀ x ∈ next, j < x := fun x hx =>
      (hf.ahead hop (List.mem_append_left _ (Option.mem_toList.2 hx))).1
    exact Nat.lt_trans (ha j rfl) (ih hnext)
  | branch | close => exact ha _ rfl

theorem mem_ahead_of_jumps (h : j ∈ op.jumps) : j ∈ op.ahead := by
  cases op with
  | whileDo | switchOn | breakOut => exact h
  | _ => cases h

theorem mem_ahead_of_exit (h : op.exit? = some j) : j ∈ op.ahead := by
  cases op with
  | elseIf c next close => exact List.mem_append_right _ (Option.mem_toList.2 h)
  | elseThen close => exact Option.mem_toList.2 h
  | _ => cases h

/-- A move leads ahead, or back with one repetition more, of which there is a limit. -/
theorem Moves.advances (hf : s.Forward) (h : s.Moves i t j u) :
    i < j ∧ u.loops = t.loops ∨ t.loops + 1 < t.limit ∧ u.loops = t.loops + 1 := by
  cases h with
  | onward | enter | close | stray => exact .inl ⟨Nat.lt_succ_self i, rfl⟩
  | @skip c next l k hop hfinds =>
    have hl : i < l := hfinds.lt hf fun x hx => (hf.ahead hop (Option.mem_toList.2 hx)).1
    exact .inl ⟨Nat.lt_succ_of_lt hl, rfl⟩
  | leave hop hexit _ =>
    exact .inl ⟨Nat.lt_succ_of_lt (hf.ahead hop (mem_ahead_of_exit hexit)).1, rfl⟩
  | jump hop hj => exact .inl ⟨Nat.lt_succ_of_lt (hf.ahead hop (mem_ahead_of_jumps hj)).1, rfl⟩
  | back _ hlt => exact .inr ⟨hlt, rfl⟩

theorem Moves.limit_eq (h : s.Moves i t j u) : u.limit = t.limit := by cases h <;> rfl

/-- A run stays nested in itself. -/
theorem Moves.depth_pos (h : s.Moves i t j u) (hd : 0 < t.depth) : 0 < u.depth := by
  cases h with
  | onward | stray | jump | back => exact hd
  | enter | skip => exact Nat.add_pos_left hd _
  | leave _ _ h | close _ h => exact Nat.sub_pos_of_lt h

end

end Script

namespace Run

variable {r : Run} {f f' : Frame} {g g' g0 : Game} {d k l fuel : Nat}

/-- The tally of the run (module doc). -/
def tally (r : Run) (g : Game) : Tally where
  depth := g.depthOf r.trigger
  loops := r.repeated g
  limit := g.engine.config.loopAbortAfter

/-! ## What leaves the tally, and what changes it -/

theorem tally_of (hc : g'.engine.config = g.engine.config) (hs : SameRun r.trigger g g') :
    r.tally g' = r.tally g := by
  have hd : g'.depthOf r.trigger = g.depthOf r.trigger := by
    have h := congrArg (Option.map Prod.fst) hs
    rw [Option.map_map, Option.map_map] at h
    exact congrArg (·.getD 0) h
  have hl : r.repeated g' = r.repeated g := by
    have h := congrArg (Option.map Prod.snd) hs
    rw [Option.map_map, Option.map_map] at h
    exact congrArg (·.getD 0) h
  rw [tally, tally, hd, hl, hc]

theorem tally_look (read : Scene → Expand String) : r.tally (r.look g read).2 = r.tally g :=
  tally_of (quiet_look read).config (.of_eq (look_snd read _))

theorem tally_evaluate (e : String) : r.tally (r.evaluate g e).2 = r.tally g := tally_look _

theorem tally_holds (c : String) : r.tally (r.holds g c).2 = r.tally g := tally_evaluate c

theorem tally_deepen (hg : g.hasTrigger r.trigger = true) :
    r.tally (g.deepen r.trigger) = { r.tally g with depth := (r.tally g).depth + 1 } := by
  obtain ⟨i, hi⟩ := (hasTrigger_iff g r.trigger).1 hg
  simp only [tally, depthOf, repeated, Game.deepen, instance?_modifyInstance_self, hi,
    Option.map_some, Option.getD_some]
  rfl

theorem tally_rise (hg : g.hasTrigger r.trigger = true) :
    r.tally (g.rise r.trigger) = { r.tally g with depth := (r.tally g).depth - 1 } := by
  obtain ⟨i, hi⟩ := (hasTrigger_iff g r.trigger).1 hg
  simp only [tally, depthOf, repeated, Game.rise, instance?_modifyInstance_self, hi,
    Option.map_some, Option.getD_some]
  rfl

theorem tally_countLoop (hg : g.hasTrigger r.trigger = true) :
    r.tally (g.countLoop r.trigger) = { r.tally g with loops := (r.tally g).loops + 1 } := by
  obtain ⟨i, hi⟩ := (hasTrigger_iff g r.trigger).1 hg
  simp only [tally, depthOf, repeated, Game.countLoop, instance?_modifyInstance_self, hi,
    Option.map_some, Option.getD_some]
  rfl

/-! ## Searches -/

theorem clauseWithin_finds {next : Option Nat} (hg : g.hasTrigger r.trigger = true)
    (he : r.clauseWithin fuel next g = (.found l, g')) :
    ∃ k, r.proto.script.Finds next l k ∧
      r.tally g' = { r.tally g with depth := (r.tally g).depth + k } := by
  induction fuel generalizing next g with
  | zero => cases next <;> cases he
  | succ fuel ih =>
    cases next with
    | none => cases he
    | some j =>
      unfold clauseWithin at he
      split at he
      · cases he
      · rename_i c next close hop
        have hlive : (r.holds g c).2.hasTrigger r.trigger = true := by rwa [hasTrigger_holds]
        simp only at he
        split at he
        · cases he
          exact ⟨1, .branch hop rfl, by rw [tally_deepen hlive, tally_holds]⟩
        · obtain ⟨k, hfinds, ht⟩ := ih hlive he
          exact ⟨k, .skip hop hfinds, by rw [ht, tally_holds]⟩
      · rename_i close hop
        cases he
        exact ⟨1, .branch hop rfl, tally_deepen hg⟩
      · rename_i op hno hno' hop
        cases he
        have hbranch : op.isBranch = false := by
          cases op with
          | elseIf c next close => exact absurd rfl (hno c next close)
          | elseThen close => exact absurd rfl (hno' close)
          | _ => rfl
        exact ⟨0, .close hop hbranch, rfl⟩

theorem tally_findArm (subject : String) (arms : List Nat) :
    r.tally (r.findArm subject arms g).2 = r.tally g := by
  induction arms generalizing g with
  | nil => rfl
  | cons a arms ih =>
    unfold findArm
    split
    · rename_i e _
      simp only
      split
      · exact tally_evaluate e
      · exact ih.trans (tally_evaluate e)
    · rfl
    · exact ih

theorem mem_of_findArm {subject : String} {arms : List Nat} {a : Nat}
    (he : (r.findArm subject arms g).1 = some a) : a ∈ arms := by
  induction arms generalizing g with
  | nil => cases he
  | cons b arms ih =>
    unfold findArm at he
    split at he
    · simp only at he
      split at he
      · cases he
        exact List.mem_cons_self
      · exact List.mem_cons_of_mem b (ih he)
    · cases he
      exact List.mem_cons_self
    · exact List.mem_cons_of_mem b (ih he)

/-! ## Lines -/

/-- The pass of a command leaves the tally. -/
def Undisturbed (r : Run) (f : Frame) (g g' : Game) : Prop :=
  r.proto.script.op? f.line = some .command → r.tally g' = r.tally g

/-- Where a run that is suspended at a line may be taken up. -/
def Resumes (r : Run) (line j : Nat) : Prop :=
  j = line ∨ r.proto.script.op? line = some .command ∧ j = line + 1 ∨
    ∃ head, r.proto.script.op? line = some (.done (some head)) ∧ j = head + 1

/-- What a pass can come to. The run goes on as the script says, unless a command disturbs it; or it is
suspended, as deep in ifs as it is, if its trigger is still there; or a failed `if` looks for its next
clause and finds no end. -/
inductive Yields (r : Run) (f : Frame) (g : Game) : Step × Game → Prop
  | next {f' : Frame} {g' : Game} : (r.Undisturbed f g g' →
      r.proto.script.Moves f.line (r.tally g) f'.line (r.tally g')) → Yields r f g (.next f', g')
  | ended {result : Int} {g' : Game} : Yields r f g (.ended result, g')
  | left {result : Int} {g' : Game} : (∀ i, g'.instance? r.trigger = some i →
      i.depth = g.depthOf r.trigger ∧ ∃ j, i.resumeAt = some j ∧ r.Resumes f.line j) →
    Yields r f g (.left result, g')
  | endless {c : String} {next : Option Nat} {g1 g' : Game} :
    r.proto.script.op? f.line = some (.ifThen c next) →
    (r.clauseWithin (r.patience g1) next g1).1 = .endless → Yields r f g (.endless, g')

theorem Yields.of_tally {g1 : Game} {p : Step × Game} (h : r.Yields f g1 p)
    (ht : r.tally g1 = r.tally g) : r.Yields f g p := by
  cases h with
  | next hmoves =>
    refine .next fun hq => ?_
    rw [← ht]
    exact hmoves fun hop => (hq hop).trans ht.symm
  | ended => exact .ended
  | left hleft =>
    refine .left fun i hi => ?_
    obtain ⟨hdepth, hresume⟩ := hleft i hi
    exact ⟨hdepth.trans (congrArg Tally.depth ht), hresume⟩
  | endless hop he => exact .endless hop he

/-- A run that is suspended stays nested as deep. -/
theorem Yields.suspend {result : Int} {j delay : Nat} {kind : WaitKind}
    (hd : g'.depthOf r.trigger = g.depthOf r.trigger) (hj : r.Resumes f.line j) :
    r.Yields f g (.left result, g'.suspend r.trigger r.owner j delay kind) := by
  refine .left fun i hi => ?_
  unfold Game.suspend at hi
  simp only [instance?_withWaits] at hi
  split at hi
  · rename_i hnone
    rw [instance?_withWaits, hnone] at hi
    cases hi
  · rename_i x hx
    rw [instance?_report, instance?_modifyInstance_self, instance?_withWaits, hx, Option.map_some] at hi
    cases hi
    rw [depthOf, hx] at hd
    exact ⟨hd, j, rfl, hj⟩

theorem command_yields {text : String} (hop : r.proto.script.op? f.line = some .command) :
    r.Yields f g (r.command f text g) := by
  have hnext : ∀ g1, r.Yields f g (.next (f.after f.line), g1) := fun g1 => .next fun hq => by
    rw [hq hop]
    exact .onward hop rfl
  unfold command
  simp only
  split
  · split <;> exact hnext _
  · exact .ended
  · exact hnext _
  · split <;> exact .ended
  · split <;> exact hnext _
  · split <;> exact hnext _
  · split
    · exact .suspend rfl (.inr (.inl ⟨hop, rfl⟩))
    · exact hnext _
  · split
    · exact hnext _
    · exact .ended

theorem loopBack_yields {head : Nat} {c : String} (hg : g.hasTrigger r.trigger = true)
    (hop : r.proto.script.op? f.line = some (.done (some head))) :
    r.Yields f g (r.loopBack f head c g) := by
  have hlive : (r.holds g c).2.hasTrigger r.trigger = true := by rwa [hasTrigger_holds]
  have ht := tally_countLoop hlive
  rw [tally_holds] at ht
  unfold loopBack
  simp only
  split
  · refine .next fun _ => ?_
    rw [tally_holds]
    exact .onward hop rfl
  · split
    · rename_i hnone
      refine .left fun i hi => ?_
      rw [hnone] at hi
      cases hi
    · rename_i i hi
      split
      · exact .suspend (congrArg Tally.depth ht) (.inr (.inr ⟨head, hop, rfl⟩))
      · split
        · exact .ended
        · rename_i hlt
          have hloops : (r.tally g).loops + 1 = i.loops := by
            have h := congrArg Tally.loops ht
            rw [tally, repeated, hi] at h
            exact h.symm
          have hlimit : (r.tally g).limit =
              ((r.holds g c).2.countLoop r.trigger).engine.config.loopAbortAfter :=
            (congrArg Tally.limit ht).symm
          refine .next fun _ => ?_
          rw [ht]
          exact .back hop (by omega)

/-- At an `elseif` or `else` the clause before it is over, if there is one. -/
theorem branch_yields {text : String} {op : Op} {close : Option Nat}
    (hop : r.proto.script.op? f.line = some op)
    (hbranch : (∃ c next, op = .elseIf c next close) ∨ op = .elseThen close)
    (hg : g.hasTrigger r.trigger = true) : r.Yields f g (r.perform f ⟨text, op⟩ g) := by
  have hover : op.isOver = true ∧ op.exit? = close := by
    rcases hbranch with ⟨c, next, rfl⟩ | rfl <;> exact ⟨rfl, rfl⟩
  have hperform : r.perform f ⟨text, op⟩ g = r.perform f ⟨text, .elseThen close⟩ g := by
    rcases hbranch with ⟨c, next, rfl⟩ | rfl <;> rfl
  rw [hperform]
  simp only [perform]
  split
  · rename_i hd
    exact .next fun _ => .stray hop hover.1 hd
  · rename_i hd
    cases close with
    | some close =>
      refine .next fun _ => ?_
      rw [tally_rise hg]
      exact .leave hop hover.2 (Nat.not_le.1 hd)
    | none => exact .ended

/-- One case for each kind of line. -/
theorem perform_yields {line : Line} (hline : r.proto.script.line? f.line = some line)
    (hg : g.hasTrigger r.trigger = true) : r.Yields f g (r.perform f line g) := by
  have hop : r.proto.script.op? f.line = some line.op := congrArg (Option.map Line.op) hline
  obtain ⟨text, op⟩ := line
  dsimp only at hop
  cases op with
  | comment | caseOf _ | default => exact .next fun _ => .onward hop rfl
  | ifThen c next =>
    have hlive : (r.holds g c).2.hasTrigger r.trigger = true := by rwa [hasTrigger_holds]
    simp only [perform]
    split
    · refine .next fun _ => ?_
      rw [tally_deepen hlive, tally_holds]
      exact .enter hop
    · generalize hc : r.clauseWithin (r.patience (r.holds g c).2) next (r.holds g c).2 = p
      obtain ⟨clause, g1⟩ := p
      cases clause with
      | found l =>
        obtain ⟨k, hfinds, ht⟩ := clauseWithin_finds hlive hc
        refine .next fun _ => ?_
        rw [ht, tally_holds]
        exact .skip hop hfinds
      | unclosed => exact .ended
      | endless => exact .endless hop (congrArg Prod.fst hc)
  | elseIf c next close => exact branch_yields hop (.inl ⟨c, next, rfl⟩) hg
  | elseThen close => exact branch_yields hop (.inr rfl) hg
  | endIf =>
    simp only [perform]
    split
    · rename_i hd
      exact .next fun _ => .stray hop rfl hd
    · rename_i hd
      refine .next fun _ => ?_
      rw [tally_rise hg]
      exact .close hop (Nat.not_le.1 hd)
  | whileDo c out =>
    cases out with
    | none => exact .ended
    | some out =>
      simp only [perform]
      split
      · refine .next fun _ => ?_
        rw [tally_holds]
        exact .onward hop rfl
      · refine .next fun _ => ?_
        rw [tally_holds]
        exact .jump hop (List.mem_singleton.2 rfl)
  | done head =>
    cases head with
    | none => exact .next fun _ => .onward hop rfl
    | some head =>
      simp only [perform]
      split
      · exact loopBack_yields hg hop
      · exact .next fun _ => .onward hop rfl
  | switchOn subject arms out =>
    have ht := tally_findArm (r := r) (g := (r.evaluate g subject).2) (r.evaluate g subject).1 arms
    rw [tally_evaluate] at ht
    simp only [perform]
    generalize ha : r.findArm (r.evaluate g subject).1 arms (r.evaluate g subject).2 = p at ht
    obtain ⟨arm, g1⟩ := p
    dsimp only at ht
    cases arm with
    | some arm =>
      refine .next fun _ => ?_
      rw [ht]
      exact .jump hop (List.mem_append_left _ (mem_of_findArm (congrArg Prod.fst ha)))
    | none =>
      cases out with
      | some out =>
        refine .next fun _ => ?_
        rw [ht]
        exact .jump hop (List.mem_append_right _ (List.mem_singleton.2 rfl))
      | none => exact .ended
  | breakOut out =>
    cases out with
    | some out => exact .next fun _ => .jump hop (List.mem_singleton.2 rfl)
    | none => exact .next fun _ => .onward hop rfl
  | command =>
    simp only [perform]
    exact (command_yields hop).of_tally (tally_look _)

/-! ## Passes -/

theorem pass_yields (r : Run) (f : Frame) (g : Game) : r.Yields f g (r.pass f g) := by
  have hdo (hg : g.hasTrigger r.trigger = true) : r.Yields f g (r.doLine f g) := by
    unfold doLine
    split
    · exact .ended
    · rename_i line hline
      exact (perform_yields (g := r.note f.line g) hline hg).of_tally rfl
  have hoff : r.Yields f g (r.putOff f g) := .suspend rfl (.inl rfl)
  unfold pass
  split
  · rename_i hg
    refine .left fun i hi => ?_
    rw [hasTrigger_eq, hi] at hg
    cases hg
  · rename_i hg
    have hlive : g.hasTrigger r.trigger = true := by simpa using hg
    split
    · exact hdo hlive
    · split
      · exact .ended
      · split
        · split
          · exact .ended
          · exact hoff
        · split
          · exact hoff
          · exact hdo hlive

/-- A pass after which a run goes on moves it as the script says. -/
theorem pass_moves (hq : r.Undisturbed f g g') (he : r.pass f g = (.next f', g')) :
    r.proto.script.Moves f.line (r.tally g) f'.line (r.tally g') := by
  have hyields := r.pass_yields f g
  rw [he] at hyields
  cases hyields with
  | next hmoves => exact hmoves hq

/-- A run that is suspended stays nested as deep, and knows where it is taken up. -/
theorem pass_left {result : Int} {i : Instance} (he : r.pass f g = (.left result, g'))
    (hi : g'.instance? r.trigger = some i) :
    i.depth = g.depthOf r.trigger ∧ ∃ j, i.resumeAt = some j ∧ r.Resumes f.line j := by
  have hyields := r.pass_yields f g
  rw [he] at hyields
  cases hyields with
  | left hleft => exact hleft i hi

/-- Where a run goes on after a pass it has done a line, and its trigger was there. -/
theorem doLine_of_pass (he : r.pass f g = (.next f', g')) :
    g.hasTrigger r.trigger = true ∧ r.doLine f g = (.next f', g') := by
  unfold pass at he
  split at he
  · cases he
  · rename_i hg
    have hlive : g.hasTrigger r.trigger = true := by simpa using hg
    refine ⟨hlive, ?_⟩
    split at he
    · exact he
    · split at he
      · cases he
      · split at he
        · split at he <;> cases he
        · split at he
          · cases he
          · exact he

/-- A world that acts through the engine leaves the tally of the run whose command it carries out. -/
theorem pass_undisturbed (hx : Executes r.execute) (hs : r.Steady g0 d k g) (hn : FewSince g0 g')
    (he : r.pass f g = (.next f', g')) : r.Undisturbed f g g' := by
  intro hop
  obtain ⟨line, hline, hcommand⟩ := Option.map_eq_some_iff.1 hop
  obtain ⟨-, hdo⟩ := doLine_of_pass he
  have hseen := (hs.note f.line).look (·.expand line.text)
  have hc : r.command f (r.look (r.note f.line g) (·.expand line.text)).1
      (r.look (r.note f.line g) (·.expand line.text)).2 = (.next f', g') := by
    simp only [doLine, hline, perform, hcommand] at hdo
    exact hdo
  obtain ⟨-, hsame⟩ := command_sameRun hx hseen hn hc
  obtain ⟨-, hs'⟩ := command_steady hx hseen hn hc
  have hlook : SameRun r.trigger g (r.look (r.note f.line g) (·.expand line.text)).2 :=
    .of_eq (look_snd _ _)
  exact tally_of (hs'.since.config.trans hs.since.config.symm) (hlook.trans hsame)

/-- The tally tells that the run is still under way. -/
theorem steady_of_tally (hs : Since g0 g) (hd : 0 < (r.tally g).depth)
    (hk : k ≤ (r.tally g).loops) : r.Steady g0 0 k g := by
  obtain ⟨i, hi, hdepth⟩ := instance_of_depthOf (h := r.trigger) hd
  rw [tally, repeated, hi] at hk
  exact ⟨hs, i, hi, hdepth, hk⟩

end Run

end MudTrigger
