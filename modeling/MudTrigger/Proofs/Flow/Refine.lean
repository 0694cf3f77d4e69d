import MudTrigger.Proofs.Flow.Layout
import MudTrigger.Proofs.Flow.Outcome
import MudTrigger.Proofs.Flow.Ends
import MudTrigger.Proofs.Store.Reach

/-!
# Scripts do what their programs mean

By induction on the tree: wherever a program is laid in a script, the passes of a run from its first
line on come to its meaning (`Program.arrives`), and leave the run nested as deep as it was or deeper,
which is all that an `else` or `end` looks at. So a run of the script that was compiled from the text
of a program has the answer, and leaves the game, that the program means (`run_meaning`).
-/

set_option autoImplicit false

namespace MudTrigger

open Game

/-- The run goes on after a part that ends so. -/
def Ending.goesOn : Ending → Bool
  | onward => true
  | broken => true
  | _ => false

/-! ## Steps of the simulation -/

namespace Run

variable {r : Run} {g0 g g' : Game} {d d' k k' exit mid out i j n close : Nat} {o : Outcome}
  {f f' : Frame} {line : Line}

/-- The passes come to the outcome, and leave the run as it has to be if it goes on. -/
structure Arrives (r : Run) (g0 : Game) (d k exit out : Nat) (o : Outcome) (f : Frame) (g : Game) :
    Prop where
  reach : r.Reach exit out o f g
  steady : o.ending.goesOn = true → r.Steady g0 d k o.game

namespace Arrives

theorem onward (hs : r.Steady g0 d k g) :
    r.Arrives g0 d k exit out ⟨.onward, n, g⟩ { line := exit, loops := n } g :=
  ⟨.onward rfl, fun _ => hs⟩

theorem andThen {next : Nat → Game → Outcome} (h : r.Arrives g0 d' k' mid out o f g)
    (hd : d ≤ d') (hk : k ≤ k')
    (hn : o.ending = .onward → r.Steady g0 d' k' o.game →
      r.Arrives g0 d k exit out (next o.loops o.game) { line := mid, loops := o.loops } o.game) :
    r.Arrives g0 d k exit out (o.andThen next) f g := by
  have hs : o.ending = .onward → r.Steady g0 d' k' o.game := fun he => h.steady (by rw [he]; rfl)
  refine ⟨h.reach.andThen fun he => (hn he (hs he)).reach, fun hgo => ?_⟩
  by_cases he : o.ending = .onward
  · rw [Outcome.andThen_onward he] at hgo ⊢
    exact (hn he (hs he)).steady hgo
  · rw [Outcome.andThen_of_ne he] at hgo ⊢
    exact (h.steady hgo).shallower hd hk

/-- One part after another; what the second attaches is attached after the first. -/
theorem seq {next : Nat → Game → Outcome}
    (hle : ∀ n g, g.attachments ≤ (next n g).game.attachments)
    (hn : FewSince g0 (o.andThen next).game)
    (h : FewSince g0 o.game → r.Arrives g0 d' k mid out o f g) (hd : d ≤ d')
    (hnext : r.Steady g0 d' k o.game → FewSince g0 (next o.loops o.game).game →
      r.Arrives g0 d k exit out (next o.loops o.game) { line := mid, loops := o.loops } o.game) :
    r.Arrives g0 d k exit out (o.andThen next) f g := by
  have hfirst := h (hn.of_le (Outcome.attachments_le_andThen hle))
  refine hfirst.andThen hd (Nat.le_refl k) fun he hs => hnext hs ?_
  rwa [Outcome.andThen_onward he] at hn

theorem uptoBreak {out' : Nat} (h : r.Arrives g0 d k (out + 1) out o f g) :
    r.Arrives g0 d k (out + 1) out' o.uptoBreak f g := by
  refine ⟨h.reach.uptoBreak, fun hgo => ?_⟩
  rw [Outcome.game_uptoBreak]
  refine h.steady ?_
  cases he : o.ending with
  | onward => rfl
  | broken => rfl
  | ended result => rw [Outcome.uptoBreak, he] at hgo; simp only [he] at hgo; exact hgo
  | left result => rw [Outcome.uptoBreak, he] at hgo; simp only [he] at hgo; exact hgo

/-- A line is done, and the run goes on from there. -/
theorem step (hu : r.proto.isGuarded = false) (hs : r.Steady g0 d' k' g)
    (hline : r.proto.script.line? f.line = some line)
    (hp : r.perform f line (r.note f.line g) = (.next f', g'))
    (h : r.Arrives g0 d k exit out o f' g') : r.Arrives g0 d k exit out o f g :=
  ⟨.next (Script.lt_of_line hline) ((pass_line hs.hasTrigger hu hline).trans hp) h.reach, h.steady⟩

/-- A line that does nothing is passed by. -/
theorem passBy (hu : r.proto.isGuarded = false) (hs : r.Steady g0 d' k' g)
    (hline : r.proto.script.line? i = some line)
    (hp : ∀ f g, r.perform f line g = (.next (f.after f.line), g))
    (h : r.Arrives g0 d k exit out o { line := i + 1, loops := n } (r.note i g)) :
    r.Arrives g0 d k exit out o { line := i, loops := n } g :=
  .step (f := { line := i, loops := n }) hu hs hline (hp _ _) h

end Arrives

theorem command_ne_endless (f : Frame) (text : String) : (r.command f text g).1 ≠ .endless := by
  unfold command
  simp only
  split
  · split <;> nofun
  · nofun
  · nofun
  · split <;> nofun
  · split <;> nofun
  · split <;> nofun
  · split <;> nofun
  · split <;> nofun

theorem obey_arrives (hx : Executes r.execute) (hu : r.proto.isGuarded = false) {text : String}
    (hs : r.Steady g0 d k g) (hline : r.proto.script.line? i = some ⟨text, .command⟩)
    (hn : FewSince g0 (r.obey i text n (r.note i g)).game) :
    r.Arrives g0 d k (i + 1) out (r.obey i text n (r.note i g)) { line := i, loops := n } g := by
  have hseen := (hs.note i).look (·.expand text)
  have hpass : r.pass { line := i, loops := n } g =
      r.command { line := i, loops := n } (r.look (r.note i g) (·.expand text)).1
        (r.look (r.note i g) (·.expand text)).2 := by
    rw [pass_line hs.hasTrigger hu hline]
    simp only [perform]
  rw [obey] at hn ⊢
  generalize r.look (r.note i g) (·.expand text) = seen at hn hseen hpass ⊢
  have hne := command_ne_endless (r := r) (g := seen.2) { line := i, loops := n } seen.1
  generalize hc : r.command { line := i, loops := n } seen.1 seen.2 = done at hn hpass hne ⊢
  obtain ⟨step, g1⟩ := done
  have hlt := Script.lt_of_line hline
  cases step with
  | next f1 =>
    obtain ⟨rfl, hs'⟩ := command_steady hx hseen hn hc
    exact ⟨.next hlt hpass (.onward rfl), fun _ => hs'⟩
  | ended result => exact ⟨.ended hlt rfl hpass, fun h => by cases h⟩
  | left result => exact ⟨.left hlt rfl hpass, fun h => by cases h⟩
  | endless => exact absurd rfl hne

/-- At line `j` a clause of the `if` that ends at line `close` is left. -/
def Leaves (s : Script) (close j : Nat) : Prop :=
  ∃ line, s.line? j = some line ∧ (line.op = .endIf ∧ j = close ∨
    (∃ c next, line.op = .elseIf c next (some close)) ∨ line.op = .elseThen (some close))

theorem leaveIf_arrives (hu : r.proto.isGuarded = false) (hs : r.Steady g0 (d + 1) k g)
    (hl : Leaves r.proto.script close j) :
    r.Arrives g0 d k (close + 1) out (r.leaveIf j n g) { line := j, loops := n } g := by
  obtain ⟨line, hline, hop⟩ := hl
  have hdeep : ¬ (r.note j g).depthOf r.trigger ≤ 1 := by
    have hd := (hs.note j).depthOf
    omega
  have hp : r.perform { line := j, loops := n } line (r.note j g) =
      (.next { line := close + 1, loops := n }, (r.note j g).rise r.trigger) := by
    rcases hop with ⟨hop, rfl⟩ | ⟨c, next, hop⟩ | hop
    · simp only [perform, hop, hdeep, if_false]
      rfl
    · simp only [perform, hop, hdeep, if_false]
      rfl
    · simp only [perform, hop, hdeep, if_false]
      rfl
  exact .step hu hs hline hp (.onward (hs.note j).rise)

section

variable {c w w' : String} {body : Nat → Game → Outcome}

/-- The end of a loop body, and what follows on it. -/
theorem again_arrives (hu : r.proto.isGuarded = false)
    (hhead : r.proto.script.line? i = some ⟨w, .whileDo c (some j)⟩)
    (hlast : r.proto.script.line? j = some ⟨w', .done (some i)⟩) (hs : r.Steady g0 d k g)
    (hn : FewSince g0 (r.again c i j body n g).game)
    (hbody : ∀ {n g}, k + 1 < g0.engine.config.loopAbortAfter → r.Steady g0 d (k + 1) g →
      FewSince g0 (body n g).game →
      r.Arrives g0 d k (j + 1) j (body n g) { line := i + 1, loops := n } g) :
    r.Arrives g0 d k (j + 1) j (r.again c i j body n g) { line := j, loops := n } g := by
  have hop : r.proto.script.op? i = some (.whileDo c (some j)) := by
    rw [Script.op?, hhead, Option.map_some]
  have hlt := Script.lt_of_line hlast
  have hh := (hs.note j).holds c
  have hpass : r.pass { line := j, loops := n } g =
      r.loopBack { line := j, loops := n } i c (r.note j g) := by
    rw [pass_line hs.hasTrigger hu hlast]
    simp only [perform, hop]
  rw [loopBack] at hpass
  rw [again] at hn ⊢
  generalize r.holds (r.note j g) c = p at hh hpass hn ⊢
  obtain ⟨truth, g1⟩ := p
  cases truth with
  | false => exact ⟨.next hlt hpass (.onward rfl), fun _ => hh⟩
  | true =>
    have hc := hh.countLoop
    obtain ⟨x, hx, -⟩ := hc.live
    have hrep : r.repeated (g1.countLoop r.trigger) = x.loops := by
      rw [repeated, hx, Option.map_some, Option.getD_some]
    simp only [Bool.not_true, Bool.false_eq_true, if_false, hx, hrep] at hpass hn ⊢
    by_cases hd : (g1.countLoop r.trigger).engine.config.loopDeferAfter ≤ n + 1
    · rw [if_pos hd] at hpass ⊢
      exact ⟨.left hlt rfl hpass, fun h => by cases h⟩
    · rw [if_neg hd] at hpass hn ⊢
      by_cases ha : (g1.countLoop r.trigger).engine.config.loopAbortAfter ≤ x.loops
      · rw [if_pos ha] at hpass ⊢
        exact ⟨.ended hlt rfl hpass, fun h => by cases h⟩
      · rw [if_neg ha] at hpass hn ⊢
        have hk := hc.repeated
        rw [hrep] at hk
        rw [hc.since.config] at ha
        have hb := hbody (Nat.lt_of_le_of_lt hk (Nat.not_le.1 ha)) hc hn
        exact ⟨.next hlt hpass hb.reach, hb.steady⟩

/-- A loop body is gone through from its first line on, and again. -/
theorem iterate_arrives (hu : r.proto.isGuarded = false)
    (hhead : r.proto.script.line? i = some ⟨w, .whileDo c (some j)⟩)
    (hlast : r.proto.script.line? j = some ⟨w', .done (some i)⟩)
    (hle : ∀ n g, g.attachments ≤ (body n g).game.attachments)
    (hbody : ∀ {n k g}, r.Steady g0 d k g →
      FewSince g0 (body n g).game →
      r.Arrives g0 d k j j (body n g) { line := i + 1, loops := n } g)
    {fuel : Nat} (hfuel : g0.engine.config.loopAbortAfter ≤ k + fuel) (hpos : 0 < fuel)
    (hs : r.Steady g0 d k g)
    (hn : FewSince g0 (r.iterate c i j body fuel n g).game) :
    r.Arrives g0 d k (j + 1) j (r.iterate c i j body fuel n g) { line := i + 1, loops := n } g := by
  induction fuel generalizing n g k with
  | zero => exact absurd hpos (Nat.lt_irrefl 0)
  | succ fuel ih =>
    rw [iterate] at hn ⊢
    refine .seq (attachments_again (attachments_iterate hle fuel)) hn (hbody hs) (Nat.le_refl d)
      fun hs' hn' => again_arrives hu hhead hlast hs' hn' fun hlt hs1 hn1 => ?_
    have hrest := ih (k := k + 1) (by omega) (by omega) hs1 hn1
    exact ⟨hrest.reach, fun h => (hrest.steady h).shallower (Nat.le_refl d) (Nat.le_succ k)⟩

end

end Run

/-! ## Programs -/

section

variable {r : Run} {g0 : Game}

theorem Clauses.leaves {s : Script} {out close i : Nat} {b : Bool} {c : Clauses b} {w : String}
    (hl : c.Laid s out close i) (hi : close = i + c.size)
    (hlast : s.line? close = some ⟨w, .endIf⟩) : Run.Leaves s close i := by
  cases c with
  | nil =>
    obtain rfl : close = i := hi
    exact ⟨_, hlast, .inl ⟨rfl, rfl⟩⟩
  | elseIf w body more =>
    rw [Laid] at hl
    exact ⟨_, hl.1, .inr (.inl ⟨_, _, rfl⟩)⟩
  | elseThen w body =>
    rw [Laid] at hl
    exact ⟨_, hl.1, .inr (.inr rfl)⟩

/-- How a switch looks at an arm. -/
theorem ArmHead.findArm_fits (h : ArmHead) {i d k : Nat} {g : Game}
    (hline : r.proto.script.line? i = some h.line) (hs : r.Steady g0 d k g) (subject : String)
    (arms : List Nat) :
    r.Steady g0 d k (h.fits r subject g).2 ∧
      r.findArm subject (i :: arms) g =
        if (h.fits r subject g).1 then (some i, (h.fits r subject g).2)
        else r.findArm subject arms (h.fits r subject g).2 := by
  have hop := congrArg (Option.map Line.op) hline
  rw [← Script.op?, Option.map_some] at hop
  cases h with
  | @caseOf value w =>
    rw [fits, Run.findArm]
    simp only [hop, line]
    exact ⟨hs.evaluate value, trivial⟩
  | default w =>
    rw [fits, Run.findArm]
    simp only [hop, line]
    exact ⟨hs, rfl⟩

/-- A clause of an `if` that is entered. -/
theorem Run.Arrives.clause {d k out j close : Nat} {o : Outcome} {f : Frame} {g : Game}
    (hu : r.proto.isGuarded = false) (hl : Run.Leaves r.proto.script close j)
    (hn : FewSince g0 (o.andThen (r.leaveIf j)).game)
    (h : FewSince g0 o.game → r.Arrives g0 (d + 1) k j out o f g) :
    r.Arrives g0 d k (close + 1) out (o.andThen (r.leaveIf j)) f g :=
  .seq (fun _ _ => Run.attachments_leaveIf j) hn h (Nat.le_succ d)
    fun hs _ => Run.leaveIf_arrives hu hs hl

mutual

theorem Program.arrives (hx : Executes r.execute) (hu : r.proto.isGuarded = false) :
    ∀ {b : Bool} (p : Program b) (i out n d k : Nat) (g : Game),
      p.Laid r.proto.script out i → r.Steady g0 d k g → FewSince g0 (p.meaning r i n g).game →
      r.Arrives g0 d k (i + p.size) out (p.meaning r i n g) { line := i, loops := n } g
  | _, .nil => by
    intro i out n d k g _ hs _
    rw [Program.meaning]
    exact .onward hs
  | _, .comment _ rest => by
    intro i out n d k g hl hs hn
    rw [Program.Laid] at hl
    rw [Program.meaning] at hn ⊢
    rw [Program.size_comment, ← Nat.add_assoc]
    exact .passBy hu hs hl.1 (fun _ _ => rfl)
      (rest.arrives hx hu (i + 1) out n d k _ hl.2 (hs.note i) hn)
  | _, .command w rest => by
    intro i out n d k g hl hs hn
    rw [Program.Laid] at hl
    rw [Program.meaning] at hn ⊢
    rw [Program.size_command, ← Nat.add_assoc]
    exact .seq (rest.attachments_le hx (i + 1)) hn (Run.obey_arrives hx hu hs hl.1)
      (Nat.le_refl d) (rest.arrives hx hu (i + 1) out _ d k _ hl.2)
  | _, .breakOut w _ => by
    intro i out n d k g hl hs _
    rw [Program.Laid] at hl
    rw [Program.meaning]
    have hp : r.perform { line := i, loops := n } ⟨w.line, .breakOut (some out)⟩ (r.note i g) =
        (.next { line := out + 1, loops := n }, r.note i g) := by
      simp only [Run.perform]
      rfl
    exact .step hu hs hl hp ⟨.broken rfl, fun _ => hs.note i⟩
  | _, @Program.ifThen _ c _ body clauses _ rest => by
    intro i out n d k g hl hs hn
    rw [Program.Laid] at hl
    obtain ⟨hline, hbody, hclauses, hlast, hrest⟩ := hl
    rw [Program.meaning] at hn ⊢
    rw [Program.size_ifThen, ← Nat.add_assoc, ← Nat.add_assoc, ← Nat.add_assoc, ← Nat.add_assoc]
    have hlt := Script.lt_of_line hline
    have hpass := Run.pass_line (f := { line := i, loops := n }) hs.hasTrigger hu hline
    simp only [Run.perform] at hpass
    have hh := (hs.note i).holds c
    generalize r.holds (r.note i g) c = p at hn hh hpass ⊢
    obtain ⟨truth, g1⟩ := p
    dsimp only at hn hh hpass ⊢
    refine .seq (rest.attachments_le hx _) hn (fun hn => ?_) (Nat.le_refl d)
      (rest.arrives hx hu _ out _ d k _ hrest)
    cases truth with
    | true =>
      rw [if_pos rfl] at hn hpass ⊢
      have hin := Run.Arrives.clause hu (clauses.leaves hclauses rfl hlast) hn
        (body.arrives hx hu (i + 1) out n (d + 1) k _ hbody hh.deepen)
      exact ⟨.next hlt hpass hin.reach, hin.steady⟩
    | false =>
      rw [if_neg Bool.false_ne_true] at hn hpass ⊢
      have hpatience : clauses.size < r.patience g1 := by
        have hmul := Nat.le_mul_of_pos_right r.proto.script.length
          (Nat.le_max_left 1 g1.engine.config.loopAbortAfter)
        have hclose := Script.lt_of_line hlast
        rw [Run.patience]
        omega
      obtain ⟨l, g2, hfound, hin⟩ := clauses.arrives hx hu (i + 1 + body.size) out n d k _ g1
        hclauses hlast hh hpatience hn
      rw [hfound, Frame.follow] at hpass
      exact ⟨.next hlt hpass hin.reach, hin.steady⟩
  | _, @Program.whileDo _ c _ body _ rest => by
    intro i out n d k g hl hs hn
    rw [Program.Laid] at hl
    obtain ⟨hline, hbody, hlast, hrest⟩ := hl
    rw [Program.meaning] at hn ⊢
    rw [Program.size_whileDo, ← Nat.add_assoc, ← Nat.add_assoc, ← Nat.add_assoc]
    have hlt := Script.lt_of_line hline
    have hpass := Run.pass_line (f := { line := i, loops := n }) hs.hasTrigger hu hline
    simp only [Run.perform] at hpass
    have hh := (hs.note i).holds c
    generalize r.holds (r.note i g) c = p at hn hh hpass ⊢
    obtain ⟨truth, g1⟩ := p
    dsimp only at hn hh hpass ⊢
    refine .seq (rest.attachments_le hx _) hn (fun hn => .uptoBreak ?_) (Nat.le_refl d)
      (rest.arrives hx hu _ out _ d k _ hrest)
    rw [Outcome.game_uptoBreak] at hn
    cases truth with
    | true =>
      rw [if_pos rfl] at hn hpass ⊢
      have hin := Run.iterate_arrives (k := k) hu hline hlast (body.attachments_le hx (i + 1))
        (fun hs hn => body.arrives hx hu (i + 1) _ _ d _ _ hbody hs hn)
        (by rw [hh.since.config]; omega) (Nat.succ_pos _) hh hn
      exact ⟨.next hlt hpass hin.reach, hin.steady⟩
    | false =>
      rw [if_neg Bool.false_ne_true] at hpass ⊢
      exact ⟨.next hlt hpass (.onward rfl), fun _ => hh⟩
  | _, @Program.switchOn _ v _ lead arms _ rest => by
    intro i out n d k g hl hs hn
    rw [Program.Laid] at hl
    obtain ⟨hline, harms, hlast, hrest⟩ := hl
    rw [Program.meaning] at hn ⊢
    rw [Program.size_switchOn, ← Nat.add_assoc, ← Nat.add_assoc, ← Nat.add_assoc, ← Nat.add_assoc]
    have hlt := Script.lt_of_line hline
    have hpass := Run.pass_line (f := { line := i, loops := n }) hs.hasTrigger hu hline
    simp only [Run.perform] at hpass
    have hh := (hs.note i).evaluate v
    generalize r.evaluate (r.note i g) v = p at hn hh hpass ⊢
    obtain ⟨subject, g1⟩ := p
    dsimp only at hn hh hpass ⊢
    refine .seq (rest.attachments_le hx _) hn (fun hn => .uptoBreak ?_) (Nat.le_refl d)
      (rest.arrives hx hu _ out _ d k _ hrest)
    rw [Outcome.game_uptoBreak] at hn
    obtain ⟨arm, g2, hfound, hin⟩ := arms.arrives_choose hx hu subject (i + 1 + lead.size) n d k g1
      harms hlast hh hn
    simp only [hfound] at hpass
    refine ⟨.next hlt ?_ hin.reach, hin.steady⟩
    cases arm <;> exact hpass

/-- The clause at which a failed `if` goes on, and what comes of it. -/
theorem Clauses.arrives (hx : Executes r.execute) (hu : r.proto.isGuarded = false) :
    ∀ {b : Bool} (c : Clauses b) (i out n d k fuel : Nat) (g : Game) {w : String},
      c.Laid r.proto.script out (i + c.size) i →
      r.proto.script.line? (i + c.size) = some ⟨w, .endIf⟩ → r.Steady g0 d k g → c.size < fuel →
      FewSince g0 (c.meaning r i n g).game →
      ∃ l g1, r.clauseWithin fuel (some i) g = (.found l, g1) ∧
        r.Arrives g0 d k (i + c.size + 1) out (c.meaning r i n g) { line := l + 1, loops := n } g1
  | _, .nil => by
    intro i out n d k fuel g w _ hlast hs hfuel _
    obtain ⟨fuel, rfl⟩ : ∃ m, fuel = m + 1 := ⟨fuel - 1, by omega⟩
    have hop : r.proto.script.op? i = some .endIf := congrArg (Option.map Line.op) hlast
    refine ⟨i, g, ?_, ?_⟩
    · rw [Run.clauseWithin]
      simp only [hop]
    · rw [Clauses.meaning]
      exact .onward hs
  | _, @Clauses.elseIf _ c _ body more => by
    intro i out n d k fuel g w hl hlast hs hfuel hn
    obtain ⟨fuel, rfl⟩ : ∃ m, fuel = m + 1 := ⟨fuel - 1, by omega⟩
    rw [Clauses.size_elseIf] at hfuel
    rw [Clauses.size_elseIf, ← Nat.add_assoc, ← Nat.add_assoc] at hlast hl ⊢
    rw [Clauses.Laid] at hl
    obtain ⟨hline, hbody, hmore⟩ := hl
    have hop := congrArg (Option.map Line.op) hline
    rw [← Script.op?, Option.map_some] at hop
    rw [Clauses.meaning] at hn ⊢
    rw [Run.clauseWithin]
    simp only [hop]
    have hh := hs.holds c
    generalize r.holds g c = p at hn hh ⊢
    obtain ⟨truth, g1⟩ := p
    dsimp only at hn hh ⊢
    cases truth with
    | true =>
      simp only [if_true] at hn ⊢
      exact ⟨i, _, rfl, .clause hu (more.leaves hmore rfl hlast) hn
        (body.arrives hx hu (i + 1) out n (d + 1) k _ hbody hh.deepen)⟩
    | false =>
      simp only [Bool.false_eq_true, if_false] at hn ⊢
      exact more.arrives hx hu (i + 1 + body.size) out n d k fuel g1 hmore hlast hh (by omega) hn
  | _, .elseThen _ body => by
    intro i out n d k fuel g w hl hlast hs hfuel hn
    obtain ⟨fuel, rfl⟩ : ∃ m, fuel = m + 1 := ⟨fuel - 1, by omega⟩
    rw [Clauses.size_elseThen, ← Nat.add_assoc] at hlast hl ⊢
    rw [Clauses.Laid] at hl
    obtain ⟨hline, hbody⟩ := hl
    have hop := congrArg (Option.map Line.op) hline
    rw [← Script.op?, Option.map_some] at hop
    rw [Clauses.meaning] at hn ⊢
    rw [Run.clauseWithin]
    simp only [hop]
    exact ⟨i, _, rfl, .clause hu ⟨_, hlast, .inl ⟨rfl, rfl⟩⟩ hn
      (body.arrives hx hu (i + 1) out n (d + 1) k _ hbody hs.deepen)⟩

/-- The arm that a switch enters, if there is one, and what comes of it. -/
theorem Arms.arrives_choose (hx : Executes r.execute) (hu : r.proto.isGuarded = false) :
    ∀ (arms : Arms) (subject : String) (i n d k : Nat) (g : Game) {w : String},
      arms.Laid r.proto.script (i + arms.size) i →
      r.proto.script.line? (i + arms.size) = some ⟨w, .done none⟩ → r.Steady g0 d k g →
      FewSince g0 (arms.choose r subject i n g).game →
      ∃ arm g1, r.findArm subject (arms.heads i) g = (arm, g1) ∧
        r.Arrives g0 d k (i + arms.size + 1) (i + arms.size) (arms.choose r subject i n g)
          { line := arm.getD (i + arms.size) + 1, loops := n } g1
  | .nil => by
    intro subject i n d k g w _ _ hs _
    rw [Arms.choose]
    exact ⟨none, g, rfl, .onward hs⟩
  | .arm head body more => by
    intro subject i n d k g w hl hlast hs hn
    rw [Arms.size_arm, ← Nat.add_assoc, ← Nat.add_assoc] at hlast hl ⊢
    rw [Arms.Laid] at hl
    obtain ⟨hline, hbody, hmore⟩ := hl
    rw [Arms.choose] at hn ⊢
    obtain ⟨hh, hfind⟩ := head.findArm_fits hline hs subject (more.heads (i + 1 + body.size))
    rw [Arms.heads, hfind]
    generalize head.fits r subject g = p at hn hh ⊢
    obtain ⟨fits, g1⟩ := p
    dsimp only at hn hh ⊢
    cases fits with
    | true =>
      simp only [if_true] at hn ⊢
      exact ⟨some i, g1, rfl, .seq (more.attachments_le_fallThrough hx _) hn
        (body.arrives hx hu (i + 1) _ n d k g1 hbody hh) (Nat.le_refl d)
        (more.arrives_fallThrough hx hu (i + 1 + body.size) _ d k _ hmore hlast)⟩
    | false =>
      simp only [Bool.false_eq_true, if_false] at hn ⊢
      exact more.arrives_choose hx hu subject (i + 1 + body.size) n d k g1 hmore hlast hh hn

/-- The arms after one that was entered. -/
theorem Arms.arrives_fallThrough (hx : Executes r.execute) (hu : r.proto.isGuarded = false) :
    ∀ (arms : Arms) (i n d k : Nat) (g : Game) {w : String},
      arms.Laid r.proto.script (i + arms.size) i →
      r.proto.script.line? (i + arms.size) = some ⟨w, .done none⟩ → r.Steady g0 d k g →
      FewSince g0 (arms.fallThrough r i n g).game →
      r.Arrives g0 d k (i + arms.size + 1) (i + arms.size) (arms.fallThrough r i n g)
        { line := i, loops := n } g
  | .nil => by
    intro i n d k g w _ hlast hs _
    rw [Arms.fallThrough]
    exact .passBy hu hs hlast (fun _ _ => rfl) (.onward (hs.note i))
  | .arm head body more => by
    intro i n d k g w hl hlast hs hn
    rw [Arms.size_arm, ← Nat.add_assoc, ← Nat.add_assoc] at hlast hl ⊢
    rw [Arms.Laid] at hl
    obtain ⟨hline, hbody, hmore⟩ := hl
    rw [Arms.fallThrough] at hn ⊢
    refine .passBy hu hs hline (by cases head <;> exact fun _ _ => rfl) ?_
    exact .seq (more.attachments_le_fallThrough hx _) hn
      (body.arrives hx hu (i + 1) _ n d k _ hbody (hs.note i)) (Nat.le_refl d)
      (more.arrives_fallThrough hx hu (i + 1 + body.size) _ d k _ hmore hlast)

end

end

/-! ## Runs -/

namespace Game

/-- The run that is begun of a trigger, or taken up. -/
def runOf (host : Host) (g : Game) (h : Handle) (i : Instance) (mode : RunMode) : Run where
  host
  execute := perform host (runWithin (g.engine.config.maxScriptDepth + 1 - g.engine.depth) .standard)
  trigger := h
  owner := i.owner
  proto := i.proto
  mode

variable {g : Game} {h : Handle} {i : Instance}

theorem run_entered (host : Host) (mode : RunMode) (hi : g.instance? h = some i)
    (hd : g.engine.depth ≤ g.engine.config.maxScriptDepth) :
    run host g h mode =
      (((g.runOf host h i mode).drive i (g.enter h i.owner)).1,
        ((g.runOf host h i mode).drive i (g.enter h i.owner)).2.leave) := by
  have hfuel : g.engine.config.maxScriptDepth + 2 - g.engine.depth =
      g.engine.config.maxScriptDepth + 1 - g.engine.depth + 1 := by omega
  rw [run, hfuel, runWithin_entered _ host mode hi hd]
  rfl

theorem executes_runOf (host : Host) (mode : RunMode) : Executes (g.runOf host h i mode).execute :=
  executes_perform (fires_runWithin _ .standard) host

end Game

namespace Outcome

variable {o : Outcome} {h : Handle}

theorem attachments_answer : (o.answer h).2.attachments = o.game.attachments := by
  unfold answer
  split
  · exact (quiet_finish h).attachments
  · exact (quiet_finish h).attachments
  · exact (quiet_finish h).attachments
  · rfl

end Outcome

/-- A run that has just been begun. -/
theorem Game.Coherent.steady_begin {r : Run} {g : Game} (hg : g.Coherent)
    (hr : g.hasTrigger r.trigger = true) : r.Steady (g.begin r.trigger) 0 0 (g.begin r.trigger) := by
  obtain ⟨i, hi⟩ := (hasTrigger_iff g r.trigger).1 hr
  have hb : (g.begin r.trigger).instance? r.trigger =
      some { i with depth := 1, loops := 0, resumeAt := none, wait := none } := by
    rw [instance?_begin, if_pos rfl, hi, Option.map_some]
  exact ⟨⟨hg.of_same (same_begin _), rfl, Nat.le_refl _⟩, _, hb, Nat.one_pos, Nat.zero_le _⟩

/-- The passes of a run come to the meaning of the program that its script was compiled from. -/
theorem Program.passes_compiled {r : Run} {g : Game} {fuel : Nat} (p : Program false)
    (hx : Executes r.execute) (hu : r.proto.isGuarded = false)
    (hp : r.proto.script = Script.compile p.text) (hs : r.Steady g 0 0 g)
    (hn : FewSince g (p.meaning r 0 0 g).game)
    (hfuel : r.proto.script.length * max 1 g.engine.config.loopAbortAfter ≤ fuel) :
    r.passes fuel { line := 0 } g =
      (some ((p.meaning r 0 0 g).answer r.trigger).1, ((p.meaning r 0 0 g).answer r.trigger).2) := by
  have hl : p.Laid r.proto.script 0 0 := hp ▸ p.compile_laid 0
  have hlen : r.proto.script.length ≤ 0 + p.size :=
    Nat.le_of_eq (by rw [hp, p.length_compile, Nat.zero_add])
  have hf : r.proto.script.Forward := by
    rw [hp, Script.compile]
    exact Script.ofLines_forward _
  have hend := p.ending_ne_broken r rfl 0 0 g
  have harr := p.arrives hx hu 0 0 0 0 0 g hl hs hn
  generalize p.meaning r 0 0 g = o at hn hend harr ⊢
  obtain ⟨n, he⟩ := harr.reach.passes hlen hend
  have hfew : FewSince g (r.passes n { line := 0 } g).2 := by
    rw [he, FewSince, Outcome.attachments_answer]
    exact hn
  have hspared := Run.spared_of_passes hx hf hs (congrArg Prod.fst he) hfew
  exact Run.passes_enough hf hspared (Nat.le_trans (r.proto.script.left_le 0 (r.tally g)) hfuel) he

/-- A run of a script that was compiled from the text of a program answers, and leaves the game, as
the program means. -/
theorem Program.run_meaning (p : Program false) (host : Host) {g : Game} {h : Handle} {i : Instance}
    (hg : g.Coherent) (hi : g.instance? h = some i) (hp : i.proto.script = Script.compile p.text)
    (hu : i.proto.isGuarded = false) (hd : g.engine.depth ≤ g.engine.config.maxScriptDepth)
    (hn : FewSince g (p.meaning (g.runOf host h i .new) 0 0 ((g.enter h i.owner).begin h)).game) :
    g.run host h .new =
      let o := p.meaning (g.runOf host h i .new) 0 0 ((g.enter h i.owner).begin h)
      ((o.answer h).1, (o.answer h).2.leave) := by
  have hlive : (g.enter h i.owner).hasTrigger h = true := (hasTrigger_iff _ _).2 ⟨i, hi⟩
  have hsteady := (hg.of_same (same_enter h i.owner)).steady_begin (r := g.runOf host h i .new) hlive
  have hquiet : Quiet g ((g.enter h i.owner).begin h) := (quiet_enter _ _).trans (quiet_begin _)
  have hfew : FewSince ((g.enter h i.owner).begin h)
      (p.meaning (g.runOf host h i .new) 0 0 ((g.enter h i.owner).begin h)).game := by
    rw [FewSince, hquiet.attachments]
    exact hn
  have hpasses := p.passes_compiled (executes_runOf host .new) hu hp hsteady hfew
    (Nat.le_add_right _ 0x1_0000_0000)
  rw [run_entered host .new hi hd, Run.drive_new rfl]
  simp only [Run.patience]
  rw [hpasses]
  rfl

/-- Counts to two in a loop, and tells the count in a switch where one arm falls through to the
next. -/
def Program.counting : Program false :=
  .command ⟨"set n 0", by decide +kernel, by decide +kernel⟩ <|
  @Program.whileDo _ "%n% < 5" ⟨"while %n% < 5", by decide +kernel, by decide +kernel⟩
    (.command ⟨"  eval n %n% + 1", by decide +kernel, by decide +kernel⟩ <|
      @Program.ifThen _ "%n% == 2" ⟨"  if %n% == 2", by decide +kernel, by decide +kernel⟩
        (.breakOut ⟨"    break", by decide +kernel, by decide +kernel⟩ .nil)
        (.elseThen ⟨"  else", by decide +kernel, by decide +kernel⟩ <|
          .command ⟨"    echo one", by decide +kernel, by decide +kernel⟩ .nil)
        ⟨"  end", by decide +kernel, by decide +kernel⟩ .nil)
    ⟨"done", by decide +kernel, by decide +kernel⟩ <|
  @Program.switchOn _ "%n%" ⟨"switch %n%", by decide +kernel, by decide +kernel⟩ .nil
    (.arm (@ArmHead.caseOf "2" ⟨"  case 2", by decide +kernel, by decide +kernel⟩)
      (.command ⟨"    echo two", by decide +kernel, by decide +kernel⟩ .nil) <|
      .arm (.default ⟨"  default", by decide +kernel, by decide +kernel⟩)
        (.command ⟨"    echo more", by decide +kernel, by decide +kernel⟩ <|
          .breakOut ⟨"    break", by decide +kernel, by decide +kernel⟩ .nil) .nil)
    ⟨"done", by decide +kernel, by decide +kernel⟩ .nil

/-- A room with a trigger that counts. -/
def Game.nursery : Game :=
  let counter : Prototype :=
    { vnum := 1, name := "count", kind := .room, script := Script.compile Program.counting.text }
  (start {} ((∅ : Registry).register counter) (({} : World).addRoom 100 "nursery").2).play
    [.attach 1 (Uid.room 0) none]

/-- The trigger before it is run. -/
def Game.counter : Instance := (nursery.instance? ⟨0, 0⟩).get (by decide +kernel)

/-- What the count comes to. -/
def Game.counted : Outcome :=
  Program.counting.meaning (nursery.runOf .standard ⟨0, 0⟩ counter .new) 0 0
    ((nursery.enter ⟨0, 0⟩ counter.owner).begin ⟨0, 0⟩)

/-- The command that was carried out in the world. -/
def Notice.command? : Notice → Option String
  | executed _ command => some command
  | _ => none

theorem run_meaning_counting :
    nursery.Coherent ∧ nursery.instance? ⟨0, 0⟩ = some counter ∧
    counter.proto.script = Script.compile Program.counting.text ∧
    counter.proto.isGuarded = false ∧
    nursery.engine.depth ≤ nursery.engine.config.maxScriptDepth ∧
    FewSince nursery counted.game ∧
    nursery.run .standard ⟨0, 0⟩ .new =
      ((counted.answer ⟨0, 0⟩).1, (counted.answer ⟨0, 0⟩).2.leave) ∧
    counted.game.log.filterMap Notice.command? = ["echo one", "echo two", "echo more"] := by
  have hg : nursery.Coherent := play_coherent _ _ _ _
  have hi : nursery.instance? ⟨0, 0⟩ = some counter := by rw [counter, Option.some_get]
  have hp : counter.proto.script = Script.compile Program.counting.text := rfl
  have hu : counter.proto.isGuarded = false := by decide +kernel
  have hd : nursery.engine.depth ≤ nursery.engine.config.maxScriptDepth := by decide +kernel
  have hn : FewSince nursery counted.game := by
    rw [FewSince]
    decide +kernel
  have hrun := Program.counting.run_meaning .standard hg hi hp hu hd hn
  rw [← counted] at hrun
  exact ⟨hg, hi, hp, hu, hd, hn, hrun, by decide +kernel⟩

end MudTrigger
