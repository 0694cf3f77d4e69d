import MudTrigger.Proofs.Flow.Steady

/-!
# What holds of every outcome

A `break` does not get out of the program it stands in (`Program.ending_ne_broken`), and no part of a
program takes back that a trigger was attached (`Program.attachments_le`).
-/

set_option autoImplicit false

namespace MudTrigger

open Game

namespace Outcome

variable {o : Outcome} {next : Nat → Game → Outcome}

theorem andThen_onward (h : o.ending = .onward) : o.andThen next = next o.loops o.game := by
  rw [andThen, h]

theorem andThen_of_ne (h : o.ending ≠ .onward) : o.andThen next = o := by
  unfold andThen
  split
  · exact absurd ‹_› h
  · rfl

@[simp] theorem game_uptoBreak : o.uptoBreak.game = o.game := by
  unfold uptoBreak
  split <;> rfl

/-- What comes next attaches triggers, and removes none from the record. -/
theorem attachments_le_andThen (hn : ∀ n g, g.attachments ≤ (next n g).game.attachments) :
    o.game.attachments ≤ (o.andThen next).game.attachments := by
  by_cases h : o.ending = .onward
  · rw [andThen_onward h]
    exact hn _ _
  · exact Nat.le_of_eq (by rw [andThen_of_ne h])

end Outcome

/-! ## Breaks -/

theorem Step.ending_ne_broken (s : Step) : s.ending ≠ .broken := by
  cases s <;> nofun

namespace Outcome

variable {o : Outcome} {next : Nat → Game → Outcome}

theorem andThen_ne_broken (h : o.ending ≠ .broken) (hn : ∀ n g, (next n g).ending ≠ .broken) :
    (o.andThen next).ending ≠ .broken := by
  by_cases he : o.ending = .onward
  · rw [andThen_onward he]
    exact hn _ _
  · rw [andThen_of_ne he]
    exact h

theorem uptoBreak_ne_broken (o : Outcome) : o.uptoBreak.ending ≠ .broken := by
  unfold uptoBreak
  split
  · nofun
  · assumption

end Outcome

theorem Run.obey_ne_broken {r : Run} (line : Nat) (text : String) (n : Nat) (g : Game) :
    (r.obey line text n g).ending ≠ .broken := by
  rw [obey]
  generalize r.look g (·.expand text) = seen
  generalize r.command { line, loops := n } seen.1 seen.2 = done
  exact Step.ending_ne_broken done.1

theorem Run.leaveIf_ne_broken {r : Run} (line n : Nat) (g : Game) :
    (r.leaveIf line n g).ending ≠ .broken := by
  rw [leaveIf]
  nofun

mutual

/-- No `break` gets out of a program that stands in no loop or switch. -/
theorem Program.ending_ne_broken (r : Run) : ∀ {b : Bool} (p : Program b), b = false →
    ∀ (i n : Nat) (g : Game), (p.meaning r i n g).ending ≠ .broken
  | _, .nil => by
    intro _ i n g
    rw [Program.meaning]
    nofun
  | _, .comment _ rest => by
    intro hb i n g
    rw [Program.meaning]
    exact rest.ending_ne_broken r hb (i + 1) n _
  | _, .command w rest => by
    intro hb i n g
    rw [Program.meaning]
    exact Outcome.andThen_ne_broken (Run.obey_ne_broken i w.line n _)
      (rest.ending_ne_broken r hb (i + 1))
  | _, .breakOut _ _ => nofun
  | _, .ifThen _ body clauses _ rest => by
    intro hb i n g
    rw [Program.meaning]
    dsimp only
    refine Outcome.andThen_ne_broken ?_ (rest.ending_ne_broken r hb _)
    split
    · exact Outcome.andThen_ne_broken (body.ending_ne_broken r hb _ _ _) (Run.leaveIf_ne_broken _)
    · exact clauses.ending_ne_broken r hb _ _ _
  | _, .whileDo _ _ _ rest => by
    intro hb i n g
    rw [Program.meaning]
    refine Outcome.andThen_ne_broken ?_ (rest.ending_ne_broken r hb _)
    exact Outcome.uptoBreak_ne_broken _
  | _, .switchOn _ _ _ _ rest => by
    intro hb i n g
    rw [Program.meaning]
    refine Outcome.andThen_ne_broken ?_ (rest.ending_ne_broken r hb _)
    exact Outcome.uptoBreak_ne_broken _

theorem Clauses.ending_ne_broken (r : Run) : ∀ {b : Bool} (c : Clauses b), b = false →
    ∀ (i n : Nat) (g : Game), (c.meaning r i n g).ending ≠ .broken
  | _, .nil => by
    intro _ i n g
    rw [Clauses.meaning]
    nofun
  | _, .elseIf _ body more => by
    intro hb i n g
    rw [Clauses.meaning]
    dsimp only
    split
    · exact Outcome.andThen_ne_broken (body.ending_ne_broken r hb _ _ _) (Run.leaveIf_ne_broken _)
    · exact more.ending_ne_broken r hb _ _ _
  | _, .elseThen _ body => by
    intro hb i n g
    rw [Clauses.meaning]
    exact Outcome.andThen_ne_broken (body.ending_ne_broken r hb _ _ _) (Run.leaveIf_ne_broken _)

end

/-! ## What is attached meanwhile -/

theorem Game.attachments_le_report {g : Game} (n : Notice) :
    g.attachments ≤ (g.report n).attachments := by
  rw [attachments_report]
  exact Nat.le_add_right _ _

namespace Run

variable {r : Run} {g : Game} {n : Nat}

theorem attachments_leaveIf (line : Nat) : g.attachments ≤ (r.leaveIf line n g).game.attachments :=
  ((quiet_report rfl).trans (quiet_modifyInstance _ _)).le

/-- A clause of an `if` that is entered. -/
theorem attachments_clause {o : Outcome} (line : Nat)
    (h : (g.deepen r.trigger).attachments ≤ o.game.attachments) :
    g.attachments ≤ (o.andThen (r.leaveIf line)).game.attachments :=
  Nat.le_trans (quiet_modifyInstance _ _).le (Nat.le_trans h
    (Outcome.attachments_le_andThen fun _ _ => attachments_leaveIf _))

theorem attachments_obey (hx : Executes r.execute) (line : Nat) (text : String) :
    g.attachments ≤ (r.obey line text n g).game.attachments := by
  have hl := (quiet_look (r := r) (g := g) (·.expand text)).le
  have hc := attachments_command (g := (r.look g (·.expand text)).2) hx { line, loops := n }
    (r.look g (·.expand text)).1
  rw [obey]
  dsimp only
  exact Nat.le_trans hl hc

theorem quiet_note (line : Nat) : Quiet g (r.note line g) := quiet_report rfl

theorem quiet_holds (c : String) : Quiet g (r.holds g c).2 := quiet_evaluate c

theorem attachments_again {c : String} {head last : Nat} {body : Nat → Game → Outcome}
    (hb : ∀ n g, g.attachments ≤ (body n g).game.attachments) (n : Nat) (g : Game) :
    g.attachments ≤ (r.again c head last body n g).game.attachments := by
  have hh := (quiet_note (r := r) (g := g) last).trans (quiet_holds (r := r) c)
  rw [again]
  generalize r.holds (r.note last g) c = p at hh ⊢
  obtain ⟨truth, g1⟩ := p
  have hc := hh.trans (quiet_countLoop r.trigger)
  simp only at hh hc ⊢
  split
  · exact hh.le
  · split
    · exact (hc.trans (quiet_suspend _ _ _ _ _)).le
    · split
      · exact Nat.le_trans hc.le (attachments_le_report _)
      · exact Nat.le_trans hc.le (hb _ _)

theorem attachments_iterate {c : String} {head last : Nat} {body : Nat → Game → Outcome}
    (hb : ∀ n g, g.attachments ≤ (body n g).game.attachments) (fuel n : Nat) (g : Game) :
    g.attachments ≤ (r.iterate c head last body fuel n g).game.attachments := by
  induction fuel generalizing n g with
  | zero => exact Nat.le_refl _
  | succ fuel ih =>
    rw [iterate]
    exact Nat.le_trans (hb n g) (Outcome.attachments_le_andThen (attachments_again ih))

end Run

theorem ArmHead.quiet_fits (r : Run) (subject : String) (g : Game) (h : ArmHead) :
    Quiet g (h.fits r subject g).2 := by
  cases h with
  | @caseOf value _ =>
    rw [fits]
    dsimp only
    exact Run.quiet_evaluate value
  | default _ => exact .refl

section

variable {r : Run}

mutual

theorem Program.attachments_le (hx : Executes r.execute) : ∀ {b : Bool} (p : Program b) (i n : Nat)
    (g : Game), g.attachments ≤ (p.meaning r i n g).game.attachments
  | _, .nil, i, n, g => Nat.le_refl _
  | _, .comment _ rest, i, n, g =>
    Nat.le_trans (Run.quiet_note i).le (rest.attachments_le hx (i + 1) n (r.note i g))
  | _, .command w rest, i, n, g => by
    rw [Program.meaning]
    exact Nat.le_trans (Nat.le_trans (Run.quiet_note i).le (Run.attachments_obey hx i w.line))
      (Outcome.attachments_le_andThen (rest.attachments_le hx (i + 1)))
  | _, .breakOut _ _, i, n, g => (Run.quiet_note i).le
  | _, @Program.ifThen _ c _ body clauses _ rest, i, n, g => by
    rw [Program.meaning]
    have hh := (Run.quiet_note (r := r) (g := g) i).trans (Run.quiet_holds (r := r) c)
    generalize r.holds (r.note i g) c = p at hh ⊢
    obtain ⟨truth, g1⟩ := p
    refine Nat.le_trans (Nat.le_trans hh.le ?_) (Outcome.attachments_le_andThen (rest.attachments_le hx _))
    split
    · exact Run.attachments_clause _ (body.attachments_le hx _ _ _)
    · exact clauses.attachments_le hx _ _ _
  | _, @Program.whileDo _ c _ body _ rest, i, n, g => by
    rw [Program.meaning]
    have hh := (Run.quiet_note (r := r) (g := g) i).trans (Run.quiet_holds (r := r) c)
    generalize r.holds (r.note i g) c = p at hh ⊢
    obtain ⟨truth, g1⟩ := p
    refine Nat.le_trans (Nat.le_trans hh.le ?_) (Outcome.attachments_le_andThen (rest.attachments_le hx _))
    rw [Outcome.game_uptoBreak]
    split
    · exact Run.attachments_iterate (body.attachments_le hx _) _ _ _
    · exact Nat.le_refl _
  | _, @Program.switchOn _ s _ lead arms _ rest, i, n, g => by
    rw [Program.meaning]
    have hh := (Run.quiet_note (r := r) (g := g) i).trans (Run.quiet_evaluate (r := r) s)
    generalize r.evaluate (r.note i g) s = p at hh ⊢
    obtain ⟨subject, g1⟩ := p
    refine Nat.le_trans (Nat.le_trans hh.le ?_) (Outcome.attachments_le_andThen (rest.attachments_le hx _))
    rw [Outcome.game_uptoBreak]
    exact arms.attachments_le_choose hx _ _ _ _

theorem Clauses.attachments_le (hx : Executes r.execute) : ∀ {b : Bool} (c : Clauses b) (i n : Nat)
    (g : Game), g.attachments ≤ (c.meaning r i n g).game.attachments
  | _, .nil, i, n, g => Nat.le_refl _
  | _, @Clauses.elseIf _ c _ body more, i, n, g => by
    rw [Clauses.meaning]
    have hh := Run.quiet_holds (r := r) (g := g) c
    generalize r.holds g c = p at hh ⊢
    obtain ⟨truth, g1⟩ := p
    refine Nat.le_trans hh.le ?_
    simp only
    split
    · exact Run.attachments_clause _ (body.attachments_le hx _ _ _)
    · exact more.attachments_le hx _ _ _
  | _, .elseThen _ body, i, n, g => by
    rw [Clauses.meaning]
    exact Run.attachments_clause _ (body.attachments_le hx _ _ _)

theorem Arms.attachments_le_choose (hx : Executes r.execute) : ∀ (arms : Arms) (subject : String)
    (i n : Nat) (g : Game), g.attachments ≤ (arms.choose r subject i n g).game.attachments
  | .nil, _, i, n, g => Nat.le_refl _
  | .arm head body more, subject, i, n, g => by
    rw [Arms.choose]
    have hf := head.quiet_fits r subject g
    generalize head.fits r subject g = p at hf ⊢
    obtain ⟨fits, g1⟩ := p
    refine Nat.le_trans hf.le ?_
    simp only
    split
    · exact Nat.le_trans (body.attachments_le hx _ _ _)
        (Outcome.attachments_le_andThen (more.attachments_le_fallThrough hx _))
    · exact more.attachments_le_choose hx _ _ _ _

theorem Arms.attachments_le_fallThrough (hx : Executes r.execute) : ∀ (arms : Arms) (i n : Nat)
    (g : Game), g.attachments ≤ (arms.fallThrough r i n g).game.attachments
  | .nil, i, n, g => (Run.quiet_note i).le
  | .arm _ body more, i, n, g => by
    rw [Arms.fallThrough]
    exact Nat.le_trans (Nat.le_trans (Run.quiet_note i).le (body.attachments_le hx _ _ _))
      (Outcome.attachments_le_andThen (more.attachments_le_fallThrough hx _))

end

end

end MudTrigger
