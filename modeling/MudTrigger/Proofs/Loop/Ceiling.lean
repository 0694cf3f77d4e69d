import MudTrigger.Proofs.Loop.Count

/-!
# The ceiling of a run

How often a run can repeat loop bodies depends on which limit of the configuration comes first. A run
that is halted before it would yield never counts more than the ceiling. A run that yields first may
come to the ceiling as it yields, where the ceiling is not looked at, and is halted one repetition
later. And where every repetition yields no run is ever halted (`loops_ceiling`).
-/

set_option autoImplicit false

namespace MudTrigger

/-- What `loopAbortAfter` amounts to: a run is halted at its first repetition at the earliest. -/
def Config.ceiling (c : Config) : Nat := max 1 c.loopAbortAfter

theorem Config.abort_le_ceiling (c : Config) : c.loopAbortAfter ≤ c.ceiling := Nat.le_max_right _ _

theorem Config.ceiling_pos (c : Config) : 0 < c.ceiling := Nat.le_max_left _ _

section

variable {c : Config}

/-- Runs are halted before they would yield. -/
theorem loopLaw_halt (h : c.ceiling < c.loopDeferAfter) :
    LoopLaw c (fun n k => n ≤ k ∧ k < c.ceiling) (· < c.ceiling) (· ≤ c.ceiling) where
  none := c.ceiling_pos
  taken hk := ⟨Nat.zero_le _, hk⟩
  left hr := hr.2
  anew hr := ⟨Nat.zero_le _, hr.2⟩
  again hr _ ha := ⟨Nat.succ_le_succ hr.1, Nat.lt_of_lt_of_le ha c.abort_le_ceiling⟩
  yield hr hd := by
    have hlt := Nat.lt_of_le_of_lt hr.1 hr.2
    omega
  halt hr _ _ := hr.2

/-- Runs go on at least once before they yield. -/
theorem loopLaw_yield (h : 2 ≤ c.loopDeferAfter) :
    LoopLaw c (fun n k => k ≤ c.ceiling ∧ (k = c.ceiling → n = 0)) (· ≤ c.ceiling)
      (· ≤ c.ceiling + 1) where
  none := Nat.zero_le _
  taken hk := ⟨hk, fun _ => rfl⟩
  left hr := hr.1
  anew hr := ⟨hr.1, fun _ => rfl⟩
  again hr _ ha := by
    have hle := c.abort_le_ceiling
    exact ⟨by omega, fun he => by omega⟩
  yield hr hd := by
    -- Two repetitions in a row: at the first the ceiling was looked at.
    have hne := hr.2
    have hle := hr.1
    omega
  halt hr _ _ := Nat.succ_le_succ hr.1

/-- Every repetition yields. -/
theorem loopLaw_endless (h : c.loopDeferAfter ≤ 1) :
    LoopLaw c (fun _ _ => True) (fun _ => True) (fun _ => False) where
  none := trivial
  taken _ := trivial
  left _ := trivial
  anew _ := trivial
  again _ _ _ := trivial
  yield _ _ := trivial
  halt _ hd _ := by omega

end

namespace Game

/-- A moment on the way through a sequence of operations. -/
def Visits (g : Game) (ops : List Operation) (m : Moment) : Prop :=
  ∃ before op after, ops = before ++ op :: after ∧ op.Passes (g.play before) m

/-- Operations end at a moment that they visit. -/
theorem visits_end (g : Game) (before : List Operation) {op : Operation} (hop : op.resumes = false) :
    g.Visits (before ++ [op]) ⟨[], g.play (before ++ [op])⟩ := by
  have hplay : g.play (before ++ [op]) = op.apply (g.play before) := by
    rw [play, List.foldl_append, play]
    rfl
  rw [hplay]
  exact ⟨before, op, [], rfl, Operation.passes_end hop _⟩

theorem Paced.append {g : Game} {before after : List Operation} (h : g.Paced (before ++ after)) :
    g.Paced before ∧ (g.play before).Paced after := by
  induction before generalizing g with
  | nil => exact ⟨trivial, h⟩
  | cons op before ih => exact ⟨⟨h.1, (ih h.2).1⟩, (ih h.2).2⟩

section

variable {R : Nat → Nat → Prop} {S T : Nat → Prop} {config : Config} {registry : Registry}
  {world : World} {ops : List Operation} {m : Moment}

theorem counted_visits (hl : LoopLaw config R S T) (hops : ∀ op ∈ ops, op.resumes = false)
    (hpaced : (start config registry world).Paced ops)
    (hm : (start config registry world).Visits ops m) : Counted R S T m := by
  obtain ⟨before, op, after, rfl, hm⟩ := hm
  obtain ⟨hbefore, hafter⟩ := hpaced.append
  have hops' : ∀ o ∈ before, o.resumes = false := fun o h => hops o (List.mem_append_left _ h)
  obtain ⟨hc, hcfg⟩ := (Counted.start config registry world).play hl
    (orderly_start config registry world) rfl hops' hbefore
  exact (hc.passes hl ((orderly_start config registry world).play hops' hbefore) hcfg hafter.1 hm).1

/-- What the repetitions of a trigger come to at most. -/
theorem Counted.loops_le {n : Nat} {h : Handle} {i : Instance} (hc : Counted R S T m)
    (hR : ∀ {j k}, R j k → k ≤ n) (hS : ∀ {k}, S k → k ≤ n) (hi : m.game.instance? h = some i) :
    i.loops ≤ n := by
  by_cases hh : h ∈ m.handles
  · obtain ⟨a, ha, rfl⟩ := List.mem_map.1 hh
    exact hR (hc.running ha hi)
  · exact hS (hc.idle hi hh)

theorem Counted.halted_log {v : Vnum} {n : String} {k : Nat} (hc : Counted R S T m)
    (hk : .looped v n k ∈ m.game.log) : T k := hc.halted (List.mem_filter.2 ⟨hk, rfl⟩)

end

/-- A run never counts more than the ceiling if it goes on at least once before it yields. It is cut
short at the ceiling if it does not yield before, else one repetition later at most; and never, if every
repetition yields. -/
theorem loops_ceiling (config : Config) (registry : Registry) (world : World)
    (ops : List Operation) (hops : ∀ op ∈ ops, op.resumes = false)
    (hpaced : (start config registry world).Paced ops) (m : Moment)
    (hm : (start config registry world).Visits ops m) :
    (2 ≤ config.loopDeferAfter →
      (∀ h i, m.game.instance? h = some i → i.loops ≤ config.ceiling) ∧
      ∀ v n k, .looped v n k ∈ m.game.log → k ≤ config.ceiling + 1) ∧
    (config.ceiling < config.loopDeferAfter →
      ∀ v n k, .looped v n k ∈ m.game.log → k ≤ config.ceiling) ∧
    (config.loopDeferAfter ≤ 1 → ∀ v n k, .looped v n k ∉ m.game.log) := by
  refine ⟨fun hd => ?_, fun hd v n k hk => ?_, fun hd v n k hk => ?_⟩
  · have hc := counted_visits (loopLaw_yield hd) hops hpaced hm
    refine ⟨fun h i hi => Counted.loops_le hc And.left id hi, fun v n k hk => ?_⟩
    have hT := Counted.halted_log hc hk
    exact hT
  · have hT := Counted.halted_log (counted_visits (loopLaw_halt hd) hops hpaced hm) hk
    exact hT
  · have hT := Counted.halted_log (counted_visits (loopLaw_endless hd) hops hpaced hm) hk
    exact hT

/-- A trigger of rooms that never comes to an end by itself. -/
def spinning : Prototype :=
  { vnum := 1, name := "spin", kind := .room, script := Script.compile "while 1\ndone" }

/-- A room whose trigger spins, with these limits. -/
def treadmill (deferAfter abortAfter : Nat) : Game :=
  start (({} : Config).withLoopLimits deferAfter abortAfter) ((∅ : Registry).register spinning)
    (({} : World).addRoom 3001 "Hall").2

/-- Attaching the trigger, running it, and some pulses. -/
def spin (pulses : Nat) : List Operation :=
  .attach 1 (Uid.room 0) none :: .run .standard ⟨0, 0⟩ .new ::
    List.replicate pulses (.pulse .standard)

theorem loops_ceiling_spin :
    (∀ op ∈ spin 1, op.resumes = false) ∧ (treadmill 2 2).Paced (spin 1) ∧
    (treadmill 2 2).Visits (spin 1) ⟨[], (treadmill 2 2).play (spin 1)⟩ ∧
    .looped 1 "spin" 3 ∈ ((treadmill 2 2).play (spin 1)).log ∧
    ∀ v n k, .looped v n k ∈ ((treadmill 2 2).play (spin 1)).log → k ≤ 3 := by
  have hops : ∀ op ∈ spin 1, op.resumes = false := by simp [spin, Operation.resumes]
  have hpaced : (treadmill 2 2).Paced (spin 1) := by decide +kernel
  have hvisits := visits_end (treadmill 2 2)
    [.attach 1 (Uid.room 0) none, .run .standard ⟨0, 0⟩ .new]
    (show (Operation.pulse .standard).resumes = false from rfl)
  have hlooped : .looped 1 "spin" 3 ∈ ((treadmill 2 2).play (spin 1)).log := by decide +kernel
  have hceiling := loops_ceiling (({} : Config).withLoopLimits 2 2)
    ((∅ : Registry).register spinning) (({} : World).addRoom 3001 "Hall").2 (spin 1) hops hpaced
    _ hvisits
  exact ⟨hops, hpaced, hvisits, hlooped, (hceiling.1 (by decide)).2⟩

/-- A run that yields at every repetition counts past its ceiling and goes on. -/
theorem loops_past_ceiling :
    (treadmill 1 3).engine.config.ceiling = 3 ∧
    (((treadmill 1 3).play (spin 5)).instance? ⟨0, 0⟩).map (fun i => (i.loops, i.wait.isSome)) =
      some (6, true) := by
  decide +kernel

end Game

end MudTrigger
