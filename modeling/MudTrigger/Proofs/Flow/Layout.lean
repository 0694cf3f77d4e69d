import MudTrigger.Proofs.Blocks.Links
import MudTrigger.Proofs.Flow.Program
import MudTrigger.Proofs.Text.Lines

/-!
# Where the lines of a program lead

`Program.Laid s out p i`: the program stands in the script `s` from line `i` on, every line leads
where the tree has it, and a `break` of the program leads to line `out`. Compiling the text of a
program lays it (`Program.compile_laid`).

The blocks of a program are matched with each other and with nothing else. `Region ks lo i j` says
so of the lines from `i` up to `j`: what is open before them is open after them, and what belongs to
a block belongs to one that begins at `lo` or later.
-/

set_option autoImplicit false

namespace MudTrigger

/-! ## Programs in scripts -/

/-- The lines of the arms of a switch. -/
def Arms.heads : Arms → Nat → List Nat
  | .nil, _ => []
  | .arm _ body more, i => i :: more.heads (i + 1 + body.size)

def ArmHead.line : ArmHead → Line
  | @caseOf value w => ⟨w.line, .caseOf value⟩
  | .default w => ⟨w.line, .default⟩

mutual

/-- The program stands in a script from a line on (module doc). -/
def Program.Laid (s : Script) (out : Nat) : {b : Bool} → Program b → Nat → Prop
  | _, .nil, _ => True
  | _, .comment w rest, i => s.line? i = some ⟨w.line, .comment⟩ ∧ rest.Laid s out (i + 1)
  | _, .command w rest, i => s.line? i = some ⟨w.line, .command⟩ ∧ rest.Laid s out (i + 1)
  | _, @Program.ifThen _ c w body clauses last rest, i =>
    let j := i + 1 + body.size
    s.line? i = some ⟨w.line, .ifThen c (some j)⟩ ∧ body.Laid s out (i + 1) ∧
      clauses.Laid s out (j + clauses.size) j ∧
      s.line? (j + clauses.size) = some ⟨last.line, .endIf⟩ ∧
      rest.Laid s out (j + clauses.size + 1)
  | _, @Program.whileDo _ c w body last rest, i =>
    let j := i + 1 + body.size
    s.line? i = some ⟨w.line, .whileDo c (some j)⟩ ∧ body.Laid s j (i + 1) ∧
      s.line? j = some ⟨last.line, .done (some i)⟩ ∧ rest.Laid s out (j + 1)
  | _, @Program.switchOn _ v w lead arms last rest, i =>
    let j := i + 1 + lead.size
    s.line? i = some ⟨w.line, .switchOn v (arms.heads j) (some (j + arms.size))⟩ ∧
      arms.Laid s (j + arms.size) j ∧ s.line? (j + arms.size) = some ⟨last.line, .done none⟩ ∧
      rest.Laid s out (j + arms.size + 1)
  | _, .breakOut w _, i => s.line? i = some ⟨w.line, .breakOut (some out)⟩

/-- Clauses of an `if` whose `end` is at line `close`. -/
def Clauses.Laid (s : Script) (out close : Nat) : {b : Bool} → Clauses b → Nat → Prop
  | _, .nil, _ => True
  | _, @Clauses.elseIf _ c w body more, i =>
    s.line? i = some ⟨w.line, .elseIf c (some (i + 1 + body.size)) (some close)⟩ ∧
      body.Laid s out (i + 1) ∧ more.Laid s out close (i + 1 + body.size)
  | _, .elseThen w body, i =>
    s.line? i = some ⟨w.line, .elseThen (some close)⟩ ∧ body.Laid s out (i + 1)

def Arms.Laid (s : Script) (out : Nat) : Arms → Nat → Prop
  | .nil, _ => True
  | .arm head body more, i =>
    s.line? i = some head.line ∧ body.Laid s out (i + 1) ∧ more.Laid s out (i + 1 + body.size)

end

/-! ## Regions -/

/-- The lines from `i` up to `j` leave open what was open before them, and belong to no block that
begins before line `lo`. -/
structure Region (ks : List Keyword) (lo i j : Nat) : Prop where
  ifs : openLines .ifs ks j = openLines .ifs ks i
  loops : openLines .loops ks j = openLines .loops ks i
  clause : ∀ {e a}, i ≤ e → e < j → ClauseOf ks a e → lo ≤ a
  arm : ∀ {e a}, i ≤ e → e < j → ArmOf ks a e → lo ≤ a

namespace Region

variable {ks : List Keyword} {lo lo' i j l : Nat} {k : Keyword}

theorem refl (ks : List Keyword) (lo i : Nat) : Region ks lo i i :=
  ⟨rfl, rfl, fun h h' => absurd h' (Nat.not_lt.2 h), fun h h' => absurd h' (Nat.not_lt.2 h)⟩

theorem mono (h : Region ks lo i j) (hlo : lo' ≤ lo) : Region ks lo' i j :=
  ⟨h.ifs, h.loops, fun he he' hc => Nat.le_trans hlo (h.clause he he' hc),
    fun he he' ha => Nat.le_trans hlo (h.arm he he' ha)⟩

theorem trans (h : Region ks lo i j) (h' : Region ks lo j l) : Region ks lo i l where
  ifs := h'.ifs.trans h.ifs
  loops := h'.loops.trans h.loops
  clause {e a} he he' hc := by
    rcases Nat.lt_or_ge e j with hej | hej
    · exact h.clause he hej hc
    · exact h'.clause hej he' hc
  arm {e a} he he' ha := by
    rcases Nat.lt_or_ge e j with hej | hej
    · exact h.arm he hej ha
    · exact h'.arm hej he' ha

/-- A line before a region that goes on behind it. -/
theorem cons {n : Nat} (hline : Region ks i i (i + 1)) (h : Region ks (i + 1) (i + 1) (i + 1 + n)) :
    Region ks i i (i + (n + 1)) := by
  have hrest := h.mono (Nat.le_succ i)
  rw [Nat.add_right_comm] at hrest
  exact hline.trans hrest

end Region

section

variable {ks : List Keyword} {lo i j e a n : Nat} {k : Keyword}

/-- A line that is no arm by its keyword belongs to no switch. -/
theorem not_arm (hk : ks[e]? = some k) (ha : k.isArm = false) : ¬ ArmOf ks a e := fun h => by
  rw [(lineIs_of hk).1 h.1] at ha
  cases ha

/-- A clause belongs to the innermost open `if`. -/
theorem ClauseOf.eq_head (h : ClauseOf ks a e) {is : List Nat} (ho : openLines .ifs ks e = i :: is) :
    a = i := by
  have hn := head?_openLines.2 h.nearest
  rw [ho, List.head?_cons, Option.some.injEq] at hn
  exact hn.symm

/-- An arm belongs to the innermost open block if that is a switch. -/
theorem ArmOf.eq_head (h : ArmOf ks a e) (hs : LineIs ks i Keyword.isSwitch) {is : List Nat}
    (ho : openLines .loops ks e = i :: is) : a = i := by
  have hn := find?_openLines.2 h.2
  rw [ho, List.find?_cons_of_pos (p := fun i => ks[i]?.any Keyword.isSwitch) hs,
    Option.some.injEq] at hn
  exact hn.symm

/-- A line that opens and closes nothing, is no clause, and no arm. -/
theorem region_plain (hk : ks[i]? = some k) (hif : k.opensIf = false) (hend : k.closesIf = false)
    (hloop : k.opensLoop = false) (hdone : k.closesLoop = false) (hb : k.isBranch = false)
    (ha : k.isArm = false) (lo : Nat) : Region ks lo i (i + 1) where
  ifs := openLines_keeps hk hif hend
  loops := openLines_keeps hk hloop hdone
  clause h h' hc := by
    obtain rfl := Nat.le_antisymm h (Nat.le_of_lt_succ h')
    exact absurd hc (not_clause hk hb hend)
  arm h h' hx := by
    obtain rfl := Nat.le_antisymm h (Nat.le_of_lt_succ h')
    exact absurd hx (not_arm hk ha)

theorem region_branch (hk : ks[i]? = some k) (hb : k.isBranch = true) {is : List Nat}
    (ho : openLines .ifs ks i = a :: is) : Region ks a i (i + 1) where
  ifs := by
    refine openLines_keeps hk ?_ (Keyword.closesIf_of_isBranch k hb)
    cases k <;> first | rfl | cases hb
  loops := by refine openLines_keeps hk ?_ ?_ <;> cases k <;> first | rfl | cases hb
  clause h h' hc := by
    obtain rfl := Nat.le_antisymm h (Nat.le_of_lt_succ h')
    exact Nat.le_of_eq (hc.eq_head ho).symm
  arm h h' hx := by
    obtain rfl := Nat.le_antisymm h (Nat.le_of_lt_succ h')
    refine absurd hx (not_arm hk ?_)
    cases k <;> first | rfl | cases hb

theorem region_arm (hk : ks[i]? = some k) (ha : k.isArm = true)
    (hs : LineIs ks a Keyword.isSwitch) {is : List Nat} (ho : openLines .loops ks i = a :: is) :
    Region ks a i (i + 1) where
  ifs := by refine openLines_keeps hk ?_ ?_ <;> cases k <;> first | rfl | cases ha
  loops := by refine openLines_keeps hk ?_ ?_ <;> cases k <;> first | rfl | cases ha
  clause h h' hc := by
    obtain rfl := Nat.le_antisymm h (Nat.le_of_lt_succ h')
    refine absurd hc (not_clause hk ?_ ?_) <;> cases k <;> first | rfl | cases ha
  arm h h' hx := by
    obtain rfl := Nat.le_antisymm h (Nat.le_of_lt_succ h')
    exact Nat.le_of_eq (hx.eq_head hs ho).symm

/-- The line that closes the innermost open `if`, from what is open before it. -/
theorem closes_of_open {b : Brackets} (hk : ks[j]? = some k) (hc : b.closes k = true)
    {is : List Nat} (ho : openLines b ks j = i :: is) : Closes b ks j i :=
  closes_iff.2 ⟨(lineIs_of hk).2 hc, head?_openLines.1 (by rw [ho, List.head?_cons])⟩

/-- An `if` whose clauses are within it. -/
theorem region_if {c : String} (hi : ks[i]? = some (.ifThen c)) (h : Region ks i (i + 1) j)
    (hij : i < j) (hj : ks[j]? = some .endIf) : Region ks i i (j + 1) := by
  have hopen : openLines .ifs ks j = i :: openLines .ifs ks i :=
    h.ifs.trans (openLines_opens hi rfl)
  refine ⟨?_, ?_, fun {e a} he he' hc => ?_, fun {e a} he he' ha => ?_⟩
  · rw [openLines_closes hj rfl, hopen, List.tail_cons]
  · rw [openLines_keeps hj rfl rfl, h.loops, openLines_keeps hi rfl rfl]
  · rcases Nat.eq_or_lt_of_le he with rfl | he
    · exact absurd hc (not_clause hi rfl rfl)
    · rcases Nat.eq_or_lt_of_le (Nat.le_of_lt_succ he') with rfl | he'
      · exact Nat.le_of_eq (hc.eq_head hopen).symm
      · exact h.clause he he' hc
  · rcases Nat.eq_or_lt_of_le he with rfl | he
    · exact absurd ha (not_arm hi rfl)
    · rcases Nat.eq_or_lt_of_le (Nat.le_of_lt_succ he') with rfl | he'
      · exact absurd ha (not_arm hj rfl)
      · exact h.arm he he' ha

/-- A loop or switch whose arms are within it. -/
theorem region_loop (hi : ks[i]? = some k) (hk : k.opensLoop = true) (h : Region ks i (i + 1) j)
    (hj : ks[j]? = some .done) : Region ks i i (j + 1) := by
  have hkeep : k.opensIf = false ∧ k.closesIf = false ∧ k.isBranch = false ∧ k.isArm = false := by
    cases k <;> first | exact ⟨rfl, rfl, rfl, rfl⟩ | cases hk
  obtain ⟨hif, hend, hb, ha⟩ := hkeep
  refine ⟨?_, ?_, fun {e a} he he' hc => ?_, fun {e a} he he' hx => ?_⟩
  · rw [openLines_keeps hj rfl rfl, h.ifs, openLines_keeps hi hif hend]
  · rw [openLines_closes hj rfl, h.loops, openLines_opens hi hk, List.tail_cons]
  · rcases Nat.eq_or_lt_of_le he with rfl | he
    · exact absurd hc (not_clause hi hb hend)
    · rcases Nat.eq_or_lt_of_le (Nat.le_of_lt_succ he') with rfl | he'
      · exact absurd hc (not_clause hj rfl rfl)
      · exact h.clause he he' hc
  · rcases Nat.eq_or_lt_of_le he with rfl | he
    · exact absurd hx (not_arm hi ha)
    · rcases Nat.eq_or_lt_of_le (Nat.le_of_lt_succ he') with rfl | he'
      · exact absurd hx (not_arm hj rfl)
      · exact h.arm he he' hx

end

/-! ## The lines of a program within others -/

/-- These lines stand among all the lines from line `i` on. -/
def Stands (all : List Written) (i : Nat) (lines : List Written) : Prop :=
  ∀ n x, lines[n]? = some x → all[i + n]? = some x

section

variable {all lines : List Written} {x : Written} {i : Nat}

theorem stands_nil (all : List Written) (i : Nat) : Stands all i [] := fun n x hx => by cases hx

theorem stands_cons : Stands all i (x :: lines) ↔ all[i]? = some x ∧ Stands all (i + 1) lines := by
  constructor
  · intro h
    refine ⟨h 0 x rfl, fun n y hy => ?_⟩
    rw [Nat.add_right_comm]
    exact h (n + 1) y hy
  · rintro ⟨hx, h⟩ n y hy
    cases n with
    | zero => exact Option.some.inj hy ▸ hx
    | succ n =>
      rw [Nat.add_succ, ← Nat.succ_add]
      exact h n y hy

theorem stands_append {before after : List Written} :
    Stands all i (before ++ after) ↔
      Stands all i before ∧ Stands all (i + before.length) after := by
  induction before generalizing i with
  | nil => exact ⟨fun h => ⟨stands_nil all i, h⟩, And.right⟩
  | cons y before ih =>
    rw [List.cons_append, stands_cons, stands_cons, ih, and_assoc, List.length_cons,
      Nat.add_right_comm i 1, Nat.add_assoc i]

theorem stands_self (all : List Written) : Stands all 0 all := fun n x hx => by rwa [Nat.zero_add]

/-- The keywords of lines. -/
def keywordsOf (all : List Written) : List Keyword := all.map (·.1)

theorem keyword_at {k : Keyword} {w : Wording k} (h : all[i]? = some ⟨k, w⟩) :
    (keywordsOf all)[i]? = some k := by
  rw [keywordsOf, List.getElem?_map, h, Option.map_some]

theorem keyword_head {h : ArmHead} (hi : all[i]? = some h.written) :
    ∃ k, (keywordsOf all)[i]? = some k ∧ k.isArm = true := by
  cases h with
  | caseOf w => exact ⟨_, keyword_at hi, rfl⟩
  | default w => exact ⟨_, keyword_at hi, rfl⟩

end

mutual

theorem Program.region {all : List Written} : ∀ {b : Bool} (p : Program b) {i : Nat},
    Stands all i p.lines → Region (keywordsOf all) i i (i + p.size)
  | _, .nil, i, _ => .refl _ _ _
  | _, .comment _ rest, i, h => by
    obtain ⟨hi, h⟩ := stands_cons.1 h
    exact (region_plain (keyword_at hi) rfl rfl rfl rfl rfl rfl i).cons (rest.region h)
  | _, .command _ rest, i, h => by
    obtain ⟨hi, h⟩ := stands_cons.1 h
    exact (region_plain (keyword_at hi) rfl rfl rfl rfl rfl rfl i).cons (rest.region h)
  | _, .breakOut _ rest, i, h => by
    obtain ⟨hi, h⟩ := stands_cons.1 h
    exact (region_plain (keyword_at hi) rfl rfl rfl rfl rfl rfl i).cons (rest.region h)
  | _, .ifThen _ body clauses _ rest, i, h => by
    obtain ⟨hi, h⟩ := stands_cons.1 h
    obtain ⟨hbody, h⟩ := stands_append.1 h
    obtain ⟨hclauses, h⟩ := stands_append.1 h
    obtain ⟨hlast, hrest⟩ := stands_cons.1 h
    have hbody := body.region hbody
    have hopen := hbody.ifs.trans (openLines_opens (keyword_at hi) rfl)
    have hinner := (hbody.mono (Nat.le_succ i)).trans (clauses.region hclauses hopen (by omega))
    have hrest := (rest.region hrest).mono (show i ≤ _ by omega)
    have hall := (region_if (keyword_at hi) hinner (by omega) (keyword_at hlast)).trans hrest
    rwa [Program.size_ifThen, ← Nat.add_assoc, ← Nat.add_assoc, ← Nat.add_assoc, ← Nat.add_assoc]
  | _, .whileDo _ body _ rest, i, h => by
    obtain ⟨hi, h⟩ := stands_cons.1 h
    obtain ⟨hbody, h⟩ := stands_append.1 h
    obtain ⟨hlast, hrest⟩ := stands_cons.1 h
    have hinner := (body.region hbody).mono (Nat.le_succ i)
    have hrest := (rest.region hrest).mono (show i ≤ _ by omega)
    have hall := (region_loop (keyword_at hi) rfl hinner (keyword_at hlast)).trans hrest
    rwa [Program.size_whileDo, ← Nat.add_assoc, ← Nat.add_assoc, ← Nat.add_assoc]
  | _, .switchOn _ lead arms _ rest, i, h => by
    obtain ⟨hi, h⟩ := stands_cons.1 h
    obtain ⟨hlead, h⟩ := stands_append.1 h
    obtain ⟨harms, h⟩ := stands_append.1 h
    obtain ⟨hlast, hrest⟩ := stands_cons.1 h
    have hlead := lead.region hlead
    have hopen := hlead.loops.trans (openLines_opens (keyword_at hi) rfl)
    have hinner := (hlead.mono (Nat.le_succ i)).trans
      (arms.region harms hopen ((lineIs_of (keyword_at hi)).2 rfl) (by omega))
    have hrest := (rest.region hrest).mono (show i ≤ _ by omega)
    have hall := (region_loop (keyword_at hi) rfl hinner (keyword_at hlast)).trans hrest
    rwa [Program.size_switchOn, ← Nat.add_assoc, ← Nat.add_assoc, ← Nat.add_assoc, ← Nat.add_assoc]

theorem Clauses.region {all : List Written} : ∀ {b : Bool} (c : Clauses b) {i a : Nat}
    {is : List Nat}, Stands all i c.lines → openLines .ifs (keywordsOf all) i = a :: is → a ≤ i →
      Region (keywordsOf all) a i (i + c.size)
  | _, .nil, i, a, _, _, _, _ => .refl _ _ _
  | _, .elseIf _ body more, i, a, is, h, ho, ha => by
    obtain ⟨hi, h⟩ := stands_cons.1 h
    obtain ⟨hbody, hmore⟩ := stands_append.1 h
    have hline := region_branch (keyword_at hi) rfl ho
    have hbody := hline.trans ((body.region hbody).mono (Nat.le_succ_of_le ha))
    have hall := hbody.trans (more.region hmore (hbody.ifs.trans ho) (by omega))
    rwa [Clauses.size_elseIf, ← Nat.add_assoc, ← Nat.add_assoc]
  | _, .elseThen _ body, i, a, is, h, ho, ha => by
    obtain ⟨hi, hbody⟩ := stands_cons.1 h
    have hline := region_branch (keyword_at hi) rfl ho
    have hall := hline.trans ((body.region hbody).mono (Nat.le_succ_of_le ha))
    rwa [Clauses.size_elseThen, ← Nat.add_assoc]

theorem Arms.region {all : List Written} : ∀ (arms : Arms) {i a : Nat} {is : List Nat},
    Stands all i arms.lines → openLines .loops (keywordsOf all) i = a :: is →
      LineIs (keywordsOf all) a Keyword.isSwitch → a ≤ i →
      Region (keywordsOf all) a i (i + arms.size)
  | .nil, i, a, _, _, _, _, _ => .refl _ _ _
  | .arm head body more, i, a, is, h, ho, hs, ha => by
    obtain ⟨hi, h⟩ := stands_cons.1 h
    obtain ⟨hbody, hmore⟩ := stands_append.1 h
    obtain ⟨k, hk, harm⟩ := keyword_head hi
    have hline := region_arm hk harm hs ho
    have hbody := hline.trans ((body.region hbody).mono (Nat.le_succ_of_le ha))
    have hall := hbody.trans (more.region hmore (hbody.loops.trans ho) hs (by omega))
    rwa [Arms.size_arm, ← Nat.add_assoc, ← Nat.add_assoc]

end

/-! ## Where the lines lead -/

section

variable {ks : List Keyword} {i j a e out : Nat} {c : String}

theorem op_ifThen (hk : ks[i]? = some (.ifThen c)) (h : NextClause ks i i j) :
    (Links.ofKeywords ks).op i (.ifThen c) = .ifThen c (some j) := by
  rw [Links.op, ((Links.linked hk).2 j).2 h]

theorem op_elseIf (hk : ks[e]? = some (.elseIf c)) (h : NextClause ks i e j)
    (hb : BranchOf ks i e) (hc : Closes .ifs ks out i) :
    (Links.ofKeywords ks).op e (.elseIf c) = .elseIf c (some j) (some out) := by
  rw [Links.op, ((Links.linked hk).2.1 j).2 ⟨i, hb, h⟩, ((Links.linked hk).2.2 out).2 ⟨i, hb, hc⟩]

theorem op_elseThen (hk : ks[e]? = some .elseThen) (hb : BranchOf ks i e)
    (hc : Closes .ifs ks out i) :
    (Links.ofKeywords ks).op e .elseThen = .elseThen (some out) := by
  rw [Links.op, (Links.linked hk out).2 ⟨i, hb, hc⟩]

theorem op_whileDo (hk : ks[i]? = some (.whileDo c)) (h : Closes .loops ks j i) :
    (Links.ofKeywords ks).op i (.whileDo c) = .whileDo c (some j) := by
  rw [Links.op, ((Links.linked hk).2 j).2 h]

theorem op_switchOn (hk : ks[i]? = some (.switchOn c)) (h : Closes .loops ks j i) {arms : List Nat}
    (hs : arms.Pairwise (· < ·)) (harms : ∀ a, a ∈ arms ↔ ArmOf ks i a) :
    (Links.ofKeywords ks).op i (.switchOn c) = .switchOn c arms (some j) := by
  obtain ⟨-, hs', harms', hout⟩ := Links.linked hk
  -- Two ascending lists with the same members are the same list.
  have hperm := (List.perm_ext_iff_of_nodup (hs'.imp Nat.ne_of_lt) (hs.imp Nat.ne_of_lt)).2
    fun a => (harms' a).trans (harms a).symm
  have heq := hperm.eq_of_pairwise (fun a b _ _ h h' => absurd h (Nat.lt_asymm h')) hs' hs
  rw [Links.op, (hout j).2 h, heq]

theorem op_breakOut (hk : ks[e]? = some .breakOut) (hb : BreakOf ks i e)
    (hc : Closes .loops ks out i) :
    (Links.ofKeywords ks).op e .breakOut = .breakOut (some out) := by
  rw [Links.op, (Links.linked hk out).2 ⟨i, hb, hc⟩]

theorem op_done_while (hk : ks[j]? = some .done) (hi : ks[i]? = some (.whileDo c))
    (h : Closes .loops ks j i) : (Links.ofKeywords ks).op j .done = .done (some i) := by
  rw [Links.op, (Links.linked hk i).2 ⟨h, (lineIs_of hi).2 rfl⟩]

theorem op_done_switch (hk : ks[j]? = some .done) (hi : ks[i]? = some (.switchOn c))
    (h : Closes .loops ks j i) : (Links.ofKeywords ks).op j .done = .done none := by
  have hl : Target ((Links.ofKeywords ks).head.get? j) _ := Links.linked hk
  have hnone : (Links.ofKeywords ks).head.get? j = none := by
    refine Option.eq_none_iff_forall_ne_some.2 fun a ha => ?_
    obtain ⟨hc, hw⟩ := (hl a).1 ha
    obtain rfl := (closes_iff.1 hc).2.unique (closes_iff.1 h).2
    cases (lineIs_of hi).1 hw
  rw [Links.op, hnone]

/-- Behind a program that begins after a clause comes the next clause. -/
theorem nextClause_of (hc : ClauseOf ks a j) (hr : Region ks (e + 1) (e + 1) j) (ha : a ≤ e)
    (hej : e < j) : NextClause ks a e j :=
  ⟨hc, hej, fun j' h h' hcl => absurd (hr.clause h h' hcl) (by omega)⟩

/-- Line `out` closes the innermost loop or switch that is open at line `i`. -/
def BreaksTo (ks : List Keyword) (i out : Nat) : Prop :=
  ∃ a is, openLines .loops ks i = a :: is ∧ Closes .loops ks out a

theorem BreaksTo.of_eq (h : BreaksTo ks i out) (he : openLines .loops ks j = openLines .loops ks i) :
    BreaksTo ks j out := by
  obtain ⟨a, is, ho, hc⟩ := h
  exact ⟨a, is, he.trans ho, hc⟩

end

/-! ## The script of a program -/

/-- The script whose lines are written so. -/
def scriptOf (all : List Written) : Script := .ofLines (all.map fun x => x.2.line)

section

variable {all : List Written} {i j a e out close : Nat} {k : Keyword}

theorem keywords_scriptOf (all : List Written) :
    (all.map fun x => x.2.line).map Keyword.ofText = keywordsOf all := by
  rw [keywordsOf, List.map_map]
  refine List.map_congr_left fun x _ => ?_
  rw [Function.comp_apply, x.2.ofText_line]

theorem line_at {w : Wording k} (h : all[i]? = some ⟨k, w⟩) {o : Op}
    (ho : (Links.ofKeywords (keywordsOf all)).op i k = o) :
    (scriptOf all).line? i = some ⟨w.line, o⟩ := by
  rw [scriptOf, Script.line?_ofLines, keywords_scriptOf, List.getElem?_map, h, Option.map_some,
    Option.map_some, w.ofText_line, ho]

theorem line_head {h : ArmHead} (hi : all[i]? = some h.written) :
    (scriptOf all).line? i = some h.line := by
  cases h with
  | caseOf w => exact line_at hi rfl
  | default w => exact line_at hi rfl

/-- What stands behind the body of a clause is another clause of the same `if`. -/
theorem Clauses.clauseOf {b : Bool} {c : Clauses b} {is : List Nat} (h : Stands all i c.lines)
    (ho : openLines .ifs (keywordsOf all) i = a :: is)
    (hc : Closes .ifs (keywordsOf all) (i + c.size) a) : ClauseOf (keywordsOf all) a i := by
  have hn := head?_openLines.1 (show (openLines .ifs (keywordsOf all) i).head? = some a by
    rw [ho, List.head?_cons])
  cases c with
  | nil => exact .inr hc
  | elseIf w body more => exact .inl ⟨(lineIs_of (keyword_at (stands_cons.1 h).1)).2 rfl, hn⟩
  | elseThen w body => exact .inl ⟨(lineIs_of (keyword_at (stands_cons.1 h).1)).2 rfl, hn⟩

theorem Arms.heads_sorted (arms : Arms) (i : Nat) :
    (arms.heads i).Pairwise (· < ·) ∧ ∀ e ∈ arms.heads i, i ≤ e := by
  match arms with
  | .nil => exact ⟨.nil, fun e h => absurd h List.not_mem_nil⟩
  | .arm _ body more =>
    obtain ⟨hs, hle⟩ := more.heads_sorted (i + 1 + body.size)
    refine ⟨List.pairwise_cons.2 ⟨fun e he => ?_, hs⟩, fun e he => ?_⟩
    · have := hle e he
      omega
    · rcases List.mem_cons.1 he with rfl | he
      · exact Nat.le_refl _
      · have := hle e he
        omega

/-- The arms of a switch are those that begin its arms. -/
theorem Arms.mem_heads : ∀ (arms : Arms) {i a : Nat} {is : List Nat},
    Stands all i arms.lines → openLines .loops (keywordsOf all) i = a :: is →
      LineIs (keywordsOf all) a Keyword.isSwitch → a < i → ∀ e,
      e ∈ arms.heads i ↔ (i ≤ e ∧ e < i + arms.size) ∧ ArmOf (keywordsOf all) a e
  | .nil, i, a, is, _, _, _, _, e => by
    refine ⟨fun h => absurd h List.not_mem_nil, fun ⟨⟨h, h'⟩, _⟩ => ?_⟩
    exact absurd h' (Nat.not_lt.2 h)
  | .arm head body more, i, a, is, h, ho, hs, ha, e => by
    obtain ⟨hi, h⟩ := stands_cons.1 h
    obtain ⟨hbody, hmore⟩ := stands_append.1 h
    obtain ⟨k, hk, harm⟩ := keyword_head hi
    have hbody := body.region hbody
    have ho' := hbody.loops.trans ((region_arm hk harm hs ho).loops.trans ho)
    have hfirst : ArmOf (keywordsOf all) a i := ⟨(lineIs_of hk).2 harm, find?_openLines.1 (by
      rw [ho, List.find?_cons_of_pos (p := fun i => (keywordsOf all)[i]?.any Keyword.isSwitch) hs])⟩
    have hmore := more.mem_heads hmore ho' hs (by omega) e
    rw [← Program.size] at hmore
    rw [Arms.heads, List.mem_cons, hmore, Arms.size_arm]
    constructor
    · rintro (rfl | ⟨⟨h, h'⟩, hx⟩)
      · exact ⟨⟨Nat.le_refl _, by omega⟩, hfirst⟩
      · exact ⟨⟨by omega, by omega⟩, hx⟩
    · rintro ⟨⟨h, h'⟩, hx⟩
      rcases Nat.eq_or_lt_of_le h with rfl | h
      · exact .inl rfl
      · rcases Nat.lt_or_ge e (i + 1 + body.size) with hlt | hge
        · have hle := hbody.arm h hlt hx
          omega
        · exact .inr ⟨⟨hge, by omega⟩, hx⟩

mutual

theorem Program.laid : ∀ {b : Bool} (p : Program b) {i out : Nat}, Stands all i p.lines →
    (b = true → BreaksTo (keywordsOf all) i out) → p.Laid (scriptOf all) out i
  | _, .nil, _, _, _, _ => trivial
  | _, .comment _ rest, i, out, h, hout => by
    obtain ⟨hi, hrest⟩ := stands_cons.1 h
    have hr := region_plain (keyword_at hi) rfl rfl rfl rfl rfl rfl i
    exact ⟨line_at hi rfl, rest.laid hrest fun hb => (hout hb).of_eq hr.loops⟩
  | _, .command _ rest, i, out, h, hout => by
    obtain ⟨hi, hrest⟩ := stands_cons.1 h
    have hr := region_plain (keyword_at hi) rfl rfl rfl rfl rfl rfl i
    exact ⟨line_at hi rfl, rest.laid hrest fun hb => (hout hb).of_eq hr.loops⟩
  | _, .breakOut _ _, i, out, h, hout => by
    obtain ⟨hi, -⟩ := stands_cons.1 h
    obtain ⟨a, is, ho, hc⟩ := hout rfl
    refine line_at hi (op_breakOut (keyword_at hi) ⟨(lineIs_of (keyword_at hi)).2 rfl, ?_⟩ hc)
    exact head?_openLines.1 (by rw [ho, List.head?_cons])
  | _, .ifThen _ body clauses _ rest, i, out, h, hout => by
    obtain ⟨hi, h⟩ := stands_cons.1 h
    obtain ⟨hbody, h⟩ := stands_append.1 h
    obtain ⟨hclauses, h⟩ := stands_append.1 h
    obtain ⟨hlast, hrest⟩ := stands_cons.1 h
    have hr := body.region hbody
    have hopen := hr.ifs.trans (openLines_opens (keyword_at hi) rfl)
    have hrc := clauses.region hclauses hopen (by omega)
    have hclose := closes_of_open (keyword_at hlast) rfl (hrc.ifs.trans hopen)
    have hnext := nextClause_of (clauses.clauseOf hclauses hopen hclose) hr (Nat.le_refl i) (by omega)
    have hloops : openLines .loops (keywordsOf all) (i + 1) = openLines .loops (keywordsOf all) i :=
      openLines_keeps (keyword_at hi) rfl rfl
    have hend := openLines_keeps (b := .loops) (keyword_at hlast) rfl rfl
    refine ⟨line_at hi (op_ifThen (keyword_at hi) hnext), body.laid hbody fun hb => ?_,
      clauses.laid hclauses hopen (by omega) hclose fun hb => ?_, line_at hlast rfl,
      rest.laid hrest fun hb => ?_⟩
    · exact (hout hb).of_eq hloops
    · exact (hout hb).of_eq (hr.loops.trans hloops)
    · exact (hout hb).of_eq (hend.trans (hrc.loops.trans (hr.loops.trans hloops)))
  | _, .whileDo _ body _ rest, i, out, h, hout => by
    obtain ⟨hi, h⟩ := stands_cons.1 h
    obtain ⟨hbody, h⟩ := stands_append.1 h
    obtain ⟨hlast, hrest⟩ := stands_cons.1 h
    have hr := body.region hbody
    have hopen := openLines_opens (b := .loops) (keyword_at hi) rfl
    have hclose := closes_of_open (keyword_at hlast) rfl (hr.loops.trans hopen)
    refine ⟨line_at hi (op_whileDo (keyword_at hi) hclose),
      body.laid hbody fun _ => ⟨_, _, hopen, hclose⟩,
      line_at hlast (op_done_while (keyword_at hlast) (keyword_at hi) hclose),
      rest.laid hrest fun hb => (hout hb).of_eq ?_⟩
    exact (region_loop (keyword_at hi) rfl (hr.mono (Nat.le_succ i)) (keyword_at hlast)).loops
  | _, .switchOn _ lead arms _ rest, i, out, h, hout => by
    obtain ⟨hi, h⟩ := stands_cons.1 h
    obtain ⟨hlead, h⟩ := stands_append.1 h
    obtain ⟨harms, h⟩ := stands_append.1 h
    obtain ⟨hlast, hrest⟩ := stands_cons.1 h
    have hs := (lineIs_of (p := Keyword.isSwitch) (keyword_at hi)).2 rfl
    have hr := lead.region hlead
    have hopen := hr.loops.trans (openLines_opens (keyword_at hi) rfl)
    have hra := arms.region harms hopen hs (by omega)
    have hclose := closes_of_open (keyword_at hlast) rfl (hra.loops.trans hopen)
    have hmem := arms.mem_heads harms hopen hs (by omega)
    -- An arm of the switch stands between its first line and its `done`, and not in `lead`.
    have hheads : ∀ e, e ∈ arms.heads (i + 1 + lead.lines.length) ↔ ArmOf (keywordsOf all) i e := by
      refine fun e => (hmem e).trans ⟨And.right, fun hx => ⟨⟨?_, ?_⟩, hx⟩⟩
      · refine Nat.not_lt.1 fun hlt => ?_
        have hle := hr.arm hx.2.lt hlt hx
        omega
      · refine Nat.lt_of_le_of_ne (Nat.not_lt.1 fun hlt => hx.2.1.2.2 _ hlt hclose) ?_
        rintro rfl
        exact not_arm (keyword_at hlast) rfl hx
    refine ⟨line_at hi (op_switchOn (keyword_at hi) hclose (arms.heads_sorted _).1 hheads),
      arms.laid harms hopen hs (by omega) hclose,
      line_at hlast (op_done_switch (keyword_at hlast) (keyword_at hi) hclose),
      rest.laid hrest fun hb => (hout hb).of_eq ?_⟩
    exact (region_loop (keyword_at hi) rfl ((hr.mono (Nat.le_succ i)).trans hra)
      (keyword_at hlast)).loops

theorem Clauses.laid : ∀ {b : Bool} (c : Clauses b) {i a out : Nat} {is : List Nat},
    Stands all i c.lines → openLines .ifs (keywordsOf all) i = a :: is → a ≤ i →
      Closes .ifs (keywordsOf all) (i + c.size) a →
      (b = true → BreaksTo (keywordsOf all) i out) →
      c.Laid (scriptOf all) out (i + c.size) i
  | _, .nil, _, _, _, _, _, _, _, _, _ => trivial
  | _, .elseIf _ body more, i, a, out, is, h, ho, ha, hc, hout => by
    obtain ⟨hi, h⟩ := stands_cons.1 h
    obtain ⟨hbody, hmore⟩ := stands_append.1 h
    have hr := body.region hbody
    have hline := region_branch (keyword_at hi) rfl ho
    have ho' := hr.ifs.trans (hline.ifs.trans ho)
    rw [Clauses.size_elseIf, ← Nat.add_assoc, ← Nat.add_assoc] at hc ⊢
    have hb : BranchOf (keywordsOf all) a i := ⟨(lineIs_of (keyword_at hi)).2 rfl,
      head?_openLines.1 (by rw [ho, List.head?_cons])⟩
    have hnext := nextClause_of (more.clauseOf hmore ho' hc) hr ha (by omega)
    refine ⟨line_at hi (op_elseIf (keyword_at hi) hnext hb hc), body.laid hbody fun hb => ?_,
      more.laid hmore ho' (by omega) hc fun hb => ?_⟩
    · exact (hout hb).of_eq hline.loops
    · exact (hout hb).of_eq (hr.loops.trans hline.loops)
  | _, .elseThen _ body, i, a, out, is, h, ho, ha, hc, hout => by
    obtain ⟨hi, hbody⟩ := stands_cons.1 h
    have hline := region_branch (keyword_at hi) rfl ho
    have hb : BranchOf (keywordsOf all) a i := ⟨(lineIs_of (keyword_at hi)).2 rfl,
      head?_openLines.1 (by rw [ho, List.head?_cons])⟩
    exact ⟨line_at hi (op_elseThen (keyword_at hi) hb hc),
      body.laid hbody fun hb => (hout hb).of_eq hline.loops⟩

theorem Arms.laid : ∀ (arms : Arms) {i a out : Nat} {is : List Nat}, Stands all i arms.lines →
    openLines .loops (keywordsOf all) i = a :: is →
      LineIs (keywordsOf all) a Keyword.isSwitch → a < i → Closes .loops (keywordsOf all) out a →
      arms.Laid (scriptOf all) out i
  | .nil, _, _, _, _, _, _, _, _, _ => trivial
  | .arm head body more, i, a, out, is, h, ho, hs, ha, hc => by
    obtain ⟨hi, h⟩ := stands_cons.1 h
    obtain ⟨hbody, hmore⟩ := stands_append.1 h
    obtain ⟨k, hk, harm⟩ := keyword_head hi
    have ho' := (region_arm hk harm hs ho).loops.trans ho
    exact ⟨line_head hi, body.laid hbody fun _ => ⟨a, is, ho', hc⟩,
      more.laid hmore ((body.region hbody).loops.trans ho') hs (by omega) hc⟩

end

end

/-! ## Compiling the text of a program -/

theorem Program.compile_text {b : Bool} (p : Program b) :
    Script.compile p.text = scriptOf p.lines := by
  have hlines : ∀ ls : List Written,
      (Chars.lines (ls.flatMap fun x => x.2.text.toList ++ ['\n'])).map
        (fun cs => Text.trim (String.ofList cs)) = ls.map fun x => x.2.line := by
    intro ls
    induction ls with
    | nil => rfl
    | cons x ls ih =>
      obtain ⟨l, hl, ht⟩ := Chars.lines_append_lineFeed x.2.oneLine
        (ls.flatMap fun x => x.2.text.toList ++ ['\n'])
      rw [List.flatMap_cons, List.append_assoc, List.singleton_append, hl, List.map_cons, ih,
        List.map_cons, Text.trim, String.toList_ofList, ht]
      rfl
  rw [Script.compile, Text.lines, List.map_map, Program.text, String.toList_ofList, scriptOf]
  exact congrArg Script.ofLines (hlines p.lines)

/-- Compiling the text of a program lays it. -/
theorem Program.compile_laid (p : Program false) (out : Nat) :
    p.Laid (Script.compile p.text) out 0 := by
  rw [p.compile_text]
  exact p.laid (stands_self p.lines) nofun

theorem Program.length_compile {b : Bool} (p : Program b) :
    (Script.compile p.text).length = p.size := by
  rw [p.compile_text, scriptOf, Script.length_ofLines, List.length_map, Program.size]

end MudTrigger
