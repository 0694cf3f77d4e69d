import MudTrigger.Proofs.Blocks.Apart
import MudTrigger.Proofs.Blocks.Nesting

/-!
# The matcher finds the links

Lines belong to the blocks that are open around them: a branch or another clause to an `if`
(`BranchOf`, `ClauseOf`), a break to a loop or switch (`BreakOf`), an arm to a switch (`ArmOf`). The
matcher goes through a script line by line; `IfsTracked` and `LoopsTracked` say what it knows before
line `n` of the one and of the other kind of blocks, in terms of what belongs to what in the whole
script. Every step keeps both (`IfsTracked.step`, `LoopsTracked.step`), each kind of blocks by
itself.
-/

set_option autoImplicit false

namespace MudTrigger

/-! ## What belongs to a block -/

/-- Line `j` is an `elseif` or `else` of the `if` at line `i`. -/
def BranchOf (ks : List Keyword) (i j : Nat) : Prop :=
  LineIs ks j Keyword.isBranch ∧ Nearest .ifs ks Keyword.opensIf j i

/-- Line `j` is an `elseif`, an `else` or the `end` of the `if` at line `i`. -/
def ClauseOf (ks : List Keyword) (i j : Nat) : Prop := BranchOf ks i j ∨ Closes .ifs ks j i

/-- Line `j` is the first clause after line `e` of the `if` at line `i`. -/
def NextClause (ks : List Keyword) (i e j : Nat) : Prop :=
  ClauseOf ks i j ∧ e < j ∧ ∀ j', e < j' → j' < j → ¬ ClauseOf ks i j'

/-- Line `j` is a `break` out of the loop or switch at line `i`. -/
def BreakOf (ks : List Keyword) (i j : Nat) : Prop :=
  LineIs ks j Keyword.isBreak ∧ Nearest .loops ks Keyword.opensLoop j i

/-- Line `j` is a `case` or `default` of the switch at line `i`. -/
def ArmOf (ks : List Keyword) (i j : Nat) : Prop :=
  LineIs ks j Keyword.isArm ∧ Nearest .loops ks Keyword.isSwitch j i

theorem Keyword.isBranch_of_opensIf (k : Keyword) (h : k.opensIf = true) : k.isBranch = false := by
  cases k with
  | ifThen c => rfl
  | _ => cases h

theorem Keyword.closesIf_of_isBranch (k : Keyword) (h : k.isBranch = true) :
    k.closesIf = false := by
  cases k with
  | elseIf c => rfl
  | elseThen => rfl
  | _ => cases h

section

variable {ks : List Keyword} {n i i' e j : Nat} {k : Keyword}

theorem ClauseOf.nearest (h : ClauseOf ks i j) : Nearest .ifs ks Keyword.opensIf j i := by
  rcases h with h | h
  · exact h.2
  · exact (closes_iff.1 h).2

theorem ClauseOf.opens (h : ClauseOf ks i j) : LineIs ks i Keyword.opensIf := h.nearest.2.1

/-- A line that is no clause by its keyword belongs to no `if`. -/
theorem not_clause (hk : ks[n]? = some k) (hb : k.isBranch = false) (he : k.closesIf = false) :
    ¬ ClauseOf ks i n := by
  rintro (h | h)
  · rw [(lineIs_of hk).1 h.1] at hb
    cases hb
  · have hc := (lineIs_of hk).1 h.closes
    rw [show Brackets.ifs.closes k = k.closesIf from rfl, he] at hc
    cases hc

/-- The `if` to which a line leads on is the only one. -/
theorem branch_unique (hi : LineIs ks i Keyword.opensIf) (hi' : LineIs ks i' Keyword.opensIf)
    (h : e = i ∨ BranchOf ks i e) (h' : e = i' ∨ BranchOf ks i' e) : i = i' := by
  rcases h with rfl | h <;> rcases h' with rfl | h'
  · rfl
  · exact (hi.apart h'.1 Keyword.isBranch_of_opensIf).elim
  · exact (hi'.apart h.1 Keyword.isBranch_of_opensIf).elim
  · exact h.2.unique h'.2

theorem le_of_branch (h : e = i ∨ BranchOf ks i e) : i ≤ e := by
  rcases h with rfl | h
  · exact Nat.le_refl _
  · exact Nat.le_of_lt h.2.lt

/-- The `end` of an `if` comes after its branches. -/
theorem BranchOf.lt_of_closes (h : BranchOf ks i e) (hc : Closes .ifs ks n i) : e < n := by
  rcases Nat.lt_trichotomy e n with hlt | rfl | hgt
  · exact hlt
  · exact (h.1.apart hc.closes Keyword.closesIf_of_isBranch).elim
  · exact absurd hc (h.2.1.2.2 n hgt)

end

theorem Links.get?_lead (t : Table Nat Nat) (sources : List Nat) (target e : Nat) :
    (lead t sources target).get? e = if e ∈ sources then some target else t.get? e := by
  unfold lead
  induction sources generalizing t with
  | nil => simp
  | cons a sources ih =>
    rw [List.foldl_cons, ih, Table.get?_set]
    by_cases he : e ∈ sources <;> by_cases ha : e = a <;> simp [he, ha]

/-! ## Blocks that begin with `if` -/

/-- What the matcher knows before line `n` of the open `if` at line `i`. -/
structure IfBlock.Tracks (ks : List Keyword) (n i : Nat) (b : IfBlock) : Prop where
  here : b.latest = i ∨ BranchOf ks i b.latest
  before : b.latest < n
  last : ∀ j, b.latest < j → j < n → ¬ ClauseOf ks i j
  clauses : ∀ e, e ∈ b.clauses ↔ e < n ∧ BranchOf ks i e

/-- What the matcher knows before line `n` of the `if` blocks. -/
structure Matcher.IfsTracked (ks : List Keyword) (n : Nat) (m : Matcher) : Prop where
  blocks : List.Forall₂ (IfBlock.Tracks ks n) (openLines .ifs ks n) m.ifs
  next : ∀ e j, m.links.next.get? e = some j ↔
    j < n ∧ ∃ i, (e = i ∨ BranchOf ks i e) ∧ NextClause ks i e j
  close : ∀ e j, m.links.close.get? e = some j ↔
    j < n ∧ ∃ i, BranchOf ks i e ∧ Closes .ifs ks j i

namespace Matcher

section

variable {ks : List Keyword} {n i : Nat} {k : Keyword} {m m' : Matcher} {b : IfBlock}

theorem tracks_succ (h : b.Tracks ks n i) (hn : ¬ ClauseOf ks i n) : b.Tracks ks (n + 1) i where
  here := h.here
  before := Nat.lt_succ_of_lt h.before
  last j hj hjn := by
    rcases Nat.lt_or_eq_of_le (Nat.le_of_lt_succ hjn) with hlt | rfl
    · exact h.last j hj hlt
    · exact hn
  clauses e := by
    rw [h.clauses e]
    refine and_congr_left fun hb => ⟨Nat.lt_succ_of_lt, fun hlt => ?_⟩
    exact Nat.lt_of_le_of_ne (Nat.le_of_lt_succ hlt) fun he => hn (.inl (he ▸ hb))

theorem forall₂_tracks_succ {is : List Nat} {bs : List IfBlock}
    (h : List.Forall₂ (IfBlock.Tracks ks n) is bs) (hn : ∀ i ∈ is, ¬ ClauseOf ks i n) :
    List.Forall₂ (IfBlock.Tracks ks (n + 1)) is bs := by
  induction h with
  | nil => exact .nil
  | cons h _ ih =>
    exact .cons (tracks_succ h (hn _ List.mem_cons_self))
      (ih fun i hi => hn i (List.mem_cons_of_mem _ hi))

namespace IfsTracked

/-- A line that belongs to no `if` adds no link. -/
theorem next_keeps (h : m.IfsTracked ks n) (hn : ∀ i, ¬ ClauseOf ks i n) (e j : Nat) :
    m.links.next.get? e = some j ↔
      j < n + 1 ∧ ∃ i, (e = i ∨ BranchOf ks i e) ∧ NextClause ks i e j := by
  rw [h.next]
  refine and_congr_left fun ⟨i, _, hc⟩ => ⟨Nat.lt_succ_of_lt, fun hlt => ?_⟩
  exact Nat.lt_of_le_of_ne (Nat.le_of_lt_succ hlt) fun he => hn i (he ▸ hc.1)

theorem close_keeps (h : m.IfsTracked ks n) (hn : ∀ i, ¬ Closes .ifs ks n i) (e j : Nat) :
    m.links.close.get? e = some j ↔ j < n + 1 ∧ ∃ i, BranchOf ks i e ∧ Closes .ifs ks j i := by
  rw [h.close]
  refine and_congr_left fun ⟨i, _, hc⟩ => ⟨Nat.lt_succ_of_lt, fun hlt => ?_⟩
  exact Nat.lt_of_le_of_ne (Nat.le_of_lt_succ hlt) fun he => hn i (he ▸ hc)

theorem of_same (h : m.IfsTracked ks n) (hi : m'.ifs = m.ifs)
    (hn : m'.links.next = m.links.next) (hc : m'.links.close = m.links.close) :
    m'.IfsTracked ks n where
  blocks := hi ▸ h.blocks
  next := hn ▸ h.next
  close := hc ▸ h.close

/-- A line that belongs to no `if` and opens none. -/
theorem keeps (h : m.IfsTracked ks n) (hn : ∀ i, ¬ ClauseOf ks i n)
    (ho : openLines .ifs ks (n + 1) = openLines .ifs ks n) : m.IfsTracked ks (n + 1) where
  blocks := ho ▸ forall₂_tracks_succ h.blocks fun i _ => hn i
  next := h.next_keeps hn
  close := h.close_keeps fun i hc => hn i (.inr hc)

/-- A clause at line `n` of the nearest open `if` is where the latest clause before it leads. -/
theorem next_set (h : m.IfsTracked ks n) (ht : b.Tracks ks n i) (hn : ClauseOf ks i n) (e j : Nat) :
    (m.links.next.set b.latest n).get? e = some j ↔
      j < n + 1 ∧ ∃ i, (e = i ∨ BranchOf ks i e) ∧ NextClause ks i e j := by
  have hlatest : NextClause ks i b.latest n := ⟨hn, ht.before, ht.last⟩
  rw [Table.get?_set]
  constructor
  · intro he
    split at he
    · rename_i heq
      cases he
      exact ⟨Nat.lt_succ_self n, i, heq ▸ ht.here, heq ▸ hlatest⟩
    · obtain ⟨hj, hx⟩ := (h.next e j).1 he
      exact ⟨Nat.lt_succ_of_lt hj, hx⟩
  · rintro ⟨hj, i', hb, hc⟩
    rcases Nat.lt_or_eq_of_le (Nat.le_of_lt_succ hj) with hj | rfl
    · -- The latest clause leads nowhere before line `n`.
      have hne : e ≠ b.latest := by
        rintro rfl
        obtain rfl := branch_unique hn.opens hc.1.opens ht.here hb
        exact ht.last j hc.2.1 hj hc.1
      rw [if_neg hne]
      exact (h.next e j).2 ⟨hj, i', hb, hc⟩
    · obtain rfl := hn.nearest.unique hc.1.nearest
      have heq : e = b.latest := by
        rcases Nat.lt_trichotomy e b.latest with hlt | heq | hgt
        · rcases ht.here with hi | hbr
          · exact absurd (le_of_branch hb) (Nat.not_le.2 (hi ▸ hlt))
          · exact absurd (.inl hbr) (hc.2.2 b.latest hlt ht.before)
        · exact heq
        · rcases hb with rfl | hbr
          · exact absurd (le_of_branch ht.here) (Nat.not_le.2 hgt)
          · exact absurd (.inl hbr) (ht.last e hgt hc.2.1)
      rw [if_pos heq]

/-- The other open `if` blocks have no clause at line `n`. -/
theorem not_clause_outer {rest : List Nat} (hs : openLines .ifs ks n = i :: rest)
    (hn : ClauseOf ks i n) : ∀ i' ∈ rest, ¬ ClauseOf ks i' n := by
  intro i' hi' hc
  have hsorted := openLines_sorted .ifs ks n
  rw [hs] at hsorted
  have hlt := (List.pairwise_cons.1 hsorted).1 i' hi'
  exact Nat.lt_irrefl i' (Nat.lt_of_lt_of_eq hlt (hn.nearest.unique hc.nearest))

theorem nearest_head {rest : List Nat} (hs : openLines .ifs ks n = i :: rest) :
    Nearest .ifs ks Keyword.opensIf n i :=
  head?_openLines.1 (by rw [hs, List.head?_cons])

theorem not_clause_of_nil (hs : openLines .ifs ks n = []) (i : Nat) : ¬ ClauseOf ks i n := by
  intro hc
  have hh := head?_openLines.2 hc.nearest
  rw [hs] at hh
  cases hh

theorem clause (h : m.IfsTracked ks n) (hk : ks[n]? = some k) (hb : k.isBranch = true)
    (hc : k.closesIf = false) (ho : k.opensIf = false) :
    (m.clause n).IfsTracked ks (n + 1) := by
  have hkeep : openLines .ifs ks (n + 1) = openLines .ifs ks n := openLines_keeps hk ho hc
  have hnot : ∀ i, ¬ Closes .ifs ks n i := fun i hcl => by
    have hx : k.closesIf = true := (lineIs_of hk).1 hcl.closes
    rw [hc] at hx
    cases hx
  obtain ⟨ifs, loops, links⟩ := m
  have hblocks := h.blocks
  cases hs : openLines .ifs ks n with
  | nil =>
    rw [hs, List.forall₂_nil_left_iff] at hblocks
    subst hblocks
    exact h.keeps (not_clause_of_nil hs) hkeep
  | cons i rest =>
    rw [hs, List.forall₂_cons_left_iff] at hblocks
    obtain ⟨b, outer, ht, houter, rfl⟩ := hblocks
    have hn : BranchOf ks i n := ⟨(lineIs_of hk).2 hb, nearest_head hs⟩
    refine ⟨?_, h.next_set ht (.inl hn), h.close_keeps hnot⟩
    rw [hkeep, hs]
    refine .cons ⟨.inr hn, Nat.lt_succ_self n, fun j hj hjn => ?_, fun e => ?_⟩
      (forall₂_tracks_succ houter (not_clause_outer hs (.inl hn)))
    · exact absurd hj (Nat.not_lt.2 (Nat.le_of_lt_succ hjn))
    · rw [List.mem_append, List.mem_singleton, ht.clauses, Nat.lt_succ_iff_lt_or_eq, or_and_right]
      exact or_congr_right ⟨fun he => ⟨he, he ▸ hn⟩, And.left⟩

theorem closeIf (h : m.IfsTracked ks n) (hk : ks[n]? = some .endIf) :
    (m.closeIf n).IfsTracked ks (n + 1) := by
  have hpop : openLines .ifs ks (n + 1) = (openLines .ifs ks n).tail := openLines_closes hk rfl
  obtain ⟨ifs, loops, links⟩ := m
  have hblocks := h.blocks
  cases hs : openLines .ifs ks n with
  | nil =>
    rw [hs, List.forall₂_nil_left_iff] at hblocks
    subst hblocks
    exact h.keeps (not_clause_of_nil hs) (by rw [hpop, hs, List.tail_nil])
  | cons i rest =>
    rw [hs, List.forall₂_cons_left_iff] at hblocks
    obtain ⟨b, outer, ht, houter, rfl⟩ := hblocks
    have hn : Closes .ifs ks n i := closes_iff.2 ⟨(lineIs_of hk).2 rfl, nearest_head hs⟩
    refine ⟨?_, h.next_set ht (.inr hn), fun e j => ?_⟩
    · rw [hpop, hs]
      exact forall₂_tracks_succ houter (not_clause_outer hs (.inr hn))
    · rw [Matcher.closeIf, Links.get?_lead]
      constructor
      · intro he
        split at he
        · rename_i hmem
          cases he
          exact ⟨Nat.lt_succ_self n, i, ((ht.clauses e).1 hmem).2, hn⟩
        · obtain ⟨hj, hx⟩ := (h.close e j).1 he
          exact ⟨Nat.lt_succ_of_lt hj, hx⟩
      · rintro ⟨hj, i', hb, hc⟩
        rcases Nat.lt_or_eq_of_le (Nat.le_of_lt_succ hj) with hj | rfl
        · have hmem : e ∉ b.clauses := fun hmem => by
            obtain rfl := hb.2.unique ((ht.clauses e).1 hmem).2.2
            exact (closes_iff.1 hn).2.1.2.2 j hj hc
          rw [if_neg hmem]
          exact (h.close e j).2 ⟨hj, i', hb, hc⟩
        · obtain rfl := (closes_iff.1 hn).2.unique (closes_iff.1 hc).2
          rw [if_pos ((ht.clauses e).2 ⟨hb.lt_of_closes hn, hb⟩)]

theorem openIf (h : m.IfsTracked ks n) {c : String} (hk : ks[n]? = some (.ifThen c)) :
    IfsTracked ks (n + 1) { m with ifs := { latest := n } :: m.ifs } := by
  have hn : ∀ i, ¬ ClauseOf ks i n := fun i => not_clause hk rfl rfl
  refine ⟨?_, h.next_keeps hn, h.close_keeps fun i hc => hn i (.inr hc)⟩
  rw [openLines_opens hk rfl]
  refine .cons ⟨.inl rfl, Nat.lt_succ_self n, fun j hj hjn => ?_, fun e => ?_⟩
    (forall₂_tracks_succ h.blocks fun i _ => hn i)
  · exact absurd hj (Nat.not_lt.2 (Nat.le_of_lt_succ hjn))
  · exact ⟨fun he => absurd he List.not_mem_nil, fun ⟨he, hb⟩ =>
      absurd hb.2.lt (Nat.not_lt.2 (Nat.le_of_lt_succ he))⟩

theorem step (h : m.IfsTracked ks n) (hk : ks[n]? = some k) : (m.step n k).IfsTracked ks (n + 1) := by
  -- What is done for the other kind of blocks is nothing to these.
  have other : ∀ {m'}, k.isBranch = false → k.closesIf = false → k.opensIf = false →
      m'.ifs = m.ifs → m'.links.next = m.links.next → m'.links.close = m.links.close →
      IfsTracked ks (n + 1) m' := fun hb hc ho h1 h2 h3 =>
    (h.keeps (fun i => not_clause hk hb hc) (openLines_keeps hk ho hc)).of_same h1 h2 h3
  cases k with
  | comment | command | whileDo | switchOn => exact other rfl rfl rfl rfl rfl rfl
  | ifThen c => exact h.openIf hk
  | elseIf c => exact h.clause hk rfl rfl rfl
  | elseThen => exact h.clause hk rfl rfl rfl
  | endIf => exact h.closeIf hk
  | caseOf | default =>
    refine other rfl rfl rfl ?_ ?_ ?_ <;> rw [Matcher.step, Matcher.arm] <;> split <;> rfl
  | breakOut =>
    refine other rfl rfl rfl ?_ ?_ ?_ <;> rw [Matcher.step, Matcher.breakFrom] <;> split <;> rfl
  | done =>
    refine other rfl rfl rfl ?_ ?_ ?_ <;> rw [Matcher.step, Matcher.closeLoop] <;> split <;> rfl

end IfsTracked

end

end Matcher

/-! ## Loops and switches -/

/-- What the matcher knows before line `n` of the open loop or switch at line `b.head`. -/
structure LoopBlock.Tracks (ks : List Keyword) (n : Nat) (b : LoopBlock) : Prop where
  opens : LineIs ks b.head Keyword.opensLoop
  isWhile : b.isWhile = true ↔ LineIs ks b.head Keyword.isWhile
  breaks : ∀ e, e ∈ b.breaks ↔ e < n ∧ BreakOf ks b.head e

/-- What the matcher knows before line `n` of the loops and switches. -/
structure Matcher.LoopsTracked (ks : List Keyword) (n : Nat) (m : Matcher) : Prop where
  heads : m.loops.map (·.head) = openLines .loops ks n
  blocks : ∀ b ∈ m.loops, b.Tracks ks n
  done : ∀ e j, m.links.done.get? e = some j ↔
    j < n ∧ (Closes .loops ks j e ∨ ∃ i, BreakOf ks i e ∧ Closes .loops ks j i)
  sorted : ∀ i, ((m.links.arms.get? i).getD []).Pairwise (· < ·)
  arms : ∀ i a, a ∈ (m.links.arms.get? i).getD [] ↔ a < n ∧ ArmOf ks i a
  head : ∀ j i, m.links.head.get? j = some i ↔
    j < n ∧ Closes .loops ks j i ∧ LineIs ks i Keyword.isWhile

theorem Keyword.isBreak_of_closesLoop (k : Keyword) (h : k.closesLoop = true) :
    k.isBreak = false := by
  cases k with
  | done => rfl
  | _ => cases h

theorem Keyword.opensLoop_of_isBreak (k : Keyword) (h : k.isBreak = true) :
    k.opensLoop = false := by
  cases k with
  | breakOut => rfl
  | _ => cases h

theorem Keyword.isSwitch_of_isWhile (k : Keyword) (h : k.isWhile = true) : k.isSwitch = false := by
  cases k with
  | whileDo c => rfl
  | _ => cases h

section

variable {ks : List Keyword} {n i e j : Nat} {k : Keyword}

theorem not_breakOf (hk : ks[n]? = some k) (hb : k.isBreak = false) : ¬ BreakOf ks i n := by
  intro h
  rw [(lineIs_of hk).1 h.1] at hb
  cases hb

theorem not_armOf (hk : ks[n]? = some k) (ha : k.isArm = false) : ¬ ArmOf ks i n := by
  intro h
  rw [(lineIs_of hk).1 h.1] at ha
  cases ha

theorem not_closes_loop (hk : ks[n]? = some k) (hc : k.closesLoop = false) :
    ¬ Closes .loops ks n i := by
  intro h
  have hx : k.closesLoop = true := (lineIs_of hk).1 h.closes
  rw [hc] at hx
  cases hx

/-- The `done` of a loop or switch comes after its breaks. -/
theorem BreakOf.lt_of_closes (h : BreakOf ks i e) (hc : Closes .loops ks n i) : e < n := by
  rcases Nat.lt_trichotomy e n with hlt | rfl | hgt
  · exact hlt
  · exact (hc.closes.apart h.1 Keyword.isBreak_of_closesLoop).elim
  · exact absurd hc (h.2.1.2.2 n hgt)

theorem LoopBlock.Tracks.isSwitch {b : LoopBlock} (h : b.Tracks ks n) :
    b.isWhile = false ↔ LineIs ks b.head Keyword.isSwitch := by
  rw [← Bool.not_eq_true, h.isWhile]
  constructor
  · intro hw
    obtain ⟨k, hk, ho⟩ := lineIs_iff.1 h.opens
    refine (lineIs_of hk).2 ?_
    rw [lineIs_of hk] at hw
    rw [Keyword.opensLoop, Bool.eq_false_iff.2 hw, Bool.false_or] at ho
    exact ho
  · exact fun hs hw => hw.apart hs Keyword.isSwitch_of_isWhile

end

namespace Matcher

section

variable {ks : List Keyword} {n i : Nat} {k : Keyword} {m m' : Matcher} {b : LoopBlock}

theorem loop_tracks_succ (h : b.Tracks ks n) (hn : ¬ BreakOf ks b.head n) : b.Tracks ks (n + 1) where
  opens := h.opens
  isWhile := h.isWhile
  breaks e := by
    rw [h.breaks e]
    refine and_congr_left fun hb => ⟨Nat.lt_succ_of_lt, fun hlt => ?_⟩
    exact Nat.lt_of_le_of_ne (Nat.le_of_lt_succ hlt) fun he => hn (he ▸ hb)

namespace LoopsTracked

theorem of_same (h : m.LoopsTracked ks n) (hl : m'.loops = m.loops)
    (hd : m'.links.done = m.links.done) (ha : m'.links.arms = m.links.arms)
    (hh : m'.links.head = m.links.head) : m'.LoopsTracked ks n where
  heads := hl ▸ h.heads
  blocks := hl ▸ h.blocks
  done := hd ▸ h.done
  sorted := ha ▸ h.sorted
  arms := ha ▸ h.arms
  head := hh ▸ h.head

theorem done_keeps (h : m.LoopsTracked ks n) (hn : ∀ i, ¬ Closes .loops ks n i) (e j : Nat) :
    m.links.done.get? e = some j ↔
      j < n + 1 ∧ (Closes .loops ks j e ∨ ∃ i, BreakOf ks i e ∧ Closes .loops ks j i) := by
  rw [h.done]
  refine and_congr_left fun hc => ⟨Nat.lt_succ_of_lt, fun hlt => ?_⟩
  refine Nat.lt_of_le_of_ne (Nat.le_of_lt_succ hlt) fun he => ?_
  rcases hc with hc | ⟨i, -, hc⟩
  · exact hn e (he ▸ hc)
  · exact hn i (he ▸ hc)

theorem head_keeps (h : m.LoopsTracked ks n) (hn : ∀ i, ¬ Closes .loops ks n i) (j i : Nat) :
    m.links.head.get? j = some i ↔
      j < n + 1 ∧ Closes .loops ks j i ∧ LineIs ks i Keyword.isWhile := by
  rw [h.head]
  refine and_congr_left fun hc => ⟨Nat.lt_succ_of_lt, fun hlt => ?_⟩
  exact Nat.lt_of_le_of_ne (Nat.le_of_lt_succ hlt) fun he => hn i (he ▸ hc.1)

theorem arms_keeps (h : m.LoopsTracked ks n) (hn : ¬ ArmOf ks i n) (a : Nat) :
    a ∈ (m.links.arms.get? i).getD [] ↔ a < n + 1 ∧ ArmOf ks i a := by
  rw [h.arms]
  refine and_congr_left fun ha => ⟨Nat.lt_succ_of_lt, fun hlt => ?_⟩
  exact Nat.lt_of_le_of_ne (Nat.le_of_lt_succ hlt) fun he => hn (he ▸ ha)

theorem keeps (h : m.LoopsTracked ks n) (hk : ks[n]? = some k) (ho : k.opensLoop = false)
    (hc : k.closesLoop = false) (hb : k.isBreak = false) (ha : k.isArm = false) :
    m.LoopsTracked ks (n + 1) where
  heads := h.heads.trans (openLines_keeps hk ho hc).symm
  blocks b hmem := loop_tracks_succ (h.blocks b hmem) (not_breakOf hk hb)
  done := h.done_keeps fun _ => not_closes_loop hk hc
  sorted := h.sorted
  arms _ := h.arms_keeps (not_armOf hk ha)
  head := h.head_keeps fun _ => not_closes_loop hk hc

/-- A loop or switch begins. -/
theorem openLoop (h : m.LoopsTracked ks n) (hk : ks[n]? = some k) (ho : k.opensLoop = true)
    (hb : k.isBreak = false) (ha : k.isArm = false) :
    LoopsTracked ks (n + 1) { m with loops := { head := n, isWhile := k.isWhile } :: m.loops } := by
  have hc : k.closesLoop = false := Brackets.loops.apart k ho
  refine ⟨?_, fun b hmem => ?_, h.done_keeps fun _ => not_closes_loop hk hc, h.sorted,
    fun i => h.arms_keeps (not_armOf hk ha), h.head_keeps fun _ => not_closes_loop hk hc⟩
  · rw [openLines_opens hk ho, ← h.heads, List.map_cons]
  · rcases List.mem_cons.1 hmem with rfl | hmem
    · refine ⟨(lineIs_of hk).2 ho, (lineIs_of (p := Keyword.isWhile) hk).symm, fun e => ?_⟩
      exact ⟨fun he => absurd he List.not_mem_nil, fun ⟨he, hbr⟩ =>
        absurd hbr.2.lt (Nat.not_lt.2 (Nat.le_of_lt_succ he))⟩
    · exact loop_tracks_succ (h.blocks b hmem) (not_breakOf hk hb)

/-- The nearest open switch is the first one among the open blocks. -/
theorem find?_switch (h : m.LoopsTracked ks n) (i : Nat) :
    (m.loops.find? (!·.isWhile)).map (·.head) = some i ↔ Nearest .loops ks Keyword.isSwitch n i := by
  rw [← find?_openLines, ← h.heads, List.find?_map]
  have hf : m.loops.find? (!·.isWhile) =
      m.loops.find? ((fun i => ks[i]?.any Keyword.isSwitch) ∘ (·.head)) := by
    have hblocks := h.blocks
    generalize m.loops = bs at hblocks
    induction bs with
    | nil => rfl
    | cons b bs ih =>
      have hb : (!b.isWhile) = ks[b.head]?.any Keyword.isSwitch := by
        rw [Bool.eq_iff_iff, Bool.not_eq_true']
        exact (hblocks b List.mem_cons_self).isSwitch
      rw [List.find?_cons, List.find?_cons, ih fun b hmem => hblocks b (List.mem_cons_of_mem _ hmem),
        Function.comp_apply, ← hb]
  rw [hf]

/-- A line that belongs to the nearest open switch, if there is one. -/
theorem arm (h : m.LoopsTracked ks n) (hk : ks[n]? = some k) (ha : k.isArm = true)
    (ho : k.opensLoop = false) (hc : k.closesLoop = false) (hb : k.isBreak = false) :
    (m.arm n).LoopsTracked ks (n + 1) := by
  have hline : LineIs ks n Keyword.isArm := (lineIs_of hk).2 ha
  have hfind := h.find?_switch
  unfold Matcher.arm
  cases hs : m.loops.find? (!·.isWhile) with
  | none =>
    have hno : ∀ i, ¬ ArmOf ks i n := fun i harm => by
      have hn := (hfind i).2 harm.2
      rw [hs] at hn
      cases hn
    exact ⟨h.heads.trans (openLines_keeps hk ho hc).symm,
      fun b hmem => loop_tracks_succ (h.blocks b hmem) (not_breakOf hk hb),
      h.done_keeps fun _ => not_closes_loop hk hc, h.sorted, fun i => h.arms_keeps (hno i),
      h.head_keeps fun _ => not_closes_loop hk hc⟩
  | some b =>
    have hn : ArmOf ks b.head n := ⟨hline, (hfind b.head).1 (by rw [hs, Option.map_some])⟩
    refine ⟨h.heads.trans (openLines_keeps hk ho hc).symm,
      fun b hmem => loop_tracks_succ (h.blocks b hmem) (not_breakOf hk hb),
      h.done_keeps fun _ => not_closes_loop hk hc, fun i => ?_, fun i a => ?_,
      h.head_keeps fun _ => not_closes_loop hk hc⟩
    · simp only [Table.get?_set]
      split
      · rw [Option.getD_some, List.pairwise_append]
        refine ⟨h.sorted b.head, List.pairwise_singleton _ _, fun a hmem a' hmem' => ?_⟩
        rw [List.mem_singleton.1 hmem']
        exact ((h.arms b.head a).1 hmem).1
      · exact h.sorted i
    · simp only [Table.get?_set]
      split
      · rename_i hi
        subst hi
        rw [Option.getD_some, List.mem_append, List.mem_singleton, h.arms, Nat.lt_succ_iff_lt_or_eq,
          or_and_right]
        exact or_congr_right ⟨fun he => ⟨he, he ▸ hn⟩, And.left⟩
      · rename_i hi
        exact h.arms_keeps (fun harm => hi (harm.2.unique hn.2)) a

/-- The first of the open blocks is the nearest. -/
theorem nearest_head (h : m.LoopsTracked ks n) (i : Nat) :
    m.loops.head?.map (·.head) = some i ↔ Nearest .loops ks Keyword.opensLoop n i := by
  rw [← List.head?_map, h.heads]
  exact head?_openLines

theorem breakFrom (h : m.LoopsTracked ks n) (hk : ks[n]? = some .breakOut) :
    (m.breakFrom n).LoopsTracked ks (n + 1) := by
  have hkeep : openLines .loops ks (n + 1) = openLines .loops ks n := openLines_keeps hk rfl rfl
  have hline : LineIs ks n Keyword.isBreak := (lineIs_of hk).2 rfl
  have hnear := h.nearest_head
  have hdone := h.done_keeps fun i => not_closes_loop (i := i) hk rfl
  have harms : ∀ i a, a ∈ (m.links.arms.get? i).getD [] ↔ a < n + 1 ∧ ArmOf ks i a := fun i =>
    h.arms_keeps (not_armOf hk rfl)
  have hhead := h.head_keeps fun i => not_closes_loop (i := i) hk rfl
  have hheads := h.heads
  have hblocks := h.blocks
  have hsorted := h.sorted
  obtain ⟨ifs, loops, links⟩ := m
  cases loops with
  | nil =>
    exact ⟨hheads.trans hkeep.symm, fun b hmem => absurd hmem List.not_mem_nil, hdone, hsorted,
      harms, hhead⟩
  | cons b outer =>
    have hn : BreakOf ks b.head n := ⟨hline, (hnear _).1 rfl⟩
    refine ⟨hheads.trans hkeep.symm, fun c hmem => ?_, hdone, hsorted, harms, hhead⟩
    rcases List.mem_cons.1 hmem with rfl | hmem
    · have ht := hblocks b List.mem_cons_self
      refine ⟨ht.opens, ht.isWhile, fun e => ?_⟩
      rw [List.mem_append, List.mem_singleton, ht.breaks, Nat.lt_succ_iff_lt_or_eq, or_and_right]
      exact or_congr_right ⟨fun he => ⟨he, he ▸ hn⟩, And.left⟩
    · refine loop_tracks_succ (hblocks c (List.mem_cons_of_mem _ hmem)) fun hc => ?_
      have hsort := openLines_sorted .loops ks n
      rw [← hheads] at hsort
      have hlt := (List.pairwise_cons.1 hsort).1 c.head (List.mem_map_of_mem hmem)
      exact Nat.lt_irrefl _ (Nat.lt_of_lt_of_eq hlt (hn.2.unique hc.2))

theorem closeLoop (h : m.LoopsTracked ks n) (hk : ks[n]? = some .done) :
    (m.closeLoop n).LoopsTracked ks (n + 1) := by
  have hpop : openLines .loops ks (n + 1) = (openLines .loops ks n).tail := openLines_closes hk rfl
  have hnear := h.nearest_head
  have harms : ∀ i a, a ∈ (m.links.arms.get? i).getD [] ↔ a < n + 1 ∧ ArmOf ks i a := fun i =>
    h.arms_keeps (not_armOf hk rfl)
  have hblocks : ∀ b ∈ m.loops, b.Tracks ks (n + 1) := fun b hmem =>
    loop_tracks_succ (h.blocks b hmem) (not_breakOf hk rfl)
  have hheads := h.heads
  cases hl : m.loops with
  | nil =>
    rw [hl] at hnear hheads hblocks
    have hno : ∀ i, ¬ Closes .loops ks n i := fun i hc => by
      have hn := (hnear i).2 (closes_iff.1 hc).2
      cases hn
    have hsame : m.closeLoop n = m := by
      unfold Matcher.closeLoop
      rw [hl]
    rw [hsame]
    refine ⟨?_, hl ▸ hblocks, h.done_keeps hno, h.sorted, harms, h.head_keeps hno⟩
    rw [hpop, ← hheads, hl]
    rfl
  | cons b outer =>
    rw [hl] at hnear hheads hblocks
    have hn : Closes .loops ks n b.head := closes_iff.2 ⟨(lineIs_of hk).2 rfl, (hnear _).1 rfl⟩
    have ht := hblocks b List.mem_cons_self
    have only : ∀ {i}, Closes .loops ks n i → i = b.head := fun hc =>
      (closes_iff.1 hc).2.unique (closes_iff.1 hn).2
    have early : ∀ {j}, j < n → ¬ Closes .loops ks j b.head := fun hj hc =>
      absurd (hc.unique hn) (Nat.ne_of_lt hj)
    unfold Matcher.closeLoop
    rw [hl]
    refine ⟨?_, fun c hmem => hblocks c (List.mem_cons_of_mem _ hmem), fun e j => ?_, h.sorted,
      harms, fun j i => ?_⟩
    · rw [hpop, ← hheads]
      rfl
    · have hmem : e ∈ b.head :: b.breaks ↔ e = b.head ∨ e < n + 1 ∧ BreakOf ks b.head e := by
        rw [List.mem_cons, ht.breaks]
      rw [Links.get?_lead]
      constructor
      · intro he
        split at he
        · rename_i hin
          cases he
          refine ⟨Nat.lt_succ_self n, (hmem.1 hin).imp ?_ fun hb => ⟨_, hb.2, hn⟩⟩
          rintro rfl
          exact hn
        · obtain ⟨hj, hx⟩ := (h.done e j).1 he
          exact ⟨Nat.lt_succ_of_lt hj, hx⟩
      · rintro ⟨hj, hx⟩
        rcases Nat.lt_or_eq_of_le (Nat.le_of_lt_succ hj) with hj | rfl
        · rw [if_neg, (h.done e j).2 ⟨hj, hx⟩]
          rw [hmem]
          rintro (rfl | ⟨-, hb⟩)
          · rcases hx with hc | ⟨i, hb, hc⟩
            · exact early hj hc
            · exact hb.1.apart ht.opens Keyword.opensLoop_of_isBreak
          · rcases hx with hc | ⟨i, hb', hc⟩
            · exact hb.1.apart hc.opens Keyword.opensLoop_of_isBreak
            · obtain rfl := hb.2.unique hb'.2
              exact early hj hc
        · rw [if_pos]
          rw [hmem]
          rcases hx with hc | ⟨i, hb, hc⟩
          · exact .inl (only hc)
          · obtain rfl := only hc
            exact .inr ⟨Nat.lt_succ_of_lt (hb.lt_of_closes hn), hb⟩
    · cases hw : b.isWhile with
      | true =>
        simp only [hw, if_true, Table.get?_set]
        constructor
        · intro he
          split at he
          · rename_i hj
            cases he
            subst hj
            exact ⟨Nat.lt_succ_self _, hn, ht.isWhile.1 hw⟩
          · obtain ⟨hj, hx⟩ := (h.head j i).1 he
            exact ⟨Nat.lt_succ_of_lt hj, hx⟩
        · rintro ⟨hj, hc, hx⟩
          rcases Nat.lt_or_eq_of_le (Nat.le_of_lt_succ hj) with hj | rfl
          · rw [if_neg (Nat.ne_of_lt hj), (h.head j i).2 ⟨hj, hc, hx⟩]
          · rw [if_pos rfl, only hc]
      | false =>
        simp only [hw, Bool.false_eq_true, if_false]
        rw [h.head]
        refine and_congr_left fun hx => ⟨Nat.lt_succ_of_lt, fun hlt => ?_⟩
        refine Nat.lt_of_le_of_ne (Nat.le_of_lt_succ hlt) fun he => ?_
        subst he
        obtain ⟨hc, hx⟩ := hx
        rw [only hc, ← ht.isWhile, hw] at hx
        cases hx

theorem step (h : m.LoopsTracked ks n) (hk : ks[n]? = some k) :
    (m.step n k).LoopsTracked ks (n + 1) := by
  have other : ∀ {m'}, k.opensLoop = false → k.closesLoop = false → k.isBreak = false →
      k.isArm = false → m'.loops = m.loops → m'.links.done = m.links.done →
      m'.links.arms = m.links.arms → m'.links.head = m.links.head →
      LoopsTracked ks (n + 1) m' := fun ho hc hb ha h1 h2 h3 h4 =>
    (h.keeps hk ho hc hb ha).of_same h1 h2 h3 h4
  cases k with
  | comment | command | ifThen => exact other rfl rfl rfl rfl rfl rfl rfl rfl
  | elseIf | elseThen =>
    refine other rfl rfl rfl rfl ?_ ?_ ?_ ?_ <;> rw [Matcher.step, Matcher.clause] <;> split <;> rfl
  | endIf =>
    refine other rfl rfl rfl rfl ?_ ?_ ?_ ?_ <;> rw [Matcher.step, Matcher.closeIf] <;> split <;> rfl
  | whileDo c => exact h.openLoop hk rfl rfl rfl
  | switchOn s => exact h.openLoop hk rfl rfl rfl
  | caseOf s => exact h.arm hk rfl rfl rfl rfl
  | default => exact h.arm hk rfl rfl rfl rfl
  | breakOut => exact h.breakFrom hk
  | done => exact h.closeLoop hk

end LoopsTracked

end

end Matcher

/-! ## Every list of keywords -/

theorem Matcher.ifsTracked_empty (ks : List Keyword) : IfsTracked ks 0 {} where
  blocks := .nil
  next _ j := ⟨nofun, fun h => absurd h.1 (Nat.not_lt_zero j)⟩
  close _ j := ⟨nofun, fun h => absurd h.1 (Nat.not_lt_zero j)⟩

theorem Matcher.loopsTracked_empty (ks : List Keyword) : LoopsTracked ks 0 {} where
  heads := rfl
  blocks _ h := absurd h List.not_mem_nil
  done _ j := ⟨nofun, fun h => absurd h.1 (Nat.not_lt_zero j)⟩
  sorted _ := .nil
  arms _ a := ⟨fun h => absurd h List.not_mem_nil, fun h => absurd h.1 (Nat.not_lt_zero a)⟩
  head j _ := ⟨nofun, fun h => absurd h.1 (Nat.not_lt_zero j)⟩

/-- What the matcher knows before each line it knows after the last. -/
theorem Matcher.run_tracked {m : Matcher} {n : Nat} (before rest : List Keyword)
    (hn : n = before.length) (hi : m.IfsTracked (before ++ rest) n)
    (hl : m.LoopsTracked (before ++ rest) n) :
    (m.run n rest).IfsTracked (before ++ rest) (before ++ rest).length ∧
      (m.run n rest).LoopsTracked (before ++ rest) (before ++ rest).length := by
  induction rest generalizing m n before with
  | nil =>
    subst hn
    rw [List.append_nil] at *
    exact ⟨hi, hl⟩
  | cons k rest ih =>
    have hk : (before ++ k :: rest)[n]? = some k := by
      subst hn
      rw [List.getElem?_append_right (Nat.le_refl _), Nat.sub_self, List.getElem?_cons_zero]
    have hlist : before ++ k :: rest = (before ++ [k]) ++ rest := by
      rw [List.append_assoc, List.singleton_append]
    have hi' := hi.step hk
    have hl' := hl.step hk
    rw [hlist] at hi' hl' ⊢
    exact ih (before ++ [k]) (by rw [hn, List.length_append]; rfl) hi' hl'

theorem Links.ofKeywords_tracked (ks : List Keyword) :
    (Matcher.run {} 0 ks).IfsTracked ks ks.length ∧
      (Matcher.run {} 0 ks).LoopsTracked ks ks.length :=
  Matcher.run_tracked [] ks rfl (Matcher.ifsTracked_empty ks) (Matcher.loopsTracked_empty ks)

end MudTrigger
