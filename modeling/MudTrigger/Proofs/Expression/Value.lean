import MudTrigger.Proofs.Expression.Spelling
import MudTrigger.Proofs.Text.Lines
import Mathlib.Data.List.Forall2

/-!
# The value of a spelling

`Spelling.tree` is the expression that a spelling writes: the tree of its formula, whose operands are
the leaves with the blanks behind them. Parsing a spelling gives that expression
(`Spelling.parseWithin_chars`), so its value is the value of the formula, and its operands are
expanded once each, from left to right (`Spelling.eval_parse`).
-/

set_option autoImplicit false

namespace MudTrigger

/-- The expression that is written. -/
def Spelling.tree {n : Nat} : Spelling n → Expression
  | leaf _ l after => .operand (String.ofList (l.chars ++ after.1))
  | binary op _ _ l r => .apply op l.tree r.tree
  | negation _ _ s => .apply .not (.operand "") s.tree
  | parens _ s _ => s.tree

/-- The spelling without the blanks before it. -/
def Spelling.trimmed {n : Nat} : Spelling n → Spelling n
  | leaf _ l after => .leaf .none l after
  | binary op isBinary binds l r => .binary op isBinary binds l.trimmed r
  | negation binds _ s => .negation binds .none s
  | parens _ s after => .parens .none s after

/-- What is expanded for an operand: the operand, and the blanks behind it if it is a leaf. -/
def Padded (given call : String) : Prop :=
  ∃ gap : Gap, call.toList = given.toList ++ gap.1 ∧ (given = "" → gap.1 = [])

section

variable {n fuel : Nat} {op : Operator} {c : Char} {cs ds : List Char}

/-! ## Blanks -/

theorem trimStart_cons (h : Chars.isBlank c = false) : Chars.trimStart (c :: cs) = c :: cs := by
  rw [Chars.trimStart, List.dropWhile_cons, if_neg (by rw [h]; exact Bool.false_ne_true)]

theorem trimStart_blank (h : Chars.isBlank c = true) :
    Chars.trimStart (c :: cs) = Chars.trimStart cs := by
  rw [Chars.trimStart, List.dropWhile_cons, if_pos h, Chars.trimStart]

theorem trimStart_idem (cs : List Char) :
    Chars.trimStart (Chars.trimStart cs) = Chars.trimStart cs := by
  induction cs with
  | nil => rfl
  | cons c cs ih =>
    cases h : Chars.isBlank c with
    | true => rw [trimStart_blank h, ih]
    | false => rw [trimStart_cons h, trimStart_cons h]

theorem Gap.trimStart (gap : Gap) (cs : List Char) :
    Chars.trimStart (gap.1 ++ cs) = Chars.trimStart cs :=
  List.dropWhile_append_of_pos fun c hc => (blank_char (gap.blank c hc)).1

theorem Gap.trimEnd (gap : Gap) (cs : List Char) :
    Chars.trimEnd (cs ++ gap.1) = Chars.trimEnd cs := by
  rw [Chars.trimEnd, Chars.trimEnd, List.reverse_append, List.dropWhile_append_of_pos]
  intro c hc
  exact (blank_char (gap.blank c (List.mem_reverse.1 hc))).1

theorem Gap.trim (gap : Gap) (cs : List Char) : Chars.trim (cs ++ gap.1) = Chars.trim cs := by
  induction cs with
  | nil =>
    rw [List.nil_append, Chars.trim, ← List.append_nil gap.1, gap.trimStart]
    rfl
  | cons c cs ih =>
    cases h : Chars.isBlank c with
    | true =>
      rw [List.cons_append, Chars.trim, trimStart_blank h, Chars.trim, trimStart_blank h]
      exact ih
    | false =>
      rw [Chars.trim, List.cons_append, trimStart_cons h, Chars.trim, trimStart_cons h,
        ← List.cons_append, gap.trimEnd]

theorem Leaf.trimStart (l : Leaf) (cs : List Char) :
    Chars.trimStart (l.chars ++ cs) = l.chars ++ cs := by
  obtain ⟨c, ds, hc, -, -, hl⟩ := l.head
  rw [hc, List.cons_append]
  refine trimStart_cons ?_
  rcases hl with hl | rfl | rfl
  · exact isBlank_of_alphanum hl
  · decide
  · decide

theorem Spelling.trimStart (s : Spelling n) (ds : List Char) :
    Chars.trimStart (s.chars ++ ds) = s.trimmed.chars ++ ds := by
  induction s generalizing ds with
  | leaf before l after =>
    rw [chars, List.append_assoc, List.append_assoc, before.trimStart, Leaf.trimStart]
    exact (List.append_assoc _ _ _).symm
  | binary op _ _ l r ihl _ =>
    rw [chars, List.append_assoc, ihl, trimmed, chars, List.append_assoc, List.append_assoc,
      List.append_assoc]
  | negation _ before s _ =>
    rw [chars, List.append_assoc, before.trimStart, List.cons_append, trimStart_cons (by decide)]
    rfl
  | parens before s after _ =>
    rw [chars, List.append_assoc, before.trimStart, List.cons_append, trimStart_cons (by decide)]
    rfl

theorem Spelling.trimStart_chars (s : Spelling n) : Chars.trimStart s.chars = s.trimmed.chars := by
  have h := s.trimStart []
  rwa [List.append_nil, List.append_nil] at h

theorem Spelling.length_pos (s : Spelling n) : 0 < s.chars.length := by
  cases s with
  | leaf before l after =>
    obtain ⟨c, ds, hc, -⟩ := l.head
    simp only [chars, hc, List.length_append, List.length_cons]
    omega
  | binary op _ _ l r =>
    have hpos := List.length_pos_iff.2 op.symbol_ne_nil
    simp only [chars, List.length_append]
    omega
  | negation =>
    simp only [chars, List.length_append, List.length_cons]
    omega
  | parens =>
    simp only [chars, List.length_append, List.length_cons]
    omega

/-! ## Where a spelling is split -/

namespace Expression

/-- An operator at which no token stands does not split the text. -/
theorem splitAt?_of_guarded (h : Guarded n cs []) (hop : op.rank < n) :
    Chars.splitAt? op.symbol.toList (Chars.tokens cs) = none := by
  obtain ⟨ts, ht, -, hp⟩ := h
  rw [List.append_nil, Chars.tokens_nil, List.append_nil] at ht
  have hs := Chars.splitAt?_append (show Chars.Passes _ ts (List.flatten []) from hp op hop)
  rw [List.append_nil] at hs
  rw [ht, hs, Chars.splitAt?, Option.map_none]

theorem split?_none (h : Guarded (Operator.not.rank + 1) cs []) : split? cs = none := by
  refine List.findSome?_eq_none_iff.2 fun op _ => ?_
  rw [splitAt?_of_guarded h (Nat.lt_succ_of_le op.rank_le_not), Option.map_none]

/-- A text is split at the operator that binds least, behind what that operator does not stand in. -/
theorem split?_some (h : Guarded op.rank (cs ++ (op.symbol.toList ++ ds)) [])
    (hl : Guarded (op.rank + 1) cs (op.symbol.toList ++ ds)) :
    split? (cs ++ (op.symbol.toList ++ ds)) = some (op, cs, ds) := by
  have hat : Chars.splitAt? op.symbol.toList (Chars.tokens (cs ++ (op.symbol.toList ++ ds))) =
      some (cs, ds) := by
    obtain ⟨ts, ht, hf, hp⟩ := hl
    have hpass := hp op (Nat.lt_succ_self _)
    rw [← Chars.tokens_flatten (op.symbol.toList ++ ds)] at hpass
    rw [ht, Chars.splitAt?_append hpass, Chars.splitAt?_symbol op.symbol_ne_nil, Option.map_some,
      List.append_nil, hf]
  have hall : Operator.all = Operator.all.take op.rank ++ op :: Operator.all.drop (op.rank + 1) := by
    cases op <;> rfl
  have hbefore : ∀ a ∈ Operator.all.take op.rank, a.rank < op.rank := by
    cases op <;> decide
  refine List.findSome?_eq_some_iff.2 ⟨_, op, _, hall, ?_, fun a ha => ?_⟩
  · rw [hat, Option.map_some]
  · rw [splitAt?_of_guarded h (hbefore a ha), Option.map_none]

/-! ## Parsing a spelling -/

theorem parseWithin_trimStart (fuel : Nat) (cs : List Char) :
    parseWithin fuel (Chars.trimStart cs) = parseWithin fuel cs := by
  cases fuel with
  | zero => rw [parseWithin, parseWithin, trimStart_idem]
  | succ fuel => rw [parseWithin, parseWithin, trimStart_idem]

theorem parseWithin_nil (fuel : Nat) : parseWithin fuel [] = .operand "" := by
  cases fuel with
  | zero => rfl
  | succ fuel => rfl

/-! The three ways to go on, by what a text is without the blanks before it. -/

theorem parseWithin_split {l r : List Char} (h : split? (Chars.trimStart cs) = some (op, l, r)) :
    parseWithin (fuel + 1) cs = .apply op (parseWithin fuel l) (parseWithin fuel r) := by
  rw [parseWithin, h]

theorem parseWithin_inParens {inside : List Char} (h : split? (Chars.trimStart cs) = none)
    (hp : inParens? (Chars.trimStart cs) = some inside) :
    parseWithin (fuel + 1) cs = parseWithin fuel inside := by
  rw [parseWithin, h, hp]

theorem parseWithin_operand (h : split? (Chars.trimStart cs) = none)
    (hp : inParens? (Chars.trimStart cs) = none) :
    parseWithin (fuel + 1) cs = .operand (String.ofList (Chars.trimStart cs)) := by
  rw [parseWithin, h, hp]

theorem inParens?_of_ne (h : c ≠ '(') : inParens? (c :: cs) = none := by
  unfold inParens?
  split
  · rename_i heq
    exact absurd (List.cons.inj heq).1 h
  · rfl

theorem inParens?_closed (h : Skipped cs) (rest : List Char) :
    inParens? ('(' :: (cs ++ ')' :: rest)) = some cs := by
  rw [inParens?, h.closed, Option.map_some, List.dropLast_concat]

end Expression

namespace Spelling

open Expression

theorem parseWithin_chars (s : Spelling n) (hf : s.chars.length ≤ fuel) :
    parseWithin fuel s.chars = s.tree := by
  have nothing : Chars.EndsRun [] := fun _ hx => by cases hx
  obtain ⟨fuel, rfl⟩ := Nat.exists_eq_succ_of_ne_zero
    (Nat.ne_of_gt (Nat.lt_of_lt_of_le s.length_pos hf))
  have htrim := s.trimStart_chars
  induction s generalizing fuel with
  | leaf before l after =>
    have hpar : inParens? (l.chars ++ after.1) = none := by
      obtain ⟨c, ds, hc, hne, -⟩ := l.head
      rw [hc, List.cons_append]
      exact inParens?_of_ne hne
    change Chars.trimStart _ = l.chars ++ after.1 at htrim
    rw [parseWithin_operand (by rw [htrim]; exact split?_none (l.guarded after nothing))
      (by rw [htrim]; exact hpar), htrim, tree]
  | @binary n op isBinary binds l r ihl ihr =>
    have hsplit : split? (Chars.trimStart (chars (.binary op isBinary binds l r))) =
        some (op, l.trimmed.chars, r.chars) := by
      rw [htrim]
      exact split?_some
        ((Spelling.binary op isBinary (Nat.le_refl _) l.trimmed r).guarded nothing)
        (l.trimmed.guarded (endsRun_symbol op r.chars))
    have hposl := l.length_pos
    have hposr := r.length_pos
    simp only [chars, List.length_append] at hf
    obtain ⟨fuel, rfl⟩ := Nat.exists_eq_succ_of_ne_zero (n := fuel) (by omega)
    rw [parseWithin_split hsplit, ← l.trimStart_chars, parseWithin_trimStart,
      ihl _ (by omega) l.trimStart_chars, ihr _ (by omega) r.trimStart_chars, tree]
  | negation binds before s ih =>
    have hsplit : split? (Chars.trimStart (chars (.negation binds before s))) =
        some (.not, [], s.chars) := by
      rw [htrim]
      exact split?_some ((Spelling.negation (Nat.le_refl _) .none s).guarded nothing)
        (guarded_nil : Guarded (Operator.not.rank + 1) [] _)
    have hpos := s.length_pos
    simp only [chars, List.length_append, List.length_cons] at hf
    obtain ⟨fuel, rfl⟩ := Nat.exists_eq_succ_of_ne_zero (n := fuel) (by omega)
    rw [parseWithin_split hsplit, parseWithin_nil, ih _ (by omega) s.trimStart_chars, tree]
  | parens before s after ih =>
    have hnone : split? (chars (.parens .none s after : Spelling (Operator.not.rank + 1))) = none :=
      split?_none ((Spelling.parens .none s after).guarded nothing)
    have hpos := s.length_pos
    simp only [chars, List.length_append, List.length_cons] at hf
    obtain ⟨fuel, rfl⟩ := Nat.exists_eq_succ_of_ne_zero (n := fuel) (by omega)
    rw [parseWithin_inParens (by rw [htrim]; exact hnone)
      (by rw [htrim]; exact inParens?_closed s.skipped after.1),
      ih _ (by omega) s.trimStart_chars, tree]

theorem parse_text (s : Spelling n) : Expression.parse s.text = s.tree := by
  rw [Expression.parse, text, String.toList_ofList]
  exact s.parseWithin_chars (Nat.le_refl _)

end Spelling

/-! ## Values and calls -/

/-- Gives a text back, and adds it to those given so far. -/
def record (text : String) : StateM (List String) String := fun calls => (text, calls ++ [text])

theorem Operator.apply_trim {l l' r r' : String} (hl : Text.trim l = Text.trim l')
    (hr : Text.trim r = Text.trim r') : op.apply l r = op.apply l' r' := by
  rw [Operator.apply, hl, hr, Operator.apply]

theorem Spelling.eval_tree (s : Spelling n) (calls : List String) :
    ∃ v given, s.tree.eval record calls = (v, calls ++ given) ∧
      Text.trim v = Text.trim s.formula.value ∧ List.Forall₂ Padded s.formula.operands given := by
  induction s generalizing calls with
  | leaf before l after =>
    have hpad : Padded (String.ofList l.chars) (String.ofList (l.chars ++ after.1)) := by
      refine ⟨after, by rw [String.toList_ofList, String.toList_ofList], fun he => ?_⟩
      obtain ⟨c, cs, hc, -⟩ := l.head
      rw [hc] at he
      exact absurd (congrArg String.toList he) (by rw [String.toList_ofList]; exact List.cons_ne_nil _ _)
    refine ⟨_, _, rfl, ?_, .cons hpad .nil⟩
    rw [formula, Formula.value, Text.trim, Text.trim, String.toList_ofList, String.toList_ofList,
      after.trim]
  | binary op isBinary binds l r ihl ihr =>
    obtain ⟨v, given, hv, htv, hgiven⟩ := ihl calls
    obtain ⟨w, given', hw, htw, hgiven'⟩ := ihr (calls ++ given)
    refine ⟨op.apply v w, given ++ given', ?_, ?_, List.rel_append hgiven hgiven'⟩
    · have hrun : (Expression.apply op l.tree r.tree).eval record calls =
          (op.apply (l.tree.eval record calls).1 (r.tree.eval record (l.tree.eval record calls).2).1,
            (r.tree.eval record (l.tree.eval record calls).2).2) := rfl
      rw [tree, hrun, hv, hw, List.append_assoc]
    · rw [Operator.apply_trim htv htw]
      rfl
  | negation binds before s ih =>
    obtain ⟨v, given, hv, htv, hgiven⟩ := ih (calls ++ [""])
    have hmissing : Padded "" "" := ⟨.none, rfl, fun _ => rfl⟩
    refine ⟨Operator.not.apply "" v, "" :: given, ?_, ?_, .cons hmissing hgiven⟩
    · have hrun : (Expression.apply .not (.operand "") s.tree).eval record calls =
          (Operator.not.apply "" (s.tree.eval record (calls ++ [""])).1,
            (s.tree.eval record (calls ++ [""])).2) := rfl
      rw [tree, hrun, hv, List.append_assoc, List.singleton_append]
    · rw [Operator.apply_trim rfl htv]
      rfl
  | parens before s after ih => exact ih calls

/-- The value of a formula, up to the blanks around it, comes from its leaves by its operators,
however it is written. Each leaf is expanded once, from left to right, and the empty text for the
missing left side of each `!`. -/
theorem Spelling.eval_parse (s : Spelling 0) :
    ∃ value calls, ((Expression.parse s.text).eval record).run [] = (value, calls) ∧
      Text.trim value = Text.trim s.formula.value ∧
      List.Forall₂ Padded s.formula.operands calls := by
  rw [s.parse_text]
  exact s.eval_tree []

/-- An operator and a parenthesis inside a quoted text, and a negation on the left of an operator. -/
example : (Formula.render (.binary .or (by decide)
    (.negation (.binary .add (by decide) (.leaf (.word ['a', '1'] (by decide)))
      (.leaf (.quoted ['x', '|', ')'] (by decide)))))
    (.binary .lt (by decide) (.leaf (.word ['b'] (by decide))) (.leaf (.word ['3'] (by decide)))))
    0).chars = "!(a1+\"x|)\")||b<3".toList := by decide

end

end MudTrigger
