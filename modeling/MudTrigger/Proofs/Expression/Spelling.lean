import MudTrigger.Proofs.Expression.Tokens

/-!
# Expressions as they are written

A `Formula` is an expression as a tree: its leaves are words, quoted texts and variables, its inner
nodes binary operators and `!`. A `Spelling n` is such a tree together with the way it is written at
a place where an operator needs parentheses unless its rank is `n` or more: blanks may stand between
the signs, and parentheses around any part. `Formula.render` puts the parentheses that are needed and
no others.

A spelling is cut into tokens of its own, whatever follows it, and no operator of a rank below `n`
stands at one of them (`Spelling.guarded`). A pair of parentheses around it closes behind it
(`Spelling.skipped`).
-/

set_option autoImplicit false

namespace MudTrigger

namespace Operator

/-- How tightly an operator binds: its place among all. -/
def rank (op : Operator) : Nat := all.idxOf op

/-- An operator starts with this character. -/
def isMark (c : Char) : Bool := all.any fun op => op.symbol.toList.head? == some c

section

variable {op op' : Operator} {c : Char}

theorem mem_all (op : Operator) : op ∈ all := by cases op <;> decide

theorem symbol_ne_nil (op : Operator) : op.symbol.toList ≠ [] := by cases op <;> decide

theorem rank_le_not (op : Operator) : op.rank ≤ Operator.not.rank := by cases op <;> decide

theorem isMark_symbol (h : op.symbol.toList.head? = some c) : isMark c = true :=
  List.any_eq_true.2 ⟨op, mem_all op, by rw [h]; exact beq_self_eq_true _⟩

theorem symbol_chars (op : Operator) : ∀ c ∈ op.symbol.toList,
    Chars.isSingle c = true ∧ Chars.isPlain c = true ∧ Chars.isRunChar c = false := by
  have hall : op.symbol.toList.all (fun c => Chars.isSingle c && Chars.isPlain c &&
      !Chars.isRunChar c) = true := by cases op <;> decide
  intro c hc
  have hcs := List.all_eq_true.1 hall c hc
  rw [Bool.and_eq_true, Bool.and_eq_true, Bool.not_eq_true'] at hcs
  exact ⟨hcs.1.1, hcs.1.2, hcs.2⟩

theorem isAlphanum_of_isMark (h : isMark c = true) : c.isAlphanum = false := by
  obtain ⟨op, -, hop⟩ := List.any_eq_true.1 h
  have hmem := List.mem_of_head? (beq_iff_eq.1 hop)
  have hrun := (symbol_chars op c hmem).2.2
  exact (Bool.or_eq_false_iff.1 hrun).1

theorem not_prefix_of_not_mark (h : isMark c = false) (cs : List Char) :
    ¬ op.symbol.toList <+: c :: cs := by
  intro hp
  cases hs : op.symbol.toList with
  | nil => exact symbol_ne_nil op hs
  | cons a l =>
    rw [hs, List.cons_prefix_cons] at hp
    rw [← hp.1, isMark_symbol (show op.symbol.toList.head? = some a by rw [hs]; rfl)] at h
    cases h

/-- The characters that come second in an operator. -/
def seconds : List Char := ['=', '|', '&']

theorem symbol_cases (op : Operator) :
    ∃ a, op.symbol.toList = [a] ∨ ∃ b ∈ seconds, op.symbol.toList = [a, b] := by
  cases op <;> exact ⟨_, by first | exact .inl rfl | exact .inr ⟨_, by decide, rfl⟩⟩

/-- An operator that begins in a text and does not go on behind it is in the text. -/
theorem prefix_of_prefix_append {s cs : List Char} (hs : s ≠ []) (hc : ∀ c ∈ cs.head?, c ∉ seconds)
    (h : op.symbol.toList <+: s ++ cs) : op.symbol.toList <+: s := by
  obtain ⟨c, s, rfl⟩ := List.exists_cons_of_ne_nil hs
  obtain ⟨a, ha | ⟨b, hb, ha⟩⟩ := symbol_cases op
  · rw [ha, List.cons_append, List.cons_prefix_cons] at h
    rw [ha, List.cons_prefix_cons]
    exact ⟨h.1, List.nil_prefix⟩
  · rw [ha, List.cons_append, List.cons_prefix_cons] at h
    rw [ha, List.cons_prefix_cons]
    refine ⟨h.1, ?_⟩
    cases s with
    | nil =>
      cases cs with
      | nil => exact h.2
      | cons d cs =>
        rw [List.nil_append, List.cons_prefix_cons] at h
        exact absurd (h.2.1 ▸ hb) (hc d rfl)
    | cons d s =>
      rw [List.cons_append, List.cons_prefix_cons] at h
      exact List.cons_prefix_cons.2 ⟨h.2.1, List.nil_prefix⟩

/-- An operator that binds less than another does not begin within it. -/
theorem not_prefix_symbol (h : op.rank < op'.rank) {k : Nat} (hk : k < op'.symbol.toList.length) :
    ¬ op.symbol.toList <+: op'.symbol.toList.drop k := by
  have hall : ∀ a ∈ all, ∀ b ∈ all, a.rank < b.rank →
      ∀ k < b.symbol.toList.length, ¬ a.symbol.toList <+: b.symbol.toList.drop k := by
    decide +kernel
  exact hall op (mem_all op) op' (mem_all op') h k hk

end

end Operator

/-! ## Formulas -/

/-- A character that no reader of an expression stops at. -/
def isNeutral (c : Char) : Bool := Chars.isPlain c && !Operator.isMark c

/-- A text of letters and digits, one or more. -/
def isWord (cs : List Char) : Bool := !cs.isEmpty && cs.all Char.isAlphanum

/-- The name of a variable that may stand between percent signs in an expression. -/
def isName (name : List Char) : Bool :=
  !name.isEmpty && name.all fun c => isNeutral c && c != '%' && c != '.'

/-- An operand of a formula. -/
inductive Leaf where
  | word (cs : List Char) (h : isWord cs = true)
  /-- A text between double quotes, with neither a quote nor a backslash inside. -/
  | quoted (inside : List Char) (h : Chars.isUnquoted inside = true)
  /-- A variable between percent signs. -/
  | token (name : List Char) (h : isName name = true)

def Leaf.chars : Leaf → List Char
  | word cs _ => cs
  | quoted inside _ => '"' :: (inside ++ ['"'])
  | token name _ => '%' :: (name ++ ['%'])

/-- An expression as a tree. -/
inductive Formula where
  | leaf (l : Leaf)
  | binary (op : Operator) (isBinary : op ≠ .not) (left right : Formula)
  | negation (operand : Formula)

namespace Formula

/-- The value of a formula whose leaves stand for themselves; `!` has an empty left side. -/
def value : Formula → String
  | leaf l => String.ofList l.chars
  | binary op _ l r => op.apply l.value r.value
  | negation f => Operator.not.apply "" f.value

/-- What is expanded for the value, in order: the leaves, and the empty left side of each `!`. -/
def operands : Formula → List String
  | leaf l => [String.ofList l.chars]
  | binary _ _ l r => l.operands ++ r.operands
  | negation f => "" :: f.operands

end Formula

/-! ## Spellings -/

/-- Blanks, none or more. -/
def Gap : Type := { cs : List Char // cs.all Chars.isAsciiBlank = true }

def Gap.none : Gap := ⟨[], rfl⟩

theorem Gap.blank (gap : Gap) : ∀ c ∈ gap.1, Chars.isAsciiBlank c = true :=
  List.all_eq_true.1 gap.2

/-- A way to write a formula, where an operator of a rank below `n` needs parentheses. The right side
of an operator may hold the same operator without them. -/
inductive Spelling : Nat → Type where
  | leaf {n : Nat} (before : Gap) (l : Leaf) (after : Gap) : Spelling n
  | binary {n : Nat} (op : Operator) (isBinary : op ≠ .not) (binds : n ≤ op.rank)
    (left : Spelling (op.rank + 1)) (right : Spelling op.rank) : Spelling n
  | negation {n : Nat} (binds : n ≤ Operator.not.rank) (before : Gap)
    (operand : Spelling Operator.not.rank) : Spelling n
  | parens {n : Nat} (before : Gap) (inside : Spelling 0) (after : Gap) : Spelling n

namespace Spelling

/-- The formula that is written. -/
def formula {n : Nat} : Spelling n → Formula
  | leaf _ l _ => .leaf l
  | binary op isBinary _ l r => .binary op isBinary l.formula r.formula
  | negation _ _ s => .negation s.formula
  | parens _ s _ => s.formula

def chars {n : Nat} : Spelling n → List Char
  | leaf before l after => before.1 ++ (l.chars ++ after.1)
  | binary op _ _ l r => l.chars ++ (op.symbol.toList ++ r.chars)
  | negation _ before s => before.1 ++ '!' :: s.chars
  | parens before s after => before.1 ++ '(' :: (s.chars ++ ')' :: after.1)

def text {n : Nat} (s : Spelling n) : String := String.ofList s.chars

end Spelling

/-- A formula with the parentheses it needs, and without blanks. -/
def Formula.render : Formula → (n : Nat) → Spelling n
  | leaf l, _ => .leaf .none l .none
  | binary op isBinary l r, n =>
    if h : n ≤ op.rank then .binary op isBinary h (l.render _) (r.render _)
    else .parens .none (.binary op isBinary (Nat.zero_le _) (l.render _) (r.render _)) .none
  | negation f, n =>
    if h : n ≤ Operator.not.rank then .negation h .none (f.render _)
    else .parens .none (.negation (Nat.zero_le _) .none (f.render _)) .none

/-- Every formula can be written. -/
theorem Formula.render_formula (f : Formula) (n : Nat) : (f.render n).formula = f := by
  induction f generalizing n with
  | leaf l => rfl
  | binary op isBinary l r ihl ihr =>
    unfold render
    split <;> simp only [Spelling.formula, ihl, ihr]
  | negation f ih =>
    unfold render
    split <;> simp only [Spelling.formula, ih]

/-! ## A text among others -/

/-- Going through parentheses goes past this text. -/
def Skipped (cs : List Char) : Prop := ∀ depth rest,
  Chars.throughParen? depth false (cs ++ rest) =
    (Chars.throughParen? depth false rest).map fun p => (cs ++ p.1, p.2)

/-- The text before `rest` is cut into tokens of its own, and no operator of a rank below `n` stands
at one of them. -/
def Guarded (n : Nat) (cs rest : List Char) : Prop :=
  ∃ ts, Chars.tokens (cs ++ rest) = ts ++ Chars.tokens rest ∧ ts.flatten = cs ∧
    ∀ op : Operator, op.rank < n → Chars.Passes op.symbol.toList ts rest

section

variable {n m : Nat} {op : Operator} {c : Char} {cs ds rest : List Char}

theorem isWord_iff : isWord cs = true ↔ cs ≠ [] ∧ ∀ c ∈ cs, c.isAlphanum = true := by
  rw [isWord, Bool.and_eq_true, Bool.not_eq_true', List.isEmpty_eq_false_iff, List.all_eq_true]

theorem isName_iff :
    isName cs = true ↔ cs ≠ [] ∧ ∀ c ∈ cs, isNeutral c = true ∧ c ≠ '%' ∧ c ≠ '.' := by
  rw [isName, Bool.and_eq_true, Bool.not_eq_true', List.isEmpty_eq_false_iff, List.all_eq_true]
  simp only [Bool.and_eq_true, bne_iff_ne, and_assoc]

theorem blank_char (h : Chars.isAsciiBlank c = true) :
    Chars.isBlank c = true ∧ Chars.isSingle c = true ∧ Chars.isPlain c = true ∧
      Operator.isMark c = false ∧ c ∉ Operator.seconds := by
  simp only [Chars.isAsciiBlank, Bool.or_eq_true, beq_iff_eq] at h
  obtain (((rfl | rfl) | rfl) | rfl) | rfl := h <;> decide

theorem isNeutral_of_blank (h : Chars.isAsciiBlank c = true) : isNeutral c = true := by
  obtain ⟨-, -, hp, hm, -⟩ := blank_char h
  rw [isNeutral, hp, hm]
  rfl

theorem isNeutral_of_alphanum (h : c.isAlphanum = true) : isNeutral c = true := by
  have hm : Operator.isMark c = false := by
    cases hm : Operator.isMark c with
    | false => rfl
    | true => rw [Operator.isAlphanum_of_isMark hm] at h; cases h
  have hp : Chars.isPlain c = true := by
    simp only [Chars.isPlain, Bool.and_eq_true, bne_iff_ne, ne_eq]
    refine ⟨⟨?_, ?_⟩, ?_⟩ <;> rintro rfl <;> cases h
  rw [isNeutral, hp, hm]
  rfl

theorem ne_of_isNeutral (h : isNeutral c = true) :
    Chars.isPlain c = true ∧ Operator.isMark c = false ∧ c ∉ Operator.seconds ∧ c ≠ '(' := by
  obtain ⟨hp, hm⟩ := Bool.and_eq_true_iff.1 h
  refine ⟨hp, by simpa using hm, fun hc => ?_, ?_⟩
  · simp only [Operator.seconds, List.mem_cons, List.not_mem_nil, or_false] at hc
    obtain rfl | rfl | rfl := hc <;> cases h
  · rintro rfl
    cases h

namespace Leaf

/-- A leaf is quoted, or no character of it stops a reader. -/
theorem neutral (l : Leaf) :
    (∃ inside, Chars.Unquoted inside ∧ l.chars = '"' :: (inside ++ ['"'])) ∨
      ∀ c ∈ l.chars, isNeutral c = true := by
  cases l with
  | word cs h => exact .inr fun c hc => isNeutral_of_alphanum ((isWord_iff.1 h).2 c hc)
  | quoted inside h => exact .inl ⟨inside, Chars.unquoted_of_isUnquoted h, rfl⟩
  | token name h =>
    refine .inr fun c hc => ?_
    rw [chars, List.mem_cons, List.mem_append, List.mem_singleton] at hc
    obtain rfl | hc | rfl := hc
    · decide
    · exact ((isName_iff.1 h).2 c hc).1
    · decide

/-- What a leaf starts with. -/
theorem head (l : Leaf) : ∃ c cs, l.chars = c :: cs ∧ c ≠ '(' ∧ c ∉ Operator.seconds ∧
    (c.isAlphanum = true ∨ c = '"' ∨ c = '%') := by
  cases l with
  | word cs h =>
    obtain ⟨hne, hall⟩ := isWord_iff.1 h
    obtain ⟨c, cs, rfl⟩ := List.exists_cons_of_ne_nil hne
    have hc := hall c List.mem_cons_self
    have hn := ne_of_isNeutral (isNeutral_of_alphanum hc)
    exact ⟨c, cs, rfl, hn.2.2.2, hn.2.2.1, .inl hc⟩
  | quoted inside h => exact ⟨'"', _, rfl, by decide, by decide, .inr (.inl rfl)⟩
  | token name h => exact ⟨'%', _, rfl, by decide, by decide, .inr (.inr rfl)⟩

end Leaf

/-! ## Going past a spelling -/

theorem Skipped.append (h : Skipped cs) (h' : Skipped ds) : Skipped (cs ++ ds) := by
  intro depth rest
  rw [List.append_assoc, h, h', Option.map_map]
  refine congrArg (Option.map · _) (funext fun p => ?_)
  rw [Function.comp_apply, List.append_assoc]

theorem skipped_of_plain (h : ∀ c ∈ cs, Chars.isPlain c = true) : Skipped cs := fun _ rest =>
  Chars.throughParen?_plain h rest

theorem Gap.skipped (gap : Gap) : Skipped gap.1 :=
  skipped_of_plain fun c hc => (blank_char (gap.blank c hc)).2.2.1

theorem Leaf.skipped (l : Leaf) : Skipped l.chars := by
  rcases l.neutral with ⟨inside, hq, hl⟩ | hall
  · intro depth rest
    rw [hl, List.cons_append, List.append_assoc, List.singleton_append,
      Chars.throughParen?_quoted hq]
    refine congrArg (Option.map · _) (funext fun p => ?_)
    rw [List.cons_append, List.append_assoc, List.singleton_append]
  · exact skipped_of_plain fun c hc => (ne_of_isNeutral (hall c hc)).1

theorem skipped_parens (h : Skipped cs) : Skipped ('(' :: (cs ++ [')'])) := by
  intro depth rest
  rw [List.cons_append, List.append_assoc, List.singleton_append, Chars.throughParen?_open, h,
    Chars.throughParen?_close, Option.map_map, Option.map_map]
  refine congrArg (Option.map · _) (funext fun p => ?_)
  simp only [Function.comp_apply, List.cons_append, List.append_assoc, List.nil_append]

theorem Spelling.skipped (s : Spelling n) : Skipped s.chars := by
  induction s with
  | leaf before l after => exact before.skipped.append (l.skipped.append after.skipped)
  | binary op _ _ _ _ ihl ihr =>
    exact ihl.append ((skipped_of_plain fun c hc => (op.symbol_chars c hc).2.1).append ihr)
  | negation _ before _ ih =>
    have hmark : Skipped ['!'] := skipped_of_plain fun c hc => List.mem_singleton.1 hc ▸ rfl
    exact before.skipped.append (hmark.append ih)
  | parens before s after ih =>
    have hafter := (skipped_parens ih).append after.skipped
    rw [List.cons_append, List.append_assoc, List.singleton_append] at hafter
    exact before.skipped.append hafter

/-- The parentheses around a text that is gone past belong together. -/
theorem Skipped.closed (h : Skipped cs) (rest : List Char) :
    Chars.throughParen? 0 false (cs ++ ')' :: rest) = some (cs ++ [')'], rest) := by
  rw [h, Chars.throughParen?_end, Option.map_some]

/-! ## The tokens of a spelling -/

theorem Guarded.append (h : Guarded n cs (ds ++ rest)) (h' : Guarded n ds rest) :
    Guarded n (cs ++ ds) rest := by
  obtain ⟨ts, ht, hf, hp⟩ := h
  obtain ⟨us, hu, hg, hq⟩ := h'
  refine ⟨ts ++ us, ?_, ?_, fun op hop => Chars.Passes.append ?_ (hq op hop)⟩
  · rw [List.append_assoc, ht, hu, List.append_assoc]
  · rw [List.flatten_append, hf, hg]
  · rw [hg]
    exact hp op hop

theorem Guarded.mono (h : Guarded m cs rest) (hn : n ≤ m) : Guarded n cs rest := by
  obtain ⟨ts, ht, hf, hp⟩ := h
  exact ⟨ts, ht, hf, fun op hop => hp op (Nat.lt_of_lt_of_le hop hn)⟩

/-- Where no token starts like an operator, no operator stands. -/
theorem guarded_of_heads (ts : List (List Char))
    (ht : Chars.tokens (cs ++ rest) = ts ++ Chars.tokens rest) (hf : ts.flatten = cs)
    (hm : ∀ t ∈ ts, ∃ c t', t = c :: t' ∧ Operator.isMark c = false) : Guarded n cs rest := by
  refine ⟨ts, ht, hf, fun op _ => ?_⟩
  clear ht hf
  induction ts with
  | nil => trivial
  | cons t ts ih =>
    obtain ⟨c, t', rfl, hc⟩ := hm t List.mem_cons_self
    exact ⟨Operator.not_prefix_of_not_mark hc _, ih fun t h => hm t (List.mem_cons_of_mem _ h)⟩

theorem guarded_nil : Guarded n [] rest :=
  guarded_of_heads [] rfl rfl fun _ h => absurd h List.not_mem_nil

theorem Gap.guarded (gap : Gap) : Guarded n gap.1 rest := by
  refine guarded_of_heads _ (Chars.tokens_singles (fun c hc => (blank_char (gap.blank c hc)).2.1) rest)
    ?_ ?_
  · rw [← List.flatMap_def, List.flatMap_singleton']
  · intro t ht
    obtain ⟨c, hc, rfl⟩ := List.mem_map.1 ht
    exact ⟨c, [], rfl, (blank_char (gap.blank c hc)).2.2.2.1⟩

/-- No operator stands among neutral characters, which may join in runs. -/
theorem guarded_neutral (h : ∀ c ∈ cs, isNeutral c = true) (hr : Chars.EndsRun rest) :
    Guarded n cs rest := by
  induction hn : cs.length using Nat.strongRecOn generalizing cs with
  | ind k ih =>
    subst hn
    cases cs with
    | nil => exact guarded_nil
    | cons c cs =>
      obtain ⟨hp, hm, -, ho⟩ := ne_of_isNeutral (h c List.mem_cons_self)
      have htail : ∀ a ∈ cs, isNeutral a = true := fun a ha => h a (List.mem_cons_of_mem _ ha)
      cases hc : c.isAlphanum with
      | true =>
        have hrun := Chars.tokens_run hc cs hr
        have hrest := ih (cs.dropWhile Chars.isRunChar).length
          (Nat.lt_succ_of_le (List.dropWhile_suffix _).length_le)
          (fun a ha => htail a ((List.dropWhile_suffix _).subset ha)) rfl
        have hfirst : Guarded n (c :: cs.takeWhile Chars.isRunChar)
            (cs.dropWhile Chars.isRunChar ++ rest) := by
          refine guarded_of_heads [c :: cs.takeWhile Chars.isRunChar] ?_
            (List.append_nil _) fun t ht => ⟨c, _, List.mem_singleton.1 ht, hm⟩
          rw [List.cons_append, ← List.append_assoc, List.takeWhile_append_dropWhile]
          exact hrun
        have hwhole := hfirst.append hrest
        rwa [List.cons_append, List.takeWhile_append_dropWhile] at hwhole
      | false =>
        have hsingle : Chars.isSingle c = true := by
          simp only [Chars.isPlain, Bool.and_eq_true] at hp
          rw [Chars.isSingle, hp.1.1, hp.2, hc]
          rfl
        have hfirst : Guarded n [c] (cs ++ rest) :=
          guarded_of_heads [[c]] (Chars.tokens_singles (fun a ha => List.mem_singleton.1 ha ▸ hsingle) _)
            rfl fun t ht => ⟨c, [], List.mem_singleton.1 ht, hm⟩
        exact hfirst.append (ih cs.length (Nat.lt_succ_self _) htail rfl)

theorem Leaf.guarded (l : Leaf) (gap : Gap) (hr : Chars.EndsRun rest) :
    Guarded n (l.chars ++ gap.1) rest := by
  rcases l.neutral with ⟨inside, hq, hl⟩ | hall
  · refine Guarded.append ?_ gap.guarded
    rw [hl]
    refine guarded_of_heads ['"' :: (inside ++ ['"'])] ?_ (List.append_nil _) fun t ht => ?_
    · rw [List.cons_append, List.append_assoc, List.singleton_append]
      exact Chars.tokens_quoted hq _
    · exact ⟨'"', _, List.mem_singleton.1 ht, by decide⟩
  · refine guarded_neutral (fun c hc => ?_) hr
    rcases List.mem_append.1 hc with hc | hc
    · exact hall c hc
    · exact isNeutral_of_blank (gap.blank c hc)

theorem guarded_parens (h : Skipped cs) : Guarded n ('(' :: (cs ++ [')'])) rest := by
  refine guarded_of_heads ['(' :: (cs ++ [')'])] ?_ (List.append_nil _) fun t ht => ?_
  · rw [List.cons_append, List.append_assoc, List.singleton_append]
    exact Chars.tokens_paren (h.closed rest)
  · exact ⟨'(', _, List.mem_singleton.1 ht, by decide⟩

/-- The characters of an operator are tokens; none that binds less begins at one of them. -/
theorem guarded_symbol (op : Operator) (hr : ∀ c ∈ rest.head?, c ∉ Operator.seconds) :
    Guarded op.rank op.symbol.toList rest := by
  refine ⟨op.symbol.toList.map ([·]), ?_, ?_, fun op' hop => ?_⟩
  · exact Chars.tokens_singles (fun c hc => (op.symbol_chars c hc).1) rest
  · rw [← List.flatMap_def, List.flatMap_singleton']
  · have hnot : ∀ k, k < op.symbol.toList.length → ¬ op'.symbol.toList <+: op.symbol.toList.drop k :=
      fun k hk => Operator.not_prefix_symbol hop hk
    generalize op.symbol.toList = s at hnot ⊢
    induction s with
    | nil => trivial
    | cons c s ih =>
      refine ⟨fun hp => ?_, ih fun k hk => hnot (k + 1) (Nat.succ_lt_succ hk)⟩
      rw [← List.flatMap_def, List.flatMap_singleton'] at hp
      exact hnot 0 (Nat.zero_lt_succ _)
        (Operator.prefix_of_prefix_append (s := c :: s) (List.cons_ne_nil _ _) hr hp)

theorem endsRun_symbol (op : Operator) (rest : List Char) :
    Chars.EndsRun (op.symbol.toList ++ rest) := by
  intro c hc
  obtain ⟨a, l, hs⟩ := List.exists_cons_of_ne_nil op.symbol_ne_nil
  rw [hs] at hc
  cases hc
  exact (op.symbol_chars c (hs ▸ List.mem_cons_self)).2.2

namespace Spelling

theorem head_gap {P : Char → Prop} (gap : Gap) (hb : ∀ c, Chars.isAsciiBlank c = true → P c)
    (hc : ∀ c ∈ cs.head?, P c) : ∀ c ∈ (gap.1 ++ cs).head?, P c := by
  have hblank := gap.blank
  cases hg : gap.1 with
  | nil => exact hc
  | cons b rest =>
    intro c h
    cases h
    exact hb b (hblank b (hg ▸ List.mem_cons_self))

/-- A spelling does not go on with the operator before it. -/
theorem head (s : Spelling n) (rest : List Char) :
    ∀ c ∈ (s.chars ++ rest).head?, c ∉ Operator.seconds := by
  have blank : ∀ c, Chars.isAsciiBlank c = true → c ∉ Operator.seconds := fun c hc =>
    (blank_char hc).2.2.2.2
  have first {x : Char} {xs : List Char} (hx : x ∉ Operator.seconds) :
      ∀ c ∈ (x :: xs).head?, c ∉ Operator.seconds := fun c hc => by
    cases hc
    exact hx
  induction s generalizing rest with
  | leaf before l after =>
    obtain ⟨c, cs, hc, -, hs, -⟩ := l.head
    rw [chars, List.append_assoc, hc]
    exact head_gap before blank (first hs)
  | binary _ _ _ _ _ ihl _ =>
    rw [chars, List.append_assoc]
    exact ihl _
  | negation _ before _ _ =>
    rw [chars, List.append_assoc]
    exact head_gap before blank (first (by decide))
  | parens before _ _ _ =>
    rw [chars, List.append_assoc]
    exact head_gap before blank (first (by decide))

/-- No operator of a rank below `n` stands in a spelling at `n`. -/
theorem guarded (s : Spelling n) (hr : Chars.EndsRun rest) : Guarded n s.chars rest := by
  induction s generalizing rest with
  | leaf before l after => exact before.guarded.append (l.guarded after hr)
  | binary op _ binds l r ihl ihr =>
    refine Guarded.append ?_ (Guarded.append ?_ ((ihr hr).mono binds))
    · rw [List.append_assoc]
      exact (ihl (endsRun_symbol op _)).mono (Nat.le_succ_of_le binds)
    · exact (guarded_symbol op (r.head rest)).mono binds
  | negation binds before s ih =>
    have hmark := (guarded_symbol .not (s.head rest)).mono binds
    exact before.guarded.append (hmark.append ((ih hr).mono binds))
  | @parens m before s after _ =>
    have hafter : Guarded m ('(' :: (s.chars ++ [')']) ++ after.1) rest :=
      (guarded_parens s.skipped).append after.guarded
    rw [List.cons_append, List.append_assoc, List.singleton_append] at hafter
    exact before.guarded.append hafter

end Spelling

end

end MudTrigger
