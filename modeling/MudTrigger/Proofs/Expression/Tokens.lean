import MudTrigger.Script.Expression

/-!
# The tokens of a text

`Chars.tokens` cuts a text up without losing a character (`tokens_flatten`), and one token at a time
(`tokens_cons`). The lemmas below say what the first token is for each kind of beginning. A split
goes past the tokens at which the symbol does not stand (`Passes`, `splitAt?_append`).
-/

set_option autoImplicit false

namespace MudTrigger

namespace Chars

section

variable {c : Char} {cs rest : List Char} {depth : Nat}

theorem throughQuote?_append {p : List Char × List Char} (h : throughQuote? cs = some p) :
    p.1 ++ p.2 = cs := by
  fun_induction throughQuote? cs generalizing p with
  | case1 => cases h
  | case2 cs => cases h; rfl
  | case3 c cs ih =>
    obtain ⟨q, hq, rfl⟩ := Option.map_eq_some_iff.1 h
    rw [← ih hq, List.cons_append, List.cons_append]
  | case4 => cases h
  | case5 c cs _ _ _ ih =>
    obtain ⟨q, hq, rfl⟩ := Option.map_eq_some_iff.1 h
    rw [← ih hq, List.cons_append]

theorem throughParen?_append {quoted : Bool} {p : List Char × List Char}
    (h : throughParen? depth quoted cs = some p) : p.1 ++ p.2 = cs := by
  fun_induction throughParen? depth quoted cs generalizing p with
  | case1 => cases h
  | case2 depth c cs ih =>
    obtain ⟨q, hq, rfl⟩ := Option.map_eq_some_iff.1 h
    rw [← ih hq, List.cons_append, List.cons_append]
  | case3 depth c cs _ ih =>
    obtain ⟨q, hq, rfl⟩ := Option.map_eq_some_iff.1 h
    rw [← ih hq, List.cons_append]
  | case4 depth quoted c cs _ _ hc =>
    cases h
    rw [hc.1, List.singleton_append]
  | case5 =>
    rename_i ih
    obtain ⟨q, hq, rfl⟩ := Option.map_eq_some_iff.1 h
    rw [← ih hq, List.cons_append]

/-- A token begins where the text begins. -/
theorem firstToken_append (c : Char) (cs : List Char) :
    ∃ t, (firstToken c cs).1 = c :: t ∧ t ++ (firstToken c cs).2 = cs := by
  unfold firstToken
  split
  · split
    · rename_i span rest h
      exact ⟨span, rfl, throughParen?_append h⟩
    · exact ⟨cs, rfl, List.append_nil cs⟩
  · split
    · split
      · rename_i span rest h
        exact ⟨span, rfl, throughQuote?_append h⟩
      · exact ⟨cs, rfl, List.append_nil cs⟩
    · split
      · exact ⟨_, rfl, List.takeWhile_append_dropWhile⟩
      · exact ⟨[], rfl, rfl⟩

theorem firstToken_length (c : Char) (cs : List Char) :
    (firstToken c cs).2.length ≤ cs.length := by
  obtain ⟨t, -, ht⟩ := firstToken_append c cs
  have hl := congrArg List.length ht
  rw [List.length_append] at hl
  omega

theorem tokensWithin_eq {fuel : Nat} (h : cs.length ≤ fuel) : tokensWithin fuel cs = tokens cs := by
  suffices hs : ∀ n m cs, cs.length ≤ n → cs.length ≤ m → tokensWithin n cs = tokensWithin m cs from
    hs fuel cs.length cs h (Nat.le_refl _)
  intro n
  induction n with
  | zero =>
    intro m cs hn _
    rw [List.length_eq_zero_iff.1 (Nat.le_zero.1 hn)]
    cases m <;> rfl
  | succ n ih =>
    intro m cs hn hm
    cases cs with
    | nil => cases m <;> rfl
    | cons c cs =>
      have hle := firstToken_length c cs
      cases m with
      | zero => cases hm
      | succ m =>
        rw [tokensWithin, tokensWithin, ih m _ (Nat.le_trans hle (Nat.le_of_succ_le_succ hn))
          (Nat.le_trans hle (Nat.le_of_succ_le_succ hm))]

theorem tokens_nil : tokens [] = [] := rfl

theorem tokens_cons (c : Char) (cs : List Char) :
    tokens (c :: cs) = (firstToken c cs).1 :: tokens (firstToken c cs).2 := by
  rw [tokens, List.length_cons, tokensWithin, tokensWithin_eq (firstToken_length c cs)]

theorem tokens_flatten (cs : List Char) : (tokens cs).flatten = cs := by
  induction hn : cs.length using Nat.strongRecOn generalizing cs with
  | ind n ih =>
    subst hn
    cases cs with
    | nil => rfl
    | cons c cs =>
      obtain ⟨t, h1, ht⟩ := firstToken_append c cs
      have hlt := Nat.lt_succ_of_le (firstToken_length c cs)
      rw [tokens_cons, List.flatten_cons, ih _ hlt _ rfl, h1, List.cons_append, ht]

/-! ## What the first token is -/

/-- A character that is a token by itself. -/
def isSingle (c : Char) : Bool := c != '(' && c != '"' && !c.isAlphanum

theorem firstToken_single (h : isSingle c = true) : firstToken c cs = ([c], cs) := by
  simp only [isSingle, Bool.and_eq_true, bne_iff_ne, ne_eq, Bool.not_eq_true'] at h
  rw [firstToken, if_neg h.1.1, if_neg h.1.2, if_neg (by rw [h.2]; exact Bool.false_ne_true)]

theorem tokens_singles (h : ∀ c ∈ cs, isSingle c = true) (rest : List Char) :
    tokens (cs ++ rest) = cs.map ([·]) ++ tokens rest := by
  induction cs with
  | nil => rfl
  | cons c cs ih =>
    rw [List.cons_append, tokens_cons, firstToken_single (h c List.mem_cons_self),
      ih fun c hc => h c (List.mem_cons_of_mem _ hc), List.map_cons, List.cons_append]

/-- The text does not continue a run of letters, digits and blanks. -/
def EndsRun (rest : List Char) : Prop := ∀ c ∈ rest.head?, isRunChar c = false

/-- A run of letters, digits and blanks is one token if it starts with no blank. -/
theorem tokens_run (hc : c.isAlphanum = true) (cs : List Char) (hr : EndsRun rest) :
    tokens (c :: (cs ++ rest)) =
      (c :: cs.takeWhile isRunChar) :: tokens (cs.dropWhile isRunChar ++ rest) := by
  have hp : c ≠ '(' := by rintro rfl; cases hc
  have hq : c ≠ '"' := by rintro rfl; cases hc
  have hspan : (cs ++ rest).takeWhile isRunChar = cs.takeWhile isRunChar ∧
      (cs ++ rest).dropWhile isRunChar = cs.dropWhile isRunChar ++ rest := by
    induction cs with
    | nil =>
      cases rest with
      | nil => exact ⟨rfl, rfl⟩
      | cons a rest =>
        rw [List.nil_append, List.takeWhile_cons, List.dropWhile_cons, hr a rfl]
        exact ⟨rfl, rfl⟩
    | cons a cs ih =>
      rw [List.cons_append, List.takeWhile_cons, List.dropWhile_cons, List.takeWhile_cons,
        List.dropWhile_cons, ih.1, ih.2]
      cases isRunChar a with
      | true => exact ⟨rfl, rfl⟩
      | false => exact ⟨rfl, rfl⟩
  rw [tokens_cons, firstToken, if_neg hp, if_neg hq, if_pos hc, hspan.1, hspan.2]

/-- The text has neither a quote nor a backslash. -/
def Unquoted (cs : List Char) : Prop := ∀ c ∈ cs, c ≠ '"' ∧ c ≠ '\\'

def isUnquoted (cs : List Char) : Bool := cs.all fun c => c != '"' && c != '\\'

theorem unquoted_of_isUnquoted (h : isUnquoted cs = true) : Unquoted cs := fun c hc => by
  have hcs := List.all_eq_true.1 h c hc
  rw [Bool.and_eq_true, bne_iff_ne, bne_iff_ne] at hcs
  exact hcs

theorem throughQuote?_unquoted (h : Unquoted cs) (rest : List Char) :
    throughQuote? (cs ++ '"' :: rest) = some (cs ++ ['"'], rest) := by
  induction cs with
  | nil => rw [List.nil_append, throughQuote?, List.nil_append]
  | cons c cs ih =>
    obtain ⟨hq, hb⟩ := h c List.mem_cons_self
    rw [List.cons_append, throughQuote?, ih fun c hc => h c (List.mem_cons_of_mem _ hc)]
    · rfl
    · exact hq
    · exact fun _ _ he => absurd he hb
    · exact fun he => absurd he hb

theorem tokens_quoted (h : Unquoted cs) (rest : List Char) :
    tokens ('"' :: (cs ++ '"' :: rest)) = ('"' :: (cs ++ ['"'])) :: tokens rest := by
  rw [tokens_cons, firstToken, if_neg (by decide), if_pos rfl, throughQuote?_unquoted h]

theorem tokens_paren (h : throughParen? 0 false (cs ++ ')' :: rest) = some (cs ++ [')'], rest)) :
    tokens ('(' :: (cs ++ ')' :: rest)) = ('(' :: (cs ++ [')'])) :: tokens rest := by
  rw [tokens_cons, firstToken, if_pos rfl, h]

/-! ## Going through parentheses -/

/-- A character that means nothing between parentheses. -/
def isPlain (c : Char) : Bool := c != '(' && c != ')' && c != '"'

theorem throughParen?_plain (h : ∀ c ∈ cs, isPlain c = true) (rest : List Char) :
    throughParen? depth false (cs ++ rest) =
      (throughParen? depth false rest).map fun p => (cs ++ p.1, p.2) := by
  induction cs with
  | nil => exact Option.map_id'.symm
  | cons c cs ih =>
    have hc := h c List.mem_cons_self
    simp only [isPlain, Bool.and_eq_true, bne_iff_ne, ne_eq] at hc
    obtain ⟨⟨ho, hp⟩, hq⟩ := hc
    rw [List.cons_append, throughParen?, if_neg Bool.false_ne_true, if_neg fun hx => hp hx.1]
    · simp only [if_neg ho, if_neg hp, beq_eq_false_iff_ne.2 hq]
      rw [ih fun c hc => h c (List.mem_cons_of_mem _ hc), Option.map_map]
      rfl
    · rintro _ _ hx
      cases hx

theorem throughParen?_quoted (h : Unquoted cs) (rest : List Char) :
    throughParen? depth false ('"' :: (cs ++ '"' :: rest)) =
      (throughParen? depth false rest).map fun p => ('"' :: (cs ++ '"' :: p.1), p.2) := by
  have inside : throughParen? depth true (cs ++ '"' :: rest) =
      (throughParen? depth false rest).map fun p => (cs ++ '"' :: p.1, p.2) := by
    induction cs with
    | nil =>
      rw [List.nil_append, throughParen?, if_pos rfl]
      · rfl
      · rintro _ _ _ hx
        cases hx
    | cons c cs ih =>
      obtain ⟨hq, hb⟩ := h c List.mem_cons_self
      rw [List.cons_append, throughParen?, if_pos rfl, bne_iff_ne.2 hq,
        ih fun c hc => h c (List.mem_cons_of_mem _ hc), Option.map_map]
      · rfl
      · rintro _ _ _ hx
        exact absurd hx hb
  rw [throughParen?, if_neg Bool.false_ne_true, if_neg (by simp)]
  · simp only [if_neg (show '"' ≠ '(' by decide), if_neg (show '"' ≠ ')' by decide), beq_self_eq_true]
    rw [inside, Option.map_map]
    rfl
  · rintro _ _ hx
    cases hx

theorem throughParen?_open (cs : List Char) :
    throughParen? depth false ('(' :: cs) =
      (throughParen? (depth + 1) false cs).map fun p => ('(' :: p.1, p.2) := by
  rw [throughParen?, if_neg Bool.false_ne_true, if_neg (by simp)]
  · rfl
  · rintro _ _ hx
    cases hx

theorem throughParen?_close (cs : List Char) :
    throughParen? (depth + 1) false (')' :: cs) =
      (throughParen? depth false cs).map fun p => (')' :: p.1, p.2) := by
  rw [throughParen?, if_neg Bool.false_ne_true, if_neg (by simp)]
  · rfl
  · rintro _ _ hx
    cases hx

theorem throughParen?_end (cs : List Char) :
    throughParen? 0 false (')' :: cs) = some ([')'], cs) := by
  rw [throughParen?, if_neg Bool.false_ne_true, if_pos ⟨rfl, rfl⟩]
  rintro _ _ hx
  cases hx

/-! ## Where a text is split -/

/-- No token of `ts` stands at the beginning of `symbol`, when `rest` follows them. -/
def Passes (symbol : List Char) : List (List Char) → List Char → Prop
  | [], _ => True
  | t :: ts, rest => ¬ symbol <+: t ++ (ts.flatten ++ rest) ∧ Passes symbol ts rest

section

variable {symbol : List Char} {ts us : List (List Char)}

theorem Passes.append (ht : Passes symbol ts (us.flatten ++ rest)) (hu : Passes symbol us rest) :
    Passes symbol (ts ++ us) rest := by
  induction ts with
  | nil => exact hu
  | cons t ts ih =>
    have hne := ht.1
    rw [← List.append_assoc ts.flatten, ← List.flatten_append] at hne
    exact ⟨hne, ih ht.2⟩

/-- A split goes past the tokens at which the symbol does not stand. -/
theorem splitAt?_append (h : Passes symbol ts us.flatten) :
    splitAt? symbol (ts ++ us) =
      (splitAt? symbol us).map fun p => (ts.flatten ++ p.1, p.2) := by
  induction ts with
  | nil => exact Option.map_id'.symm
  | cons t ts ih =>
    have ht : ¬ symbol.isPrefixOf (t ++ (ts ++ us).flatten) = true := by
      rw [List.isPrefixOf_iff_prefix, List.flatten_append]
      exact h.1
    rw [List.cons_append, splitAt?, if_neg ht, ih h.2, Option.map_map]
    refine congrArg (Option.map · _) (funext fun p => ?_)
    rw [Function.comp_apply, List.flatten_cons, List.append_assoc]

/-- A text that starts with the symbol is split there. -/
theorem splitAt?_symbol (h : symbol ≠ []) (rest : List Char) :
    splitAt? symbol (tokens (symbol ++ rest)) = some ([], rest) := by
  have hflat := tokens_flatten (symbol ++ rest)
  cases ht : tokens (symbol ++ rest) with
  | nil =>
    rw [ht, List.flatten_nil] at hflat
    exact absurd (List.append_eq_nil_iff.1 hflat.symm).1 h
  | cons t ts =>
    rw [ht, List.flatten_cons] at hflat
    rw [splitAt?, hflat, if_pos (List.isPrefixOf_iff_prefix.2 (List.prefix_append _ _)),
      List.drop_left]

end

end

end Chars

end MudTrigger
