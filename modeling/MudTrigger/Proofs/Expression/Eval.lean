import MudTrigger.Proofs.Expression.Value
import MudTrigger.Proofs.Text.Parts
import MudTrigger.Proofs.Trace.Drive

/-!
# Evaluating before and after expanding

A condition is split at its operators before its operands are expanded; the line of an `eval` command
is expanded as a whole and split afterwards. `Spelling.filled` is what the expansion makes of a
spelling whose variables have words for values. It is a spelling of the same shape, so that there the
two ways agree (`Run.eval_agrees`). They do not agree where a value has a sign, which then stands in
the text as an operator.
-/

set_option autoImplicit false

namespace MudTrigger

/-- The text of a natural number is a word. -/
theorem isWord_toString (n : Nat) : isWord (toString n).toList = true := by
  rw [isWord_iff]
  refine ⟨?_, fun c hc => ?_⟩
  · rw [Chars.toList_toString]
    exact Nat.toDigits_ne_nil
  · rw [Char.isAlphanum, Chars.isDigit_toString n c hc, Bool.or_true]

namespace Leaf

/-- A leaf is a word, or a local variable whose value is a word. -/
def HasWord (locals : Variables) : Leaf → Prop
  | word _ _ => True
  | quoted _ _ => False
  | token name _ => ∃ v, locals.get? (String.ofList name) = some v ∧ isWord v.toList = true

/-- A leaf with the value of its variable in place of the variable. -/
def filled (locals : Variables) : Leaf → Leaf
  | word cs h => word cs h
  | quoted inside h => quoted inside h
  | token name h =>
    if hv : isWord ((locals.get? (String.ofList name)).getD "").toList = true then word _ hv
    else token name h

theorem filled_token {locals : Variables} {name : List Char} {v : String} (h : isName name = true)
    (hv : locals.get? (String.ofList name) = some v) (hw : isWord v.toList = true) :
    filled locals (token name h) = word v.toList hw := by
  simp only [filled, hv, Option.getD_some, dif_pos hw]

end Leaf

namespace Spelling

def leaves {n : Nat} : Spelling n → List Leaf
  | leaf _ l _ => [l]
  | binary _ _ _ l r => l.leaves ++ r.leaves
  | negation _ _ s => s.leaves
  | parens _ s _ => s.leaves

/-- A spelling with the values of its variables in place of them. -/
def filled (locals : Variables) {n : Nat} : Spelling n → Spelling n
  | leaf before l after => leaf before (l.filled locals) after
  | binary op isBinary binds l r => binary op isBinary binds (l.filled locals) (r.filled locals)
  | negation binds before s => negation binds before (s.filled locals)
  | parens before s after => parens before (s.filled locals) after

theorem tree_trimmed {n : Nat} (s : Spelling n) : s.trimmed.tree = s.tree := by
  induction s with
  | leaf | negation | parens => rfl
  | binary _ _ _ _ _ ihl _ => rw [trimmed, tree, tree, ihl]

end Spelling

/-! ## Expanding a text piece by piece -/

namespace Scene

variable {s : Scene} {cs ds cs' ds' name rest : List Char} {c : Char} {d : Draft}

/-- The text expands to `cs'`, whatever follows it, and finds and draws nothing. -/
def Expands (s : Scene) (cs cs' : List Char) : Prop :=
  ∀ fuel rest d, (cs ++ rest).length ≤ fuel → ∃ fuel', rest.length ≤ fuel' ∧
    s.segments (Template.parseWithin fuel (cs ++ rest)) d =
      (String.ofList cs' ++ (s.segments (Template.parseWithin fuel' rest) d).1,
        (s.segments (Template.parseWithin fuel' rest) d).2)

theorem Expands.append (h : s.Expands cs cs') (h' : s.Expands ds ds') :
    s.Expands (cs ++ ds) (cs' ++ ds') := by
  intro fuel rest d hf
  rw [List.append_assoc] at hf ⊢
  obtain ⟨fuel₁, h₁, he₁⟩ := h fuel (ds ++ rest) d hf
  obtain ⟨fuel₂, h₂, he₂⟩ := h' fuel₁ rest d h₁
  refine ⟨fuel₂, h₂, ?_⟩
  rw [he₁, he₂, String.ofList_append, String.append_assoc]

theorem Expands.plain (h : '%' ∉ cs) : s.Expands cs cs := by
  intro fuel rest d hf
  rw [List.length_append] at hf
  exact ⟨fuel, by omega, segments_literal s h fuel rest d⟩

theorem Expands.char (hc : c ≠ '%') : s.Expands [c] [c] :=
  Expands.plain fun h => hc (List.mem_singleton.1 h).symm

theorem Expands.token {v : String} (hname : isName name = true)
    (hv : s.locals.get? (String.ofList name) = some v) :
    s.Expands ('%' :: (name ++ ['%'])) v.toList := by
  intro fuel rest d hf
  simp only [List.length_append, List.length_cons] at hf
  obtain ⟨n, rfl⟩ : ∃ n, fuel = n + 1 := ⟨fuel - 1, by omega⟩
  obtain ⟨hne, hchars⟩ := isName_iff.1 hname
  have hhead : (name ++ '%' :: rest).head? ≠ some '%' := by
    obtain ⟨c, name', rfl⟩ := List.exists_cons_of_ne_nil hne
    exact fun heq => (hchars c List.mem_cons_self).2.1 (Option.some.inj heq)
  have hsplit := Template.splitToken_name (fun c hc => (hchars c hc).2) rest
  have hvalue : s.token (String.ofList name) "" "" = pure v := by
    rw [Scene.token, if_pos rfl, valueOf?, hv]
  refine ⟨n, by omega, ?_⟩
  rw [List.cons_append, List.append_assoc, List.singleton_append, segments_token s n hhead hsplit,
    segments_nil, pure_bind, String.ofList_nil, hvalue, String.ofList_toList]
  rfl

/-- What a text expands to by itself. -/
theorem Expands.expand (h : s.Expands cs cs') (d : Draft) :
    s.expand (String.ofList cs) d = (String.ofList cs', d) := by
  obtain ⟨fuel, -, he⟩ := h cs.length [] d (Nat.le_of_eq (by rw [List.append_nil]))
  rw [List.append_nil, segments_nil] at he
  rw [Scene.expand, Template.parse, String.toList_ofList, he]
  exact Prod.ext String.append_empty rfl

/-! ## Expanding a spelling -/

theorem not_percent_of_isWord (h : isWord cs = true) : '%' ∉ cs := fun hc => by
  cases (isWord_iff.1 h).2 _ hc

theorem expands_leaf {l : Leaf} (h : l.HasWord s.locals) :
    s.Expands l.chars (l.filled s.locals).chars := by
  cases l with
  | word cs hw => exact Expands.plain (not_percent_of_isWord hw)
  | quoted => exact h.elim
  | token name hname =>
    obtain ⟨v, hv, hword⟩ := h
    rw [Leaf.filled_token hname hv hword]
    exact Expands.token hname hv

/-- What the values make of a leaf has no variable to expand. -/
theorem expands_filled_leaf {l : Leaf} (h : l.HasWord s.locals) :
    s.Expands (l.filled s.locals).chars (l.filled s.locals).chars := by
  cases l with
  | word cs hw => exact Expands.plain (not_percent_of_isWord hw)
  | quoted => exact h.elim
  | token name hname =>
    obtain ⟨v, hv, hword⟩ := h
    rw [Leaf.filled_token hname hv hword]
    exact Expands.plain (not_percent_of_isWord hword)

theorem expands_gap (gap : Gap) : s.Expands gap.1 gap.1 :=
  Expands.plain fun hc => by cases gap.blank _ hc

theorem expands_symbol (op : Operator) : s.Expands op.symbol.toList op.symbol.toList :=
  Expands.plain (by cases op <;> decide)

theorem expands_spelling {n : Nat} {w : Spelling n} (h : ∀ l ∈ w.leaves, l.HasWord s.locals) :
    s.Expands w.chars (w.filled s.locals).chars := by
  induction w with
  | leaf before l after =>
    exact (expands_gap before).append
      ((expands_leaf (h l (List.mem_singleton.2 rfl))).append (expands_gap after))
  | binary op _ _ l r ihl ihr =>
    exact (ihl fun x hx => h x (List.mem_append_left _ hx)).append
      ((expands_symbol op).append (ihr fun x hx => h x (List.mem_append_right _ hx)))
  | negation _ before w ih =>
    exact (expands_gap before).append ((Expands.char (by decide)).append (ih h))
  | parens before w after ih =>
    have hback := (Expands.char (s := s) (c := ')') (by decide)).append (expands_gap after)
    have hinside := (Expands.char (s := s) (c := '(') (by decide)).append ((ih h).append hback)
    exact (expands_gap before).append hinside

/-- The operands of an operator are expanded from left to right. -/
theorem eval_apply (op : Operator) (left right : Expression) (d : Draft) :
    (Expression.apply op left right).eval s.expand d =
      (op.apply (left.eval s.expand d).1 (right.eval s.expand (left.eval s.expand d).2).1,
        (right.eval s.expand (left.eval s.expand d).2).2) := rfl

/-- The operands of a spelling expand to those of the filled spelling, which stay as they are. -/
theorem eval_filled {n : Nat} {w : Spelling n} (h : ∀ l ∈ w.leaves, l.HasWord s.locals) (d : Draft) :
    (w.filled s.locals).tree.eval s.expand d = w.tree.eval s.expand d := by
  induction w generalizing d with
  | leaf before l after =>
    have hl := h l (List.mem_singleton.2 rfl)
    have hgiven := ((expands_leaf hl).append (expands_gap after)).expand d
    have hfilled := ((expands_filled_leaf hl).append (expands_gap after)).expand d
    exact hfilled.trans hgiven.symm
  | binary op _ _ l r ihl ihr =>
    rw [Spelling.filled, Spelling.tree, Spelling.tree, eval_apply, eval_apply,
      ihl fun x hx => h x (List.mem_append_left _ hx),
      ihr fun x hx => h x (List.mem_append_right _ hx)]
  | negation _ before w ih =>
    rw [Spelling.filled, Spelling.tree, Spelling.tree, eval_apply, eval_apply, ih h, Expression.eval]
  | parens before w after ih => exact ih h d

end Scene

/-! ## The line of an `eval` command -/

/-- The name of a variable that a command can set. -/
def isTarget (name : List Char) : Bool :=
  !name.isEmpty && name.all (!Chars.isBlank ·) && !name.contains '%'

theorem isTarget_iff {name : List Char} : isTarget name = true ↔
    name ≠ [] ∧ (name.all (!Chars.isBlank ·)) = true ∧ '%' ∉ name := by
  rw [isTarget, Bool.and_eq_true, Bool.and_eq_true, Bool.not_eq_true', List.isEmpty_eq_false_iff,
    Bool.not_eq_true', ← Bool.not_eq_true, List.contains_iff_mem, and_assoc]

theorem trimStart_word {word : List Char} (h : word ≠ [])
    (hw : (word.all (!Chars.isBlank ·)) = true) (rest : List Char) :
    Chars.trimStart (word ++ rest) = word ++ rest := by
  obtain ⟨c, cs, rfl⟩ := List.exists_cons_of_ne_nil h
  have hc := List.all_eq_true.1 hw c List.mem_cons_self
  exact trimStart_cons (by simpa using hc)

theorem splitWord_word {word : List Char} (h : word ≠ [])
    (hw : (word.all (!Chars.isBlank ·)) = true) (rest : List Char) :
    Chars.splitWord (word ++ ' ' :: rest) = (word, Chars.trimStart rest) := by
  have hall := List.all_eq_true.1 hw
  rw [Chars.splitWord, trimStart_word h hw, Chars.firstWord, Chars.afterWord, List.takeWhile_append_of_pos hall,
    List.dropWhile_append_of_pos hall]
  exact Prod.ext (List.append_nil word) (trimStart_blank (c := ' ') rfl)

namespace Run

variable {r : Run} {g : Game} {s : Scene} {f : Frame} {i : Instance}

theorem look_pure {read : Scene → Expand String} {text : String} (hs : r.scene? g = some s)
    (h : ∀ d, read s d = (text, d)) : r.look g read = (text, g) := by
  rw [look, hs]
  simp only [h]
  rw [Game.blame, List.map_nil, List.append_nil]
  rfl

theorem evaluate_fst (hs : r.scene? g = some s) (e : String) :
    (r.evaluate g e).1 = (s.evaluate e { dice := g.engine.dice }).1 := by
  rw [evaluate, look, hs]
  rfl

/-- The line that sets a variable to the value of an expression. -/
def evalLine (name : List Char) (w : Spelling 0) : Line :=
  ⟨"eval " ++ String.ofList name ++ " " ++ w.text, .command⟩

theorem command_eval {name cs : List Char} (hn : isTarget name = true) :
    (r.command f (String.ofList (['e', 'v', 'a', 'l'] ++ ' ' :: (name ++ ' ' :: cs))) g).2 =
      (r.evaluate g (String.ofList (Chars.trimStart cs))).2.setLocal r.trigger (String.ofList name)
        (r.evaluate g (String.ofList (Chars.trimStart cs))).1 := by
  obtain ⟨hne, hblank, -⟩ := isTarget_iff.1 hn
  have htrim := trimStart_word hne hblank (' ' :: cs)
  have houter : Text.splitWord (String.ofList (['e', 'v', 'a', 'l'] ++ ' ' :: (name ++ ' ' :: cs))) =
      ("eval", String.ofList (name ++ ' ' :: cs)) := by
    rw [Text.splitWord, String.toList_ofList, splitWord_word (by decide) (by decide), htrim]
  have hinner : Text.splitWord (String.ofList (name ++ ' ' :: cs)) =
      (String.ofList name, String.ofList (Chars.trimStart cs)) := by
    rw [Text.splitWord, String.toList_ofList, splitWord_word hne hblank]
  have hfold : Text.fold "eval" = "eval" := by decide
  have hname : String.ofList name ≠ "" := fun he => hne (by
    have hl := congrArg String.toList he
    rwa [String.toList_ofList] at hl)
  rw [command, houter]
  simp only [hinner, hfold, if_neg hname]

/-- An `eval` line stores the value that a condition would have, where the variables of the
expression are set to words. -/
theorem eval_agrees {name : List Char} {w : Spelling 0} (hi : g.instance? r.trigger = some i)
    (hn : isTarget name = true) (hw : ∀ l ∈ w.leaves, l.HasWord i.locals) :
    ((r.perform f (evalLine name w) g).2.instance? r.trigger).bind
        (·.locals.get? (String.ofList name)) = some (r.evaluate g w.text).1 := by
  obtain ⟨s, hs, hlocals⟩ : ∃ s, r.scene? g = some s ∧ s.locals = i.locals :=
    ⟨_, by rw [scene?, hi, Option.map_some], rfl⟩
  rw [← hlocals] at hw
  -- The line expands to one with a filled spelling, and nothing else happens.
  have hline : ∀ d, s.expand (evalLine name w).text d =
      (String.ofList (['e', 'v', 'a', 'l'] ++ ' ' :: (name ++ ' ' :: (w.filled s.locals).chars)), d) := by
    have hexpands : s.Expands (['e', 'v', 'a', 'l', ' '] ++ (name ++ ([' '] ++ w.chars)))
        (['e', 'v', 'a', 'l', ' '] ++ (name ++ ([' '] ++ (w.filled s.locals).chars))) :=
      (Scene.Expands.plain (by decide)).append ((Scene.Expands.plain (isTarget_iff.1 hn).2.2).append
        ((Scene.Expands.plain (by decide)).append (Scene.expands_spelling hw)))
    have htext : (evalLine name w).text =
        String.ofList (['e', 'v', 'a', 'l', ' '] ++ (name ++ ([' '] ++ w.chars))) := by
      apply String.toList_injective
      simp [evalLine, Spelling.text]
    intro d
    rw [htext, hexpands.expand]
    rfl
  have hvalue : (r.evaluate g (String.ofList (Chars.trimStart (w.filled s.locals).chars))).1 =
      (r.evaluate g w.text).1 := by
    rw [evaluate_fst hs, evaluate_fst hs, Spelling.trimStart_chars, Scene.evaluate, Scene.evaluate,
      w.parse_text, ← Spelling.text, Spelling.parse_text, Spelling.tree_trimmed,
      Scene.eval_filled hw]
  have hlook : r.look g (fun s => s.expand (evalLine name w).text) = (String.ofList
      (['e', 'v', 'a', 'l'] ++ ' ' :: (name ++ ' ' :: (w.filled s.locals).chars)), g) :=
    look_pure hs hline
  have hperform : r.perform f (evalLine name w) g =
      r.command f (r.look g fun s => s.expand (evalLine name w).text).1
        (r.look g fun s => s.expand (evalLine name w).text).2 := rfl
  rw [hperform, hlook]
  rw [command_eval hn, hvalue, Game.setLocal, Game.instance?_modifyInstance_self,
    evaluate_instance?, hi, Option.map_some, Option.bind_some]
  exact Variables.get?_set_self _ _ rfl

/-- A run of the one trigger of a game, without a world behind it. -/
def alone : Run :=
  { host := Host.plain fun _ _ _ => none, execute := fun g _ _ => g, trigger := ⟨0, 0⟩,
    owner := Uid.room 0, proto := default, mode := .new }

/-- A game whose one trigger has set `x` and `y`. -/
def summing (x y : String) : Game :=
  { engine := { triggers := ((∅ : Arena Instance).insert { (default : Instance) with
      depth := 1, locals := Variables.setAll ∅ [("x", x), ("y", y)] }).2 } }

/-- The text `%x% + %y%`. -/
def sum : Spelling 0 :=
  have blank : Gap := ⟨[' '], by decide⟩
  .binary .add (by decide) (by decide) (.leaf .none (.token ['x'] (by decide)) blank)
    (.leaf blank (.token ['y'] (by decide)) .none)

theorem eval_agrees_sum :
    (∃ i, (summing "3" "4").instance? alone.trigger = some i ∧
      ∀ l ∈ sum.leaves, l.HasWord i.locals) ∧
    (((alone.perform { line := 0 } (evalLine ['r'] sum) (summing "3" "4")).2.instance?
      alone.trigger).bind (·.locals.get? "r")) =
        some (alone.evaluate (summing "3" "4") sum.text).1 := by
  obtain ⟨i, hi, hx, hy⟩ : ∃ i, (summing "3" "4").instance? alone.trigger = some i ∧
      i.locals.get? "x" = some "3" ∧ i.locals.get? "y" = some "4" :=
    ⟨_, rfl, by decide +kernel, by decide +kernel⟩
  have hleaves : ∀ l ∈ sum.leaves, l.HasWord i.locals := fun l hl => by
    simp only [sum, Spelling.leaves, List.mem_append, List.mem_singleton] at hl
    rcases hl with rfl | rfl
    · exact ⟨"3", hx, isWord_toString 3⟩
    · exact ⟨"4", hy, isWord_toString 4⟩
  exact ⟨⟨i, hi, hleaves⟩, eval_agrees hi (by decide) hleaves⟩

/-- The sign of a value is read as an operator once it stands in the line. -/
theorem eval_sign_of_value :
    sum.text = "%x% + %y%" ∧
    (((alone.perform { line := 0 } (evalLine ['r'] sum) (summing "-3" "4")).2.instance?
      alone.trigger).bind (·.locals.get? "r")) = some "-7" ∧
    (alone.evaluate (summing "-3" "4") sum.text).1 = "1" := by
  refine ⟨by decide, by decide +kernel, by decide +kernel⟩

end Run

end MudTrigger
