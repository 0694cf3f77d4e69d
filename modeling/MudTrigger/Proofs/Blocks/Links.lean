import MudTrigger.Proofs.Blocks.Patched

/-!
# Where the lines of a compiled script lead

`Op.Linked ks i k o` says what the compiler owes line `i` with keyword `k`: each target of the
operation `o` is the line that closes, continues or holds its block, by the two matchings of
`Closes`, and is missing just where there is no such line. The links that the matcher ends with are
those (`Links.linked`), for every list of keywords, well nested or not. The compiler has patched just
these links into its lines (`Script.ofLines_eq`), and so every compiled line leads where it should
(`Script.compile_linked`).
-/

set_option autoImplicit false

namespace MudTrigger

/-- `t` is the line of which `P` holds, and is missing where there is none. -/
def Target (t : Option Nat) (P : Nat → Prop) : Prop := ∀ j, t = some j ↔ P j

/-- Line `j` is the next clause after the clause at line `e`, whichever `if` that belongs to. -/
def FollowsBranch (ks : List Keyword) (e j : Nat) : Prop :=
  ∃ i, BranchOf ks i e ∧ NextClause ks i e j

/-- Line `j` is the `end` of the `if` to which the branch at line `e` belongs. -/
def EndsBranch (ks : List Keyword) (e j : Nat) : Prop :=
  ∃ i, BranchOf ks i e ∧ Closes .ifs ks j i

/-- Line `j` is the `done` of the loop or switch that the `break` at line `e` leaves. -/
def EndsBreak (ks : List Keyword) (e j : Nat) : Prop :=
  ∃ i, BreakOf ks i e ∧ Closes .loops ks j i

/-- The operation of line `i`, whose keyword is this, leads where the blocks of the script say. -/
def Op.Linked (ks : List Keyword) (i : Nat) : Keyword → Op → Prop
  | .comment, .comment => True
  | .command, .command => True
  | .ifThen c, .ifThen c' next => c' = c ∧ Target next (NextClause ks i i)
  | .elseIf c, .elseIf c' next close =>
    c' = c ∧ Target next (FollowsBranch ks i) ∧ Target close (EndsBranch ks i)
  | .elseThen, .elseThen close => Target close (EndsBranch ks i)
  | .endIf, .endIf => True
  | .whileDo c, .whileDo c' out => c' = c ∧ Target out fun j => Closes .loops ks j i
  | .switchOn s, .switchOn s' arms out =>
    s' = s ∧ arms.Pairwise (· < ·) ∧ (∀ a, a ∈ arms ↔ ArmOf ks i a) ∧
      Target out fun j => Closes .loops ks j i
  | .caseOf s, .caseOf s' => s' = s
  | .default, .default => True
  | .breakOut, .breakOut out => Target out (EndsBreak ks i)
  | .done, .done head => Target head fun h => Closes .loops ks i h ∧ LineIs ks h Keyword.isWhile
  | _, _ => False

/-- The lines after it to which an operation may lead. -/
def Op.ahead : Op → List Nat
  | ifThen _ next => next.toList
  | elseIf _ next close => next.toList ++ close.toList
  | elseThen close => close.toList
  | whileDo _ out => out.toList
  | switchOn _ arms out => arms ++ out.toList
  | breakOut out => out.toList
  | _ => []

section

variable {ks : List Keyword} {i j : Nat} {k : Keyword} {o : Op}

theorem NextClause.lt_length {e : Nat} (h : NextClause ks i e j) : j < ks.length := by
  rcases h.1 with hb | hc
  · exact lt_of_lineIs hb.1
  · exact lt_of_lineIs hc.closes

/-- The links of a script are those that its blocks say. -/
theorem Links.linked (hk : ks[i]? = some k) : ((Links.ofKeywords ks).op i k).Linked ks i k := by
  obtain ⟨hifs, hloops⟩ := Links.ofKeywords_tracked ks
  have hnext : ∀ j, (Links.ofKeywords ks).next.get? i = some j ↔
      ∃ i', (i = i' ∨ BranchOf ks i' i) ∧ NextClause ks i' i j := fun j => by
    refine (hifs.next i j).trans ⟨And.right, fun h => ⟨?_, h⟩⟩
    obtain ⟨i', -, hn⟩ := h
    exact hn.lt_length
  have hclose : Target ((Links.ofKeywords ks).close.get? i) (EndsBranch ks i) := fun j => by
    refine (hifs.close i j).trans ⟨And.right, fun h => ⟨?_, h⟩⟩
    obtain ⟨i', -, hc⟩ := h
    exact lt_of_lineIs hc.closes
  have hdone : ∀ j, (Links.ofKeywords ks).done.get? i = some j ↔
      Closes .loops ks j i ∨ EndsBreak ks i j := fun j => by
    refine (hloops.done i j).trans ⟨And.right, fun h => ⟨?_, h⟩⟩
    rcases h with hc | ⟨i', -, hc⟩ <;> exact lt_of_lineIs hc.closes
  -- A line that is no break is led on by its own block only.
  have hblock : k.isBreak = false → Target ((Links.ofKeywords ks).done.get? i) fun j =>
      Closes .loops ks j i := fun hb j => by
    refine (hdone j).trans ⟨fun h => ?_, .inl⟩
    rcases h with hc | ⟨i', hbr, -⟩
    · exact hc
    · exact absurd hbr (not_breakOf hk hb)
  have harms : ∀ a, a ∈ ((Links.ofKeywords ks).arms.get? i).getD [] ↔ ArmOf ks i a := fun a =>
    (hloops.arms i a).trans ⟨And.right, fun h => ⟨lt_of_lineIs h.1, h⟩⟩
  cases k with
  | comment | command | endIf | default => exact trivial
  | caseOf s => rfl
  | ifThen c =>
    refine ⟨rfl, fun j => (hnext j).trans ⟨?_, fun h => ⟨i, .inl rfl, h⟩⟩⟩
    rintro ⟨i', rfl | hb, hn⟩
    · exact hn
    · exact absurd (.inl hb) (not_clause hk rfl rfl)
  | elseIf c =>
    refine ⟨rfl, fun j => (hnext j).trans ⟨?_, fun ⟨i', hb, hn⟩ => ⟨i', .inr hb, hn⟩⟩, hclose⟩
    rintro ⟨i', rfl | hb, hn⟩
    · have hopen := (lineIs_of hk).1 hn.1.opens
      cases hopen
    · exact ⟨i', hb, hn⟩
  | elseThen => exact hclose
  | whileDo c => exact ⟨rfl, hblock rfl⟩
  | switchOn s => exact ⟨rfl, hloops.sorted i, harms, hblock rfl⟩
  | breakOut =>
    refine fun j => (hdone j).trans ⟨fun h => ?_, .inr⟩
    rcases h with hc | hb
    · have hopen := (lineIs_of hk).1 hc.opens
      cases hopen
    · exact hb
  | done =>
    intro h
    refine (hloops.head i h).trans ⟨And.right, fun hc => ⟨?_, hc⟩⟩
    exact lt_of_lineIs hc.1.closes

/-- A line leads to lines of its script that come after it. -/
theorem Op.Linked.ahead (h : o.Linked ks i k) (hj : j ∈ o.ahead) : i < j ∧ j < ks.length := by
  have hclose : EndsBranch ks i j → i < j ∧ j < ks.length := fun ⟨_, hb, hc⟩ =>
    ⟨hb.lt_of_closes hc, lt_of_lineIs hc.closes⟩
  have hdone : Closes .loops ks j i → i < j ∧ j < ks.length := fun hc =>
    ⟨hc.lt, lt_of_lineIs hc.closes⟩
  unfold Op.Linked at h
  split at h
  case h_1 | h_2 | h_6 | h_9 | h_10 | h_12 => exact absurd hj List.not_mem_nil
  case h_13 => exact h.elim
  case h_3 =>
    have hn := (h.2 j).1 (Option.mem_toList.1 hj)
    exact ⟨hn.2.1, hn.lt_length⟩
  case h_4 =>
    rcases List.mem_append.1 hj with hj | hj
    · obtain ⟨i', -, hn⟩ := (h.2.1 j).1 (Option.mem_toList.1 hj)
      exact ⟨hn.2.1, hn.lt_length⟩
    · exact hclose ((h.2.2 j).1 (Option.mem_toList.1 hj))
  case h_5 => exact hclose ((h j).1 (Option.mem_toList.1 hj))
  case h_7 => exact hdone ((h.2 j).1 (Option.mem_toList.1 hj))
  case h_8 =>
    rcases List.mem_append.1 hj with hj | hj
    · have ha := (h.2.2.1 j).1 hj
      exact ⟨ha.2.lt, lt_of_lineIs ha.1⟩
    · exact hdone ((h.2.2.2 j).1 (Option.mem_toList.1 hj))
  case h_11 =>
    obtain ⟨i', hb, hc⟩ := (h j).1 (Option.mem_toList.1 hj)
    exact ⟨hb.lt_of_closes hc, lt_of_lineIs hc.closes⟩

end

namespace Script

/-- The keywords of the lines of a script. -/
def keywords (s : Script) : List Keyword := (s.lines.map (·.text)).map Keyword.ofText

section

variable {texts : List String} {i : Nat} {line : Line}

theorem ofLines_texts (texts : List String) : (ofLines texts).lines.map (·.text) = texts := by
  rw [ofLines_eq, Links.lines, List.map_map]
  exact List.zipIdx_map_fst 0 texts

theorem length_ofLines (texts : List String) : (ofLines texts).length = texts.length := by
  rw [length, ← List.length_map (·.text), ofLines_texts]

theorem ofLines_keywords (texts : List String) :
    (ofLines texts).keywords = texts.map Keyword.ofText := by
  rw [keywords, ofLines_texts]

theorem line?_ofLines (texts : List String) (i : Nat) :
    (ofLines texts).line? i = texts[i]?.map fun text =>
      ⟨text, (Links.ofKeywords (texts.map Keyword.ofText)).op i (Keyword.ofText text)⟩ := by
  rw [line?, ofLines_eq, Links.getElem?_lines]

theorem ofLines_linked (h : (ofLines texts).line? i = some line) :
    line.op.Linked (texts.map Keyword.ofText) i (Keyword.ofText line.text) := by
  rw [line?_ofLines] at h
  obtain ⟨text, ht, rfl⟩ := Option.map_eq_some_iff.1 h
  exact Links.linked (by rw [List.getElem?_map, ht, Option.map_some])

theorem linked_of_line {body : String} (h : (compile body).line? i = some line) :
    line.op.Linked (compile body).keywords i (Keyword.ofText line.text) := by
  rw [compile, ofLines_keywords]
  exact ofLines_linked h

/-- The `while` to which a `done` leads back leads out to that `done`. -/
theorem ofLines_head {head : Nat} (h : (ofLines texts).line? i = some line)
    (hd : line.op = .done (some head)) :
    head < i ∧ ∃ c, (ofLines texts).op? head = some (.whileDo c (some i)) := by
  have hlinked := ofLines_linked h
  rw [hd] at hlinked
  cases hk : Keyword.ofText line.text with
  | done =>
    rw [hk] at hlinked
    obtain ⟨hc, hw⟩ := (hlinked head).1 rfl
    refine ⟨hc.lt, ?_⟩
    obtain ⟨k, hkh, hkw⟩ := lineIs_iff.1 hw
    rw [List.getElem?_map] at hkh
    obtain ⟨text, ht, rfl⟩ := Option.map_eq_some_iff.1 hkh
    cases hkt : Keyword.ofText text with
    | whileDo c =>
      have hkc : (texts.map Keyword.ofText)[head]? = some (.whileDo c) := by
        rw [List.getElem?_map, ht, Option.map_some, hkt]
      have hout := ((Links.linked hkc).2 i).2 hc
      refine ⟨c, ?_⟩
      rw [op?, line?_ofLines, ht, Option.map_some, Option.map_some, hkt, Links.op, hout]
    | _ => rw [hkt] at hkw; cases hkw
  | _ => rw [hk] at hlinked; exact hlinked.elim

end

/-- A compiled script has the lines of its text. Each line leads where the two matchings of its
blocks say: forward to lines of the script, and back only from a `done` to the `while` it closes,
which leads out to that `done`. -/
theorem compile_linked (body : String) :
    (compile body).lines.map (·.text) = (Text.lines body).map Text.trim ∧
    ∀ i line, (compile body).line? i = some line →
      line.op.Linked (compile body).keywords i (Keyword.ofText line.text) ∧
      (∀ j ∈ line.op.ahead, i < j ∧ j < (compile body).length) ∧
      ∀ head, line.op = .done (some head) →
        head < i ∧ ∃ c, (compile body).op? head = some (.whileDo c (some i)) := by
  refine ⟨ofLines_texts _, fun i line h => ?_⟩
  have hlinked := ofLines_linked h
  rw [compile, ofLines_keywords, length, ← List.length_map (·.text), ofLines_texts]
  refine ⟨hlinked, fun j hj => ?_, fun head hd => ofLines_head h hd⟩
  have hahead := hlinked.ahead hj
  rwa [List.length_map] at hahead

/-- An `if` and a loop that cross are closed each by its own keyword. -/
example : (compile "if a\nwhile b\nelse\nend\nbreak\ndone").lines.map (·.op) =
    [.ifThen "a" (some 2), .whileDo "b" (some 5), .elseThen (some 3), .endIf, .breakOut (some 5),
      .done (some 1)] := by decide

end Script

end MudTrigger
