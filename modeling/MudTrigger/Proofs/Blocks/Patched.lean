import MudTrigger.Proofs.Blocks.Matcher
import Mathlib.Data.List.Induction

/-!
# One stack and lines that are patched

The compiler keeps blocks of both kinds on one stack, takes a block out from under those of the other
kind, and writes into lines that it has read long before. After every line it still agrees with the
matcher, which does none of this (`Compiler.Follows`): the blocks of either kind, picked from the
stack in their order, are a stack of the matcher, and a patch of a line is an entry of its tables.
A step keeps that (`Compiler.Follows.line`), so every text compiles to the lines that the links say
(`Script.ofLines_eq`).

The head of a block is patched only where it is a `while` or `switch`, and its breaks only where they
are `break` lines; what the matcher knows of its blocks (`Matcher.LoopsTracked`) says that they are.
-/

set_option autoImplicit false

namespace MudTrigger

/-! ## The stack -/

namespace Block

variable {α : Type} {kind : Block → Option α} {bs inner outer : List Block} {x : α}

@[simp] theorem if?_ofIf (b : IfBlock) : if? (ofIf b) = some b := rfl

@[simp] theorem if?_ofLoop (b : LoopBlock) : if? (ofLoop b) = none := rfl

@[simp] theorem loop?_ofIf (b : IfBlock) : loop? (ofIf b) = none := rfl

@[simp] theorem loop?_ofLoop (b : LoopBlock) : loop? (ofLoop b) = some b := rfl

theorem filterMap_of_nearest_none (h : nearest kind bs = none) : bs.filterMap kind = [] := by
  induction bs with
  | nil => rfl
  | cons b bs ih =>
    rw [nearest] at h
    cases hb : kind b with
    | some x => simp [hb] at h
    | none =>
      rw [List.filterMap_cons_none hb]
      exact ih (by simpa [hb] using h)

/-- The blocks within the nearest one are of another kind. -/
theorem of_nearest (h : nearest kind bs = some (inner, x, outer)) :
    ∃ b, kind b = some x ∧ bs = inner ++ b :: outer ∧ inner.filterMap kind = [] := by
  induction bs generalizing inner with
  | nil => cases h
  | cons b bs ih =>
    rw [nearest] at h
    cases hb : kind b with
    | some y =>
      simp only [hb, Option.some.injEq, Prod.mk.injEq] at h
      obtain ⟨rfl, rfl, rfl⟩ := h
      exact ⟨b, hb, rfl, rfl⟩
    | none =>
      simp only [hb, Option.map_eq_some_iff, Prod.mk.injEq] at h
      obtain ⟨⟨inner', x', outer'⟩, hn, rfl, rfl, rfl⟩ := h
      obtain ⟨b', hb', rfl, hinner⟩ := ih hn
      exact ⟨b', hb', rfl, by rw [List.filterMap_cons_none hb, hinner]⟩

theorem of_nearest_if {b : IfBlock} (h : nearest if? bs = some (inner, b, outer)) :
    bs = inner ++ ofIf b :: outer ∧ inner.filterMap if? = [] := by
  obtain ⟨b', hb, hbs, hinner⟩ := of_nearest h
  cases b' with
  | ofIf a => cases hb; exact ⟨hbs, hinner⟩
  | ofLoop a => cases hb

theorem of_nearest_loop {b : LoopBlock} (h : nearest loop? bs = some (inner, b, outer)) :
    bs = inner ++ ofLoop b :: outer ∧ inner.filterMap loop? = [] := by
  obtain ⟨b', hb, hbs, hinner⟩ := of_nearest h
  cases b' with
  | ofIf a => cases hb
  | ofLoop a => cases hb; exact ⟨hbs, hinner⟩

/-- A `switch` is looked for among the loops and switches alone. -/
theorem findSome?_switch (bs : List Block) :
    bs.findSome? switch? = ((bs.filterMap loop?).find? (!·.isWhile)).map (·.head) := by
  induction bs with
  | nil => rfl
  | cons b bs ih =>
    cases b with
    | ofIf a =>
      rw [List.findSome?_cons, List.filterMap_cons_none (loop?_ofIf a), ← ih]
      rfl
    | ofLoop a =>
      rw [List.findSome?_cons, List.filterMap_cons_some (loop?_ofLoop a), List.find?_cons]
      cases hw : a.isWhile with
      | true => simpa [switch?, hw] using ih
      | false => simp [switch?, hw]

end Block

/-! ## The lines that the links say -/

namespace Links

variable {l l' : Links} {texts : List String} {text : String} {f : Op → Op} {i : Nat}

@[simp] theorem length_lines : (l.lines texts).length = texts.length := by simp [lines]

theorem getElem?_lines :
    (l.lines texts)[i]? = texts[i]?.map fun t => ⟨t, l.op i (.ofText t)⟩ := by
  rw [lines, List.getElem?_map, List.getElem?_zipIdx, Option.map_map]
  cases texts[i]? with
  | none => rfl
  | some t => simp

/-- It matters only what the links say of these lines. -/
theorem lines_congr (h : ∀ i < texts.length, ∀ k, l.op i k = l'.op i k) :
    l.lines texts = l'.lines texts := by
  refine List.ext_getElem? fun i => ?_
  rw [getElem?_lines, getElem?_lines]
  cases ht : texts[i]? with
  | none => rfl
  | some t => rw [Option.map_some, Option.map_some, h i (List.getElem?_eq_some_iff.1 ht).1]

theorem lines_append : l.lines (texts ++ [text]) =
    l.lines texts ++ [⟨text, l.op texts.length (.ofText text)⟩] := by
  simp [lines, List.zipIdx_append]

/-- The lines with line `i` changed are those of the links with another entry for line `i`. -/
theorem lines_modify
    (hi : ∀ k, (texts.map Keyword.ofText)[i]? = some k → f (l.op i k) = l'.op i k)
    (hj : ∀ j k, j ≠ i → l.op j k = l'.op j k) :
    ((l.lines texts).modify i fun line => { line with op := f line.op }) = l'.lines texts := by
  refine List.ext_getElem? fun j => ?_
  rw [List.getElem?_modify, getElem?_lines, getElem?_lines]
  cases ht : texts[j]? with
  | none => rfl
  | some t =>
    by_cases he : i = j
    · subst he
      have hline := hi (.ofText t) (by rw [List.getElem?_map, ht, Option.map_some])
      simp [hline]
    · simp [he, hj j _ (Ne.symm he)]

end Links

/-! ## A line read last leads nowhere yet -/

namespace Matcher

section

variable {ks : List Keyword} {n : Nat} {m : Matcher}

theorem IfsTracked.next_last (h : m.IfsTracked ks (n + 1)) : m.links.next.get? n = none := by
  refine Option.eq_none_iff_forall_ne_some.2 fun j hj => ?_
  obtain ⟨hlt, i, -, hn⟩ := (h.next n j).1 hj
  have := hn.2.1
  omega

theorem IfsTracked.close_last (h : m.IfsTracked ks (n + 1)) : m.links.close.get? n = none := by
  refine Option.eq_none_iff_forall_ne_some.2 fun j hj => ?_
  obtain ⟨hlt, i, hb, hc⟩ := (h.close n j).1 hj
  have := hb.lt_of_closes hc
  omega

theorem LoopsTracked.done_last (h : m.LoopsTracked ks (n + 1)) : m.links.done.get? n = none := by
  refine Option.eq_none_iff_forall_ne_some.2 fun j hj => ?_
  obtain ⟨hlt, hc | ⟨i, hb, hc⟩⟩ := (h.done n j).1 hj
  · have := hc.lt
    omega
  · have := hb.lt_of_closes hc
    omega

theorem LoopsTracked.arms_last (h : m.LoopsTracked ks (n + 1)) :
    (m.links.arms.get? n).getD [] = [] := by
  refine List.eq_nil_iff_forall_not_mem.2 fun a ha => ?_
  obtain ⟨hlt, harm⟩ := (h.arms n a).1 ha
  have := harm.2.lt
  omega

/-- No line that is still to come leads back. -/
theorem LoopsTracked.head_here (h : m.LoopsTracked ks n) : m.links.head.get? n = none := by
  refine Option.eq_none_iff_forall_ne_some.2 fun i hi => ?_
  obtain ⟨hlt, -⟩ := (h.head n i).1 hi
  omega

theorem run_append (m : Matcher) (i : Nat) (ks ks' : List Keyword) :
    m.run i (ks ++ ks') = (m.run i ks).run (i + ks.length) ks' := by
  induction ks generalizing m i with
  | nil => rfl
  | cons k ks ih =>
    rw [List.cons_append, run, run, ih, List.length_cons, Nat.add_right_comm, ← Nat.add_assoc]

end

end Matcher

/-! ## The compiler follows the matcher -/

namespace Compiler

/-- After these lines the compiler has what the matcher has. -/
structure Follows (texts : List String) (c : Compiler) (m : Matcher) : Prop where
  lines : c.lines.toList = m.links.lines texts
  ifs : c.blocks.filterMap Block.if? = m.ifs
  loops : c.blocks.filterMap Block.loop? = m.loops

namespace Follows

variable {texts : List String} {c : Compiler} {m : Matcher} {l : Links} {f : Op → Op} {i j : Nat}

theorem here (h : c.Follows texts m) : c.here = texts.length := by
  rw [Compiler.here, ← Column.length_toList, h.lines, Links.length_lines]

theorem withBlocks {bs : List Block} {ifs : List IfBlock} {loops : List LoopBlock}
    (h : c.Follows texts m) (hi : bs.filterMap Block.if? = ifs)
    (hl : bs.filterMap Block.loop? = loops) :
    Follows texts { c with blocks := bs } { m with ifs := ifs, loops := loops } :=
  ⟨h.lines, hi, hl⟩

/-! ### Patches -/

/-- A patch of a line is another entry for it, if the tables say of the line what the patch writes. -/
theorem patch (h : c.Follows texts m)
    (hi : ∀ k, (texts.map Keyword.ofText)[i]? = some k → f (m.links.op i k) = l.op i k)
    (hj : ∀ j k, j ≠ i → m.links.op j k = l.op j k) :
    (c.patch f i).Follows texts { m with links := l } where
  lines := by rw [Compiler.patch, Column.toList_modify, h.lines, Links.lines_modify hi hj]
  ifs := h.ifs
  loops := h.loops

theorem leadNext (h : c.Follows texts m) : (c.patch (.leadNext j) i).Follows texts
    { m with links := { m.links with next := m.links.next.set i j } } := by
  refine h.patch (fun k _ => ?_) fun e k he => ?_
  · cases k <;> simp [Links.op, Op.leadNext]
  · cases k <;> simp [Links.op, Table.get?_set_ne _ he]

theorem leadClose {es : List Nat} (h : c.Follows texts m) :
    (es.foldl (Compiler.patch · (.leadClose j)) c).Follows texts
      { m with links := { m.links with close := Links.lead m.links.close es j } } := by
  induction es generalizing c m with
  | nil => exact h
  | cons i es ih =>
    refine ih (m := { m with links := { m.links with close := m.links.close.set i j } }) ?_
    refine h.patch (fun k _ => ?_) fun e k he => ?_
    · cases k <;> simp [Links.op, Op.leadClose]
    · cases k <;> simp [Links.op, Table.get?_set_ne _ he]

theorem leadDone (h : c.Follows texts m) (hi : LineIs (texts.map .ofText) i Keyword.opensLoop) :
    (c.patch (.leadDone j) i).Follows texts
      { m with links := { m.links with done := m.links.done.set i j } } := by
  refine h.patch (fun k hk => ?_) fun e k he => ?_
  · have hopens := (lineIs_of hk).1 hi
    cases k with
    | breakOut => cases hopens
    | _ => simp [Links.op, Op.leadDone]
  · cases k <;> simp [Links.op, Table.get?_set_ne _ he]

theorem leadOut {es : List Nat} (h : c.Follows texts m)
    (hes : ∀ e ∈ es, LineIs (texts.map .ofText) e Keyword.isBreak) :
    (es.foldl (Compiler.patch · (.leadOut j)) c).Follows texts
      { m with links := { m.links with done := Links.lead m.links.done es j } } := by
  induction es generalizing c m with
  | nil => exact h
  | cons i es ih =>
    obtain ⟨hi, hes⟩ := List.forall_mem_cons.1 hes
    refine ih (m := { m with links := { m.links with done := m.links.done.set i j } }) ?_ hes
    refine h.patch (fun k hk => ?_) fun e k he => ?_
    · have hbreak := (lineIs_of hk).1 hi
      cases k with
      | breakOut => simp [Links.op, Op.leadOut]
      | _ => cases hbreak
    · cases k <;> simp [Links.op, Table.get?_set_ne _ he]

theorem addArm_patch (h : c.Follows texts m) : (c.patch (.addArm j) i).Follows texts
    { m with links := { m.links with
      arms := m.links.arms.set i ((m.links.arms.get? i).getD [] ++ [j]) } } := by
  refine h.patch (fun k _ => ?_) fun e k he => ?_
  · cases k <;> simp [Links.op, Op.addArm]
  · cases k <;> simp [Links.op, Table.get?_set_ne _ he]

/-- Where a line that is still to come leads back matters to no line before it. -/
theorem leadBack (h : c.Follows texts m) : c.Follows texts
    { m with links := { m.links with head := m.links.head.set texts.length j } } where
  lines := by
    refine h.lines.trans (Links.lines_congr fun i hi k => ?_)
    cases k <;> simp [Links.op, Table.get?_set_ne _ (Nat.ne_of_lt hi)]
  ifs := h.ifs
  loops := h.loops

/-! ### Keywords -/

/-- Without an open `if` there is nothing on the matcher's stack. -/
theorem ifs_eq_nil (h : c.Follows texts m) (hn : Block.nearest Block.if? c.blocks = none) :
    m.ifs = [] := by
  rw [← h.ifs, Block.filterMap_of_nearest_none hn]

theorem loops_eq_nil (h : c.Follows texts m) (hn : Block.nearest Block.loop? c.blocks = none) :
    m.loops = [] := by
  rw [← h.loops, Block.filterMap_of_nearest_none hn]

/-- The nearest open `if` is the first on the matcher's stack, wherever it stands among the loops. -/
theorem of_nearest_if {inner outer : List Block} {b : IfBlock} (h : c.Follows texts m)
    (hn : Block.nearest Block.if? c.blocks = some (inner, b, outer)) :
    m.ifs = b :: outer.filterMap Block.if? ∧ inner.filterMap Block.if? = [] ∧
      inner.filterMap Block.loop? ++ outer.filterMap Block.loop? = m.loops := by
  obtain ⟨hblocks, hinner⟩ := Block.of_nearest_if hn
  refine ⟨?_, hinner, ?_⟩
  · rw [← h.ifs, hblocks]
    simp [hinner]
  · rw [← h.loops, hblocks]
    simp [List.filterMap_cons]

theorem of_nearest_loop {inner outer : List Block} {b : LoopBlock} (h : c.Follows texts m)
    (hn : Block.nearest Block.loop? c.blocks = some (inner, b, outer)) :
    m.loops = b :: outer.filterMap Block.loop? ∧ inner.filterMap Block.loop? = [] ∧
      inner.filterMap Block.if? ++ outer.filterMap Block.if? = m.ifs := by
  obtain ⟨hblocks, hinner⟩ := Block.of_nearest_loop hn
  refine ⟨?_, hinner, ?_⟩
  · rw [← h.loops, hblocks]
    simp [hinner]
  · rw [← h.ifs, hblocks]
    simp [List.filterMap_cons]

theorem addClause (h : c.Follows texts m) :
    c.addClause.Follows texts (m.clause texts.length) := by
  unfold Compiler.addClause Matcher.clause
  rw [h.here]
  cases hn : Block.nearest Block.if? c.blocks with
  | none =>
    rw [h.ifs_eq_nil hn]
    exact h
  | some found =>
    obtain ⟨inner, b, outer⟩ := found
    obtain ⟨hifs, hinner, hloops⟩ := h.of_nearest_if hn
    rw [hifs]
    exact h.leadNext.withBlocks (by simp [hinner]) (by simpa [List.filterMap_cons] using hloops)

theorem closeIf (h : c.Follows texts m) : c.closeIf.Follows texts (m.closeIf texts.length) := by
  unfold Compiler.closeIf Matcher.closeIf
  rw [h.here]
  cases hn : Block.nearest Block.if? c.blocks with
  | none =>
    rw [h.ifs_eq_nil hn]
    exact h
  | some found =>
    obtain ⟨inner, b, outer⟩ := found
    obtain ⟨hifs, hinner, hloops⟩ := h.of_nearest_if hn
    rw [hifs]
    exact (h.leadNext.withBlocks (by simp [hinner]) (by simpa using hloops)).leadClose

theorem addArm (h : c.Follows texts m) : c.addArm.Follows texts (m.arm texts.length) := by
  unfold Compiler.addArm Matcher.arm
  rw [Block.findSome?_switch, h.loops, h.here]
  cases m.loops.find? (!·.isWhile) with
  | none => exact h
  | some b => exact h.addArm_patch

theorem addBreak (h : c.Follows texts m) : c.addBreak.Follows texts (m.breakFrom texts.length) := by
  unfold Compiler.addBreak Matcher.breakFrom
  rw [h.here]
  cases hn : Block.nearest Block.loop? c.blocks with
  | none =>
    rw [h.loops_eq_nil hn]
    exact h
  | some found =>
    obtain ⟨inner, b, outer⟩ := found
    obtain ⟨hloops, hinner, hifs⟩ := h.of_nearest_loop hn
    rw [hloops]
    exact h.withBlocks (by simpa [List.filterMap_cons] using hifs) (by simp [hinner])

theorem closeLoop (h : c.Follows texts m)
    (ht : m.LoopsTracked (texts.map .ofText) texts.length) :
    c.closeLoop.1.Follows texts (m.closeLoop texts.length) ∧
      c.closeLoop.2 = (m.closeLoop texts.length).links.head.get? texts.length := by
  unfold Compiler.closeLoop Matcher.closeLoop
  rw [h.here]
  cases hn : Block.nearest Block.loop? c.blocks with
  | none =>
    rw [h.loops_eq_nil hn]
    exact ⟨h, ht.head_here.symm⟩
  | some found =>
    obtain ⟨inner, b, outer⟩ := found
    obtain ⟨hloops, hinner, hifs⟩ := h.of_nearest_loop hn
    have hb : b.Tracks (texts.map .ofText) texts.length := ht.blocks b (by simp [hloops])
    have hleft : Follows texts { c with blocks := inner ++ outer }
        { m with loops := outer.filterMap Block.loop? } :=
      h.withBlocks (by simpa using hifs) (by simp [hinner])
    have hpatched := (hleft.leadDone (j := texts.length) hb.opens).leadOut (j := texts.length)
      fun e he => ((hb.breaks e).1 he).2.1
    rw [hloops]
    dsimp only
    cases hw : b.isWhile with
    | true => exact ⟨hpatched.leadBack, by simp⟩
    | false => exact ⟨hpatched, by simp [ht.head_here]⟩

theorem read (h : c.Follows texts m) (ht : m.LoopsTracked (texts.map .ofText) texts.length)
    (k : Keyword) : (c.read k).1.Follows texts (m.step texts.length k) := by
  cases k with
  | comment | command => exact h
  | ifThen cond | whileDo cond | switchOn subject =>
    rw [Compiler.read, h.here]
    exact h.withBlocks (by simp [List.filterMap_cons, h.ifs])
      (by simp [List.filterMap_cons, h.loops])
  | elseIf cond => exact h.addClause
  | elseThen => exact h.addClause
  | endIf => exact h.closeIf
  | caseOf subject => exact h.addArm
  | default => exact h.addArm
  | breakOut => exact h.addBreak
  | done => exact (h.closeLoop ht).1

/-- The line that is read does what the links say of it: nothing leads on from it yet. -/
theorem read_op {ks : List Keyword} {k : Keyword} (h : c.Follows texts m)
    (ht : m.LoopsTracked (texts.map .ofText) texts.length)
    (hi : (m.step texts.length k).IfsTracked ks (texts.length + 1))
    (hl : (m.step texts.length k).LoopsTracked ks (texts.length + 1)) :
    (c.read k).2 = (m.step texts.length k).links.op texts.length k := by
  cases k with
  | comment | endIf | caseOf | default | command => rfl
  | ifThen cond => rw [Links.op, hi.next_last, Compiler.read]
  | elseIf cond => rw [Links.op, hi.next_last, hi.close_last, Compiler.read]
  | elseThen => rw [Links.op, hi.close_last, Compiler.read]
  | whileDo cond => rw [Links.op, hl.done_last, Compiler.read]
  | switchOn subject => rw [Links.op, hl.arms_last, hl.done_last, Compiler.read]
  | breakOut => rw [Links.op, hl.done_last, Compiler.read]
  | done => rw [Links.op, Compiler.read, (h.closeLoop ht).2, Matcher.step]

/-- The next line is one step of the matcher. -/
theorem line {ks : List Keyword} {text : String} (h : c.Follows texts m)
    (ht : m.LoopsTracked (texts.map .ofText) texts.length)
    (hi : (m.step texts.length (.ofText text)).IfsTracked ks (texts.length + 1))
    (hl : (m.step texts.length (.ofText text)).LoopsTracked ks (texts.length + 1)) :
    (c.line text).Follows (texts ++ [text]) (m.step texts.length (.ofText text)) := by
  have hread := h.read ht (.ofText text)
  refine ⟨?_, hread.ifs, hread.loops⟩
  rw [Links.lines_append, ← h.read_op ht hi hl, ← hread.lines]
  exact Column.toList_push _ _

end Follows

/-- Line by line, the compiler does what the matcher does. -/
theorem follows (texts : List String) :
    (texts.foldl line {}).Follows texts (Matcher.run {} 0 (texts.map .ofText)) := by
  induction texts using List.reverseRec with
  | nil => exact ⟨rfl, rfl, rfl⟩
  | append_singleton texts text ih =>
    have hprefix := Links.ofKeywords_tracked (texts.map .ofText)
    have hwhole := Links.ofKeywords_tracked ((texts ++ [text]).map .ofText)
    have hrun : Matcher.run {} 0 ((texts ++ [text]).map .ofText) =
        (Matcher.run {} 0 (texts.map .ofText)).step texts.length (.ofText text) := by
      rw [List.map_append, Matcher.run_append, List.length_map, Nat.zero_add]
      rfl
    rw [hrun, List.length_map, List.length_append, List.length_singleton] at hwhole
    rw [List.length_map] at hprefix
    rw [hrun, List.foldl_append]
    exact ih.line hprefix.2 hwhole.1 hwhole.2

end Compiler

/-- The lines of a script are led by the links of their keywords. -/
theorem Script.ofLines_eq (texts : List String) :
    ofLines texts = ⟨(Links.ofKeywords (texts.map .ofText)).lines texts⟩ :=
  congrArg Script.mk (Compiler.follows texts).lines

end MudTrigger
