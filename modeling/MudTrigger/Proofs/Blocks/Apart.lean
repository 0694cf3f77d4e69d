import MudTrigger.Data.Table
import MudTrigger.Script.Compile

/-!
# The two kinds of blocks apart

The compiler keeps every open block on one stack and writes into the lines that it has read. The
`Matcher` does the same work on keywords alone: it keeps a stack for the `if` blocks and one for the
loops and switches, neither of which looks at the other, and puts down what leads where in tables
(`Links`). What the lines of a script do by these tables is `Links.lines`.
-/

set_option autoImplicit false

namespace MudTrigger

/-- The lines to which others lead, by the index of the line that leads there. -/
structure Links where
  /-- From a clause of an `if` block to its next clause or its `end`. -/
  next : Table Nat Nat := ∅
  /-- From an `elseif` or `else` to the `end` of its block. -/
  close : Table Nat Nat := ∅
  /-- From a `while`, `switch` or `break` to the `done` of its block. -/
  done : Table Nat Nat := ∅
  /-- From a `switch` to its `case` and `default` lines, in order. -/
  arms : Table Nat (List Nat) := ∅
  /-- From a `done` to the `while` it closes. -/
  head : Table Nat Nat := ∅

/-- The open blocks of either kind, the innermost first, and the links found so far. -/
structure Matcher where
  ifs : List IfBlock := []
  loops : List LoopBlock := []
  links : Links := {}

/-- The table with each of `sources` bound to `target`. -/
def Links.lead (t : Table Nat Nat) (sources : List Nat) (target : Nat) : Table Nat Nat :=
  sources.foldl (fun t i => t.set i target) t

namespace Matcher

/-- Line `i` is the next clause of the nearest open `if`. -/
def clause (m : Matcher) (i : Nat) : Matcher :=
  match m.ifs with
  | [] => m
  | b :: outer =>
    { m with
      ifs := { latest := i, clauses := b.clauses ++ [i] } :: outer
      links := { m.links with next := m.links.next.set b.latest i } }

/-- Line `i` closes the nearest open `if`. -/
def closeIf (m : Matcher) (i : Nat) : Matcher :=
  match m.ifs with
  | [] => m
  | b :: outer =>
    { m with
      ifs := outer
      links := { m.links with
        next := m.links.next.set b.latest i
        close := Links.lead m.links.close b.clauses i } }

/-- Line `i` is an arm of the nearest open `switch`. -/
def arm (m : Matcher) (i : Nat) : Matcher :=
  match m.loops.find? (!·.isWhile) with
  | none => m
  | some b =>
    let others := (m.links.arms.get? b.head).getD []
    { m with links := { m.links with arms := m.links.arms.set b.head (others ++ [i]) } }

/-- Line `i` leaves the nearest open `while` or `switch`. -/
def breakFrom (m : Matcher) (i : Nat) : Matcher :=
  match m.loops with
  | [] => m
  | b :: outer => { m with loops := { b with breaks := b.breaks ++ [i] } :: outer }

/-- Line `i` closes the nearest open `while` or `switch`. -/
def closeLoop (m : Matcher) (i : Nat) : Matcher :=
  match m.loops with
  | [] => m
  | b :: outer =>
    { m with
      loops := outer
      links := { m.links with
        done := Links.lead m.links.done (b.head :: b.breaks) i
        head := if b.isWhile then m.links.head.set i b.head else m.links.head } }

/-- Takes line `i` with its keyword into account. -/
def step (m : Matcher) (i : Nat) : Keyword → Matcher
  | .ifThen _ => { m with ifs := { latest := i } :: m.ifs }
  | .elseIf _ => m.clause i
  | .elseThen => m.clause i
  | .endIf => m.closeIf i
  | .whileDo _ => { m with loops := { head := i, isWhile := true } :: m.loops }
  | .switchOn _ => { m with loops := { head := i, isWhile := false } :: m.loops }
  | .caseOf _ => m.arm i
  | .default => m.arm i
  | .breakOut => m.breakFrom i
  | .done => m.closeLoop i
  | .comment => m
  | .command => m

/-- Goes through the keywords of the lines from line `i` on. -/
def run (m : Matcher) (i : Nat) : List Keyword → Matcher
  | [] => m
  | k :: ks => (m.step i k).run (i + 1) ks

end Matcher

/-- The links of a script whose lines have these keywords. -/
def Links.ofKeywords (ks : List Keyword) : Links := (Matcher.run {} 0 ks).links

/-- What line `i` with this keyword does. -/
def Links.op (l : Links) (i : Nat) : Keyword → Op
  | .comment => .comment
  | .ifThen c => .ifThen c (l.next.get? i)
  | .elseIf c => .elseIf c (l.next.get? i) (l.close.get? i)
  | .elseThen => .elseThen (l.close.get? i)
  | .endIf => .endIf
  | .whileDo c => .whileDo c (l.done.get? i)
  | .switchOn s => .switchOn s ((l.arms.get? i).getD []) (l.done.get? i)
  | .caseOf s => .caseOf s
  | .default => .default
  | .breakOut => .breakOut (l.done.get? i)
  | .done => .done (l.head.get? i)
  | .command => .command

/-- The lines with these texts, led by the links. -/
def Links.lines (l : Links) (texts : List String) : List Line :=
  texts.zipIdx.map fun (text, i) => ⟨text, l.op i (.ofText text)⟩

end MudTrigger
