import MudTrigger.Proofs.Flow.Bounded
import MudTrigger.Proofs.Flow.Layout

/-!
# Keywords that belong to no `if`

The compiler knows how many ifs are open at a line (`Script.nesting`); a run only counts those it has
entered, and tells an `else`, `elseif` or `end` that belongs to no `if` by the count alone. The two
agree in all that a run does, suspended or not, as long as its loops, switches and breaks lead to
lines with as many open ifs (`Script.IsLevel`, `Run.Journey.depth`). Then a stray keyword is logged
and passed by (`stray_fails_open`).

A `break` out of an `if` is not level: it leaves the `if` and does not count down. From then on the run
takes a stray keyword for one of its own (`break_ends_stray`).
-/

set_option autoImplicit false

namespace MudTrigger

open Game

/-- A line of a loop or a switch, which may lead elsewhere than to the next line. -/
def Op.leads : Op → Bool
  | whileDo .. => true
  | switchOn .. => true
  | breakOut _ => true
  | done _ => true
  | _ => false

theorem Op.leads_of_jumps {op : Op} {j : Nat} (h : j ∈ op.jumps) : op.leads = true := by
  cases op with
  | whileDo | switchOn | breakOut => rfl
  | _ => cases h

/-- An operation of a compiled script is of the kind of its keyword. -/
theorem Op.Linked.kind {ks : List Keyword} {i : Nat} {k : Keyword} {op : Op} (h : op.Linked ks i k) :
    k.opensIf = (op.nests && !op.isOver) ∧ k.closesIf = (op.isOver && !op.isBranch) ∧
      k.isBranch = op.isBranch := by
  cases op <;> cases k <;> first | exact ⟨rfl, rfl, rfl⟩ | exact h.elim

namespace Script

/-- How many ifs are open at a line. -/
def nesting (s : Script) (i : Nat) : Nat := (openLines .ifs s.keywords i).length

/-- A loop, a switch or a break that leads from a line to another leads to as many open ifs. -/
def IsLevel (s : Script) (i j : Nat) : Prop :=
  (s.op? i).any Op.leads = true → s.nesting j = s.nesting i

instance (s : Script) (i j : Nat) : Decidable (s.IsLevel i j) := inferInstanceAs (Decidable (_ → _))

theorem IsLevel.eq {s : Script} {i j : Nat} {op : Op} (h : s.IsLevel i j) (hop : s.op? i = some op)
    (hl : op.leads = true) : s.nesting j = s.nesting i := h (by rw [hop, Option.any_some, hl])

section

variable {body : String} {ks : List Keyword} {a i j l n : Nat} {k : Keyword} {op : Op} {t u : Tally}

theorem compile_op (hop : (compile body).op? i = some op) :
    ∃ k, (compile body).keywords[i]? = some k ∧ op.Linked (compile body).keywords i k := by
  obtain ⟨line, hline, rfl⟩ := Option.map_eq_some_iff.1 hop
  have hlist : (compile body).lines[i]? = some line := hline
  refine ⟨Keyword.ofText line.text, ?_, linked_of_line hline⟩
  rw [keywords, List.getElem?_map, List.getElem?_map, hlist, Option.map_some, Option.map_some]

/-- A line that neither opens nor closes an `if` leaves as many open. -/
theorem nesting_same (hop : (compile body).op? i = some op)
    (ho : op.nests = false ∨ op.isBranch = true) :
    (compile body).nesting (i + 1) = (compile body).nesting i := by
  obtain ⟨k, hk, hlinked⟩ := compile_op hop
  obtain ⟨hopens, hcloses, -⟩ := hlinked.kind
  have hplain : k.opensIf = false ∧ k.closesIf = false := by
    rw [hopens, hcloses]
    cases op <;> simp_all [Op.nests, Op.isOver, Op.isBranch]
  rw [nesting, openLines_keeps hk hplain.1 hplain.2, nesting]

theorem nesting_ifThen {c : String} {next : Option Nat}
    (hop : (compile body).op? i = some (.ifThen c next)) :
    (compile body).nesting (i + 1) = (compile body).nesting i + 1 := by
  obtain ⟨k, hk, hlinked⟩ := compile_op hop
  obtain ⟨hopens, -, -⟩ := hlinked.kind
  rw [nesting, openLines_opens hk hopens, List.length_cons, nesting]

theorem nesting_endIf (hop : (compile body).op? i = some .endIf) :
    (compile body).nesting (i + 1) = (compile body).nesting i - 1 := by
  obtain ⟨k, hk, hlinked⟩ := compile_op hop
  obtain ⟨-, hcloses, -⟩ := hlinked.kind
  rw [nesting, openLines_closes hk hcloses, List.length_tail, nesting]

/-- A clause of an `if` is within this `if`. -/
theorem nesting_clause (h : ClauseOf (compile body).keywords a j) :
    (compile body).nesting j = (compile body).nesting a + 1 := by
  have hnearest : Nearest .ifs (compile body).keywords Brackets.ifs.opens j a := h.nearest
  rw [nesting, hnearest.openLines_eq, List.length_cons, nesting]

theorem nesting_closes (h : Closes .ifs (compile body).keywords j a) :
    (compile body).nesting (j + 1) = (compile body).nesting a := by
  obtain ⟨k, hk, hcloses⟩ := lineIs_iff.1 h.closes
  rw [nesting, openLines_closes hk hcloses, (closes_iff.1 h).2.openLines_eq, List.tail_cons, nesting]

theorem nesting_branch (h : BranchOf (compile body).keywords a j) :
    (compile body).nesting (j + 1) = (compile body).nesting a + 1 := by
  obtain ⟨k, hk, hb⟩ := lineIs_iff.1 h.1
  have hopens : k.opensIf = false := by
    cases k with
    | elseIf | elseThen => rfl
    | _ => cases hb
  rw [← nesting_clause (.inl h), nesting, nesting,
    openLines_keeps hk hopens (Keyword.closesIf_of_isBranch k hb)]

/-- Where an `elseif` or `else` leads when the clause before it is over. -/
theorem exit_endsBranch (hop : (compile body).op? i = some op) (h : op.exit? = some j) :
    EndsBranch (compile body).keywords i j := by
  obtain ⟨k, -, hlinked⟩ := compile_op hop
  cases op with
  | elseIf c next close =>
    cases k with
    | elseIf c' => exact (hlinked.2.2 j).1 h
    | _ => exact hlinked.elim
  | elseThen close =>
    cases k with
    | elseThen => exact (hlinked j).1 h
    | _ => exact hlinked.elim
  | _ => cases h

/-- The search for a clause of an `if` finds an `elseif` or `else` of it and enters it, or finds its
`end`. -/
theorem Finds.clause {next : Option Nat} (h : (compile body).Finds next l n)
    (hnext : ∀ j ∈ next, ClauseOf (compile body).keywords a j) :
    BranchOf (compile body).keywords a l ∧ n = 1 ∨ Closes .ifs (compile body).keywords l a ∧ n = 0 := by
  induction h with
  | @skip j c next close l n hop _ ih =>
    refine ih fun x hx => ?_
    obtain ⟨k, -, hlinked⟩ := compile_op hop
    cases k with
    | elseIf c' =>
      obtain ⟨a', hbranch, hclause⟩ := (hlinked.2.1 x).1 hx
      have hnearest := (hnext j rfl).nearest
      rw [hnearest.unique hbranch.2]
      exact hclause.1
    | _ => exact hlinked.elim
  | @branch j op hop hbranch =>
    obtain ⟨k, hk, hlinked⟩ := compile_op hop
    have hkind : LineIs (compile body).keywords j Keyword.isBranch :=
      (lineIs_of hk).2 (hlinked.kind.2.2.trans hbranch)
    rcases hnext j rfl with h | h
    · exact .inl ⟨h, rfl⟩
    · exact (hkind.apart h.closes Keyword.closesIf_of_isBranch).elim
  | @close j op hop hbranch =>
    obtain ⟨k, hk, hlinked⟩ := compile_op hop
    rcases hnext j rfl with h | h
    · have hkind := (lineIs_of hk).1 h.1
      rw [hlinked.kind.2.2, hbranch] at hkind
      cases hkind
    · exact .inr ⟨h, rfl⟩

/-- A level move keeps a run nested as deep in itself as ifs are open at its line. -/
theorem Moves.nesting (h : (compile body).Moves i t j u) (hlevel : (compile body).IsLevel i j)
    (ht : t.depth = (compile body).nesting i + 1) : u.depth = (compile body).nesting j + 1 := by
  cases h with
  | onward hop hnests => rw [nesting_same hop (.inl hnests), ht]
  | enter hop => rw [nesting_ifThen hop, ← ht]
  | @skip c next l k hop hfinds =>
    have hnext : ∀ x ∈ next, ClauseOf (compile body).keywords i x := fun x hx => by
      obtain ⟨kw, -, hlinked⟩ := compile_op hop
      cases kw with
      | ifThen c' => exact ((hlinked.2 x).1 hx).1
      | _ => exact hlinked.elim
    rcases hfinds.clause hnext with ⟨hbranch, rfl⟩ | ⟨hcloses, rfl⟩
    · rw [nesting_branch hbranch, ← ht]
    · rw [nesting_closes hcloses, ← ht, Nat.add_zero]
  | @leave op close hop hexit hdeep =>
    obtain ⟨a, hbranch, hcloses⟩ := exit_endsBranch hop hexit
    rw [nesting_clause (.inl hbranch)] at ht
    rw [nesting_closes hcloses, ht, Nat.add_sub_cancel]
  | close hop hdeep =>
    rw [nesting_endIf hop]
    dsimp only
    omega
  | @stray op hop hover hdeep =>
    cases hb : op.isBranch with
    | true => rw [nesting_same hop (.inr hb), ht]
    | false =>
      obtain rfl : op = .endIf := by
        cases op with
        | endIf => rfl
        | elseIf | elseThen => cases hb
        | _ => cases hover
      rw [nesting_endIf hop]
      omega
  | @jump op j hop hj => rw [hlevel.eq hop (Op.leads_of_jumps hj), ht]
  | @back head hop _ => rw [hlevel.eq hop rfl, ← ht]

end

end Script

/-! ## Whole runs, with their suspensions -/

namespace Run

variable {r : Run} {f : Frame} {g : Game}

/-- A run of a trigger from its beginning on, level so far, and undisturbed by its commands. It may be
suspended and taken up, in another game, if nothing happens to its trigger in between. -/
inductive Journey : Run → Frame → Game → Prop
  | begin {r : Run} {g : Game} {i : Instance} : r.mode = .new → g.instance? r.trigger = some i →
    Journey r (r.entry i g).1 (r.entry i g).2
  | pass {r : Run} {f f' : Frame} {g g' : Game} : Journey r f g → r.pass f g = (.next f', g') →
    r.Undisturbed f g g' → r.proto.script.IsLevel f.line f'.line → Journey r f' g'
  | resume {r r' : Run} {f : Frame} {g g1 g2 : Game} {result : Int} {i i' : Instance} :
    Journey r f g → r.pass f g = (.left result, g1) → g1.instance? r.trigger = some i →
    r'.trigger = r.trigger → r'.proto = r.proto → r'.mode = .resume →
    g2.instance? r.trigger = some i' → i'.depth = i.depth → i'.resumeAt = i.resumeAt →
    r.proto.script.IsLevel f.line (r'.entry i' g2).1.line →
    Journey r' (r'.entry i' g2).1 (r'.entry i' g2).2

theorem pass_eq {step : Step} (h : (r.pass f g).1 = step) : r.pass f g = (step, (r.pass f g).2) :=
  Prod.ext h rfl

/-- A line that is no command cannot disturb the run. -/
theorem Journey.go {f' : Frame} (h : r.Journey f g) (he : (r.pass f g).1 = .next f')
    (hop : r.proto.script.op? f.line ≠ some .command)
    (hlevel : r.proto.script.IsLevel f.line f'.line) : r.Journey f' (r.pass f g).2 :=
  h.pass (pass_eq he) (fun hc => absurd hc hop) hlevel

/-- A run is nested as deep in itself as ifs are open at its line. -/
theorem Journey.depth {body : String} (h : r.Journey f g) (hp : r.proto.script = Script.compile body) :
    (r.tally g).depth = r.proto.script.nesting f.line + 1 := by
  induction h with
  | @begin r g i hmode hi =>
    have hbegun : (r.entry i g).2.instance? r.trigger =
        some { i with depth := 1, loops := 0, resumeAt := none, wait := none } := by
      rw [entry, hmode]
      simp only
      rw [instance?_begin, if_pos rfl, hi, Option.map_some]
    have hline : (r.entry i g).1.line = 0 := by rw [entry, hmode]
    rw [tally, depthOf, hbegun, hline]
    rfl
  | @pass r f f' g g' _ he hq hlevel ih =>
    have hmoves := pass_moves hq he
    rw [hp] at hmoves hlevel ih ⊢
    exact hmoves.nesting hlevel (ih rfl)
  | @resume r r' f g g1 g2 result i i' _ he hi ht hproto hmode hi' hdepth hresume hlevel ih =>
    obtain ⟨hsame, j, hj, hresumes⟩ := pass_left he hi
    rw [hproto] at hp
    have hline : (r'.entry i' g2).1.line = j := by rw [entry, hmode, hresume, hj, Option.getD_some]
    have hlevels : r.proto.script.nesting j = r.proto.script.nesting f.line := by
      rw [hline] at hlevel
      rcases hresumes with rfl | ⟨hop, rfl⟩ | ⟨head, hop, rfl⟩
      · rfl
      · rw [hp] at hop ⊢
        exact Script.nesting_same hop (.inl rfl)
      · exact hlevel.eq hop rfl
    have htaken : (r'.entry i' g2).2.instance? r'.trigger =
        some { i' with depth := max i'.depth 1, resumeAt := none, wait := none } := by
      rw [entry, hmode, ht]
      simp only
      rw [takeUp, instance?_modifyInstance_self, hi', Option.map_some]
    have hleft : g.depthOf r.trigger = r.proto.script.nesting f.line + 1 := ih hp
    rw [tally, depthOf, htaken, hline, hproto, hlevels, ← hleft, ← hsame, ← hdepth]
    simp only [Option.map_some, Option.getD_some]
    omega

end Run

/-- What is logged at a line of this kind that belongs to no `if`. -/
def Op.strayFault : Op → Fault
  | endIf => .endWithoutIf
  | _ => .elseWithoutIf

/-- On a level journey an `elseif`, `else` or `end` that belongs to no `if` is logged, and the run goes
on with the next line, nested as deep as before. -/
theorem stray_fails_open {body : String} {r : Run} {f : Frame} {g : Game} {line : Line}
    (hp : r.proto.script = Script.compile body) (hj : r.Journey f g)
    (hline : r.proto.script.line? f.line = some line) (hover : line.op.isOver = true)
    (hstray : ∀ i, ¬ IsOpen .ifs r.proto.script.keywords f.line i) :
    r.doLine f g =
        (.next (f.after f.line), r.fault (r.note f.line g) line.op.strayFault) ∧
      (r.doLine f g).2.depthOf r.trigger = g.depthOf r.trigger := by
  have hnone : r.proto.script.nesting f.line = 0 :=
    List.length_eq_zero_iff.2 (openLines_eq_nil.2 hstray)
  have hdepth : (r.note f.line g).depthOf r.trigger ≤ 1 := by
    have h := hj.depth hp
    rw [hnone] at h
    exact Nat.le_of_eq h
  have hdo : r.doLine f g =
      (.next (f.after f.line), r.fault (r.note f.line g) line.op.strayFault) := by
    have hperform : r.doLine f g = r.perform f line (r.note f.line g) := by
      rw [Run.doLine, hline]
      rfl
    obtain ⟨text, op⟩ := line
    rw [hperform]
    cases op with
    | elseIf | elseThen | endIf =>
      simp only [Run.perform, if_pos hdepth]
      rfl
    | _ => cases hover
  exact ⟨hdo, by rw [hdo]; rfl⟩

/-- A room with a trigger, attached but not yet run. -/
def Game.hall (body : String) : Game :=
  let p : Prototype := { vnum := 1, name := "stray", kind := .room, script := Script.compile body }
  (start {} ((∅ : Registry).register p) (({} : World).addRoom 100 "hall").2).play
    [.attach 1 (Uid.room 0) none]

/-- An `if` with a loop in it, a wait, and an `else` that belongs to no `if`. -/
def dawdling : String := "if 1\nwhile 0\ndone\nend\nwait 1\nelse\necho on"

/-- The trigger before its run. -/
def Game.dawdler : Instance := ((hall dawdling).instance? ⟨0, 0⟩).get (by decide +kernel)

/-- The game when the run has come to its wait, and the trigger there. -/
def Game.waiting : Game := (hall dawdling).play [.run .standard ⟨0, 0⟩ .new]

def Game.waiter : Instance := (waiting.instance? ⟨0, 0⟩).get (by decide +kernel)

/-- The run that is begun, and the one that is taken up. -/
def Run.dawdle : Run := (hall dawdling).runOf .standard ⟨0, 0⟩ dawdler .new

def Run.carryOn : Run := waiting.runOf .standard ⟨0, 0⟩ waiter .resume

/-- The game when the run has passed over these lines, outside any loop. -/
def Run.after (r : Run) (lines : List Nat) (g : Game) : Game :=
  lines.foldl (fun g n => (r.pass { line := n } g).2) g

/-- Where the run goes from each of its lines, and that this is level. -/
theorem Run.steps_dawdle :
    let g := (dawdle.entry dawdler (hall dawdling)).2
    (dawdle.entry dawdler (hall dawdling)).1 = { line := 0 } ∧
    (dawdle.pass { line := 0 } g).1 = .next { line := 1 } ∧
    (dawdle.pass { line := 1 } (dawdle.after [0] g)).1 = .next { line := 3 } ∧
    (dawdle.pass { line := 3 } (dawdle.after [0, 1] g)).1 = .next { line := 4 } ∧
    (∀ i ∈ [0, 1, 3], dawdle.proto.script.op? i ≠ some .command) ∧
    (∀ p ∈ [(0, 1), (1, 3), (3, 4), (4, 5)], dawdle.proto.script.IsLevel p.1 p.2) := by
  decide +kernel

/-- The wait leaves the trigger as the pulse finds it. -/
theorem Run.wait_dawdle :
    let g := dawdle.after [0, 1, 3] (dawdle.entry dawdler (hall dawdling)).2
    (dawdle.pass { line := 4 } g).1 = .left 1 ∧
    ((dawdle.pass { line := 4 } g).2.instance? dawdle.trigger).map (fun i => (i.depth, i.resumeAt)) =
      some (waiter.depth, waiter.resumeAt) ∧
    (carryOn.entry waiter waiting).1 = { line := 5 } ∧ carryOn.proto = dawdle.proto := by
  decide +kernel

/-- The run enters the `if`, goes past the loop and leaves the `if`; it waits, and is taken up. -/
theorem Run.journey_dawdle : carryOn.Journey { line := 5 } (carryOn.entry waiter waiting).2 := by
  have ht : dawdle.trigger = ⟨0, 0⟩ := rfl
  have ht' : carryOn.trigger = ⟨0, 0⟩ := rfl
  have hi : (hall dawdling).instance? dawdle.trigger = some dawdler := by
    rw [ht, dawdler, Option.some_get]
  have hi' : waiting.instance? dawdle.trigger = some waiter := by rw [ht, waiter, Option.some_get]
  obtain ⟨hfirst, hp0, hp1, hp3, hplain, hlevel⟩ := steps_dawdle
  obtain ⟨hleft, hkept, hsecond, hproto⟩ := wait_dawdle
  have h0 := Journey.begin (r := dawdle) (i := dawdler) (g := hall dawdling) rfl hi
  rw [hfirst] at h0
  have h1 := h0.go hp0 (hplain 0 (by simp)) (hlevel (0, 1) (by simp))
  have h3 := h1.go hp1 (hplain 1 (by simp)) (hlevel (1, 3) (by simp))
  have h4 := h3.go hp3 (hplain 3 (by simp)) (hlevel (3, 4) (by simp))
  obtain ⟨i, hi4, hsame⟩ := Option.map_eq_some_iff.1 hkept
  obtain ⟨hdepth, hresume⟩ := Prod.mk.inj hsame
  have hlast : dawdle.proto.script.IsLevel 4 (carryOn.entry waiter waiting).1.line := by
    rw [hsecond]
    exact hlevel (4, 5) (by simp)
  have h5 := h4.resume (pass_eq hleft) hi4 (ht'.trans ht.symm) hproto rfl hi' hdepth.symm
    hresume.symm hlast
  rwa [hsecond] at h5

theorem stray_fails_open_dawdling :
    Run.carryOn.proto.script = Script.compile dawdling ∧
    Run.carryOn.proto.script.line? 5 = some ⟨"else", .elseThen none⟩ ∧
    (∀ i, ¬ IsOpen .ifs Run.carryOn.proto.script.keywords 5 i) ∧
    Run.carryOn.Journey { line := 5 } (Run.carryOn.entry waiter waiting).2 ∧
    Run.carryOn.doLine { line := 5 } (Run.carryOn.entry waiter waiting).2 =
      (.next { line := 6 },
        Run.carryOn.fault (Run.carryOn.note 5 (Run.carryOn.entry waiter waiting).2) .elseWithoutIf) := by
  obtain ⟨hp, hline, hnone⟩ : Run.carryOn.proto.script = Script.compile dawdling ∧
      Run.carryOn.proto.script.line? 5 = some ⟨"else", .elseThen none⟩ ∧
      openLines .ifs Run.carryOn.proto.script.keywords 5 = [] := by decide +kernel
  have hstray := openLines_eq_nil.1 hnone
  exact ⟨hp, hline, hstray, Run.journey_dawdle,
    (stray_fails_open hp Run.journey_dawdle hline rfl hstray).1⟩

/-- A `break` out of an `if`, and later an `else` that belongs to no `if`. -/
def leaving : String := "while 1\nif 1\nbreak\nend\ndone\nelse\necho on"

def Game.leaver : Instance := ((hall leaving).instance? ⟨0, 0⟩).get (by decide +kernel)

def Run.leave : Run := (hall leaving).runOf .standard ⟨0, 0⟩ leaver .new

/-- The `break` is not level. The `else` then ends the run, and what is logged is another mistake. -/
theorem break_ends_stray :
    Run.leave.proto.script = Script.compile leaving ∧
    Run.leave.proto.script.line? 5 = some ⟨"else", .elseThen none⟩ ∧
    (∀ i, ¬ IsOpen .ifs Run.leave.proto.script.keywords 5 i) ∧
    ¬ Run.leave.proto.script.IsLevel 2 5 ∧
    ∃ g, Run.leave.Comes (Run.leave.entry leaver (hall leaving)).1
        (Run.leave.entry leaver (hall leaving)).2 { line := 5 } g ∧
      (Run.leave.doLine { line := 5 } g).1 = .ended 1 ∧
      (Run.leave.doLine { line := 5 } g).2.log.getLast? =
        some (.authoring 1 "stray" .ifWithoutEnd) := by
  let g := (Run.leave.entry leaver (hall leaving)).2
  obtain ⟨hp, hline, hnone, hlevel⟩ : Run.leave.proto.script = Script.compile leaving ∧
      Run.leave.proto.script.line? 5 = some ⟨"else", .elseThen none⟩ ∧
      openLines .ifs Run.leave.proto.script.keywords 5 = [] ∧
      ¬ Run.leave.proto.script.IsLevel 2 5 := by decide +kernel
  obtain ⟨hfirst, h0, h1, h2, hlength⟩ :
      (Run.leave.entry leaver (hall leaving)).1 = { line := 0 } ∧
      (Run.leave.pass { line := 0 } g).1 = .next { line := 1 } ∧
      (Run.leave.pass { line := 1 } (Run.leave.after [0] g)).1 = .next { line := 2 } ∧
      (Run.leave.pass { line := 2 } (Run.leave.after [0, 1] g)).1 = .next { line := 5 } ∧
      2 < Run.leave.proto.script.length := by decide +kernel
  have hcomes : Run.leave.Comes { line := 0 } g { line := 5 } (Run.leave.after [0, 1, 2] g) :=
    .pass (Nat.zero_lt_of_lt hlength) (Run.pass_eq h0) <|
      .pass (Nat.lt_of_succ_lt hlength) (Run.pass_eq h1) <| .pass hlength (Run.pass_eq h2) .here
  have hends : (Run.leave.doLine { line := 5 } (Run.leave.after [0, 1, 2] g)).1 = .ended 1 ∧
      (Run.leave.doLine { line := 5 } (Run.leave.after [0, 1, 2] g)).2.log.getLast? =
        some (.authoring 1 "stray" .ifWithoutEnd) := by decide +kernel
  rw [hfirst]
  exact ⟨hp, hline, openLines_eq_nil.1 hnone, hlevel, _, hcomes, hends⟩

end MudTrigger
