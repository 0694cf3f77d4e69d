import MudTrigger.Proofs.World.Deed

/-!
# The lines that runs reach

`Game.lines` is the part of the trace that tells which lines of a trigger's script were reached. A step
of a game adds a line only for the innermost run, whose trigger is attached and, if it is guarded, whose
owner is able to act (`Stage.Next.lines`). As the runs under way are those of their triggers' prototypes
(`Branded`), this goes for the triggers as they are attached (`Stage.Sane.able_of_lines`).
-/

set_option autoImplicit false

namespace MudTrigger

open Game

/-- The character is there, awake and not casting. -/
def World.CanAct (w : World) (u : Uid) : Prop :=
  ∃ c, w.character? u = some c ∧ c.isAwake = true ∧ c.casting = false

namespace Game

variable {g g' : Game} {h h' : Handle} {u v : Uid} {n : Notice}

/-- The lines that the trigger's runs for this owner have reached, in order. -/
def lines (g : Game) (h : Handle) (u : Uid) : List Nat := (g.deeds u).filterMap (·.line? h)

theorem Silent.lines (hs : Silent g g') : g'.lines h u = g.lines h u := by
  rw [Game.lines, hs.deeds, Game.lines]

/-- A notice that tells no line of the trigger. -/
theorem lines_report (hn : n.line? h = none) : (g.report n).lines h u = g.lines h u := by
  rw [lines, deeds_report, List.filterMap_append, ← lines]
  split
  · rw [List.filterMap_cons_none hn, List.filterMap_nil, List.append_nil]
  · exact List.append_nil _

theorem lines_reached (line : Nat) :
    (g.report (.reached h u line)).lines h u = g.lines h u ++ [line] := by
  have hline : (Notice.reached h u line).line? h = some line := if_pos rfl
  have hdoer : (Notice.reached h u line).doer? = some u := rfl
  rw [lines, deeds_report, if_pos hdoer, List.filterMap_append, List.filterMap_cons_some hline]
  rfl

theorem lines_reached_ne (hne : h' = h → v ≠ u) (line : Nat) :
    (g.report (.reached h' v line)).lines h u = g.lines h u := by
  by_cases hh : h' = h
  · have hdoer : ¬ (Notice.reached h' v line).doer? = some u := fun he =>
      hne hh (Option.some.inj he)
    rw [lines, deeds_report, if_neg hdoer, List.append_nil, lines]
  · exact lines_report (if_neg hh)

end Game

/-! ## Steps that reach a line -/

/-- The innermost run of a moment reaches a line of a trigger's script. -/
structure Moment.Reaches (m m' : Moment) (h : Handle) (u : Uid) (line : Nat) : Prop where
  top : ∃ a s, m.stack = a :: s ∧ a.trigger = h ∧ a.owner = u ∧ a.held = false ∧
    a.CanAct m.game.world
  stack : m'.stack = m.stack
  live : m.game.hasTrigger h = true
  lines : m'.game.lines h u = m.game.lines h u ++ [line]

section

variable {m m' : Moment} {h : Handle} {u : Uid}

/-- A step adds a line to the trace of the innermost run, or none. -/
theorem DeedEffect.lines (he : DeedEffect m m') (h : Handle) (u : Uid) :
    m'.game.lines h u = m.game.lines h u ∨ ∃ line, m.Reaches m' h u line := by
  cases he with
  | silent hs => exact .inl hs.lines
  | edit _ hd => exact .inl (by rw [Game.lines, hd, Game.lines])
  | deed _ _ _ hline hs => exact .inl (hs.lines.trans (lines_report (hline h)))
  | @reach a s line hst live able free hst' hs =>
    by_cases hown : a.trigger = h ∧ a.owner = u
    · obtain ⟨rfl, rfl⟩ := hown
      refine .inr ⟨line, ⟨a, s, hst, rfl, rfl, free, able⟩, hst', live, ?_⟩
      rw [hs.lines, lines_reached]
    · refine .inl (hs.lines.trans (lines_reached_ne ?_ line))
      exact fun hh hu => hown ⟨hh, hu⟩

/-- The opening of a call reaches no line. -/
theorem Operation.lines_opening (g : Game) (op : Operation) (h : Handle) (u : Uid) :
    (op.opening g).game.lines h u = g.lines h u := by
  by_cases hw : ∃ w, op = .replaceWorld w
  · obtain ⟨w, rfl⟩ := hw
    rfl
  · have hd : DeedEffect ⟨[], g⟩ (op.opening g) :=
      Operation.deedEffect fun w he => absurd ⟨w, he⟩ hw
    refine (hd.lines h u).resolve_right ?_
    rintro ⟨line, ⟨a, s, hst, -⟩, -⟩
    cases hst

end

/-! ## Runs and prototypes -/

/-- The runs under way are those of the prototypes of their triggers. -/
def Branded (m : Moment) : Prop :=
  ∀ a ∈ m.stack, ∀ i, m.game.instance? a.trigger = some i → i.proto = a.proto

namespace Branded

variable {m m' : Moment} {n : Nat}

/-- Whatever changes attaches no trigger under the handle of a run under way. -/
theorem proto_eq (hb : Branded m) (h : Change m m') (hs : m.game.engine.triggers.Sound)
    (ht : Tracked n m) (hn : m'.game.attachments < n + 0x1_0000_0000) {a : Activation}
    (ha : a ∈ m.stack) {i : Instance} (hi : m'.game.instance? a.trigger = some i) :
    i.proto = a.proto := by
  have spared : Spares a.trigger m.game m'.game → i.proto = a.proto := by
    rintro (he | he)
    · exact hb a ha i (he.symm.trans hi)
    · rw [hi] at he
      cases he
  rcases same_or_alters h with hsame | halters
  · obtain ⟨j, hj, -, hp⟩ := hsame.symm_instance hi
    rw [← hp]
    exact hb a ha j hj
  · cases halters with
    | purge u => exact spared (.purge u)
    | attach _ hattach =>
      obtain ⟨p, -, he⟩ := attach_ok hattach
      rw [he, attachments_attachTo] at hn
      rw [he, instance?_attachTo _ _ _ _ hs, if_neg (ht.attach hs hn ha _ p)] at hi
      exact hb a ha i hi
    | detach => exact spared (.of_remove (instance?_removeInstance _ _))
    | detachAll target => exact spared (spares_detachAll target _)

theorem change (hb : Branded m) (h : Change m m') (hs : m.game.engine.triggers.Sound)
    (ht : Tracked n m) (hn : m'.game.attachments < n + 0x1_0000_0000) : Branded m' := by
  intro a ha i hi
  rcases h.mem_stack ha with ⟨b, hmem, htrigger, hproto⟩ | ⟨j, hj, hproto⟩
  · rw [← htrigger] at hi
    rw [← hproto]
    exact hb.proto_eq h hs ht hn hmem hi
  · rw [hi, Option.some.injEq] at hj
    rw [hj, hproto]

theorem opening (g : Game) (op : Operation) : Branded (op.opening g) := by
  intro a ha i hi
  cases op with
  | run host h mode =>
    have ha : a ∈ (Operation.runOpening g h mode).stack := ha
    have hi : (Operation.runOpening g h mode).game.instance? a.trigger = some i := hi
    have hopens := Operation.runOpening_opens g h mode
    generalize Operation.runOpening g h mode = m at hopens ha hi
    cases hopens with
    | stale | refused => cases ha
    | begun hj =>
      obtain rfl := List.mem_singleton.1 ha
      obtain ⟨k, hk, -, hp⟩ := ((same_enter _ _).trans (same_begin _)).symm_instance hi
      rw [hj, Option.some.injEq] at hk
      rw [← hp, ← hk]
    | takenUp hj =>
      obtain rfl := List.mem_singleton.1 ha
      obtain ⟨k, hk, -, hp⟩ := ((same_enter _ _).trans (same_takeUp _)).symm_instance hi
      rw [hj, Option.some.injEq] at hk
      rw [← hp, ← hk]
  | attach | detach | detachAll | extractEntity | setGlobal | dispatch | pulse | interpret
    | execute | walk | purge | replaceWorld => cases ha

end Branded

namespace Stage

variable {may : Game → Operation → Prop} {p p' : Stage} {h : Handle} {u : Uid}

theorem Next.lines (hn : Next may p p') (h : Handle) (u : Uid) :
    p'.game.lines h u = p.game.lines h u ∨ ∃ line, p.moment.Reaches p'.moment h u line := by
  cases hn with
  | change hf => exact hf.change.deedEffect.lines h u
  | @call g n op => exact .inl (op.lines_opening g h u)

theorem Sane.branded_next (hp : p.Sane) (hb : Branded p.moment) (hn : Next may p p') :
    Branded p'.moment := by
  cases hn with
  | change hf hn => exact hb.change hf.change hp.coherent.sound hp.tracked hn
  | @call g n op => exact .opening g op

theorem Sane.branded_course (hp : p.Sane) (hb : Branded p.moment) (hc : Course may p p') :
    Branded p'.moment := by
  induction hc with
  | refl => exact hb
  | tail hc hn ih => exact (hp.course hc).branded_next ih hn

/-- A line is reached while the owner of the trigger is able to act, if the trigger is guarded. -/
theorem Sane.able_of_lines (hp : p.Sane) (hb : Branded p.moment) (hn : Next may p p')
    (hne : p'.game.lines h u ≠ p.game.lines h u) :
    ∃ i line, p.game.instance? h = some i ∧ i.owner = u ∧
      p'.game.lines h u = p.game.lines h u ++ [line] ∧
      (i.proto.isGuarded = true → p.game.world.CanAct u) := by
  obtain ⟨line, hreach⟩ := (hn.lines h u).resolve_left hne
  obtain ⟨a, s, hst, rfl, rfl, -, hable⟩ := hreach.top
  obtain ⟨i, hi⟩ := (hasTrigger_iff _ _).1 hreach.live
  have ha : a ∈ p.moment.stack := hst ▸ List.mem_cons_self
  refine ⟨i, line, hi, (hp.upright.running ha hi).2.2, hreach.lines, fun hguard => ?_⟩
  rw [hb a ha i hi] at hguard
  exact hable hguard

end Stage

end MudTrigger
