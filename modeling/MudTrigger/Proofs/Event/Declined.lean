import MudTrigger.Proofs.Trace.Operation

/-!
# Who is asked after a command was declined

A typed command is offered to one after another. `Game.Asks` says that all of a list were asked and
that every answer was of one kind, and `Game.Finds` that one of them takes the command after such
answers. Objects are asked until one takes it: those before it fired nothing or declined. Among mobiles
the first one that fires decides, and if it declines, nobody else in the room is asked
(`command_scans`). So a mobile that would take the command goes without it when another declines before
(`decliner_ends_scan`); where no mobile declines the two ways of asking are the same.
-/

set_option autoImplicit false

namespace MudTrigger

namespace Game

/-! ## Asking one after another -/

/-- Those of a list who are able when their turn comes have been asked, with answers of one kind. -/
inductive Asks (run : Runner) (able : Game → Uid → Bool) (o : Offer) (kind : Option Int → Prop) :
    List Uid → Game → Game → Prop
  | nil {g} : Asks run able o kind [] g g
  | unable {g g' u us} : able g u = false → Asks run able o kind us g g' →
    Asks run able o kind (u :: us) g g'
  | asked {g g' u us} : able g u = true → kind (g.offer run u o).1 →
    Asks run able o kind us (g.offer run u o).2 g' → Asks run able o kind (u :: us) g g'

/-- One of a list takes it, when those before it have given answers of one kind. -/
def Finds (run : Runner) (able : Game → Uid → Bool) (o : Offer) (kind : Option Int → Prop)
    (us : List Uid) (g : Game) : Prop :=
  ∃ before u after g', us = before ++ u :: after ∧ Asks run able o kind before g g' ∧
    able g' u = true ∧ takes (g'.offer run u o).1 = true

/-- No trigger was fired. -/
def Unfired (answer : Option Int) : Prop := answer = none

/-- No trigger was fired, or what was fired declines. -/
def Untaken (answer : Option Int) : Prop := takes answer = false

/-- Who asks everyone. -/
def anyone (_ : Game) (_ : Uid) : Bool := true

variable {run : Runner} {able : Game → Uid → Bool} {o : Offer} {kind kind' : Option Int → Prop}
  {u : Uid} {us before after : List Uid} {g g' g1 : Game}

theorem Unfired.untaken {answer : Option Int} (h : Unfired answer) : Untaken answer := by
  rw [Untaken, h]
  rfl

theorem untaken_cases {answer : Option Int} : Untaken answer ↔ Unfired answer ∨ answer = some 0 := by
  cases answer with
  | none => simp [Untaken, Unfired, takes]
  | some result => simp [Untaken, Unfired, takes]

namespace Asks

theorem mono (h : Asks run able o kind us g g') (hk : ∀ answer, kind answer → kind' answer) :
    Asks run able o kind' us g g' := by
  induction h with
  | nil => exact .nil
  | unable ha _ ih => exact .unable ha ih
  | asked ha hkind _ ih => exact .asked ha (hk _ hkind) ih

theorem offerUntilFired (h : Asks run able o Unfired before g g1) (after : List Uid) :
    g.offerUntilFired run able o (before ++ after) = g1.offerUntilFired run able o after := by
  induction h with
  | nil => rfl
  | unable ha _ ih =>
    rw [List.cons_append, Game.offerUntilFired, if_neg (by rw [ha]; exact Bool.false_ne_true), ih]
  | @asked g _ u _ ha hkind _ ih =>
    have he : g.offer run u o = (none, (g.offer run u o).2) := Prod.ext hkind rfl
    rw [List.cons_append, Game.offerUntilFired, if_pos ha, he]
    exact ih

theorem offerUntilTaken (h : Asks run anyone o Untaken before g g1) (after : List Uid) :
    g.offerUntilTaken run o (before ++ after) = g1.offerUntilTaken run o after := by
  induction h with
  | nil => rfl
  | unable ha => cases ha
  | asked _ hkind _ ih =>
    rw [List.cons_append, Game.offerUntilTaken]
    simp only
    rw [if_neg (by rw [hkind]; exact Bool.false_ne_true), ih]

end Asks

/-! ## Until a trigger is fired -/

/-- All were asked in vain, or the first who fires has decided. -/
theorem offerUntilFired_cases (run : Runner) (able : Game → Uid → Bool) (o : Offer) (us : List Uid)
    (g : Game) :
    (∃ g', Asks run able o Unfired us g g' ∧ g.offerUntilFired run able o us = (none, g')) ∨
    ∃ before u after g1 result, us = before ++ u :: after ∧ Asks run able o Unfired before g g1 ∧
      able g1 u = true ∧ (g1.offer run u o).1 = some result ∧
      g.offerUntilFired run able o us = (some result, (g1.offer run u o).2) := by
  induction us generalizing g with
  | nil => exact .inl ⟨g, .nil, rfl⟩
  | cons u us ih =>
    cases ha : able g u with
    | false =>
      have hskip : g.offerUntilFired run able o (u :: us) = g.offerUntilFired run able o us := by
        rw [Game.offerUntilFired, if_neg (by rw [ha]; exact Bool.false_ne_true)]
      rw [hskip]
      rcases ih g with ⟨g', h, he⟩ | ⟨before, x, after, g1, result, rfl, h, hx, hr, he⟩
      · exact .inl ⟨g', .unable ha h, he⟩
      · exact .inr ⟨u :: before, x, after, g1, result, rfl, .unable ha h, hx, hr, he⟩
    | true =>
      cases hr : (g.offer run u o).1 with
      | none =>
        have hask := (Asks.asked ha hr .nil).offerUntilFired us
        rw [List.singleton_append] at hask
        rw [hask]
        rcases ih (g.offer run u o).2 with
          ⟨g', h, he⟩ | ⟨before, x, after, g1, result, rfl, h, hx, hr', he⟩
        · exact .inl ⟨g', .asked ha hr h, he⟩
        · exact .inr ⟨u :: before, x, after, g1, result, rfl, .asked ha hr h, hx, hr', he⟩
      | some result =>
        have he : g.offer run u o = (some result, (g.offer run u o).2) := Prod.ext hr rfl
        refine .inr ⟨[], u, us, g, result, rfl, .nil, ha, hr, ?_⟩
        rw [Game.offerUntilFired, if_pos ha, he]

/-- The first who fires decides. -/
theorem offerUntilFired_takes : takes (g.offerUntilFired run able o us).1 = true ↔
    Finds run able o Unfired us g := by
  constructor
  · intro ht
    rcases offerUntilFired_cases run able o us g with
      ⟨g', -, he⟩ | ⟨before, u, after, g1, result, rfl, h, ha, hr, he⟩
    · rw [he] at ht
      cases ht
    · rw [he] at ht
      exact ⟨before, u, after, g1, rfl, h, ha, by rwa [hr]⟩
  · rintro ⟨before, u, after, g1, rfl, h, ha, ht⟩
    cases hr : (g1.offer run u o).1 with
    | none =>
      rw [hr] at ht
      cases ht
    | some result =>
      have he : g1.offer run u o = (some result, (g1.offer run u o).2) := Prod.ext hr rfl
      rw [h.offerUntilFired, Game.offerUntilFired, if_pos ha, he]
      rwa [hr] at ht

/-- Nobody takes it: all were asked, or the first who fired has declined and the rest is not asked. -/
theorem offerUntilFired_untaken (ht : takes (g.offerUntilFired run able o us).1 = false) :
    Asks run able o Unfired us g (g.offerUntilFired run able o us).2 ∨
    ∃ before u after g1, us = before ++ u :: after ∧ Asks run able o Unfired before g g1 ∧
      able g1 u = true ∧ (g1.offer run u o).1 = some 0 ∧
      (g.offerUntilFired run able o us).2 = (g1.offer run u o).2 := by
  rcases offerUntilFired_cases run able o us g with
    ⟨g', h, he⟩ | ⟨before, u, after, g1, result, hus, h, ha, hr, he⟩
  · rw [he]
    exact .inl h
  · rw [he] at ht ⊢
    have hzero : result = 0 := by simpa [takes] using ht
    exact .inr ⟨before, u, after, g1, hus, h, ha, hzero ▸ hr, rfl⟩

/-- Nobody of a list declines it, once those before have fired nothing. -/
def NoneDeclines (run : Runner) (able : Game → Uid → Bool) (o : Offer) (us : List Uid) (g : Game) :
    Prop :=
  ∀ before u after g1, us = before ++ u :: after → Asks run able o Unfired before g g1 →
    able g1 u = true → (g1.offer run u o).1 ≠ some 0

theorem Finds.untaken (h : Finds run able o Unfired us g) : Finds run able o Untaken us g := by
  obtain ⟨before, u, after, g1, hus, hb, ha, ht⟩ := h
  exact ⟨before, u, after, g1, hus, hb.mono fun _ => Unfired.untaken, ha, ht⟩

/-- Where nobody declines it, who has not taken it has fired nothing. -/
theorem Asks.unfired (h : Asks run able o Untaken before g g')
    (hn : NoneDeclines run able o (before ++ after) g) : Asks run able o Unfired before g g' := by
  induction h with
  | nil => exact .nil
  | @unable g _ u _ ha _ ih =>
    refine .unable ha (ih fun front x back g1 hus hb => ?_)
    exact hn (u :: front) x back g1 (congrArg (u :: ·) hus) (.unable ha hb)
  | @asked g _ u us ha hkind _ ih =>
    have hnone : Unfired (g.offer run u o).1 :=
      (untaken_cases.1 hkind).resolve_right (hn [] u (us ++ after) g rfl .nil ha)
    refine .asked ha hnone (ih fun front x back g1 hus hb => ?_)
    exact hn (u :: front) x back g1 (congrArg (u :: ·) hus) (.asked ha hnone hb)

theorem finds_unfired_iff (hn : NoneDeclines run able o us g) :
    Finds run able o Unfired us g ↔ Finds run able o Untaken us g := by
  refine ⟨Finds.untaken, ?_⟩
  rintro ⟨before, u, after, g1, rfl, hb, ha, ht⟩
  exact ⟨before, u, after, g1, rfl, hb.unfired hn, ha, ht⟩

/-! ## Until a trigger takes it -/

/-- All were asked in vain, or one has taken it. -/
theorem offerUntilTaken_cases (run : Runner) (o : Offer) (us : List Uid) (g : Game) :
    (∃ g', Asks run anyone o Untaken us g g' ∧ g.offerUntilTaken run o us = (false, g')) ∨
    Finds run anyone o Untaken us g ∧ (g.offerUntilTaken run o us).1 = true := by
  induction us generalizing g with
  | nil => exact .inl ⟨g, .nil, rfl⟩
  | cons u us ih =>
    cases ht : takes (g.offer run u o).1 with
    | true =>
      refine .inr ⟨⟨[], u, us, g, rfl, .nil, rfl, ht⟩, ?_⟩
      rw [Game.offerUntilTaken]
      simp only
      rw [if_pos ht]
    | false =>
      have hfirst : Asks run anyone o Untaken [u] g (g.offer run u o).2 := .asked rfl ht .nil
      have hask := hfirst.offerUntilTaken us
      rw [List.singleton_append] at hask
      rw [hask]
      rcases ih (g.offer run u o).2 with
        ⟨g', h, he⟩ | ⟨⟨before, x, after, g1, rfl, h, ha, hx⟩, he⟩
      · exact .inl ⟨g', .asked rfl ht h, he⟩
      · exact .inr ⟨⟨u :: before, x, after, g1, rfl, .asked rfl ht h, ha, hx⟩, he⟩

theorem offerUntilTaken_takes :
    (g.offerUntilTaken run o us).1 = true ↔ Finds run anyone o Untaken us g := by
  constructor
  · intro ht
    rcases offerUntilTaken_cases run o us g with ⟨g', -, he⟩ | ⟨h, -⟩
    · rw [he] at ht
      cases ht
    · exact h
  · rintro ⟨before, u, after, g1, rfl, h, -, ht⟩
    rw [h.offerUntilTaken, Game.offerUntilTaken]
    simp only
    rw [if_pos ht]

/-- Nobody takes it exactly when all were asked in vain. -/
theorem offerUntilTaken_untaken :
    g.offerUntilTaken run o us = (false, g') ↔ Asks run anyone o Untaken us g g' := by
  constructor
  · intro h
    rcases offerUntilTaken_cases run o us g with ⟨g1, ha, he⟩ | ⟨-, ht⟩
    · rw [h] at he
      cases he
      exact ha
    · rw [h] at ht
      cases ht
  · intro h
    have he := h.offerUntilTaken []
    rwa [List.append_nil] at he

end Game

open Game

/-! ## Commands -/

/-- The mobiles that are asked about commands. -/
def MobileEvent.minds (g : Game) (mob : Uid) : Bool := g.world.performsScripts mob

/-- Some object near the actor takes the command: one that it wears, or else carries, or else one that
lies around, when all before it were asked and left it. -/
def ObjectEvent.Finds (run : Runner) (actor : Uid) (word arg : String) (g : Game) : Prop :=
  let o := fun scope => commandOffer scope actor word arg
  Game.Finds run anyone (o .worn) Untaken (wornBy g.world actor) g ∨
  ∃ g1, Asks run anyone (o .worn) Untaken (wornBy g.world actor) g g1 ∧
    (Game.Finds run anyone (o .carried) Untaken (carriedBy g.world actor) g1 ∨
    ∃ g2, Asks run anyone (o .carried) Untaken (carriedBy g.world actor) g1 g2 ∧
      Game.Finds run anyone (o .floor) Untaken (lyingNear g.world actor) g2)

variable {run : Runner} {actor : Uid} {word arg : String} {g : Game}

theorem MobileEvent.onCommand_eq (ha : g.world.wakesTriggers actor = true) :
    onCommand run actor word arg g =
      (takes (g.offerUntilFired run minds (commandOffer actor word arg) (g.world.peopleWith actor)).1,
        (g.offerUntilFired run minds (commandOffer actor word arg) (g.world.peopleWith actor)).2) := by
  rw [onCommand, if_pos ha]
  rfl

/-- Objects are asked until one takes the command. -/
theorem ObjectEvent.onCommand_takes (ha : g.world.wakesTriggers actor = true) :
    (onCommand run actor word arg g).1 = true ↔ ObjectEvent.Finds run actor word arg g := by
  unfold onCommand ObjectEvent.Finds
  simp only [if_pos ha, ← offerUntilTaken_takes, ← offerUntilTaken_untaken]
  rcases g.offerUntilTaken run (commandOffer .worn actor word arg) (wornBy g.world actor) with
    ⟨_ | _, g1⟩
  · rcases hc : g1.offerUntilTaken run (commandOffer .carried actor word arg)
      (carriedBy g.world actor) with ⟨_ | _, g2⟩ <;> simp [hc]
  · simp

/-- What the room and its mobiles leave to them, objects are asked about, and what these leave is carried
out. -/
theorem interpret_stages {line : String} {taken : Bool} {g1 g2 g3 : Game}
    (hline : Text.splitWord (Text.trim line) = (word, arg)) (hword : word ≠ "")
    (hroom : RoomEvent.onCommand run actor word arg g = (false, g1))
    (hmob : MobileEvent.onCommand run actor word arg g1 = (false, g2))
    (hobj : ObjectEvent.onCommand run actor word arg g2 = (taken, g3)) :
    g.interpret run actor line = if taken then g3 else g3.execute run actor line := by
  unfold interpret
  simp only [hline, if_neg hword, hroom, hmob, hobj]
  cases taken with
  | true => rw [if_pos rfl]
  | false => rw [if_neg Bool.false_ne_true]

/-- Among mobiles the first one that fires a trigger decides on a typed command, and if it declines,
nobody else is asked. Among objects, and between the room, its mobiles and the objects, one takes it
exactly if all before it have fired nothing or declined. -/
theorem command_scans (run : Runner) (actor : Uid) (word arg : String) (g : Game)
    (ha : g.world.wakesTriggers actor = true) :
    let people := g.world.peopleWith actor
    let o := MobileEvent.commandOffer actor word arg
    let p := MobileEvent.onCommand run actor word arg g
    (p.1 = true ↔ Finds run MobileEvent.minds o Unfired people g) ∧
    (p.1 = false → Asks run MobileEvent.minds o Unfired people g p.2 ∨
      ∃ before mob after g1, people = before ++ mob :: after ∧
        Asks run MobileEvent.minds o Unfired before g g1 ∧ MobileEvent.minds g1 mob = true ∧
        (g1.offer run mob o).1 = some 0 ∧ p.2 = (g1.offer run mob o).2) ∧
    (NoneDeclines run MobileEvent.minds o people g →
      (p.1 = true ↔ Finds run MobileEvent.minds o Untaken people g)) ∧
    ((ObjectEvent.onCommand run actor word arg g).1 = true ↔
      ObjectEvent.Finds run actor word arg g) ∧
    ∀ line g1 g2 taken g3, Text.splitWord (Text.trim line) = (word, arg) → word ≠ "" →
      RoomEvent.onCommand run actor word arg g = (false, g1) →
      MobileEvent.onCommand run actor word arg g1 = (false, g2) →
      ObjectEvent.onCommand run actor word arg g2 = (taken, g3) →
      g.interpret run actor line = if taken then g3 else g3.execute run actor line := by
  intro people o p
  have hp : p = (takes (g.offerUntilFired run MobileEvent.minds o people).1,
      (g.offerUntilFired run MobileEvent.minds o people).2) := MobileEvent.onCommand_eq ha
  have htakes : p.1 = true ↔ Finds run MobileEvent.minds o Unfired people g := by
    rw [hp]
    exact offerUntilFired_takes
  refine ⟨htakes, fun hf => ?_, fun hn => htakes.trans (finds_unfired_iff hn),
    ObjectEvent.onCommand_takes ha, fun line g1 g2 taken g3 hline hword hroom hmob hobj => ?_⟩
  · rw [hp] at hf ⊢
    exact offerUntilFired_untaken hf
  · exact interpret_stages hline hword hroom hmob hobj

/-! ## A mobile that declines -/

/-- A trigger of mobiles for any command. -/
def answering (vnum : Vnum) (body : String) : Prototype :=
  { vnum, name := "answer", kind := .mobile, events := MobileEventBit.command.bits, arg := "*"
    script := Script.compile body }

/-- A player, and two mobiles. -/
def shopCounter : World :=
  let w := ((({} : World).addRoom 3001 "counter").2.addPlayer "Ann" (Uid.room 0)).2
  ((w.addMobile 7 "a clerk" (Uid.room 0)).2.addMobile 8 "a guard" (Uid.room 0)).2

/-- The clerk declines every command, and the guard takes every one. -/
def attended : Game :=
  (Game.start {} (((∅ : Registry).register (answering 1 "return 0")).register
    (answering 2 "echo got it")) {}).play
    [.replaceWorld shopCounter, .attach 1 ⟨100001⟩ none, .attach 2 ⟨100002⟩ none]

/-- The clerk has decided, and no object is there to be asked. -/
theorem command_scans_counter :
    let g := attended
    g.world.wakesTriggers ⟨100000⟩ = true ∧
    ¬ Finds (Game.run .standard) MobileEvent.minds (MobileEvent.commandOffer ⟨100000⟩ "look" "")
      Unfired (g.world.peopleWith ⟨100000⟩) g ∧
    ¬ ObjectEvent.Finds (Game.run .standard) ⟨100000⟩ "look" "" g := by
  intro g
  have hann : g.world.wakesTriggers ⟨100000⟩ = true := by decide +kernel
  have hmobiles : (MobileEvent.onCommand (Game.run .standard) ⟨100000⟩ "look" "" g).1 = false := by
    decide +kernel
  have hobjects : (ObjectEvent.onCommand (Game.run .standard) ⟨100000⟩ "look" "" g).1 = false := by
    decide +kernel
  obtain ⟨hfirst, -, -, hall, -⟩ := command_scans (Game.run .standard) ⟨100000⟩ "look" "" g hann
  refine ⟨hann, fun hf => ?_, fun hf => ?_⟩
  · rw [hfirst.2 hf] at hmobiles
    cases hmobiles
  · rw [hall.2 hf] at hobjects
    cases hobjects

/-- The guard would take the command, and is not asked. -/
theorem decliner_ends_scan :
    ¬ ∀ (host : Host) (config : Config) (registry : Registry) (ops : List Operation) (actor : Uid)
      (word arg : String),
      let g := (Game.start config registry {}).play ops
      let o := MobileEvent.commandOffer actor word arg
      g.world.wakesTriggers actor = true →
        ((MobileEvent.onCommand (Game.run host) actor word arg g).1 = true ↔
          Finds (Game.run host) MobileEvent.minds o Untaken (g.world.peopleWith actor) g) := by
  intro hall
  let o := MobileEvent.commandOffer ⟨100000⟩ "look" ""
  let declined := (attended.offer (Game.run .standard) ⟨100001⟩ o).2
  have hann : attended.world.wakesTriggers ⟨100000⟩ = true := by decide +kernel
  have hpeople : attended.world.peopleWith ⟨100000⟩ = [⟨100000⟩, ⟨100001⟩, ⟨100002⟩] := by
    decide +kernel
  have hfalse : (MobileEvent.onCommand (Game.run .standard) ⟨100000⟩ "look" "" attended).1
      = false := by decide +kernel
  have hplayer : MobileEvent.minds attended ⟨100000⟩ = false := by decide +kernel
  have hclerk : MobileEvent.minds attended ⟨100001⟩ = true := by decide +kernel
  have hdeclines : takes (attended.offer (Game.run .standard) ⟨100001⟩ o).1 = false := by
    decide +kernel
  have hguard : MobileEvent.minds declined ⟨100002⟩ = true := by decide +kernel
  have htakes : takes (declined.offer (Game.run .standard) ⟨100002⟩ o).1 = true := by
    decide +kernel
  have hasked : Asks (Game.run .standard) MobileEvent.minds o Untaken [⟨100000⟩, ⟨100001⟩] attended
      declined := .unable hplayer (.asked hclerk hdeclines .nil)
  have hfinds : Finds (Game.run .standard) MobileEvent.minds o Untaken
      (attended.world.peopleWith ⟨100000⟩) attended :=
    ⟨_, ⟨100002⟩, [], declined, hpeople, hasked, hguard, htakes⟩
  have htrue : (MobileEvent.onCommand (Game.run .standard) ⟨100000⟩ "look" "" attended).1 = true :=
    (hall .standard {} _ _ ⟨100000⟩ "look" "" hann).2 hfinds
  rw [hfalse] at htrue
  cases htrue

end MudTrigger
