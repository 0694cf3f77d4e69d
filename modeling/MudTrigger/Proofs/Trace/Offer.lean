import MudTrigger.Proofs.Trace.Change

/-!
# Offers stir a game

While it looks for a trigger an offer rolls dice and reports authors' faults (`Look`), and it fires only
a trigger that it has found idle (`scan_some`). For any runner, an offer does nothing else (`Stir`,
`offer_stirs` and what follows it). So if the runner makes changes when it is given an idle trigger,
then every offer makes changes (`Stirs.evolves`).
-/

set_option autoImplicit false

namespace MudTrigger

/-- What looking for a trigger does: dice are rolled, or a fault is put on record. -/
inductive Look : Game → Game → Prop
  | roll {g} (d : Dice) : Look g (g.withDice d)
  | blame {g} (p : Prototype) (faults : List Fault) : Look g (g.blame p faults)

/-- One after another. -/
abbrev Looks : Game → Game → Prop := Relation.ReflTransGen Look

/-- What happens while an event is offered: a look at the triggers, or an idle one is fired. -/
inductive Stir (run : Runner) : Game → Game → Prop
  | look {g g'} : Look g g' → Stir run g g'
  | fire {g h i} (bindings : List (String × String)) : g.instance? h = some i → i.isIdle = true →
    Stir run g (g.fire run h bindings).2

@[inherit_doc Looks]
abbrev Stirs (run : Runner) : Game → Game → Prop := Relation.ReflTransGen (Stir run)

variable {s : List Activation} {g g' : Game} {run : Runner}

theorem Look.change (h : Look g g') : Change ⟨s, g⟩ ⟨s, g'⟩ := by
  cases h with
  | roll d => exact .roll d
  | blame p faults => exact .blame p faults

theorem Looks.evolves (h : Looks g g') : Evolves s g g' := h.lift (Moment.mk s) fun _ _ => Look.change

theorem Looks.stirs (h : Looks g g') : Stirs run g g' := h.lift id fun _ _ => .look

theorem Stirs.evolves (h : Stirs run g g') (hr : Fires run) : Evolves s g g' := by
  induction h with
  | refl => exact .refl
  | tail _ h ih =>
    cases h with
    | look h => exact ih.tail h.change
    | fire bindings hi hidle => exact ih.trans (hr bindings hi hidle)

/-! ## Gates -/

theorem Gate.withTextArg_looks (p : Prototype) (passed : Bool) :
    Looks g (Gate.withTextArg p g passed).2 := by
  unfold Gate.withTextArg
  split
  · exact .single (.blame p _)
  · exact .refl

theorem Gate.instance?_withTextArg (p : Prototype) (passed : Bool) (h : Handle) :
    (Gate.withTextArg p g passed).2.instance? h = g.instance? h := by
  unfold Gate.withTextArg
  split <;> rfl

theorem Gate.passes_looks (gate : Gate) (p : Prototype) : Looks g (gate.passes p g).2 := by
  cases gate with
  | always => exact .refl
  | chance => exact .single (.roll _)
  | reached => exact .refl
  | within => exact .refl
  | exactly => exact .refl
  | command word => exact withTextArg_looks p _
  | heardFrom scope word =>
    rw [passes]
    split
    · exact withTextArg_looks p _
    · exact .refl
  | hearing text => exact withTextArg_looks p _
  | greeting sees =>
    rw [passes]
    split
    · exact .single (.roll _)
    · exact .refl

theorem Gate.roll_snd (p : Prototype) (g : Game) :
    (Gate.roll p g).2 = g.withDice (g.engine.dice.percent p.narg).2 := rfl

theorem Gate.instance?_passes (gate : Gate) (p : Prototype) (h : Handle) :
    (gate.passes p g).2.instance? h = g.instance? h := by
  cases gate with
  | always => rfl
  | chance => rw [passes, roll_snd, Game.instance?_withDice]
  | reached => rfl
  | within => rfl
  | exactly => rfl
  | command word => exact instance?_withTextArg p _ h
  | heardFrom scope word =>
    rw [passes]
    split
    · exact instance?_withTextArg p _ h
    · rfl
  | hearing text => exact instance?_withTextArg p _ h
  | greeting sees =>
    rw [passes]
    split
    · rw [roll_snd, Game.instance?_withDice]
    · rfl

namespace Game

/-! ## Offers -/

theorem scan_looks (o : Offer) (hs : List Handle) : Looks g (scan o hs g).2 := by
  induction hs generalizing g with
  | nil => exact .refl
  | cons h hs ih =>
    unfold scan
    split
    · exact ih
    · rename_i i hi
      split
      · have hp := o.gate.passes_looks i.proto (g := g)
        split
        · rename_i g' he
          rw [he] at hp
          exact hp
        · rename_i g' he
          rw [he] at hp
          exact hp.trans ih
      · exact ih

/-- Looking for a trigger leaves all of them as they are. -/
theorem instance?_scan (o : Offer) (hs : List Handle) (h : Handle) :
    (scan o hs g).2.instance? h = g.instance? h := by
  induction hs generalizing g with
  | nil => rfl
  | cons x hs ih =>
    unfold scan
    split
    · exact ih
    · rename_i i _
      split
      · have hp := o.gate.instance?_passes (g := g) i.proto h
        split <;> rename_i he <;> rw [he] at hp
        · exact hp
        · exact ih.trans hp
      · exact ih

/-- The trigger that a scan finds is one of those it looks at, attached, idle and woken by the event. -/
theorem scan_chosen {o : Offer} {hs : List Handle} {h : Handle} (hf : (scan o hs g).1 = some h) :
    h ∈ hs ∧ ∃ i, g.instance? h = some i ∧ i.isIdle = true ∧ i.proto.events.meets o.events = true := by
  induction hs generalizing g with
  | nil => cases hf
  | cons x hs ih =>
    unfold scan at hf
    split at hf
    · exact (ih hf).imp_left (List.mem_cons_of_mem x)
    · rename_i i hi
      split at hf
      · rename_i hc
        obtain ⟨hmeets, hidle⟩ := Bool.and_eq_true _ _ ▸ hc
        have hp := o.gate.instance?_passes (g := g) i.proto h
        split at hf
        · cases hf
          exact ⟨List.mem_cons_self, i, hi, hidle, hmeets⟩
        · rename_i he
          rw [he] at hp
          rw [← hp]
          exact (ih hf).imp_left (List.mem_cons_of_mem x)
      · exact (ih hf).imp_left (List.mem_cons_of_mem x)

theorem scan_some {o : Offer} {hs : List Handle} {h : Handle} {g' : Game}
    (hs' : scan o hs g = (some h, g')) :
    h ∈ hs ∧ ∃ i, g'.instance? h = some i ∧ i.isIdle = true := by
  obtain ⟨hmem, i, hi, hidle, -⟩ := scan_chosen (congrArg Prod.fst hs')
  have hkeeps := instance?_scan (g := g) o hs h
  rw [hs'] at hkeeps
  exact ⟨hmem, i, hkeeps.trans hi, hidle⟩

/-- A scan that meets no idle trigger which the event wakes finds nothing and rolls no dice. -/
theorem scan_none {o : Offer} {hs : List Handle}
    (hn : ∀ h ∈ hs, ∀ i, g.instance? h = some i →
      (i.proto.events.meets o.events && i.isIdle) = false) : scan o hs g = (none, g) := by
  induction hs with
  | nil => rfl
  | cons h hs ih =>
    have ih := ih fun x hx => hn x (List.mem_cons_of_mem _ hx)
    unfold scan
    split
    · exact ih
    · rename_i i hi
      rw [hn h List.mem_cons_self i hi, if_neg Bool.false_ne_true]
      exact ih

theorem triggerFor_looks (u : Uid) (o : Offer) : Looks g (triggerFor u o g).2 := by
  unfold triggerFor
  split
  · exact .refl
  · split
    · exact scan_looks o _
    · exact .refl

theorem triggerFor_some {u : Uid} {o : Offer} {h : Handle} {g' : Game}
    (ht : triggerFor u o g = (some h, g')) : ∃ i, g'.instance? h = some i ∧ i.isIdle = true := by
  unfold triggerFor at ht
  split at ht
  · cases ht
  · split at ht
    · exact (scan_some ht).2
    · cases ht

/-- An offer to someone without an idle trigger which the event wakes runs nothing. -/
theorem offer_none {u : Uid} {o : Offer}
    (hn : ∀ c, g.container? u = some c → ∀ h ∈ c.triggers, ∀ i, g.instance? h = some i →
      (i.proto.events.meets o.events && i.isIdle) = false) : g.offer run u o = (none, g) := by
  have ht : g.triggerFor u o = (none, g) := by
    unfold triggerFor
    split
    · rfl
    · rename_i c hc
      rw [scan_none (hn c hc), ite_self]
  rw [offer, ht]

theorem offer_stirs (u : Uid) (o : Offer) : Stirs run g (g.offer run u o).2 := by
  unfold offer
  have ht : Stirs run g (g.triggerFor u o).2 := (triggerFor_looks u o).stirs
  split
  · rename_i g' he
    rw [he] at ht
    exact ht
  · rename_i h g' he
    rw [he] at ht
    obtain ⟨i, hi, hidle⟩ := triggerFor_some he
    exact ht.tail (.fire o.bindings hi hidle)

theorem offerUntilFired_stirs (able : Game → Uid → Bool) (o : Offer) (us : List Uid) :
    Stirs run g (offerUntilFired run able o us g).2 := by
  induction us generalizing g with
  | nil => exact .refl
  | cons u us ih =>
    unfold offerUntilFired
    split
    · have ho : Stirs run g (g.offer run u o).2 := offer_stirs u o
      split
      · rename_i he
        rw [he] at ho
        exact ho
      · rename_i he
        rw [he] at ho
        exact ho.trans ih
    · exact ih

theorem offerUntilTaken_stirs (o : Offer) (us : List Uid) :
    Stirs run g (offerUntilTaken run o us g).2 := by
  induction us generalizing g with
  | nil => exact .refl
  | cons u us ih =>
    unfold offerUntilTaken
    have ho : Stirs run g (g.offer run u o).2 := offer_stirs u o
    simp only
    split
    · exact ho
    · exact ho.trans ih

theorem offerEach_stirs (able : Game → Uid → Bool) (o : Offer) (us : List Uid) :
    Stirs run g (offerEach run able o us g).2 := by
  induction us generalizing g with
  | nil => exact .refl
  | cons u us ih =>
    unfold offerEach
    split
    · exact (offer_stirs u o).trans ih
    · exact ih

end Game

end MudTrigger
