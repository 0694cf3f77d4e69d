import MudTrigger.Proofs.Data.Table
import MudTrigger.Proofs.Text.Encoding
import MudTrigger.Proofs.Variables.Global

/-!
# A table of variables holds what was written last

A `VariablesOp` is something done to a table of variables. What a sequence of them leaves is told by the
sequence alone: the value last written under any spelling of a name and not removed since
(`LastWritten`), under the spelling of the variable last inserted or of the first time it was set since
there was none (`Spelled`). A table has this and nothing else, in the order of the folded names
(`variables_answer`).
-/

set_option autoImplicit false

namespace MudTrigger

/-- Something done to a table of variables. -/
inductive VariablesOp where
  | set (name value : String)
  | insert (v : Variable)
  | take (name : String)
  | remove (name : String)
  | clear
  deriving DecidableEq

namespace VariablesOp

/-- The value that is written under a spelling of `name`. -/
def written? (name : String) : VariablesOp → Option String
  | set other value => if Text.sameLetters other name then some value else none
  | insert v => if Text.sameLetters v.name name then some v.value else none
  | _ => none

/-- The spelling of `name` that an inserted variable brings along. -/
def inserted? (name : String) : VariablesOp → Option String
  | insert v => if Text.sameLetters v.name name then some v.name else none
  | _ => none

/-- The spelling under which `name` is set. -/
def setAs? (name : String) : VariablesOp → Option String
  | set other _ => if Text.sameLetters other name then some other else none
  | _ => none

/-- Afterwards there is no variable with the name. -/
def removes (name : String) : VariablesOp → Bool
  | take other => Text.sameLetters other name
  | remove other => Text.sameLetters other name
  | clear => true
  | _ => false

/-- An operation of the sequence fits what came before it, and no later one spoils it. -/
def Stands (fits : List VariablesOp → VariablesOp → Prop) (spoils : VariablesOp → Prop)
    (ops : List VariablesOp) : Prop :=
  ∃ before op after, ops = before ++ op :: after ∧ fits before op ∧ ∀ o ∈ after, ¬ spoils o

/-- The value was written last under a spelling of the name, and not removed since. -/
def LastWritten (ops : List VariablesOp) (name value : String) : Prop :=
  Stands (fun _ op => op.written? name = some value)
    (fun o => (o.written? name).isSome ∨ o.removes name) ops

/-- The spelling is that of the variable last inserted, or of the first time the name was set since
there was no value under it; and the variable was not removed since. -/
def Spelled (ops : List VariablesOp) (name spelling : String) : Prop :=
  Stands (fun before op => op.inserted? name = some spelling ∨
      op.setAs? name = some spelling ∧ ¬ ∃ value, LastWritten before name value)
    (fun o => (o.inserted? name).isSome ∨ o.removes name) ops

variable {fits : List VariablesOp → VariablesOp → Prop} {spoils : VariablesOp → Prop}
  {ops : List VariablesOp} {op : VariablesOp} {name value spelling : String}

theorem not_stands_nil : ¬ Stands fits spoils [] := by
  rintro ⟨before, op, after, he, -⟩
  exact absurd he.symm (by simp)

/-- The last operation fits, or one before it that the last does not spoil. -/
theorem stands_append :
    Stands fits spoils (ops ++ [op]) ↔ fits ops op ∨ ¬ spoils op ∧ Stands fits spoils ops := by
  constructor
  · rintro ⟨before, o, after, he, hfits, hafter⟩
    cases after using List.reverseRecOn with
    | nil =>
      obtain ⟨rfl, ho⟩ := List.append_inj' he rfl
      cases ho
      exact .inl hfits
    | append_singleton after last =>
      rw [← List.cons_append, ← List.append_assoc] at he
      obtain ⟨rfl, ho⟩ := List.append_inj' he rfl
      cases ho
      exact .inr ⟨hafter _ (by simp), before, o, after, rfl, hfits,
        fun x hx => hafter x (by simp [hx])⟩
  · rintro (hfits | ⟨hop, before, o, after, rfl, hfits, hafter⟩)
    · exact ⟨ops, op, [], rfl, hfits, nofun⟩
    · refine ⟨before, o, after ++ [op], by simp, hfits, fun x hx => ?_⟩
      rcases List.mem_append.1 hx with hx | hx
      · exact hafter x hx
      · exact List.mem_singleton.1 hx ▸ hop

theorem none_of_removes (h : op.removes name = true) :
    op.written? name = none ∧ op.inserted? name = none ∧ op.setAs? name = none := by
  cases op with
  | set | insert => cases h
  | take | remove | clear => exact ⟨rfl, rfl, rfl⟩

theorem setAs?_of_inserted? (h : op.inserted? name = some spelling) : op.setAs? name = none := by
  cases op with
  | set | take | remove | clear => cases h
  | insert => rfl

end VariablesOp

namespace Variables

variable {vs : Variables} {v : Variable} {name other : String}

/-! ## What one operation does -/

theorem sameLetters_iff : Text.sameLetters name other = true ↔ Text.fold name = Text.fold other := by
  rw [Text.sameLetters, Chars.sameLetters, beq_iff_eq, Text.fold, Text.fold, String.ofList_inj]

/-- The table after an operation. -/
def perform (vs : Variables) : VariablesOp → Variables
  | .set name value => vs.set name value
  | .insert v => vs.insert v
  | .take name => (vs.take name).2
  | .remove name => (vs.remove name).2
  | .clear => ∅

/-- The spelling under which a variable is kept. -/
def spelling? (vs : Variables) (name : String) : Option String := (vs.find? name).map (·.name)

theorem find?_set (vs : Variables) (name value other : String) :
    (vs.set name value).find? other =
      if Text.fold other = Text.fold name then some ⟨(vs.spelling? name).getD name, value⟩
      else vs.find? other := by
  unfold set spelling?
  cases vs.find? name with
  | some v => exact Table.get?_set _ _ _ _
  | none => exact find?_insert vs _ other

theorem find?_perform (vs : Variables) (op : VariablesOp) (name : String) :
    (vs.perform op).find? name = match op with
      | .set other value =>
        if Text.sameLetters other name then some ⟨(vs.spelling? name).getD other, value⟩
        else vs.find? name
      | .insert v => if Text.sameLetters v.name name then some v else vs.find? name
      | .take other | .remove other =>
        if Text.sameLetters other name then none else vs.find? name
      | .clear => none := by
  have hsame : ∀ other, Text.sameLetters other name = true ↔ Text.fold name = Text.fold other :=
    fun other => sameLetters_iff.trans eq_comm
  cases op with
  | set other value =>
    simp only [perform, find?_set, hsame]
    refine if_ctx_congr Iff.rfl (fun h => ?_) fun _ => rfl
    rw [spelling?, spelling?, find?_congr vs h]
  | insert v => simp only [perform, find?_insert, hsame]
  | take other | remove other => simp only [perform, take, remove, find?_erase, hsame]
  | clear => rfl

theorem get?_perform (vs : Variables) (op : VariablesOp) (name : String) :
    (vs.perform op).get? name =
      if op.removes name then none else (op.written? name).or (vs.get? name) := by
  rw [get?, find?_perform]
  cases op with
  | set other value =>
    cases h : Text.sameLetters other name <;>
      simp [VariablesOp.removes, VariablesOp.written?, h, get?]
  | insert v =>
    cases h : Text.sameLetters v.name name <;>
      simp [VariablesOp.removes, VariablesOp.written?, h, get?]
  | take other | remove other =>
    cases h : Text.sameLetters other name <;>
      simp [VariablesOp.removes, VariablesOp.written?, h, get?]
  | clear => rfl

theorem spelling?_perform (vs : Variables) (op : VariablesOp) (name : String) :
    (vs.perform op).spelling? name =
      if op.removes name then none
      else (op.inserted? name).or ((vs.spelling? name).or (op.setAs? name)) := by
  rw [spelling?, find?_perform]
  cases op with
  | set other value =>
    cases h : Text.sameLetters other name with
    | true =>
      cases hs : vs.spelling? name <;>
        simp [VariablesOp.removes, VariablesOp.inserted?, VariablesOp.setAs?, h]
    | false =>
      simp [VariablesOp.removes, VariablesOp.inserted?, VariablesOp.setAs?, h, spelling?]
  | insert v =>
    cases h : Text.sameLetters v.name name <;>
      simp [VariablesOp.removes, VariablesOp.inserted?, VariablesOp.setAs?, h, spelling?]
  | take other | remove other =>
    cases h : Text.sameLetters other name <;>
      simp [VariablesOp.removes, VariablesOp.inserted?, VariablesOp.setAs?, h, spelling?]
  | clear => rfl

/-- The table that a sequence of operations leaves. -/
def after (ops : List VariablesOp) : Variables := ops.foldl perform ∅

variable {ops : List VariablesOp} {op : VariablesOp} {value spelling : String}

theorem after_append : after (ops ++ [op]) = (after ops).perform op := by
  rw [after, List.foldl_append]
  rfl

/-! ## What a sequence of operations leaves -/

theorem get?_after : (after ops).get? name = some value ↔ VariablesOp.LastWritten ops name value := by
  induction ops using List.reverseRecOn with
  | nil => exact iff_of_false nofun VariablesOp.not_stands_nil
  | append_singleton ops op ih =>
    rw [after_append, get?_perform, VariablesOp.LastWritten, VariablesOp.stands_append,
      ← VariablesOp.LastWritten, ← ih]
    cases hr : op.removes name with
    | true => simp [VariablesOp.none_of_removes hr]
    | false => cases hw : op.written? name <;> simp

theorem present_after : (∃ value, VariablesOp.LastWritten ops name value) ↔
    ((after ops).spelling? name).isSome = true := by
  simp only [← get?_after, ← Option.isSome_iff_exists, get?, spelling?, Option.isSome_map]

theorem spelling?_after :
    (after ops).spelling? name = some spelling ↔ VariablesOp.Spelled ops name spelling := by
  induction ops using List.reverseRecOn with
  | nil => exact iff_of_false nofun VariablesOp.not_stands_nil
  | append_singleton ops op ih =>
    rw [after_append, spelling?_perform, VariablesOp.Spelled, VariablesOp.stands_append,
      ← VariablesOp.Spelled, ← ih, present_after]
    cases hr : op.removes name with
    | true => simp [VariablesOp.none_of_removes hr]
    | false =>
      cases hi : op.inserted? name with
      | some s => simp [VariablesOp.setAs?_of_inserted? hi]
      | none => cases (after ops).spelling? name <;> simp

/-! ## The list of the variables -/

theorem keyed_after (ops : List VariablesOp) : (after ops).Keyed := by
  induction ops using List.reverseRecOn with
  | nil => exact keyed_empty
  | append_singleton ops op ih =>
    rw [after_append]
    cases op with
    | set name value => exact ih.set name value
    | insert v => exact ih.insert v
    | take name | remove name => exact ih.erase name
    | clear => exact keyed_empty

theorem ordered_set (h : vs.table.Ordered) (name value : String) :
    (vs.set name value).table.Ordered := by
  unfold set
  split
  · exact h.set _ _
  · exact h.set _ _

theorem ordered_after (ops : List VariablesOp) : (after ops).table.Ordered := by
  induction ops using List.reverseRecOn with
  | nil => exact Table.ordered_empty
  | append_singleton ops op ih =>
    rw [after_append]
    cases op with
    | set name value => exact ordered_set ih name value
    | insert v => exact ih.set _ v
    | take name | remove name => exact ih.erase _
    | clear => exact Table.ordered_empty

section

variable (hk : vs.Keyed) (ho : vs.table.Ordered)
include hk ho

/-- In the table a variable stands under its own folded name. -/
theorem fold_of_mem_entries {e : String × Variable} (he : e ∈ vs.table.entries) :
    Text.fold e.2.name = e.1 := hk e.1 e.2 (ho.mem_entries.1 he)

theorem mem_toList : v ∈ vs.toList ↔ vs.find? v.name = some v := by
  rw [toList, Table.values, List.mem_map]
  constructor
  · rintro ⟨e, he, rfl⟩
    rw [find?, fold_of_mem_entries hk ho he]
    exact ho.mem_entries.1 he
  · exact fun h => ⟨(Text.fold v.name, v), ho.mem_entries.2 h, rfl⟩

theorem mem_toList_iff :
    v ∈ vs.toList ↔ vs.get? v.name = some v.value ∧ vs.spelling? v.name = some v.name := by
  rw [mem_toList hk ho, get?, spelling?]
  cases vs.find? v.name with
  | none => simp
  | some w =>
    obtain ⟨name, value⟩ := v
    obtain ⟨name', value'⟩ := w
    simp [and_comm]

/-- A variable is found under any spelling of its name. -/
theorem find?_eq_some :
    vs.find? name = some v ↔ v ∈ vs.toList ∧ Text.sameLetters v.name name = true := by
  rw [mem_toList hk ho, sameLetters_iff]
  constructor
  · intro hv
    have hname : Text.fold v.name = Text.fold name := hk.fold_name hv
    exact ⟨(find?_congr vs hname).trans hv, hname⟩
  · rintro ⟨hv, hname⟩
    exact (find?_congr vs hname).symm.trans hv

theorem toList_increasing :
    vs.toList.Pairwise fun v w => Text.fold v.name < Text.fold w.name := by
  rw [toList, Table.values, List.pairwise_map]
  refine ho.increasing.imp_of_mem fun {e e'} he he' hlt => ?_
  rwa [fold_of_mem_entries hk ho he, fold_of_mem_entries hk ho he']

theorem toList_erase (name : String) :
    (vs.erase name).toList = vs.toList.filter fun v => !Text.sameLetters v.name name := by
  rw [toList, toList, Table.values, Table.values, erase, Table.entries_erase, List.filter_map]
  refine congrArg _ (List.filter_congr fun e he => ?_)
  rw [Bool.eq_iff_iff, decide_eq_true_iff, Function.comp_apply, Bool.not_eq_true', ← Bool.not_eq_true,
    sameLetters_iff, fold_of_mem_entries hk ho he]

end

end Variables

open VariablesOp in
/-- After any operations a table has no two variables whose names differ in the case of their letters
only, lists its variables in the order of the folded names, and holds the values last written and not
removed since. What is taken out under any spelling is the variable of that name. -/
theorem variables_answer (ops : List VariablesOp) :
    let vs := Variables.after ops
    (vs.toList.Pairwise fun v w => Text.sameLetters v.name w.name = false) ∧
    (vs.toList.Pairwise fun v w => Text.fold v.name < Text.fold w.name ∧
      Text.bytes (Text.fold v.name) < Text.bytes (Text.fold w.name)) ∧
    (∀ name value, vs.get? name = some value ↔ LastWritten ops name value) ∧
    (∀ name, vs.contains name = true ↔ ∃ value, LastWritten ops name value) ∧
    (∀ v, v ∈ vs.toList ↔ LastWritten ops v.name v.value ∧ Spelled ops v.name v.name) ∧
    ∀ name,
      (∀ v, (vs.take name).1 = some v ↔ v ∈ vs.toList ∧ Text.sameLetters v.name name = true) ∧
      (vs.take name).2.toList = vs.toList.filter fun v => !Text.sameLetters v.name name := by
  intro vs
  have hk : vs.Keyed := Variables.keyed_after ops
  have ho : vs.table.Ordered := Variables.ordered_after ops
  have hincreasing := Variables.toList_increasing hk ho
  have hdistinct : vs.toList.Pairwise fun v w => Text.sameLetters v.name w.name = false := by
    refine hincreasing.imp fun {v w} hlt => Bool.eq_false_iff.2 fun hsame => ?_
    rw [Variables.sameLetters_iff.1 hsame] at hlt
    exact String.lt_irrefl _ hlt
  have hbytes : vs.toList.Pairwise fun v w => Text.fold v.name < Text.fold w.name ∧
      Text.bytes (Text.fold v.name) < Text.bytes (Text.fold w.name) := by
    refine hincreasing.imp fun {v w} hlt => ⟨hlt, ?_⟩
    rw [Text.bytes_eq, Text.bytes_eq, Chars.bytes_lt]
    exact hlt
  refine ⟨hdistinct, hbytes, fun name value => Variables.get?_after, fun name => ?_, fun v => ?_,
    fun name => ⟨fun v => Variables.find?_eq_some hk ho, Variables.toList_erase hk ho name⟩⟩
  · rw [Variables.present_after, Variables.spelling?, Option.isSome_map, Variables.contains]
  · rw [Variables.mem_toList_iff hk ho, Variables.get?_after, Variables.spelling?_after]

end MudTrigger
