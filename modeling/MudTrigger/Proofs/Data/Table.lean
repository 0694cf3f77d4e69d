import MudTrigger.Data.Table
import Mathlib.Data.List.Nodup
import Mathlib.Order.Defs.Unbundled

/-!
# Tables in the order of their keys

A table whose keys are decreasing as it keeps them has each key once (`Table.Ordered`). Setting a key and
erasing one keep that, and in such a table the entries are what the keys are bound to
(`Table.Ordered.mem_entries`).
-/

set_option autoImplicit false

namespace MudTrigger

namespace Table

variable {κ α : Type} [LT κ] {t : Table κ α} {k : κ} {a : α}

/-- The keys are decreasing in the order in which the entries are kept. -/
def Ordered (t : Table κ α) : Prop := t.latest.Pairwise fun e e' => e'.1 < e.1

theorem ordered_empty : (∅ : Table κ α).Ordered := .nil

theorem Ordered.increasing (h : t.Ordered) : t.entries.Pairwise fun e e' => e.1 < e'.1 :=
  List.pairwise_reverse.2 h

section

variable [Std.Irrefl (α := κ) (· < ·)]

theorem Ordered.nodup (h : t.Ordered) : (t.latest.map (·.1)).Nodup := by
  refine List.pairwise_map.2 (h.imp fun {e e'} hlt he => ?_)
  rw [he] at hlt
  exact irrefl_of (· < ·) _ hlt

/-- In an ordered table an entry is what its key is bound to. -/
theorem Ordered.mem_entries [DecidableEq κ] (h : t.Ordered) :
    (k, a) ∈ t.entries ↔ t.get? k = some a := by
  rw [Table.mem_entries, get?, Option.map_eq_some_iff]
  constructor
  · intro hm
    obtain ⟨e, he⟩ : ∃ e, t.latest.find? (·.1 = k) = some e :=
      Option.isSome_iff_exists.1 (List.find?_isSome.2 ⟨_, hm, by simp⟩)
    have hk : e.1 = k := by simpa using List.find?_some he
    obtain rfl := List.inj_on_of_nodup_map h.nodup (List.mem_of_find?_eq_some he) hm hk
    exact ⟨_, he, rfl⟩
  · rintro ⟨e, he, rfl⟩
    obtain rfl : e.1 = k := by simpa using List.find?_some he
    exact List.mem_of_find?_eq_some he

end

section

variable [DecidableEq κ]

omit [LT κ] in
theorem entries_erase (t : Table κ α) (k : κ) :
    (t.erase k).entries = t.entries.filter (·.1 ≠ k) := List.filter_reverse.symm

theorem Ordered.erase (h : t.Ordered) (k : κ) : (t.erase k).Ordered := h.filter _

variable [DecidableLT κ]

theorem mem_setEntry {es : List (κ × α)} {e : κ × α} (h : e ∈ setEntry k a es) :
    e = (k, a) ∨ e ∈ es := by
  induction es with
  | nil => exact .inl (List.mem_singleton.1 h)
  | cons e' es ih =>
    unfold setEntry at h
    split at h
    · exact (List.mem_cons.1 h).imp_right (List.mem_cons_of_mem e')
    · split at h
      · exact List.mem_cons.1 h
      · rcases List.mem_cons.1 h with rfl | h
        · exact .inr List.mem_cons_self
        · exact (ih h).imp_right (List.mem_cons_of_mem e')

theorem Ordered.set [IsTrans κ (· < ·)] [Std.Trichotomous (α := κ) (· < ·)] (h : t.Ordered) (k : κ)
    (a : α) : (t.set k a).Ordered := by
  show (setEntry k a t.latest).Pairwise _
  unfold Ordered at h
  generalize t.latest = es at h ⊢
  induction h with
  | nil => exact List.pairwise_singleton _ _
  | @cons e es hbelow hes ih =>
    unfold setEntry
    split
    · rename_i heq
      exact .cons (heq ▸ hbelow) hes
    · rename_i hne
      split
      · rename_i hlt
        refine .cons (fun e' he' => ?_) (.cons hbelow hes)
        rcases List.mem_cons.1 he' with rfl | he'
        · exact hlt
        · exact trans_of (· < ·) (hbelow e' he') hlt
      · rename_i hge
        refine .cons (fun e' he' => ?_) ih
        rcases mem_setEntry he' with rfl | he'
        · exact ((trichotomous_of (· < ·) e.1 k).resolve_left hge).resolve_left hne
        · exact hbelow e' he'

end

end Table

end MudTrigger
