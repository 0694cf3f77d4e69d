import MudTrigger.Trigger.Registry
import MudTrigger.Proofs.File.Cut

/-!
# A trigger file is loaded as a whole or not at all

`Registry.loadInPlace` loads a file into the registry that is there, and leaves it as `loadText` says
(`run_loadInPlace`). The file's vnums are different from each other (`parse_nodup`) and new to the
registry, so all of its prototypes are found there afterwards, beside those of before
(`get?_registerAll`). No file is too long for the fuel (`recordsWithin_enough`).
-/

set_option autoImplicit false

namespace MudTrigger

namespace TriggerFile

/-- A record takes a line or more after its first one. -/
theorem length_record {vnum : Vnum} {lines rest : List String} {p : Prototype}
    (h : record vnum lines = .ok (p, rest)) : rest.length < lines.length := by
  obtain ⟨-, name, header, afterHeader, arg, afterArg, body, hname, harg, hbody⟩ := record_ok h
  have hlength := length_tildeText? hname
  rw [List.length_cons] at hlength
  have hlength' := length_tildeText? harg
  have hlength'' := length_tildeText? hbody
  omega

/-- One unit of fuel for every line, and one more for the end, is enough. -/
theorem recordsWithin_enough {total fuel fuel' : Nat} {read : List Prototype}
    {lines : List String} (h : lines.length < fuel) (h' : lines.length < fuel') :
    recordsWithin total fuel read lines = recordsWithin total fuel' read lines := by
  induction fuel generalizing fuel' read lines with
  | zero => exact absurd h (Nat.not_lt_zero _)
  | succ fuel ih =>
    obtain ⟨fuel', rfl⟩ := Nat.exists_eq_succ_of_ne_zero (Nat.ne_of_gt (Nat.zero_lt_of_lt h'))
    rw [recordsWithin, recordsWithin]
    have hsub := (List.dropWhile_sublist (l := lines) Text.isBlank).length_le
    cases hlines : lines.dropWhile Text.isBlank with
    | nil => rfl
    | cons line rest =>
      rw [hlines, List.length_cons] at hsub
      dsimp only
      split
      · rfl
      · split
        · rfl
        · rename_i vnum _
          split
          · rfl
          · cases hrecord : record vnum rest with
            | error e => rfl
            | ok result =>
              have hlength := length_record hrecord
              exact ih (by omega) (by omega)

/-- The records of a file have different vnums. -/
theorem recordsWithin_nodup {total fuel : Nat} {read ps : List Prototype} {lines : List String}
    (hread : (read.map (·.vnum)).Nodup) (h : recordsWithin total fuel read lines = .ok ps) :
    (ps.map (·.vnum)).Nodup := by
  induction fuel generalizing read lines with
  | zero => cases h
  | succ fuel ih =>
    rw [recordsWithin] at h
    split at h
    · cases h
    · dsimp only at h
      split at h
      · cases h
        exact hread
      · split at h
        · cases h
        · rename_i vnum _
          split at h
          · cases h
          · rename_i hnew
            split at h
            · cases h
            · rename_i p rest hrecord
              refine ih ?_ h
              rw [List.map_append, List.map_singleton, (record_ok hrecord).1]
              refine List.nodup_append.2 ⟨hread, by simp, ?_⟩
              rintro v hv _ hmem rfl
              obtain ⟨q, hq, he⟩ := List.mem_map.1 hv
              rw [List.mem_singleton] at hmem
              exact hnew (List.any_eq_true.2 ⟨q, hq, decide_eq_true (he.trans hmem)⟩)

theorem parse_nodup {text : String} {ps : List Prototype} (h : parse text = .ok ps) :
    (ps.map (·.vnum)).Nodup := by
  have hnil : (([] : List Prototype).map (·.vnum)).Nodup := List.nodup_nil
  exact recordsWithin_nodup hnil h

end TriggerFile

namespace Registry

/-- Loads a file into the registry that is there, which is not touched before the file is known to be
good. -/
def loadInPlace (text : String) : ExceptT LoadError (StateM Registry) Nat := do
  let ps ← ExceptT.mk (pure (TriggerFile.parse text))
  let r ← get
  match ps.find? fun p => (r.get? p.vnum).isSome with
  | some p => throw (.duplicate p.vnum)
  | none =>
    ps.forM fun p => modify (·.register p)
    return ps.length

section

variable {α β : Type} {x : ExceptT LoadError (StateM Registry) α} {a : α} {r s : Registry}

theorem run_bind (h : x.run.run r = (.ok a, s)) (f : α → ExceptT LoadError (StateM Registry) β) :
    (x >>= f).run.run r = (f a).run.run s := by
  rw [ExceptT.run_bind, StateT.run_bind, h]
  rfl

end

theorem run_registerAll (ps : List Prototype) (r : Registry) :
    (ps.forM (fun p => modify (·.register p)) : ExceptT LoadError (StateM Registry) Unit).run.run r =
      (.ok (), ps.foldl register r) := by
  induction ps generalizing r with
  | nil => rfl
  | cons p ps ih =>
    exact ih (r.register p)

/-- What is answered, and the registry that is left. -/
theorem run_loadInPlace (text : String) (r : Registry) :
    (loadInPlace text).run.run r =
      match r.loadText text with
      | .error e => (.error e, r)
      | .ok (n, r') => (.ok n, r') := by
  rw [loadInPlace, loadText]
  cases TriggerFile.parse text with
  | error e => rfl
  | ok ps =>
    refine (run_bind (a := ps) (s := r) rfl _).trans ((run_bind (a := r) (s := r) rfl _).trans ?_)
    dsimp only
    cases ps.find? fun p => (r.get? p.vnum).isSome with
    | some p => rfl
    | none => exact run_bind (run_registerAll ps r) _

/-- The registry with some more prototypes has the old and the new ones. -/
theorem get?_registerAll {ps : List Prototype} (hnodup : (ps.map (·.vnum)).Nodup) (r : Registry) :
    (∀ p ∈ ps, (ps.foldl register r).get? p.vnum = some p) ∧
      ∀ v, v ∉ ps.map (·.vnum) → (ps.foldl register r).get? v = r.get? v := by
  induction ps generalizing r with
  | nil => exact ⟨by simp, fun v _ => rfl⟩
  | cons p ps ih =>
    rw [List.map_cons, List.nodup_cons] at hnodup
    obtain ⟨hnew, hold⟩ := ih hnodup.2 (r.register p)
    refine ⟨List.forall_mem_cons.2 ⟨?_, hnew⟩, fun v hv => ?_⟩
    · rw [List.foldl_cons, hold _ hnodup.1]
      exact Table.get?_set_self _ _ _
    · obtain ⟨hne, hv⟩ := not_or.1 (mt List.mem_cons.2 hv)
      rw [List.foldl_cons, hold _ hv]
      exact Table.get?_set_ne _ hne _

theorem size_registerAll {ps : List Prototype} (hnodup : (ps.map (·.vnum)).Nodup) {r : Registry}
    (hr : ∀ p ∈ ps, r.get? p.vnum = none) : (ps.foldl register r).size = r.size + ps.length := by
  induction ps generalizing r with
  | nil => rfl
  | cons p ps ih =>
    rw [List.map_cons, List.nodup_cons] at hnodup
    obtain ⟨hp, hr⟩ := List.forall_mem_cons.1 hr
    have hsize : (r.register p).size = r.size + 1 := Table.size_set hp _
    rw [List.foldl_cons, ih hnodup.2, hsize, List.length_cons]
    · omega
    · intro q hq
      have hne : q.vnum ≠ p.vnum := fun he => hnodup.1 (List.mem_map.2 ⟨q, hq, he⟩)
      exact (Table.get?_set_ne _ hne _).trans (hr q hq)

/-- A file that is loaded is new to the registry. -/
theorem loadText_ok {r r' : Registry} {text : String} {n : Nat}
    (h : r.loadText text = .ok (n, r')) :
    ∃ ps, TriggerFile.parse text = .ok ps ∧ (∀ p ∈ ps, r.get? p.vnum = none) ∧ ps.length = n ∧
      ps.foldl register r = r' := by
  unfold loadText at h
  split at h
  · cases h
  · rename_i ps hparse
    split at h
    · cases h
    · rename_i hfind
      cases h
      refine ⟨ps, hparse, fun p hp => ?_, rfl, rfl⟩
      simpa using List.find?_eq_none.1 hfind p hp

/-- Loading in place leaves the registry as it is when it fails. When it succeeds, the registry has
the prototypes of the file, which have vnums that are different from each other and that it did not
have before, and all others as before. A file that is cut off before its `$` is not loaded. -/
theorem load_whole (r : Registry) (text : String) :
    ((loadInPlace text).run.run r =
      match r.loadText text with
      | .error e => (.error e, r)
      | .ok (n, r') => (.ok n, r')) ∧
    (∀ n r', r.loadText text = .ok (n, r') → ∃ ps : List Prototype,
      TriggerFile.parse text = .ok ps ∧ ps.length = n ∧ (ps.map (·.vnum)).Nodup ∧
      (∀ p ∈ ps, r.get? p.vnum = none ∧ r'.get? p.vnum = some p) ∧
      (∀ v, v ∉ ps.map (·.vnum) → r'.get? v = r.get? v) ∧ r'.size = r.size + n) ∧
    ∀ file : TriggerFile.Layout, text.toList <+: file.text.toList →
      text.toList.length ≤ file.opening.toList.length → ∃ e, r.loadText text = .error e := by
  refine ⟨run_loadInPlace text r, fun n r' h => ?_, fun file htext hlength => ?_⟩
  · obtain ⟨ps, hparse, hr, rfl, rfl⟩ := loadText_ok h
    have hnodup := TriggerFile.parse_nodup hparse
    obtain ⟨hnew, hold⟩ := get?_registerAll hnodup r
    exact ⟨ps, hparse, rfl, hnodup, fun p hp => ⟨hr p hp, hnew p hp⟩, hold,
      size_registerAll hnodup hr⟩
  · have hopening : file.opening.toList <+: file.text.toList := by
      rw [TriggerFile.Layout.text, String.append_assoc, String.toList_append]
      exact List.prefix_append _ _
    obtain ⟨e, he⟩ := TriggerFile.parse_cut file
      (List.prefix_of_prefix_length_le htext hopening hlength)
    exact ⟨e, by rw [loadText, he]⟩

/-- A registry with one prototype, which `tricky` leaves alone. -/
def shelf : Registry := register ∅ { vnum := 100, name := "old", kind := .room }

/-- What is left of `tricky` when it is cut off after the `~` inside a line. -/
def stump : String := "\n  \n#12\na hint\n$\n#12~\n0 dA -5\n#~\n$ \n#7\nsay ~"

theorem shelf_load :
    (∃ r', shelf.loadText TriggerFile.tricky.text = .ok (2, r') ∧ r'.size = 3 ∧
      r'.get? 100 = shelf.get? 100) ∧ ∃ e, shelf.loadText stump = .error e := by
  obtain ⟨-, hload, -⟩ := load_whole shelf TriggerFile.tricky.text
  obtain ⟨-, -, hcut⟩ := load_whole shelf stump
  refine ⟨?_, hcut TriggerFile.tricky (by decide +kernel) (by decide +kernel)⟩
  have hcount : (shelf.loadText TriggerFile.tricky.text).toOption.map (·.1) = some 2 := by
    decide +kernel
  cases h : shelf.loadText TriggerFile.tricky.text with
  | error e =>
    rw [h] at hcount
    cases hcount
  | ok loaded =>
    obtain ⟨n, r'⟩ := loaded
    rw [h] at hcount
    cases hcount
    obtain ⟨ps, -, -, -, hps, hold, hsize⟩ := hload 2 r' h
    refine ⟨r', rfl, hsize, hold 100 fun hm => ?_⟩
    obtain ⟨p, hp, hv⟩ := List.mem_map.1 hm
    have hnone := (hps p hp).1
    rw [hv] at hnone
    cases hnone

end Registry

end MudTrigger
