import MudTrigger.Proofs.File.RoundTrip

/-!
# A trigger file that is cut off

A file that ends before its `$` is refused (`parse_cut`), wherever it ends. A text that is cut within
its last line may end early there, at a `~` inside the line, but then no line is left after it
(`tildeText?_cut`). A record that is cut may be read, then, with a shorter script, or a shorter vnum,
but is the last thing in the file (`record_cut`).
-/

set_option autoImplicit false

namespace MudTrigger

namespace TriggerFile

/-! ## Prefixes -/

/-- A text cut off from `a ++ b` ends in `a` or in `b`. -/
theorem prefix_append_cases {s a b : String} (h : s.toList <+: (a ++ b).toList) :
    s.toList <+: a.toList ∨ ∃ t, s = a ++ t ∧ t.toList <+: b.toList := by
  rw [String.toList_append] at h
  rcases List.prefix_or_prefix_of_prefix h (List.prefix_append a.toList b.toList) with hs | ⟨cs, hcs⟩
  · exact .inl hs
  · refine .inr ⟨String.ofList cs, ?_, ?_⟩
    · rw [← String.toList_inj, String.toList_append, String.toList_ofList, hcs]
    · rw [← hcs] at h
      rw [String.toList_ofList]
      exact (List.prefix_append_right_inj _).1 h

/-- A text cut off from `a ++ (b ++ c)` ends before `c` or in it. -/
theorem prefix_mark_cases {s a b c : String} (h : s.toList <+: (a ++ (b ++ c)).toList) :
    s.toList <+: (a ++ b).toList ∨ ∃ t, s = a ++ (b ++ t) ∧ t.toList <+: c.toList := by
  rw [← String.append_assoc] at h
  refine (prefix_append_cases h).imp_right ?_
  rintro ⟨t, rfl, ht⟩
  exact ⟨t, String.append_assoc, ht⟩

/-- What is cut off within a line is no more than a part of that line. -/
theorem lines_cut {s l : String} (hl : '\n' ∉ l.toList) (h : s.toList <+: (l ++ "\n").toList) :
    Text.lines s = [] ∨ ∃ l', Text.lines s = [l'] ∧ l'.toList <+: l.toList := by
  rcases prefix_append_cases h with hs | ⟨t, rfl, ht⟩
  · rw [Text.lines, Chars.lines_of_not_mem fun hm => hl (hs.subset hm)]
    split
    · exact .inl rfl
    · exact .inr ⟨s, by simp, hs⟩
  · rcases List.prefix_cons_iff.1 ht with he | ⟨cs, he, hcs⟩
    · rw [String.toList_eq_nil_iff.1 he, String.append_empty, Text.lines, Chars.lines_of_not_mem hl]
      split
      · exact .inl rfl
      · exact .inr ⟨l, by simp, List.prefix_rfl⟩
    · obtain ⟨l', hlines, hl'⟩ := Text.lines_append hl ""
      have ht : t = "\n" ++ "" := by
        rw [← String.toList_inj, he, List.prefix_nil.1 hcs]
        rfl
      refine .inr ⟨l', by rw [ht, hlines]; rfl, ?_⟩
      rcases hl' with rfl | rfl
      · exact List.prefix_rfl
      · rw [String.toList_append]
        exact List.prefix_append _ _

theorem length_lines_cut {s l : String} (hl : '\n' ∉ l.toList)
    (h : s.toList <+: (l ++ "\n").toList) : (Text.lines s).length ≤ 1 := by
  rcases lines_cut hl h with he | ⟨l', he, -⟩
  · simp [he]
  · simp [he]

/-! ## Texts -/

/-- A text takes a line or more. -/
theorem length_tildeText? {ls rest : List String} {s : String}
    (h : tildeText? ls = some (s, rest)) : rest.length < ls.length := by
  induction ls generalizing s with
  | nil => cases h
  | cons l ls ih =>
    rw [tildeText?] at h
    split at h
    · cases h
      exact Nat.lt_succ_self _
    · obtain ⟨p, hp, he⟩ := Option.map_eq_some_iff.1 h
      cases he
      exact Nat.lt_succ_of_lt (ih hp)

section

variable {s t : String} {rest : List String}

theorem tildeText?_line {l : String} (hl : '\n' ∉ l.toList) (h : s.toList <+: (l ++ "\n").toList)
    (hs : tildeText? (Text.lines s) = some (t, rest)) : rest = [] := by
  have hone := length_lines_cut hl h
  have hlt := length_tildeText? hs
  exact List.length_eq_zero_iff.1 (by omega)

/-- Nothing is left after a text that is cut off, if it ends at all. -/
theorem tildeText?_cut {ls : List String} (hls : ∀ l ∈ ls, GoesOn l) {last : String}
    (hlast : '\n' ∉ last.toList) (h : s.toList <+: (terminated ls ++ (last ++ "~\n")).toList)
    (hs : tildeText? (Text.lines s) = some (t, rest)) : rest = [] := by
  induction ls generalizing s t with
  | nil =>
    refine tildeText?_line (l := last ++ "~") ?_ (by simpa [terminated] using h) hs
    rw [String.toList_append, List.mem_append]
    exact not_or.2 ⟨hlast, by decide⟩
  | cons l ls ih =>
    obtain ⟨hl, hls⟩ := List.forall_mem_cons.1 hls
    rw [terminated, String.append_assoc, String.append_assoc] at h
    rcases prefix_mark_cases h with hcut | ⟨u, rfl, hu⟩
    · exact tildeText?_line hl.1 hcut hs
    · rw [tildeText?_goesOn hl] at hs
      obtain ⟨p, hp, he⟩ := Option.map_eq_some_iff.1 hs
      cases he
      exact ih hls hu hp

theorem RunsOn.cut {name : String} (h : RunsOn name) (hcut : s.toList <+: (name ++ "~\n").toList)
    (hs : tildeText? (Text.lines s) = some (t, rest)) : rest = [] := by
  obtain ⟨ls, last, rfl, hlast, hls⟩ := h.lines
  rw [String.append_assoc] at hcut
  exact tildeText?_cut hls hlast hcut hs

end

/-! ## Records -/

/-- What it takes to read a record. -/
theorem record_ok {vnum : Vnum} {lines rest : List String} {p : Prototype}
    (h : record vnum lines = .ok (p, rest)) :
    p.vnum = vnum ∧ ∃ name header afterHeader arg afterArg body,
      tildeText? lines = some (name, header :: afterHeader) ∧
      tildeText? afterHeader = some (arg, afterArg) ∧ tildeText? afterArg = some (body, rest) := by
  unfold record at h
  split at h
  · cases h
  · cases h
  · rename_i name header afterHeader hname
    split at h
    · cases h
    · split at h
      · cases h
      · rename_i arg afterArg harg
        split at h
        · cases h
        · rename_i body _ hbody
          cases h
          exact ⟨rfl, name, header, afterHeader, arg, afterArg, body, hname, harg, hbody⟩

/-- Nothing is left after a record that is cut off, if it can be read at all. -/
theorem record_cut (d : Draft) {s : String} {p : Prototype} {rest : List String}
    (h : s.toList <+: d.fields.toList) (hs : record d.vnum (Text.lines s) = .ok (p, rest)) :
    rest = [] := by
  obtain ⟨-, name, header, afterHeader, arg, afterArg, body, hname, harg, hbody⟩ := record_ok hs
  obtain ⟨_, hreads⟩ := d.name_runsOn.reads
  obtain ⟨_, hreads'⟩ := d.arg_runsOn.reads
  rcases prefix_mark_cases h with hcut | ⟨s₁, rfl, h₁⟩
  · cases d.name_runsOn.cut hcut hname
  rw [hreads] at hname
  have hlines : Text.lines s₁ = header :: afterHeader := congrArg Prod.snd (Option.some_inj.1 hname)
  rcases prefix_mark_cases h₁ with hcut | ⟨s₂, rfl, h₂⟩
  · have hone := length_lines_cut d.header_line.1 hcut
    have hlt := length_tildeText? harg
    rw [hlines, List.length_cons] at hone
    omega
  rw [Text.lines_append_of_trimEnd d.header_line.1 d.header_line.2] at hlines
  cases hlines
  rcases prefix_mark_cases h₂ with hcut | ⟨s₃, rfl, h₃⟩
  · cases d.arg_runsOn.cut hcut harg
    cases hbody
  rw [hreads'] at harg
  cases harg
  have hlast : '\n' ∉ "".toList := by decide
  exact tildeText?_cut d.body_goesOn hlast h₃ hbody

/-! ## Files -/

/-- Whatever was read before, no file ends with these lines. -/
def Endless (lines : List String) : Prop :=
  ∀ total fuel read ps, recordsWithin total fuel read lines ≠ .ok ps

theorem Endless.of_succ {lines : List String}
    (h : ∀ total fuel read ps, recordsWithin total (fuel + 1) read lines ≠ .ok ps) :
    Endless lines := fun total fuel read ps hok => by
  cases fuel with
  | zero => cases hok
  | succ fuel => exact h total fuel read ps hok

theorem endless_blank {lines : List String} (h : lines.dropWhile Text.isBlank = []) :
    Endless lines := .of_succ fun total fuel read ps hok => by
  rw [recordsWithin, h] at hok
  cases hok

/-- Lines of blanks that are cut off. -/
theorem dropWhile_gap_cut {gap : List String} (hgap : ∀ l ∈ gap, IsGap l) {s : String}
    (h : s.toList <+: (terminated gap).toList) : (Text.lines s).dropWhile Text.isBlank = [] := by
  induction gap generalizing s with
  | nil =>
    rw [String.toList_eq_nil_iff.1 (List.prefix_nil.1 h)]
    rfl
  | cons l ls ih =>
    obtain ⟨⟨hl, hblank⟩, hgap⟩ := List.forall_mem_cons.1 hgap
    rcases prefix_mark_cases h with hcut | ⟨t, rfl, ht⟩
    · rcases lines_cut hl hcut with he | ⟨l', he, hl'⟩
      · rw [he, List.dropWhile_nil]
      · rw [he, List.dropWhile_cons_of_pos (Text.isBlank_prefix hl' hblank), List.dropWhile_nil]
    · have hline : ∀ l' ∈ [l], IsGap l' := by simpa using ⟨hl, hblank⟩
      have hone := dropWhile_gap hline t
      rw [terminated, terminated, String.append_empty, String.append_assoc] at hone
      rw [hone, ih hgap ht]

/-- A first line of a record that is cut off. -/
theorem endless_vnumLine {v : Vnum} {gap : List String} (hgap : ∀ l ∈ gap, IsGap l) {s : String}
    (h : s.toList <+: ("#" ++ toString v ++ "\n").toList) :
    Endless (Text.lines (terminated gap ++ s)) := by
  have hsolid := solid_vnumLine v
  have hlines := dropWhile_gap hgap s
  rcases lines_cut (hsolid.not_mem rfl) h with he | ⟨l, he, hl⟩
  · rw [he, List.dropWhile_nil] at hlines
    exact endless_blank hlines
  by_cases hnil : l = ""
  · rw [he, hnil] at hlines
    exact endless_blank hlines
  -- No lines follow, so there is no record even if the part of the vnum is a vnum.
  have hpart : Chars.Solid l.toList :=
    ⟨mt String.toList_eq_nil_iff.1 hnil, fun c hc => hsolid.solid c (hl.subset hc)⟩
  refine .of_succ fun total fuel read ps hok => ?_
  rw [recordsWithin, hlines, he,
    List.dropWhile_cons_of_neg (Bool.eq_false_iff.1 (Text.isBlank_of_solid hpart))] at hok
  simp only [Text.trim_of_solid hpart, if_neg (vnumLine_ne hl)] at hok
  split at hok
  · cases hok
  · split at hok
    · cases hok
    · rw [record, tildeText?] at hok
      cases hok

/-- Records that are cut off. -/
theorem endless_records (ds : List Draft) {gap : List String} (hgap : ∀ l ∈ gap, IsGap l)
    {s : String} (h : s.toList <+: (recordsText ds ++ terminated gap).toList) :
    Endless (Text.lines s) := by
  induction ds generalizing s with
  | nil =>
    rw [recordsText, String.empty_append] at h
    exact endless_blank (dropWhile_gap_cut hgap h)
  | cons d ds ih =>
    rw [recordsText, String.append_assoc, d.append_text] at h
    rcases prefix_append_cases h with hcut | ⟨s₁, rfl, h₁⟩
    · exact endless_blank (dropWhile_gap_cut d.gap_blank hcut)
    rcases prefix_mark_cases h₁ with hcut | ⟨s₂, rfl, h₂⟩
    · exact endless_vnumLine d.gap_blank hcut
    refine .of_succ fun total fuel read ps hok => ?_
    rw [recordsWithin_vnumLine] at hok
    split at hok
    · cases hok
    rcases prefix_append_cases h₂ with hcut | ⟨s₃, rfl, h₃⟩
    · split at hok
      · cases hok
      · rename_i hrecord
        rw [record_cut d hcut hrecord] at hok
        exact endless_blank rfl _ _ _ _ hok
    · obtain ⟨name, hname⟩ := d.name_runsOn.reads
      obtain ⟨arg, harg⟩ := d.arg_runsOn.reads
      rw [record_fields d hname harg] at hok
      exact ih h₃ _ _ _ _ hok

/-- A file that is cut off before its `$` is refused. -/
theorem parse_cut (file : Layout) {front : String} (h : front.toList <+: file.opening.toList) :
    ∃ e, parse front = .error e := by
  cases hparse : parse front with
  | error e => exact ⟨e, rfl⟩
  | ok ps => exact absurd hparse (endless_records file.drafts file.gap_blank h _ _ _ _)

end TriggerFile

end MudTrigger
