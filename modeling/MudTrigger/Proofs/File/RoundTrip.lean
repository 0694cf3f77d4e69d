import MudTrigger.Proofs.File.Layout

/-!
# A trigger file is read as it was written

Each part of a record is read back with the lines after it left over: a text up to its `~`
(`Tidy.reads`, `tildeText?_terminated`), the first line and the header (`vnum?_text`,
`header?_header`), so a whole record (`record_fields`), and record after record the whole file
(`parse_layout`).
-/

set_option autoImplicit false

namespace MudTrigger

namespace TriggerFile

/-! ## Texts that end at a tilde -/

theorem beforeTilde?_append (s : String) : beforeTilde? (s ++ "~") = some s := by
  rw [beforeTilde?, String.toList_append, List.reverse_append]
  simp

theorem beforeTilde?_none {s : String} (h : s.toList.getLast? ≠ some '~') :
    beforeTilde? s = none := by
  unfold beforeTilde?
  split
  · rename_i he
    rw [List.getLast?_eq_head?_reverse, he] at h
    exact absurd rfl h
  · rfl

section

variable {l last : String}

/-- A line that does not end the text. -/
theorem tildeText?_goesOn (hl : GoesOn l) (rest : String) :
    tildeText? (Text.lines (l ++ ("\n" ++ rest))) =
      (tildeText? (Text.lines rest)).map fun p => (Text.trimEnd l ++ "\n" ++ p.1, p.2) := by
  obtain ⟨l', hlines, hend, -⟩ := Text.trimEnd_lines_append hl.1 rest
  have hnone : beforeTilde? (Text.trimEnd l) = none := by
    refine beforeTilde?_none ?_
    rw [Text.trimEnd, String.toList_ofList]
    exact hl.2
  rw [hlines, tildeText?, hend, hnone]

/-- The line that ends the text. -/
theorem tildeText?_last (h : '\n' ∉ last.toList) (rest : String) :
    tildeText? (Text.lines (last ++ ("~\n" ++ rest))) = some (last, Text.lines rest) := by
  have hmem : '\n' ∉ (last ++ "~").toList := by
    rw [String.toList_append, List.mem_append]
    exact not_or.2 ⟨h, by decide⟩
  have hend : Chars.trimEnd (last ++ "~").toList = (last ++ "~").toList := by
    rw [String.toList_append]
    exact Chars.trimEnd_append_char _ (by decide)
  have hlines := Text.lines_append_of_trimEnd hmem hend rest
  rw [String.append_assoc, show "~" ++ ("\n" ++ rest) = "~\n" ++ rest by
    rw [← String.append_assoc]; rfl] at hlines
  rw [hlines, tildeText?, Text.trimEnd, hend, String.ofList_toList, beforeTilde?_append]

theorem tildeText?_terminated {ls : List String} (hls : ∀ l ∈ ls, GoesOn l)
    (h : '\n' ∉ last.toList) (rest : String) :
    tildeText? (Text.lines (terminated ls ++ (last ++ ("~\n" ++ rest)))) =
      some (terminated (ls.map Text.trimEnd) ++ last, Text.lines rest) := by
  induction ls with
  | nil => simpa [terminated] using tildeText?_last h rest
  | cons l ls ih =>
    rw [terminated, String.append_assoc, String.append_assoc,
      tildeText?_goesOn (hls l List.mem_cons_self),
      ih fun l hl => hls l (List.mem_cons_of_mem _ hl)]
    simp [terminated, String.append_assoc]

end

/-- With a `~` after it, the text `s` is read as `t`. -/
def Reads (s t : String) : Prop :=
  ∀ rest : String, tildeText? (Text.lines (s ++ ("~\n" ++ rest))) = some (t, Text.lines rest)

theorem RunsOn.reads {s : String} (h : RunsOn s) : ∃ t, Reads s t := by
  obtain ⟨ls, last, rfl, hlast, hls⟩ := h.lines
  refine ⟨terminated (ls.map Text.trimEnd) ++ last, fun rest => ?_⟩
  rw [String.append_assoc, tildeText?_terminated hls hlast]

/-- A tidy text is read as it is. -/
theorem Tidy.reads {s : String} (h : Tidy s) : Reads s s := by
  obtain ⟨ls, last, rfl, hlast, hls⟩ := h.lines
  intro rest
  rw [String.append_assoc, tildeText?_terminated (fun l hl => (hls l hl).1) hlast,
    List.map_congr_left fun l hl => (hls l hl).2, List.map_id']

/-! ## First lines and headers -/

theorem fit32?_of_fits {i : Int} (h : Fits32 i) : Width.fit32? i = some i := if_pos h

theorem leadingInt_of_fits {i : Int} (h : Fits32 i) : Chars.leadingInt (toString i).toList = i := by
  obtain ⟨hl, hu⟩ := h
  exact Chars.leadingInt_toString (by omega) (by omega)

theorem vnum?_text {v : Vnum} (h : Fits32 v) : vnum? ("#" ++ toString v) = some v := by
  have hv : ("#" ++ toString v).toList = '#' :: (toString v).toList := String.toList_append
  rw [vnum?, hv]
  simp only [(Chars.solid_toString_int v).trim, Chars.isNumeral_toString, if_true,
    leadingInt_of_fits h, fit32?_of_fits h]

theorem solid_vnumLine (v : Vnum) : Chars.Solid ("#" ++ toString v).toList := by
  rw [String.toList_append]
  exact (Chars.solid_toString_int v).cons (by decide)

/-- A record does not begin, even in part, with what ends a file. -/
theorem vnumLine_ne {v : Vnum} {l : String} (h : l.toList <+: ("#" ++ toString v).toList) :
    l ≠ "$" := fun hl => by
  rw [hl, String.toList_append] at h
  exact absurd (List.cons_prefix_cons.1 h).1 (by decide)

theorem ofCode?_code (k : Kind) : Kind.ofCode? k.code = some k := by cases k <;> rfl

theorem fits_code (k : Kind) : Fits32 k.code := by cases k <;> decide

namespace Draft

variable (d : Draft)

theorem words_header :
    Text.words d.header = toString d.kind.code :: d.flags.text :: (d.narg.map toString).toList := by
  have hcode := Chars.solid_toString_int d.kind.code
  rw [Text.words, header]
  cases d.narg with
  | none =>
    simp only [Option.elim_none, String.append_empty, String.toList_append, List.append_assoc,
      show " ".toList = [' '] from rfl, List.singleton_append]
    rw [Chars.words_space hcode, Chars.words_solid d.flags.solid_text]
    simp
  | some n =>
    simp only [Option.elim_some, String.toList_append, List.append_assoc,
      show " ".toList = [' '] from rfl, List.cons_append, List.nil_append]
    rw [Chars.words_space hcode, Chars.words_space d.flags.solid_text,
      Chars.words_solid (Chars.solid_toString_int n)]
    simp

theorem header?_header : header? d.header = some (d.kind, d.flags.bits, d.narg.getD 0) := by
  have hfits := d.narg_fits
  rw [header?, d.words_header]
  cases hn : d.narg with
  | none =>
    simp only [Option.map_none, Option.toList_none, Text.isNumeral, Text.leadingInt,
      Chars.isNumeral_toString, if_true, leadingInt_of_fits (fits_code _), ofCode?_code,
      d.flags.ofField_text, Option.getD_none]
  | some n =>
    simp only [Option.map_some, Option.toList_some, Text.isNumeral, Text.leadingInt,
      Chars.isNumeral_toString, if_true, leadingInt_of_fits (fits_code _), ofCode?_code,
      leadingInt_of_fits (hfits n hn), fit32?_of_fits (hfits n hn), d.flags.ofField_text,
      Option.getD_some]

/-- A header is one line, and does not end with a blank. -/
theorem header_line : '\n' ∉ d.header.toList ∧ Chars.trimEnd d.header.toList = d.header.toList := by
  have hcode := (Chars.solid_toString_int d.kind.code).not_mem (c := '\n') rfl
  have hspace : '\n' ∉ " ".toList := by decide
  have hflags := d.flags.solid_text.not_mem (c := '\n') rfl
  rw [header]
  cases d.narg with
  | none =>
    simp only [Option.elim_none, String.append_empty, String.toList_append]
    refine ⟨?_, d.flags.solid_text.trimEnd_append _⟩
    simp only [List.mem_append, hcode, hspace, hflags, or_self, not_false_eq_true]
  | some n =>
    have hsolid := Chars.solid_toString_int n
    have hn := hsolid.not_mem (c := '\n') rfl
    simp only [Option.elim_some, String.toList_append, ← List.append_assoc]
    refine ⟨?_, hsolid.trimEnd_append _⟩
    simp only [List.mem_append, hcode, hspace, hflags, hn, or_self, not_false_eq_true]

end Draft

/-! ## Scripts -/

theorem lines_terminated {ls : List String} (hls : ∀ l ∈ ls, '\n' ∉ l.toList) :
    (Text.lines (terminated ls)).map Text.trim = ls.map Text.trim := by
  induction ls with
  | nil => rfl
  | cons l ls ih =>
    obtain ⟨l', hl, -, htrim⟩ :=
      Text.trimEnd_lines_append (hls l List.mem_cons_self) (terminated ls)
    rw [terminated, hl, List.map_cons, htrim, ih fun l hl => hls l (List.mem_cons_of_mem _ hl),
      List.map_cons]

theorem trim_trimEnd (s : String) : Text.trim (Text.trimEnd s) = Text.trim s := by
  rw [Text.trim, Text.trimEnd, String.toList_ofList, Chars.trim_trimEnd, Text.trim]

theorem not_mem_trimEnd {c : Char} {s : String} (h : c ∉ s.toList) :
    c ∉ (Text.trimEnd s).toList := by
  rw [Text.trimEnd, String.toList_ofList, Chars.trimEnd, List.mem_reverse]
  exact fun hm => h (List.mem_reverse.1 ((List.dropWhile_sublist _).subset hm))

/-- Blanks at the ends of lines make no difference to a script. -/
theorem compile_trimEnd {ls : List String} (hls : ∀ l ∈ ls, '\n' ∉ l.toList) :
    Script.compile (terminated (ls.map Text.trimEnd)) = Script.compile (terminated ls) := by
  have hends : ∀ l ∈ ls.map Text.trimEnd, '\n' ∉ l.toList := by
    intro l hl
    obtain ⟨x, hx, rfl⟩ := List.mem_map.1 hl
    exact not_mem_trimEnd (hls x hx)
  rw [Script.compile, Script.compile, lines_terminated hls, lines_terminated hends, List.map_map]
  exact congrArg Script.ofLines (List.map_congr_left fun l _ => trim_trimEnd l)

/-! ## Records -/

/-- A record from its name on. -/
def Draft.fields (d : Draft) : String :=
  d.name ++ ("~\n" ++ (d.header ++ ("\n" ++ (d.arg ++ ("~\n" ++ (terminated d.body ++ "~\n"))))))

/-- A record is its lines of blanks, its first line and its fields. -/
theorem Draft.append_text (d : Draft) (rest : String) :
    terminated d.gap ++ d.text ++ rest =
      terminated d.gap ++ ("#" ++ toString d.vnum ++ ("\n" ++ (d.fields ++ rest))) := by
  rw [← String.toList_inj]
  simp [text, fields, String.toList_append]

/-- A record is read back, and what follows it is left. -/
theorem record_fields (d : Draft) {name arg : String} (hname : Reads d.name name)
    (harg : Reads d.arg arg) (rest : String) :
    record d.vnum (Text.lines (d.fields ++ rest)) =
      .ok ({ d.prototype with name, arg }, Text.lines rest) := by
  have hlast : '\n' ∉ "".toList := by decide
  have hbody := tildeText?_terminated d.body_goesOn hlast rest
  rw [String.empty_append, String.append_empty] at hbody
  simp only [Draft.fields, String.append_assoc]
  rw [record, hname, Text.lines_append_of_trimEnd d.header_line.1 d.header_line.2]
  simp only [d.header?_header, harg _, hbody, compile_trimEnd fun l hl => (d.body_goesOn l hl).1]
  rfl

/-! ## Files -/

/-- Lines of blanks are passed over. -/
theorem dropWhile_gap {gap : List String} (hgap : ∀ l ∈ gap, IsGap l) (rest : String) :
    (Text.lines (terminated gap ++ rest)).dropWhile Text.isBlank =
      (Text.lines rest).dropWhile Text.isBlank := by
  induction gap with
  | nil => rw [terminated, String.empty_append]
  | cons l ls ih =>
    obtain ⟨hm, hblank⟩ := hgap l List.mem_cons_self
    obtain ⟨l', hl, he⟩ := Text.lines_append hm (terminated ls ++ rest)
    have hblank' : Text.isBlank l' = true := by
      rcases he with rfl | rfl
      · exact hblank
      · simp only [Text.isBlank, String.toList_append, List.all_append, Bool.and_eq_true] at hblank
        exact hblank.1
    rw [terminated, String.append_assoc, String.append_assoc, hl,
      List.dropWhile_cons_of_pos hblank', ih fun l hl => hgap l (List.mem_cons_of_mem _ hl)]

/-- The first line of a record. -/
theorem dropWhile_vnumLine (v : Vnum) (rest : String) :
    (Text.lines ("#" ++ toString v ++ ("\n" ++ rest))).dropWhile Text.isBlank =
      ("#" ++ toString v) :: Text.lines rest := by
  have hsolid := solid_vnumLine v
  rw [Text.lines_append_of_trimEnd (hsolid.not_mem rfl) (hsolid.trimEnd_append []),
    List.dropWhile_cons_of_neg (Bool.eq_false_iff.1 (Text.isBlank_of_solid hsolid))]

/-- A record that begins. -/
theorem recordsWithin_vnumLine (total fuel : Nat) (read : List Prototype) (d : Draft)
    (rest : String) :
    recordsWithin total (fuel + 1) read
        (Text.lines (terminated d.gap ++ ("#" ++ toString d.vnum ++ ("\n" ++ rest)))) =
      if read.any (·.vnum = d.vnum) then .error (.duplicate d.vnum)
      else match record d.vnum (Text.lines rest) with
        | .error e => .error e
        | .ok (p, rest) => recordsWithin total fuel (read ++ [p]) rest := by
  have hline := Text.trim_of_solid (solid_vnumLine d.vnum)
  have hend : "#" ++ toString d.vnum ≠ "$" := vnumLine_ne List.prefix_rfl
  rw [recordsWithin, dropWhile_gap d.gap_blank, dropWhile_vnumLine]
  cases hrecord : record d.vnum (Text.lines rest) <;>
    simp only [hline, if_neg hend, vnum?_text d.vnum_fits, hrecord]

/-- A record that is there as a whole. -/
theorem recordsWithin_draft (total fuel : Nat) (read : List Prototype) (d : Draft)
    {name arg : String} (hname : Reads d.name name) (harg : Reads d.arg arg) (rest : String) :
    recordsWithin total (fuel + 1) read (Text.lines (terminated d.gap ++ d.text ++ rest)) =
      if read.any (·.vnum = d.vnum) then .error (.duplicate d.vnum)
      else recordsWithin total fuel (read ++ [{ d.prototype with name, arg }])
        (Text.lines rest) := by
  rw [d.append_text, recordsWithin_vnumLine, record_fields d hname harg]

namespace Layout

variable (file : Layout)

/-- What follows the records. -/
def ending : String :=
  terminated file.gap ++ ("$" ++ file.after.elim "" fun after => "\n" ++ after)

theorem text_eq : file.text = recordsText file.drafts ++ file.ending := by
  simp only [text, opening, ending, String.append_assoc]

/-- The line that ends a file. -/
theorem recordsWithin_ending (total fuel : Nat) (read : List Prototype) :
    recordsWithin total (fuel + 1) read (Text.lines file.ending) = .ok read := by
  have hline : (Text.lines ("$" ++ file.after.elim "" fun after => "\n" ++ after)).dropWhile
      Text.isBlank = "$" :: Text.lines (file.after.getD "") := by
    cases file.after with
    | none => rfl
    | some after =>
      rw [Option.elim_some, Text.lines_append_of_trimEnd (by decide) (by decide)]
      rfl
  rw [recordsWithin, ending, dropWhile_gap file.gap_blank, hline]
  rfl

theorem recordsWithin_text (total fuel : Nat) (ds : List Draft) (read : List Prototype)
    (hd : (read.map (·.vnum) ++ ds.map (·.vnum)).Nodup)
    (hds : ∀ d ∈ ds, Tidy d.name ∧ Tidy d.arg) (hfuel : ds.length < fuel) :
    recordsWithin total fuel read (Text.lines (recordsText ds ++ file.ending)) =
      .ok (read ++ ds.map Draft.prototype) := by
  induction ds generalizing fuel read with
  | nil =>
    obtain ⟨fuel, rfl⟩ := Nat.exists_eq_succ_of_ne_zero (Nat.ne_of_gt hfuel)
    rw [recordsText, String.empty_append, recordsWithin_ending, List.map_nil, List.append_nil]
  | cons d ds ih =>
    obtain ⟨fuel, rfl⟩ := Nat.exists_eq_succ_of_ne_zero (Nat.ne_of_gt (Nat.zero_lt_of_lt hfuel))
    have hread : ¬ read.any (·.vnum = d.vnum) := fun hany => by
      obtain ⟨p, hp, he⟩ := List.any_eq_true.1 hany
      exact (List.nodup_append.1 hd).2.2 _ (List.mem_map.2 ⟨p, hp, of_decide_eq_true he⟩) _
        List.mem_cons_self rfl
    obtain ⟨⟨hname, harg⟩, hds⟩ := List.forall_mem_cons.1 hds
    rw [recordsText, String.append_assoc,
      recordsWithin_draft total fuel read d hname.reads harg.reads, if_neg hread]
    refine (ih fuel (read ++ [d.prototype]) ?_ hds (Nat.lt_of_succ_lt_succ hfuel)).trans ?_
    · rw [List.map_append, List.append_assoc]
      exact hd
    · rw [List.map_cons, List.append_assoc, List.singleton_append]

end Layout

/-- Every record has a line of its own. -/
theorem length_lines_recordsText (ds : List Draft) (rest : String) :
    ds.length ≤ (Text.lines (recordsText ds ++ rest)).length := by
  induction ds with
  | nil => exact Nat.zero_le _
  | cons d ds ih =>
    have hsolid := solid_vnumLine d.vnum
    have hfields := Text.length_lines_append_le d.fields (recordsText ds ++ rest)
    have hgap := Text.length_lines_append_le (terminated d.gap)
      ("#" ++ toString d.vnum ++ ("\n" ++ (d.fields ++ (recordsText ds ++ rest))))
    rw [Text.lines_append_of_trimEnd (hsolid.not_mem rfl) (hsolid.trimEnd_append []),
      List.length_cons] at hgap
    rw [recordsText, String.append_assoc, d.append_text, List.length_cons]
    omega

/-- A file of records with different vnums is read as these records, in this order. What a name, an
argument or a script has in a line of its own, a `$` or a `#` and a number, ends and begins nothing. -/
theorem parse_layout (file : Layout) (hd : (file.drafts.map (·.vnum)).Nodup)
    (htidy : ∀ d ∈ file.drafts, Tidy d.name ∧ Tidy d.arg) :
    parse file.text = .ok (file.drafts.map Draft.prototype) := by
  have hlength := length_lines_recordsText file.drafts file.ending
  rw [← file.text_eq] at hlength
  have hread := file.recordsWithin_text (Text.lines file.text).length
    ((Text.lines file.text).length + 1) file.drafts [] (by simpa using hd) htidy (by omega)
  rwa [← file.text_eq, List.nil_append] at hread

/-- Two records whose texts have lines like those that end a file or begin a record. -/
def tricky : Layout where
  drafts :=
    [{ gap := ["", "  "], vnum := 12, name := "a hint\n$\n#12", kind := .mobile,
       flags := .letters 3 [26], narg := some (-5), arg := "#", body := ["$ ", "#7", "say ~ you", ""] },
     { vnum := -3, name := "", kind := .room, flags := .mask 130 (by decide), narg := none, arg := "",
       body := [] }]
  gap := ["\t"]
  after := some "~\n#12\n"

theorem parse_tricky : ∃ p q, parse tricky.text = .ok [p, q] ∧ p.name = "a hint\n$\n#12" ∧
    p.events = 0x400_0008 ∧ p.narg = -5 ∧ p.script.length = 4 ∧ q.vnum = -3 ∧ q.narg = 0 :=
  ⟨_, _, parse_layout tricky (by decide) (by decide), rfl, rfl, rfl, by decide +kernel, rfl, rfl⟩

end TriggerFile

end MudTrigger
