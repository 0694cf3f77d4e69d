import MudTrigger.Game.Inspect
import MudTrigger.Proofs.Blocks.Links
import MudTrigger.Proofs.Text.Lines
import Mathlib.Data.List.DropRight

/-!
# Scripts that are shown and compiled again

The source of a script is made of lines that are trimmed already (`Text.IsNeat`). Put together and taken
apart again these are the same lines, but for an empty last one, which no line feed ends
(`Text.lines_join`). An empty line matches no block, so all that it takes away from the script is itself
(`Script.ofLines_append_blank`): a source compiles to the script that it shows, less an empty last line
(`Script.compile_source`, `Script.eq_blankEnd`).
-/

set_option autoImplicit false

namespace MudTrigger

namespace Chars

variable {cs l : List Char} {c : Char}

theorem trimStart_trimEnd_trimStart (cs : List Char) :
    trimStart (trimEnd (trimStart cs)) = trimEnd (trimStart cs) := by
  cases h : trimStart cs with
  | nil => rfl
  | cons c ds =>
    have hc : isBlank c = false := by
      have hhead := List.head?_dropWhile_not isBlank cs
      rw [← trimStart, h] at hhead
      simpa using hhead
    have hends : trimEnd (c :: ds) = c :: trimEnd ds := by
      rw [trimEnd, List.reverse_cons, List.dropWhile_append]
      split
      · rename_i hempty
        rw [List.dropWhile_cons_of_neg (by simp [hc]), trimEnd, List.isEmpty_iff.1 hempty]
        rfl
      · rw [List.reverse_append, List.reverse_singleton, List.singleton_append, ← trimEnd]
    rw [hends]
    exact List.dropWhile_cons_of_neg (by simp [hc])

theorem trimEnd_trimEnd (cs : List Char) : trimEnd (trimEnd cs) = trimEnd cs :=
  List.rdropWhile_idempotent isBlank cs

theorem trim_trim (cs : List Char) : trim (trim cs) = trim cs := by
  rw [trim, trim, trimStart_trimEnd_trimStart, trimEnd_trimEnd]

theorem mem_of_mem_trim (h : c ∈ trim cs) : c ∈ cs := by
  rw [trim, trimEnd, List.mem_reverse] at h
  exact (List.dropWhile_sublist _).subset (List.mem_reverse.1 ((List.dropWhile_sublist _).subset h))

/-- No line has a line feed. -/
theorem lineFeed_of_mem_lines (h : l ∈ lines cs) : '\n' ∉ l := by
  fun_induction lines cs generalizing l with
  | case1 => cases h
  | case2 cs ih =>
    rcases List.mem_cons.1 h with rfl | h
    · exact List.not_mem_nil
    · exact ih h
  | case3 c cs ih =>
    rcases List.mem_cons.1 h with rfl | h
    · exact List.not_mem_nil
    · exact ih h
  | case4 c cs _ hc hnil ih =>
    obtain rfl := List.mem_singleton.1 h
    exact fun hmem => hc (List.mem_singleton.1 hmem).symm
  | case5 c cs _ hc k ks hcons ih =>
    rw [hcons] at ih
    rcases List.mem_cons.1 h with rfl | h
    · exact mt List.mem_cons.1 (not_or.2 ⟨Ne.symm hc, ih List.mem_cons_self⟩)
    · exact ih (List.mem_cons_of_mem _ h)

end Chars

namespace Text

/-- A text that is a line by itself, without blanks around it. -/
structure IsNeat (t : String) : Prop where
  lineFeed : '\n' ∉ t.toList
  trim : Text.trim t = t

variable {t : String} {ts : List String}

theorem IsNeat.trimEnd (h : IsNeat t) : Chars.trimEnd t.toList = t.toList := by
  have htrim : Chars.trim t.toList = t.toList := by
    rw [← String.toList_ofList (l := Chars.trim t.toList)]
    exact congrArg String.toList h.trim
  rw [← htrim, Chars.trim, Chars.trimEnd_trimEnd]

/-- The lines of a text are neat once they are trimmed. -/
theorem isNeat_lines (s : String) : ∀ t ∈ (lines s).map Text.trim, IsNeat t := by
  intro t h
  obtain ⟨_, hl, rfl⟩ := List.mem_map.1 h
  obtain ⟨cs, hcs, rfl⟩ := List.mem_map.1 hl
  rw [Text.trim, String.toList_ofList]
  constructor
  · rw [String.toList_ofList]
    exact fun hmem => Chars.lineFeed_of_mem_lines hcs (Chars.mem_of_mem_trim hmem)
  · rw [Text.trim, String.toList_ofList, Chars.trim_trim]

theorem map_trim_of_neat (h : ∀ t ∈ ts, IsNeat t) : ts.map Text.trim = ts := by
  rw [List.map_congr_left fun t ht => (h t ht).trim, List.map_id']

/-- Neat lines put together are these lines again, but for an empty last one. -/
theorem lines_join (h : ∀ t ∈ ts, IsNeat t) :
    lines (join "\n" ts) = if ts.getLast? = some "" then ts.dropLast else ts := by
  induction ts with
  | nil => rfl
  | cons t ts ih =>
    obtain ⟨ht, hts⟩ := List.forall_mem_cons.1 h
    cases ts with
    | nil =>
      rw [join, String.intercalate_singleton, lines, Chars.lines_of_not_mem ht.lineFeed]
      by_cases he : t = ""
      · subst he
        rfl
      · rw [if_neg (mt String.toList_eq_nil_iff.1 he), if_neg (by simpa using he), List.map_singleton,
          String.ofList_toList]
    | cons u ts =>
      rw [join, String.intercalate_cons_cons, String.append_assoc,
        lines_append_of_trimEnd ht.lineFeed ht.trimEnd, ← join, ih hts, List.getLast?_cons_cons]
      split <;> rfl

/-- With a line feed behind them, neat lines are these lines again. -/
theorem lines_join_lineFeed (h : ∀ t ∈ ts, IsNeat t) :
    lines (join "\n" ts ++ "\n") = if ts = [] then [""] else ts := by
  induction ts with
  | nil => rfl
  | cons t ts ih =>
    obtain ⟨ht, hts⟩ := List.forall_mem_cons.1 h
    rw [if_neg (List.cons_ne_nil t ts)]
    cases ts with
    | nil =>
      rw [join, String.intercalate_singleton, ← String.append_empty (s := "\n"),
        lines_append_of_trimEnd ht.lineFeed ht.trimEnd]
      rfl
    | cons u ts =>
      rw [join, String.intercalate_cons_cons, String.append_assoc, String.append_assoc,
        lines_append_of_trimEnd ht.lineFeed ht.trimEnd, ← join, ih hts,
        if_neg (List.cons_ne_nil u ts)]

end Text

/-- A comment at the end links no lines. -/
theorem Links.ofKeywords_append_comment (ks : List Keyword) :
    ofKeywords (ks ++ [.comment]) = ofKeywords ks := by
  rw [ofKeywords, Matcher.run_append]
  rfl

namespace Script

/-- The script with an empty line at its end. -/
def blankEnd (s : Script) : Script := ⟨s.lines ++ [⟨"", .comment⟩]⟩

/-- The script has a last line, and this is empty. -/
def EndsBlank (s : Script) : Prop := s.lines.getLast?.map (·.text) = some ""

instance (s : Script) : Decidable s.EndsBlank := inferInstanceAs (Decidable (_ = _))

variable {texts : List String}

theorem ofLines_append_blank (texts : List String) :
    ofLines (texts ++ [""]) = (ofLines texts).blankEnd := by
  have hkeyword : Keyword.ofText "" = .comment := rfl
  rw [ofLines_eq, List.map_append, List.map_singleton, hkeyword, Links.ofKeywords_append_comment,
    Links.lines_append, ofLines_eq]
  rfl

theorem endsBlank_ofLines : (ofLines texts).EndsBlank ↔ texts.getLast? = some "" := by
  rw [EndsBlank, ← List.getLast?_map, ofLines_texts]

theorem source_compile (body : String) :
    (compile body).source = Text.join "\n" ((Text.lines body).map Text.trim) := by
  rw [source, compile, ofLines_texts]

/-- A source compiles to the script that it shows, unless this ends with an empty line. -/
theorem compile_source {body : String} (h : ¬ (compile body).EndsBlank) :
    compile (compile body).source = compile body := by
  have hneat := Text.isNeat_lines body
  rw [compile, source_compile, Text.lines_join hneat, if_neg (mt endsBlank_ofLines.2 h),
    Text.map_trim_of_neat hneat, compile]

/-- A script that ends with an empty line has all its other lines from its source. -/
theorem eq_blankEnd {body : String} (h : (compile body).EndsBlank) :
    compile body = (compile (compile body).source).blankEnd := by
  have hneat := Text.isNeat_lines body
  have hlast := endsBlank_ofLines.1 h
  have htexts := List.dropLast_append_getLast? "" hlast
  have hsource : compile (compile body).source =
      ofLines ((Text.lines body).map Text.trim).dropLast := by
    rw [compile, source_compile, Text.lines_join hneat, if_pos hlast, Text.map_trim_of_neat]
    exact fun t ht => hneat t ((List.dropLast_sublist _).subset ht)
  rw [hsource, ← ofLines_append_blank, htexts, compile]

/-- With a line feed behind it, a source compiles to the script that it shows, or to an empty line if
there is nothing to show. -/
theorem compile_source_lineFeed (body : String) :
    compile ((compile body).source ++ "\n") =
      if (compile body).isEmpty then (compile body).blankEnd else compile body := by
  have hneat := Text.isNeat_lines body
  rw [source_compile, compile, Text.lines_join_lineFeed hneat]
  by_cases hnil : (Text.lines body).map Text.trim = []
  · rw [if_pos hnil, compile, hnil]
    rfl
  · have hne : (compile body).isEmpty = false := by
      rw [isEmpty, List.isEmpty_eq_false_iff, ← List.length_pos_iff, ← length, compile,
        length_ofLines, List.length_pos_iff]
      exact hnil
    rw [if_neg hnil, hne, Text.map_trim_of_neat hneat, compile]
    rfl

end Script

/-- The text of a prototype ends with the source of its script and a line feed. -/
theorem Inspect.prototypeText_eq (p : Prototype) :
    ∃ head, prototypeText p = head ++ ("Commands:\n" ++ (p.script.source ++ "\n")) := by
  rw [prototypeText, ← @String.append_assoc "Commands:\n"]
  exact ⟨_, rfl⟩

end MudTrigger
