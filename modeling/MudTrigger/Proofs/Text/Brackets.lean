import Mathlib.Data.List.TakeWhile
import MudTrigger.Proofs.Text.Parts

/-!
# Brackets within brackets

The value of a token closes at the first `]` behind its `[`, and tokens are looked for in the value only
then. So a value that holds no bracketed token is expanded first and its whole token goes
(`Scene.expand_part`). In a value that does, the first `]` closes every bracket that is open there:
`Part.cut` is the value as far as that, `Part.beyond` the text behind it. The values still expand from
the inside out, but the rest of the text is read on from there, and a `]` stays in it
(`Scene.expand_nested`).

`Part.Bracketed` says of parts that a `]` stands only where a value closes. Both functions, and what
follows about them, go by the two shapes it has: a part without brackets, and a bracketed token.
-/

set_option autoImplicit false

namespace MudTrigger

/-! ## Reading a text of any kind -/

namespace Template

/-- A percent sign that closes a token belongs to it. -/
def skipPercent : List Char → List Char
  | '%' :: cs => cs
  | cs => cs

variable {cs name field value rest : List Char}

theorem splitField_length (h : splitField cs = (field, value, rest)) :
    value.length ≤ cs.length ∧ rest.length ≤ cs.length := by
  have hdrop := (List.dropWhile_sublist (fun c => c != '%' && c != '[') (l := cs)).length_le
  unfold splitField at h
  split at h
  · next inside heq =>
    obtain ⟨-, rfl, rfl⟩ := h
    rw [heq, List.length_cons] at hdrop
    have hvalue := (List.takeWhile_sublist (· != ']') (l := inside)).length_le
    have hrest := (List.dropWhile_sublist (· != ']') (l := inside)).length_le
    rw [List.length_drop]
    omega
  · obtain ⟨-, rfl, rfl⟩ := h
    exact ⟨Nat.zero_le _, hdrop⟩

theorem splitToken_length (h : splitToken cs = (name, field, value, rest)) :
    value.length ≤ cs.length ∧ rest.length ≤ cs.length := by
  have hdrop := (List.dropWhile_sublist (fun c => c != '%' && c != '.') (l := cs)).length_le
  unfold splitToken at h
  split at h
  · next behind heq =>
    rw [heq, List.length_cons] at hdrop
    rcases hfield : splitField behind with ⟨f, v, cs'⟩
    have hlength := splitField_length hfield
    simp only [hfield] at h
    split at h
    · obtain ⟨-, -, rfl, rfl⟩ := h
      rw [List.length_cons] at hlength
      omega
    · obtain ⟨-, -, rfl, rfl⟩ := h
      omega
  · next heq =>
    obtain ⟨-, -, rfl, rfl⟩ := h
    rw [heq, List.length_cons] at hdrop
    exact ⟨Nat.zero_le _, by omega⟩
  · obtain ⟨-, -, rfl, rfl⟩ := h
    exact ⟨Nat.zero_le _, hdrop⟩

/-- Any fuel that is enough for a text gives the same parts. -/
theorem parseWithin_enough {n m : Nat} (hn : cs.length ≤ n) (hm : cs.length ≤ m) :
    parseWithin n cs = parseWithin m cs := by
  induction n generalizing m cs with
  | zero =>
    obtain rfl := List.eq_nil_of_length_eq_zero (Nat.le_zero.1 hn)
    cases m <;> rfl
  | succ n ih =>
    cases m with
    | zero =>
      obtain rfl := List.eq_nil_of_length_eq_zero (Nat.le_zero.1 hm)
      rfl
    | succ m =>
      have hdrop := (List.dropWhile_sublist (· != '%') (l := cs)).length_le
      rw [parseWithin, parseWithin]
      congr 1
      split
      · next rest heq =>
        simp only [heq, List.length_cons] at hdrop
        rw [ih (m := m) (by omega) (by omega)]
      · next rest _ heq =>
        simp only [heq, List.length_cons] at hdrop
        rcases htoken : splitToken rest with ⟨name, field, value, behind⟩
        obtain ⟨hvalue, hbehind⟩ := splitToken_length htoken
        have hvalue : parseWithin n value = parseWithin m value := ih (by omega) (by omega)
        have hbehind : parseWithin n behind = parseWithin m behind := ih (by omega) (by omega)
        simp only [hvalue, hbehind]
      · rfl

theorem splitField_bracket (h : ∀ c ∈ field, c ≠ '%' ∧ c ≠ '[') (cs : List Char) :
    splitField (field ++ '[' :: cs) =
      (field, cs.takeWhile (· != ']'), (cs.dropWhile (· != ']')).drop 1) := by
  have hall : ∀ c ∈ field, (c != '%' && c != '[') = true := by simpa using h
  rw [splitField, List.takeWhile_append_of_pos hall, List.dropWhile_append_of_pos hall]
  simp

theorem splitToken_bracket (hname : ∀ c ∈ name, c ≠ '%' ∧ c ≠ '.')
    (hfield : splitField cs = (field, value, rest)) :
    splitToken (name ++ '.' :: cs) = (name, field, value, skipPercent rest) := by
  have hall : ∀ c ∈ name, (c != '%' && c != '.') = true := by simpa using hname
  rw [splitToken, List.takeWhile_append_of_pos hall, List.dropWhile_append_of_pos hall]
  simp only [List.takeWhile_cons, List.dropWhile_cons, bne_self_eq_false, Bool.and_false,
    Bool.false_eq_true, if_false, List.append_nil, hfield]
  fun_cases skipPercent rest
  · rfl
  · next hopen =>
    split
    · exact absurd rfl (hopen _)
    · rfl

end Template

/-! ## Where the first closing bracket stands -/

namespace Part

/-- Closing brackets stand where a value closes, and nowhere else. -/
inductive Bracketed : List Part → Prop
  | nil : Bracketed []
  | plain {p : Part} {ps : List Part} : ']' ∉ p.chars → Bracketed ps → Bracketed (p :: ps)
  | brackets {name : TokenName} {f : FieldName} {value ps : List Part} :
    ']' ∉ name.text.toList → ']' ∉ f.text.toList → Bracketed value → Bracketed ps →
      Bracketed (brackets name f value :: ps)

mutual

/-- The part with every bracket of it closed at its first closing bracket. -/
def shut : Part → Part
  | brackets name f value => brackets name f (cut value)
  | p => p

/-- The parts as far as their first closing bracket. -/
def cut : List Part → List Part
  | [] => []
  | p :: ps => p.shut :: if ']' ∈ p.chars then [] else cut ps

end

mutual

/-- What stands behind the first closing bracket of the part, where `more` stands behind the part. -/
def behind : Part → List Char → List Char
  | brackets _ _ value, more => beyond value ('%' :: more)
  | _, more => more

/-- What stands behind the first closing bracket, where a closing bracket and `more` stand behind the
parts. -/
def beyond : List Part → List Char → List Char
  | [], more => more
  | p :: ps, more => if ']' ∈ p.chars then p.behind (written ps ++ ']' :: more) else beyond ps more

end

/-- A bracketed token as far as its bracket. -/
def opening (name : TokenName) (f : FieldName) : List Char :=
  '%' :: (name.text.toList ++ '.' :: (f.text.toList ++ ['[']))

variable {p : Part} {ps value : List Part} {name : TokenName} {f : FieldName}

theorem chars_brackets (name : TokenName) (f : FieldName) (value : List Part) (tail : List Char) :
    (brackets name f value).chars ++ tail =
      opening name f ++ (written value ++ ']' :: '%' :: tail) := by
  simp [chars, opening]

theorem written_brackets (name : TokenName) (f : FieldName) (value ps : List Part)
    (tail : List Char) :
    written (brackets name f value :: ps) ++ tail =
      opening name f ++ (written value ++ ']' :: '%' :: (written ps ++ tail)) := by
  rw [written, List.append_assoc, chars_brackets]

theorem not_mem_opening (hname : ']' ∉ name.text.toList) (hf : ']' ∉ f.text.toList) :
    ']' ∉ opening name f := by
  simp [opening, hname, hf]

theorem mem_chars_brackets (name : TokenName) (f : FieldName) (value : List Part) :
    ']' ∈ (brackets name f value).chars := by
  simp [chars]

theorem cut_plain (h : ']' ∉ p.chars) : cut (p :: ps) = p :: cut ps := by
  rw [cut, if_neg h]
  cases p with
  | brackets name f value => exact absurd (mem_chars_brackets name f value) h
  | literal | percent | bare | field => rfl

theorem cut_brackets (name : TokenName) (f : FieldName) (value ps : List Part) :
    cut (brackets name f value :: ps) = [brackets name f (cut value)] := by
  rw [cut, if_pos (mem_chars_brackets name f value), shut]

theorem beyond_plain (h : ']' ∉ p.chars) (more : List Char) :
    beyond (p :: ps) more = beyond ps more := by
  rw [beyond, if_neg h]

theorem beyond_brackets (name : TokenName) (f : FieldName) (value ps : List Part)
    (more : List Char) :
    beyond (brackets name f value :: ps) more =
      beyond value ('%' :: (written ps ++ ']' :: more)) := by
  rw [beyond, if_pos (mem_chars_brackets name f value), behind]

theorem beyond_of_not_mem (h : ']' ∉ written ps) (more : List Char) : beyond ps more = more := by
  induction ps with
  | nil => rfl
  | cons p ps ih =>
    rw [written, List.mem_append, not_or] at h
    rw [beyond_plain h.1, ih h.2]

theorem isClosed_of_plain (h : ']' ∉ p.chars) : p.IsClosed := by
  cases p with
  | brackets name f value => exact absurd (mem_chars_brackets name f value) h
  | literal | percent | bare | field => trivial

theorem bne_of_not_mem {cs : List Char} (h : ']' ∉ cs) : ∀ c ∈ cs, (c != ']') = true :=
  fun _ hc => bne_iff_ne.2 fun heq => h (heq ▸ hc)

theorem Bracketed.beyond_eq (h : Bracketed ps) (more : List Char) :
    ((written ps ++ ']' :: more).dropWhile (· != ']')).drop 1 = beyond ps more := by
  induction h generalizing more with
  | nil => rfl
  | plain hp _ ih =>
    rw [written, List.append_assoc, List.dropWhile_append_of_pos (bne_of_not_mem hp), ih,
      beyond_plain hp]
  | brackets hname hf _ _ ih _ =>
    rw [written_brackets, List.dropWhile_append_of_pos (bne_of_not_mem (not_mem_opening hname hf)),
      ih, beyond_brackets]

end Part

namespace Scene

open Template (skipPercent)

variable {s : Scene} {name : TokenName} {f : FieldName}

theorem expand_eq_segments (s : Scene) (cs : List Char) {fuel : Nat} (h : cs.length ≤ fuel) :
    s.expand (String.ofList cs) = s.segments (Template.parseWithin fuel cs) := by
  rw [expand, Template.parse, String.toList_ofList,
    Template.parseWithin_enough (Nat.le_refl _) h]

/-- A bracketed token, whatever stands between its bracket and the first closing one, and whatever
stands behind that. -/
theorem expand_bracket (s : Scene) (name : TokenName) (f : FieldName) (cs : List Char) :
    s.expand (String.ofList (Part.opening name f ++ cs)) = do
      let v ← s.expand (String.ofList (cs.takeWhile (· != ']')))
      let first ← s.token name.text f.text v
      let rest ← s.expand (String.ofList (skipPercent ((cs.dropWhile (· != ']')).drop 1)))
      return first ++ rest := by
  have hsplit := Template.splitToken_bracket name.plain (Template.splitField_bracket f.plain cs)
  obtain ⟨hvalue, hrest⟩ := Template.splitToken_length hsplit
  have htext : Part.opening name f ++ cs =
      '%' :: (name.text.toList ++ '.' :: (f.text.toList ++ '[' :: cs)) := by simp [Part.opening]
  rw [htext, expand_eq_segments s _ (Nat.le_refl _), List.length_cons,
    segments_token s _ (name.head?_append _) hsplit, String.ofList_toList, String.ofList_toList,
    ← expand_eq_segments s _ hvalue, ← expand_eq_segments s _ hrest]

/-- A part whose value closes at the first closing bracket is expanded to its meaning, and the
expansion goes on behind it. -/
theorem expand_part (s : Scene) {p : Part} (hp : p.IsClosed) (rest : List Char) :
    s.expand (String.ofList (p.chars ++ rest)) = do
      let first ← s.meaning p
      let rest ← s.expand (String.ofList rest)
      return first ++ rest := by
  obtain ⟨fuel, hfuel, hs⟩ := segments_part (s := s) rest hp
    (fun name f value heq fuel hfuel => segments_written s value fuel
      (fun _ => Part.isClosed_of_not_mem (by subst heq; exact hp)) hfuel) (Nat.le_refl _)
  rw [expand_eq_segments s _ (Nat.le_refl _), hs, expand_eq_segments s rest hfuel]

/-- The parts as far as their first closing bracket expand from the inside out. -/
theorem expand_cut (s : Scene) {ps : List Part} (h : Part.Bracketed ps) (more : List Char) :
    s.expand (String.ofList ((Part.written ps ++ ']' :: more).takeWhile (· != ']'))) =
      s.meanings (Part.cut ps) := by
  induction h generalizing more with
  | nil => rfl
  | plain hp _ ih =>
    rw [Part.written, List.append_assoc, List.takeWhile_append_of_pos (Part.bne_of_not_mem hp),
      expand_part s (Part.isClosed_of_plain hp), ih, Part.cut_plain hp, meanings]
  | @brackets name f value ps hname hf _ _ ih _ =>
    have hall := Part.bne_of_not_mem (Part.not_mem_opening hname hf)
    -- The text that is cut ends where the inner value does, so nothing stands behind that.
    have hdrop (cs : List Char) : (cs.takeWhile (· != ']')).dropWhile (· != ']') = [] :=
      List.dropWhile_eq_nil_iff.2 fun _ => List.mem_takeWhile_imp
    have hnil : s.expand (String.ofList (skipPercent [])) = pure "" := rfl
    rw [Part.written_brackets, List.takeWhile_append_of_pos hall, expand_bracket, hdrop,
      List.takeWhile_idem, List.drop_nil, hnil, ih, Part.cut_brackets]
    simp only [meanings, meaning, bind_assoc, pure_bind]

/-- A closing bracket stays in what the text expands to. -/
def Spills (s : Scene) (cs : List Char) : Prop :=
  ∀ d, ']' ∈ (s.expand (String.ofList cs) d).1.toList

theorem spills_bracket (s : Scene) (more : List Char) : s.Spills (']' :: more) := by
  intro d
  have hplain : '%' ∉ [']'] := by decide
  have hlit := segments_literal s hplain (']' :: more).length more d
  rw [expand_eq_segments s _ (Nat.le_refl _)]
  rw [List.singleton_append] at hlit
  rw [hlit, String.toList_append]
  exact List.mem_append_left _ (by decide)

theorem Spills.part {p : Part} {rest : List Char} (h : s.Spills rest) (hp : p.IsClosed) :
    s.Spills (p.chars ++ rest) := by
  intro d
  rw [expand_part s hp]
  exact String.toList_append .. ▸ List.mem_append_right _ (h _)

theorem Spills.bracket {cs : List Char}
    (h : s.Spills (skipPercent ((cs.dropWhile (· != ']')).drop 1))) :
    s.Spills (Part.opening name f ++ cs) := by
  intro d
  rw [expand_bracket]
  exact String.toList_append .. ▸ List.mem_append_right _ (h _)

/-- The closing bracket behind the parts is not needed for them, so it stays; and so does one behind
the first closing bracket of theirs. -/
theorem spills_of_bracketed (s : Scene) {ps : List Part} (h : Part.Bracketed ps) :
    (∀ more, s.Spills (Part.written ps ++ ']' :: more)) ∧
    (']' ∈ Part.written ps → ∀ more, s.Spills (skipPercent (Part.beyond ps more))) := by
  induction h with
  | nil => exact ⟨spills_bracket s, fun h => absurd h List.not_mem_nil⟩
  | @plain p ps hp _ ih =>
    refine ⟨fun more => ?_, fun hmem more => ?_⟩
    · rw [Part.written, List.append_assoc]
      exact (ih.1 more).part (Part.isClosed_of_plain hp)
    · rw [Part.beyond_plain hp]
      exact ih.2 ((List.mem_append.1 hmem).resolve_left hp) more
  | @brackets name f value ps hname hf hvalue _ ihvalue ihps =>
    have hbeyond (more : List Char) :
        s.Spills (skipPercent (Part.beyond value ('%' :: (Part.written ps ++ ']' :: more)))) := by
      by_cases hmem : ']' ∈ Part.written value
      · exact ihvalue.2 hmem _
      · rw [Part.beyond_of_not_mem hmem]
        exact ihps.1 more
    refine ⟨fun more => ?_, fun _ more => ?_⟩
    · rw [Part.written_brackets]
      exact .bracket (hvalue.beyond_eq _ ▸ hbeyond more)
    · rw [Part.beyond_brackets]
      exact hbeyond more

/-- Where the value of a bracketed token holds no bracketed token, it is expanded, then the token, and
the expansion goes on behind it. Where it holds one, both end at the first closing bracket, and in what
is left of the text a closing bracket stays. -/
theorem expand_nested (s : Scene) (name : TokenName) (f : FieldName) (value : List Part)
    (rest : List Char) :
    (']' ∉ Part.written value →
      s.expand (String.ofList ((Part.brackets name f value).chars ++ rest)) = do
        let v ← s.expand (String.ofList (Part.written value))
        let first ← s.token name.text f.text v
        let rest ← s.expand (String.ofList rest)
        return first ++ rest) ∧
    (Part.Bracketed value → ']' ∈ Part.written value →
      let left := skipPercent (Part.beyond value ('%' :: rest))
      s.Spills left ∧
      s.expand (String.ofList ((Part.brackets name f value).chars ++ rest)) = do
        let v ← s.meanings (Part.cut value)
        let first ← s.token name.text f.text v
        let rest ← s.expand (String.ofList left)
        return first ++ rest) := by
  refine ⟨fun hflat => ?_, fun hvalue hmem => ⟨(spills_of_bracketed s hvalue).2 hmem _, ?_⟩⟩
  · have hclosed : ∀ p ∈ value, p.IsClosed := fun _ => Part.isClosed_of_not_mem hflat
    rw [expand_part s (p := .brackets name f value) hflat, expand_eq_meanings hclosed, meaning, bind_assoc]
  · rw [Part.chars_brackets, expand_bracket, expand_cut s hvalue, hvalue.beyond_eq]

theorem string_ne : "string" ≠ "" := by decide

theorem string_plain : ∀ c ∈ "string".toList, c ≠ '%' ∧ c ≠ '.' := by simp

/-- The name whose fields are those of the text in the brackets. -/
def stringName : TokenName := ⟨"string", string_ne, string_plain⟩

def ofText (field : FieldName) (value : List Part) : Part := .brackets stringName field value

/-- The text `%string.reverse[%string.tolower[ABC]%]%`. -/
def backwards : Part :=
  ofText ⟨"reverse", by decide, by simp⟩
    [ofText ⟨"tolower", by decide, by simp⟩ [.literal "ABC" (by decide)]]

/-- The text `%string.cap[%string.reverse[%string.tolower[ABC]%]%]%`. -/
def heading : Part := ofText ⟨"cap", by decide, by simp⟩ [backwards]

theorem expand_nested_heading :
    String.ofList (heading.chars ++ [' ', 'x']) =
      "%string.cap[%string.reverse[%string.tolower[ABC]%]%]% x" ∧
    Part.Bracketed [backwards] ∧ ']' ∈ Part.written [backwards] ∧
    quoting.Spills (skipPercent (Part.beyond [backwards] ('%' :: [' ', 'x']))) ∧
    (quoting.expand (String.ofList (heading.chars ++ [' ', 'x'])) { dice := default }).1 =
      "Cba] x" ∧
    ']' ∉ Part.written [.literal "ABC" (by decide)] ∧
    (quoting.expand "%string.tolower[ABC]%!" { dice := default }).1 = "abc!" := by
  have hvalue : Part.Bracketed [backwards] :=
    .brackets (by decide) (by decide) (.brackets (by decide) (by decide)
      (.plain (by decide) .nil) .nil) .nil
  have hmem : ']' ∈ Part.written [backwards] := by decide
  obtain ⟨hspills, hnested⟩ := (expand_nested quoting stringName ⟨"cap", by decide, by simp⟩
    [backwards] [' ', 'x']).2 hvalue hmem
  have hflat := (expand_nested quoting stringName ⟨"tolower", by decide, by simp⟩
    [.literal "ABC" (by decide)] ['!']).1 (by decide)
  refine ⟨by decide, hvalue, hmem, hspills, ?_, by decide, ?_⟩
  · rw [heading, ofText, hnested]
    decide +kernel
  · have htext : "%string.tolower[ABC]%!" = String.ofList ((ofText ⟨"tolower", by decide, by simp⟩
        [.literal "ABC" (by decide)]).chars ++ ['!']) := by decide
    rw [htext, ofText, hflat]
    decide +kernel

/-- The bracket that was to close the outer value is left over. -/
theorem backwards_spills :
    String.ofList backwards.chars = "%string.reverse[%string.tolower[ABC]%]%" ∧
    (quoting.expand (String.ofList backwards.chars) { dice := default }).1 = "cba]" ∧
    ((do
      let v ← quoting.expand "%string.tolower[ABC]%"
      quoting.token "string" "reverse" v) { dice := default }).1 = "cba" := by
  decide +kernel

end Scene

end MudTrigger
