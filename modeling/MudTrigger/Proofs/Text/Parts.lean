import MudTrigger.Game.Expand

/-!
# Written templates

`Part` is what a template is written from: literal text, `%%` for a percent sign, and tokens with a
name, or with a name and a field, or with a name, a field and a value between brackets, which is
written from parts in turn. `Scene.meanings` is what the parts stand for one after another, from left
to right, the parts of a value before the token they belong to.

Expanding what was written gives what was meant (`Scene.expand_written`): every token ends where it was
written to end, whatever stands next to it, and the text that a token stands for is not looked at again.
A bracket closes at the first `]`, so the value between brackets must not have one.
-/

set_option autoImplicit false

namespace MudTrigger

/-! ## Reading one part -/

namespace Template

variable {name field value cs rest : List Char} {fuel : Nat}

theorem splitToken_name (h : ∀ c ∈ name, c ≠ '%' ∧ c ≠ '.') (rest : List Char) :
    splitToken (name ++ '%' :: rest) = (name, [], [], rest) := by
  have hall : ∀ c ∈ name, (c != '%' && c != '.') = true := by simpa using h
  rw [splitToken, List.takeWhile_append_of_pos hall, List.dropWhile_append_of_pos hall]
  simp

theorem splitToken_dot (h : ∀ c ∈ name, c ≠ '%' ∧ c ≠ '.')
    (hf : splitField cs = (field, value, '%' :: rest)) :
    splitToken (name ++ '.' :: cs) = (name, field, value, rest) := by
  have hall : ∀ c ∈ name, (c != '%' && c != '.') = true := by simpa using h
  rw [splitToken, List.takeWhile_append_of_pos hall, List.dropWhile_append_of_pos hall]
  simp [hf]

theorem splitField_name (h : ∀ c ∈ field, c ≠ '%' ∧ c ≠ '[') (rest : List Char) :
    splitField (field ++ '%' :: rest) = (field, [], '%' :: rest) := by
  have hall : ∀ c ∈ field, (c != '%' && c != '[') = true := by simpa using h
  rw [splitField, List.takeWhile_append_of_pos hall, List.dropWhile_append_of_pos hall]
  simp

theorem splitField_brackets (h : ∀ c ∈ field, c ≠ '%' ∧ c ≠ '[') (hv : ']' ∉ value)
    (rest : List Char) :
    splitField (field ++ '[' :: (value ++ ']' :: rest)) = (field, value, rest) := by
  have hall : ∀ c ∈ field, (c != '%' && c != '[') = true := by simpa using h
  have hvalue : ∀ c ∈ value, (c != ']') = true := fun c hc =>
    bne_iff_ne.2 fun heq => hv (heq ▸ hc)
  rw [splitField, List.takeWhile_append_of_pos hall, List.dropWhile_append_of_pos hall]
  simp [List.takeWhile_append_of_pos hvalue, List.dropWhile_append_of_pos hvalue]

theorem parseWithin_token (hne : cs.head? ≠ some '%')
    (hsplit : splitToken cs = (name, field, value, rest)) :
    parseWithin (fuel + 1) ('%' :: cs) =
      .token (String.ofList name) (String.ofList field) (parseWithin fuel value) ::
        parseWithin fuel rest := by
  have hlit : literalPart ('%' :: cs) = [] := rfl
  have hdrop : ('%' :: cs).dropWhile (· != '%') = '%' :: cs := rfl
  rw [parseWithin, hlit, hdrop, List.nil_append]
  split
  · next heq => simp_all
  · next heq =>
    obtain rfl := (List.cons.inj heq).2
    rw [hsplit]
  · next hno => exact (hno _ rfl).elim

end Template

namespace Scene

theorem segments_append (s : Scene) (xs ys : Template) (d : Draft) :
    s.segments (xs ++ ys) d =
      ((s.segments xs d).1 ++ (s.segments ys (s.segments xs d).2).1,
        (s.segments ys (s.segments xs d).2).2) := by
  induction xs generalizing d with
  | nil => exact Prod.ext (String.empty_append).symm rfl
  | cons x xs ih =>
    have hcons (zs : Template) : s.segments (x :: zs) d =
        ((s.segment x d).1 ++ (s.segments zs (s.segment x d).2).1,
          (s.segments zs (s.segment x d).2).2) := rfl
    rw [List.cons_append, hcons, hcons, ih, String.append_assoc]

theorem segments_literalPart (s : Scene) (cs : List Char) (d : Draft) :
    s.segments (Template.literalPart cs) d = (String.ofList (cs.takeWhile (· != '%')), d) := by
  unfold Template.literalPart
  cases h : cs.takeWhile (· != '%') with
  | nil => rfl
  | cons c cs => exact Prod.ext String.append_empty rfl

/-- Literal text stands for itself, whatever follows it. -/
theorem segments_literal (s : Scene) {text : List Char} (h : '%' ∉ text) (fuel : Nat)
    (cs : List Char) (d : Draft) :
    s.segments (Template.parseWithin fuel (text ++ cs)) d =
      (String.ofList text ++ (s.segments (Template.parseWithin fuel cs) d).1,
        (s.segments (Template.parseWithin fuel cs) d).2) := by
  have hall : ∀ c ∈ text, (c != '%') = true := fun c hc => bne_iff_ne.2 fun heq => h (heq ▸ hc)
  cases fuel <;>
  simp only [Template.parseWithin, segments_append, segments_literalPart,
    List.takeWhile_append_of_pos hall, List.dropWhile_append_of_pos hall, String.ofList_append,
    String.append_assoc]

end Scene

/-! ## What a template is written from -/

/-- A name in a token ends at a percent sign or a dot. -/
structure TokenName where
  text : String
  nonempty : text ≠ ""
  plain : ∀ c ∈ text.toList, c ≠ '%' ∧ c ≠ '.'

/-- A field in a token ends at a percent sign or a bracket. -/
structure FieldName where
  text : String
  nonempty : text ≠ ""
  plain : ∀ c ∈ text.toList, c ≠ '%' ∧ c ≠ '['

inductive Part where
  | literal (text : String) (plain : '%' ∉ text.toList)
  | percent
  | bare (name : TokenName)
  | field (name : TokenName) (f : FieldName)
  | brackets (name : TokenName) (f : FieldName) (value : List Part)

namespace Part

mutual

/-- The part as it is written. -/
def chars : Part → List Char
  | literal text _ => text.toList
  | percent => ['%', '%']
  | bare name => '%' :: (name.text.toList ++ ['%'])
  | field name f => '%' :: (name.text.toList ++ '.' :: (f.text.toList ++ ['%']))
  | brackets name f value =>
    '%' :: (name.text.toList ++ '.' :: (f.text.toList ++ '[' :: (written value ++ [']', '%'])))

/-- The parts written side by side. -/
def written : List Part → List Char
  | [] => []
  | p :: ps => p.chars ++ written ps

end

/-- The value between the brackets of the part has no closing bracket in it. -/
def IsClosed : Part → Prop
  | brackets _ _ value => ']' ∉ written value
  | _ => True

instance : DecidablePred IsClosed
  | literal _ _ | percent | bare _ | field _ _ => .isTrue trivial
  | brackets _ _ value => inferInstanceAs (Decidable (']' ∉ written value))

end Part

namespace Scene

mutual

/-- What a part stands for by itself. -/
def meaning (s : Scene) : Part → Expand String
  | .literal text _ => pure text
  | .percent => pure "%"
  | .bare name => s.token name.text "" ""
  | .field name f => s.token name.text f.text ""
  | .brackets name f value => do
    let value ← s.meanings value
    s.token name.text f.text value

def meanings (s : Scene) : List Part → Expand String
  | [] => pure ""
  | p :: ps => do
    let first ← s.meaning p
    let rest ← s.meanings ps
    return first ++ rest

end

end Scene

namespace Part

theorem chars_subset_written {p : Part} {ps : List Part} (h : p ∈ ps) : p.chars ⊆ written ps := by
  induction ps with
  | nil => cases h
  | cons q ps ih =>
    rw [written]
    rcases List.mem_cons.1 h with rfl | h
    · exact List.subset_append_left _ _
    · exact List.subset_append_of_subset_right _ (ih h)

/-- What has no closing bracket in it has no brackets at all. -/
theorem isClosed_of_not_mem {p : Part} {ps : List Part} (h : ']' ∉ written ps) (hp : p ∈ ps) :
    p.IsClosed := by
  cases p with
  | brackets name f value =>
    have hmem : ']' ∈ (brackets name f value).chars := by simp [chars]
    exact absurd (chars_subset_written hp hmem) h
  | literal | percent | bare | field => trivial

end Part

/-- A token is not taken for a doubled percent sign. -/
theorem TokenName.head?_append (name : TokenName) (cs : List Char) :
    (name.text.toList ++ cs).head? ≠ some '%' := by
  obtain ⟨c, rest, hcs⟩ := List.exists_cons_of_ne_nil
    (fun h => name.nonempty (String.toList_eq_nil_iff.1 h))
  have hc := (name.plain c (hcs ▸ List.mem_cons_self)).1
  rw [hcs]
  simpa using hc

namespace Scene

variable {s : Scene} {fuel : Nat} {name field value cs rest : List Char}

theorem segments_token (s : Scene) (fuel : Nat) (hne : cs.head? ≠ some '%')
    (hsplit : Template.splitToken cs = (name, field, value, rest)) :
    s.segments (Template.parseWithin (fuel + 1) ('%' :: cs)) = do
      let v ← s.segments (Template.parseWithin fuel value)
      let first ← s.token (String.ofList name) (String.ofList field) v
      let rest ← s.segments (Template.parseWithin fuel rest)
      return first ++ rest := by
  rw [Template.parseWithin_token hne hsplit]
  rfl

theorem segments_nil (s : Scene) (fuel : Nat) :
    s.segments (Template.parseWithin fuel []) = pure "" := by
  cases fuel <;> rfl

/-- One part is expanded to its meaning, and the expansion goes on behind it. -/
theorem segments_part {p : Part} (rest : List Char) (hp : p.IsClosed)
    (hvalue : ∀ name f value, p = .brackets name f value → ∀ fuel,
      (Part.written value).length ≤ fuel →
        s.segments (Template.parseWithin fuel (Part.written value)) = s.meanings value)
    (hfuel : (p.chars ++ rest).length ≤ fuel) :
    ∃ fuel', rest.length ≤ fuel' ∧
      s.segments (Template.parseWithin fuel (p.chars ++ rest)) = do
        let first ← s.meaning p
        let rest ← s.segments (Template.parseWithin fuel' rest)
        return first ++ rest := by
  rw [List.length_append] at hfuel
  -- Every part but literal text starts with a percent sign, which takes one unit of the fuel.
  have hstart (hpos : 0 < p.chars.length) : ∃ n, fuel = n + 1 ∧ rest.length ≤ n :=
    ⟨fuel - 1, by omega, by omega⟩
  cases p with
  | literal text plain =>
    refine ⟨fuel, by omega, ?_⟩
    funext d
    rw [Part.chars, segments_literal s plain, String.ofList_toList]
    rfl
  | percent =>
    obtain ⟨n, rfl, hn⟩ := hstart (by simp [Part.chars])
    exact ⟨n, hn, rfl⟩
  | bare name =>
    obtain ⟨n, rfl, hn⟩ := hstart (by simp [Part.chars])
    have htext : (Part.bare name).chars ++ rest = '%' :: (name.text.toList ++ '%' :: rest) := by
      simp [Part.chars]
    refine ⟨n, hn, ?_⟩
    rw [htext, segments_token s n (name.head?_append _) (Template.splitToken_name name.plain rest),
      segments_nil, String.ofList_toList]
    rfl
  | field name f =>
    obtain ⟨n, rfl, hn⟩ := hstart (by simp [Part.chars])
    have htext : (Part.field name f).chars ++ rest =
        '%' :: (name.text.toList ++ '.' :: (f.text.toList ++ '%' :: rest)) := by
      simp [Part.chars]
    have hsplit := Template.splitToken_dot name.plain (Template.splitField_name f.plain rest)
    refine ⟨n, hn, ?_⟩
    rw [htext, segments_token s n (name.head?_append _) hsplit, segments_nil,
      String.ofList_toList, String.ofList_toList]
    rfl
  | brackets name f value =>
    obtain ⟨n, rfl, hn⟩ := hstart (by simp [Part.chars])
    have htext : (Part.brackets name f value).chars ++ rest = '%' :: (name.text.toList ++ '.' ::
        (f.text.toList ++ '[' :: (Part.written value ++ ']' :: '%' :: rest))) := by
      simp [Part.chars]
    have hclosed : ']' ∉ Part.written value := hp
    have hsplit := Template.splitToken_dot name.plain
      (Template.splitField_brackets f.plain hclosed ('%' :: rest))
    have hn' : (Part.written value).length ≤ n := by
      simp [Part.chars] at hfuel
      omega
    refine ⟨n, hn, ?_⟩
    rw [htext, segments_token s n (name.head?_append _) hsplit, hvalue name f value rfl n hn',
      String.ofList_toList, String.ofList_toList, meaning, bind_assoc]

theorem segments_written (s : Scene) : ∀ (ps : List Part) (fuel : Nat), (∀ p ∈ ps, p.IsClosed) →
    (Part.written ps).length ≤ fuel →
      s.segments (Template.parseWithin fuel (Part.written ps)) = s.meanings ps
  | [], fuel, _, _ => by rw [Part.written, segments_nil, meanings]
  | p :: ps, fuel, h, hfuel => by
    rw [Part.written] at hfuel ⊢
    obtain ⟨hp, hps⟩ := List.forall_mem_cons.1 h
    obtain ⟨fuel', hrest, hs⟩ := segments_part (Part.written ps) hp
      (fun name f value heq fuel' hf =>
        have hvalue : ']' ∉ Part.written value := by subst heq; exact hp
        segments_written s value fuel' (fun _ => Part.isClosed_of_not_mem hvalue) hf) hfuel
    rw [hs, meanings, segments_written s ps fuel' hps hrest]
termination_by ps => sizeOf ps
decreasing_by
  · subst heq
    rw [List.cons.sizeOf_spec, Part.brackets.sizeOf_spec]
    omega
  · rw [List.cons.sizeOf_spec]
    omega

theorem meanings_append (s : Scene) (ps qs : List Part) :
    s.meanings (ps ++ qs) = do
      let before ← s.meanings ps
      let after ← s.meanings qs
      return before ++ after := by
  induction ps with
  | nil =>
    funext d
    exact Prod.ext String.empty_append.symm rfl
  | cons p ps ih =>
    funext d
    simp only [List.cons_append, meanings, ih]
    exact Prod.ext (String.append_assoc).symm rfl

theorem expand_eq_meanings {ps : List Part} (h : ∀ p ∈ ps, p.IsClosed) :
    s.expand (String.ofList (Part.written ps)) = s.meanings ps := by
  rw [expand, Template.parse, String.toList_ofList, segments_written s ps _ h (Nat.le_refl _)]

/-- What was written expands to what it means. So does any part of it, whatever stands before and
behind it, and what a part stands for goes into the text as it is. -/
theorem expand_written {ps : List Part} (h : ∀ p ∈ ps, p.IsClosed) :
    s.expand (String.ofList (Part.written ps)) = s.meanings ps ∧
    ∀ before p after, ps = before ++ p :: after →
      s.expand (String.ofList (Part.written ps)) = do
        let first ← s.expand (String.ofList (Part.written before))
        let middle ← s.meaning p
        let last ← s.expand (String.ofList (Part.written after))
        return first ++ middle ++ last := by
  refine ⟨expand_eq_meanings h, ?_⟩
  rintro before p after rfl
  obtain ⟨hbefore, hbehind⟩ := List.forall_mem_append.1 h
  have hafter := (List.forall_mem_cons.1 hbehind).2
  rw [expand_eq_meanings h, expand_eq_meanings hbefore, expand_eq_meanings hafter, meanings_append,
    meanings]
  simp [String.append_assoc]

/-- A scene in which the value of one variable is spelled like a token. -/
def quoting : Scene :=
  { host := Host.plain fun _ _ _ => none, world := {}, owner := Uid.room 0, globals := ∅
    locals := Variables.setAll ∅ [("rate", "%who%"), ("who", "ann")] }

/-- The text `now %rate%%who%%%%string.toupper[dear %who%]%`. -/
def offer : List Part :=
  let who : TokenName := ⟨"who", by decide, by simp⟩
  [.literal "now " (by decide), .bare ⟨"rate", by decide, by simp⟩, .bare who, .percent,
    .brackets ⟨"string", by decide, by simp⟩ ⟨"toupper", by decide, by simp⟩
      [.literal "dear " (by decide), .bare who]]

theorem expand_written_offer :
    (∀ p ∈ offer, p.IsClosed) ∧
    String.ofList (Part.written offer) = "now %rate%%who%%%%string.toupper[dear %who%]%" ∧
    quoting.expand (String.ofList (Part.written offer)) = quoting.meanings offer ∧
    (quoting.meanings offer { dice := default }).1 = "now %who%ann%DEAR ANN" := by
  have hclosed : ∀ p ∈ offer, p.IsClosed := by decide
  exact ⟨hclosed, by decide, (expand_written hclosed).1, by decide +kernel⟩

end Scene

end MudTrigger
