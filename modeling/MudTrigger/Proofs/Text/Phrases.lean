import MudTrigger.Proofs.Text.Bytes
import MudTrigger.Proofs.Text.Lines

/-!
# Words that wake a trigger are whole words

`Chars.Unbroken` is a word without ASCII blanks and ASCII punctuation marks. Such a word occurs in a
text if it is one of the maximal runs without such marks, up to the case of ASCII letters
(`Chars.hasPhrase_iff`). `Listed` is a word list, its words bare or in quotes and with blanks between
them; its phrases are these words (`Chars.phrasesWithin_listed`). `Text.words_wake` says both of the
bytes of a text.
-/

set_option autoImplicit false

namespace MudTrigger

namespace Chars

variable {word cs : List Char} {b : Bool}

/-- A word that no boundary breaks. -/
structure Unbroken (word : List Char) : Prop where
  ne_nil : word ≠ []
  unbroken : ∀ c ∈ word, isBoundary c = false

theorem unbroken_iff : Unbroken word ↔ word ≠ [] ∧ word.all (!isBoundary ·) = true := by
  refine ⟨fun h => ⟨h.ne_nil, ?_⟩, fun h => ⟨h.1, ?_⟩⟩
  · simpa using h.unbroken
  · simpa using h.2

instance (word : List Char) : Decidable (Unbroken word) := decidable_of_iff _ unbroken_iff.symm

/-! ## Where a word occurs -/

@[simp] theorem fold_nil : fold [] = [] := rfl

@[simp] theorem fold_cons (c : Char) (cs : List Char) : fold (c :: cs) = c.toLower :: fold cs := rfl

theorem fold_eq_nil : fold cs = [] ↔ cs = [] := List.map_eq_nil_iff

/-- The first run and the others. -/
theorem splitOnP_eq_cons {α : Type} (p : α → Bool) (l : List α) :
    l.splitOnP p = l.takeWhile (!p ·) :: (l.splitOnP p).tail := by
  induction l with
  | nil => rfl
  | cons x l ih =>
    rw [List.splitOnP_cons_eq_if_modifyHead]
    cases hx : p x with
    | true => simp [hx]
    | false =>
      rw [ih]
      simp [hx]

/-- A text starts with a word that ends there, if the word is the first run. -/
theorem startsWith_iff (hw : ∀ c ∈ word, isBoundary c = false) (cs : List Char) :
    (startsWith word cs && endsAt (cs.drop word.length)) = true ↔
      fold (cs.takeWhile (!isBoundary ·)) = fold word := by
  induction word generalizing cs with
  | nil =>
    cases cs with
    | nil => simp [startsWith, endsAt]
    | cons c cs => cases hc : isBoundary c <;> simp [startsWith, endsAt, hc]
  | cons w word ih =>
    obtain ⟨hw1, hws⟩ := List.forall_mem_cons.1 hw
    cases cs with
    | nil => simp [startsWith]
    | cons c cs =>
      cases hc : isBoundary c with
      | true =>
        have hne : w.toLower ≠ c.toLower := fun he => by
          have hboundary := congrArg isBoundary he
          rw [isBoundary_toLower, isBoundary_toLower, hw1, hc] at hboundary
          cases hboundary
        simp [startsWith, hc, hne]
      | false =>
        have ih := ih hws cs
        rw [startsWith, Bool.and_eq_true] at ih
        have hfirst : (c :: cs).takeWhile (!isBoundary ·) = c :: cs.takeWhile (!isBoundary ·) :=
          List.takeWhile_cons_of_pos (by simp [hc])
        simp only [startsWith, hfirst, fold_cons, List.isPrefixOf_cons_cons, List.length_cons,
          List.drop_succ_cons, List.cons.injEq, ← ih, Bool.and_eq_true, beq_iff_eq, and_assoc]
        rw [eq_comm]

theorem occursFrom_iff (hw : Unbroken word) (b : Bool) (cs : List Char) :
    occursFrom word b cs = true ↔
      b = true ∧ fold (cs.takeWhile (!isBoundary ·)) = fold word ∨
        ∃ run ∈ (cs.splitOnP isBoundary).tail, fold run = fold word := by
  have hne : fold word ≠ [] := mt fold_eq_nil.1 hw.ne_nil
  induction cs generalizing b with
  | nil => simp [occursFrom, hne.symm]
  | cons c cs ih =>
    have hlater : occursFrom word (isBoundary c) cs = true ↔ _ := ih (isBoundary c)
    rw [occursFrom, Bool.or_eq_true, Bool.and_assoc, Bool.and_eq_true, startsWith_iff hw.unbroken,
      hlater, List.splitOnP_cons_eq_if_modifyHead]
    cases hc : isBoundary c with
    | true =>
      -- A boundary ends the first run, so the next one may be the word.
      rw [splitOnP_eq_cons isBoundary cs]
      simp [hc, hne.symm]
    | false =>
      rw [splitOnP_eq_cons isBoundary cs]
      simp [hc]

/-- A word occurs in a text if it is one of its runs. -/
theorem hasPhrase_iff (hw : Unbroken word) (cs : List Char) :
    hasPhrase word cs = true ↔ ∃ run ∈ runs isBoundary cs, fold run = fold word := by
  have hpresent : ∀ {run : List Char}, fold run = fold word → run ≠ [] := fun he hrun => by
    rw [hrun] at he
    exact hw.ne_nil (fold_eq_nil.1 he.symm)
  have hempty : word.isEmpty = false := List.isEmpty_eq_false_iff.2 hw.ne_nil
  rw [hasPhrase, hempty, Bool.not_false, Bool.true_and, occursFrom_iff hw, runs,
    splitOnP_eq_cons isBoundary cs]
  constructor
  · rintro (⟨-, he⟩ | ⟨run, hrun, he⟩)
    · exact ⟨_, List.mem_filter.2 ⟨List.mem_cons_self, by simpa using hpresent he⟩, he⟩
    · exact ⟨run, List.mem_filter.2 ⟨List.mem_cons_of_mem _ hrun, by simpa using hpresent he⟩, he⟩
  · rintro ⟨run, hrun, he⟩
    rcases List.mem_cons.1 (List.mem_filter.1 hrun).1 with rfl | hrun
    · exact .inl ⟨rfl, he⟩
    · exact .inr ⟨run, hrun, he⟩

/-- The same for the bytes. -/
theorem hasPhrase_iff_bytes (hw : Unbroken word) (cs : List Char) :
    hasPhrase word cs = true ↔
      ∃ run ∈ Bytes.runs (bytes cs), Bytes.fold run = Bytes.fold (bytes word) := by
  rw [hasPhrase_iff hw, Bytes.runs_chars]
  constructor
  · rintro ⟨run, hrun, he⟩
    refine ⟨bytes run, List.mem_map_of_mem hrun, ?_⟩
    rw [Bytes.fold_chars, Bytes.fold_chars, he]
  · rintro ⟨_, hbytes, he⟩
    obtain ⟨run, hrun, rfl⟩ := List.mem_map.1 hbytes
    rw [Bytes.fold_chars, Bytes.fold_chars] at he
    exact ⟨run, hrun, bytes_injective he⟩

end Chars

/-! ## Word lists -/

/-- A word in a list, bare or in quotes. -/
structure ListedWord where
  word : List Char
  quoted : Bool
  unbroken : Chars.Unbroken word
  solid : Chars.Solid word

/-- The entry as it is written. -/
def ListedWord.chars (e : ListedWord) : List Char :=
  if e.quoted then '"' :: (e.word ++ ['"']) else e.word

theorem ListedWord.chars_ne_nil (e : ListedWord) : e.chars ≠ [] := by
  rw [chars]
  split
  · exact List.cons_ne_nil _ _
  · exact e.unbroken.ne_nil

theorem ListedWord.head?_ne (e : ListedWord) (rest : List Char) :
    (e.chars ++ rest).head? ≠ some '*' := by
  obtain ⟨word, quoted, ⟨hne, hunbroken⟩, hsolid⟩ := e
  cases quoted with
  | true => exact nofun
  | false =>
    obtain ⟨w, ws, rfl⟩ := List.exists_cons_of_ne_nil hne
    intro he
    cases he
    exact absurd (hunbroken '*' List.mem_cons_self) (by decide)

/-- A list of these entries, with blanks between them. -/
inductive Listed : List ListedWord → List Char → Prop
  | nil {gap : List Char} : (∀ c ∈ gap, Chars.isBlank c = true) → Listed [] gap
  | cons {gap rest : List Char} (e : ListedWord) {es : List ListedWord} :
    (∀ c ∈ gap, Chars.isBlank c = true) → Listed es rest →
    (∀ c, rest.head? = some c → Chars.isBlank c = true) →
    Listed (e :: es) (gap ++ (e.chars ++ rest))

namespace Chars

variable {cs rest : List Char} {e : ListedWord} {es : List ListedWord}

theorem quote_not_mem (hw : ∀ c ∈ cs, isBoundary c = false) : '"' ∉ cs := fun hm =>
  absurd (hw _ hm) (by decide)

/-- A phrase in quotes. -/
theorem phrasesWithin_quoted (hne : cs ≠ []) (hquote : '"' ∉ cs) (rest : List Char) (fuel : Nat) :
    phrasesWithin (fuel + 1) ('"' :: (cs ++ '"' :: rest)) = cs :: phrasesWithin fuel rest := by
  have hall : ∀ c ∈ cs, (c != '"') = true := fun c hc => bne_iff_ne.2 fun he => hquote (he ▸ hc)
  have htrim : trimStart ('"' :: (cs ++ '"' :: rest)) = '"' :: (cs ++ '"' :: rest) := rfl
  rw [phrasesWithin, htrim]
  simp only [List.takeWhile_append_of_pos hall, List.dropWhile_append_of_pos hall]
  simp [hne]

/-- A bare word. -/
theorem phrasesWithin_bare (hsolid : Solid cs) (hquote : '"' ∉ cs)
    (hrest : ∀ c, rest.head? = some c → isBlank c = true) (fuel : Nat) :
    phrasesWithin (fuel + 1) (cs ++ rest) = cs :: phrasesWithin fuel rest := by
  have hfirst := hsolid.firstWord_append hrest
  have hafter := hsolid.afterWord_append hrest
  rw [phrasesWithin, hsolid.trimStart_append]
  split
  · next heq => exact absurd (List.append_eq_nil_iff.1 heq).1 hsolid.ne_nil
  · next heq =>
    obtain ⟨w, ws, rfl⟩ := List.exists_cons_of_ne_nil hsolid.ne_nil
    obtain ⟨rfl, -⟩ := List.cons.inj heq
    exact absurd List.mem_cons_self hquote
  · next heq => rw [← heq, hfirst, hafter]

/-- A word is read as it is listed, and the words behind it are read from what is left. -/
theorem phrasesWithin_word (e : ListedWord)
    (hrest : ∀ c, rest.head? = some c → isBlank c = true) (fuel : Nat) :
    phrasesWithin (fuel + 1) (e.chars ++ rest) = e.word :: phrasesWithin fuel rest := by
  have hquote := quote_not_mem e.unbroken.unbroken
  cases hq : e.quoted with
  | true =>
    have htext : e.chars ++ rest = '"' :: (e.word ++ '"' :: rest) := by
      simp [ListedWord.chars, hq]
    rw [htext, phrasesWithin_quoted e.unbroken.ne_nil hquote]
  | false =>
    have htext : e.chars = e.word := by simp [ListedWord.chars, hq]
    rw [htext, phrasesWithin_bare e.solid hquote hrest]

theorem phrasesWithin_blanks {gap : List Char} (hgap : ∀ c ∈ gap, isBlank c = true) (fuel : Nat)
    (cs : List Char) : phrasesWithin fuel (gap ++ cs) = phrasesWithin fuel cs := by
  cases fuel with
  | zero => rfl
  | succ fuel =>
    have htrim : trimStart (gap ++ cs) = trimStart cs := List.dropWhile_append_of_pos hgap
    rw [phrasesWithin, phrasesWithin, htrim]

/-- The phrases of a list are the words that it was made of. -/
theorem phrasesWithin_listed (h : Listed es cs) {fuel : Nat} (hfuel : cs.length ≤ fuel) :
    phrasesWithin fuel cs = es.map ListedWord.word := by
  induction h generalizing fuel with
  | @nil gap hgap =>
    rw [← List.append_nil gap, phrasesWithin_blanks hgap]
    cases fuel <;> rfl
  | @cons gap rest e es hgap hes hrest ih =>
    have hpos : 0 < e.chars.length := List.length_pos_iff.2 e.chars_ne_nil
    rw [List.length_append, List.length_append] at hfuel
    obtain ⟨n, rfl⟩ : ∃ n, fuel = n + 1 := ⟨fuel - 1, by omega⟩
    rw [phrasesWithin_blanks hgap, phrasesWithin_word e hrest, ih (by omega), List.map_cons]

end Chars

/-- No word starts with a star. -/
theorem Listed.isStar {list : String} {es : List ListedWord} (h : Listed es list.toList) :
    Text.isStar list = false := by
  refine beq_eq_false_iff_ne.2 fun hstar => ?_
  have hgap : ∀ {gap : List Char}, (∀ c ∈ gap, Chars.isBlank c = true) → gap.head? ≠ some '*' :=
    fun hgap he => absurd (hgap _ (List.mem_of_head? he)) (by decide)
  generalize list.toList = cs at h hstar
  cases h with
  | nil hblank => exact hgap hblank hstar
  | @cons gap rest e es hblank hes hrest =>
    cases gap with
    | cons c gap => exact hgap hblank hstar
    | nil => exact e.head?_ne _ hstar

/-- A word without ASCII blanks and punctuation marks occurs in a text if, up to the case of ASCII
letters, it is one of the maximal runs of bytes without such marks; a list of such words matches a text
if one of them is one of these runs. -/
theorem Text.words_wake (text : String) :
    (∀ word : String, Chars.Unbroken word.toList →
      (hasPhrase word text = true ↔
        ∃ run ∈ Bytes.runs (bytes text), Bytes.fold run = Bytes.fold (bytes word))) ∧
    ∀ (es : List ListedWord) (list : String), Listed es list.toList →
      (matchesList text list = true ↔ ∃ e ∈ es, ∃ run ∈ Bytes.runs (bytes text),
        Bytes.fold run = Bytes.fold (Chars.bytes e.word)) := by
  refine ⟨fun word hw => ?_, fun es list hlist => ?_⟩
  · rw [bytes_eq, bytes_eq, ← Chars.hasPhrase_iff_bytes hw, hasPhrase]
  · rw [matchesList, hlist.isStar, Bool.false_or, Chars.phrases,
      Chars.phrasesWithin_listed hlist (Nat.le_refl _), List.any_map, List.any_eq_true, bytes_eq]
    simp only [Function.comp_apply, Chars.hasPhrase_iff_bytes (ListedWord.unbroken _)]

/-- The words `axe` and, in quotes, `Élan`. -/
def wares : List ListedWord :=
  [⟨['a', 'x', 'e'], false, by decide, by decide⟩, ⟨['É', 'l', 'a', 'n'], true, by decide, by decide⟩]

theorem wares_listed : Listed wares " axe\t\"Élan\"".toList := by
  have hlist : " axe\t\"Élan\"".toList =
      [' '] ++ (['a', 'x', 'e'] ++ (['\t'] ++ (['"', 'É', 'l', 'a', 'n', '"'] ++ []))) := by decide
  have hspace : ∀ c ∈ [' '], Chars.isBlank c = true := List.all_eq_true.1 (by decide)
  have htab : ∀ c ∈ ['\t'], Chars.isBlank c = true := List.all_eq_true.1 (by decide)
  rw [hlist]
  exact .cons _ hspace (.cons _ htab (.nil nofun) nofun) (by rintro _ ⟨⟩; decide)

/-- Letters beyond ASCII are told apart by their case. -/
theorem words_wake_wares :
    Chars.Unbroken "axe".toList ∧ Listed wares " axe\t\"Élan\"".toList ∧
    Text.hasPhrase "axe" "Whose AXE, élan?" = true ∧
    Text.matchesList "Axes (ÉLAN)" " axe\t\"Élan\"" = true ∧
    Text.matchesList "Axes, élan!" " axe\t\"Élan\"" = false := by
  have hword : Chars.Unbroken "axe".toList := by decide
  refine ⟨hword, wares_listed, ?_, ?_, ?_⟩
  · exact ((Text.words_wake _).1 _ hword).2 (by decide +kernel)
  · exact ((Text.words_wake _).2 _ _ wares_listed).2 (by decide +kernel)
  · exact Bool.eq_false_iff.2 (mt ((Text.words_wake _).2 _ _ wares_listed).1 (by decide +kernel))

end MudTrigger
