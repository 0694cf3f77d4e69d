import MudTrigger.Game.Delay
import MudTrigger.Proofs.Blocks.Links
import MudTrigger.Proofs.Expression.Eval
import Mathlib.Data.List.TakeWhile

/-!
# Lines of which some are waits

A line is `IsScripted` if it stays within its script: control flow, a command of scripts, or an `echo`.
The command of such a line is still the same when the line is expanded (`command_expand`). A wait
without variables is valid at every pulse and hour or at none (`pulses_ok`).

`Recut c text text'`: the second line is the first, or a comment in the place of a valid wait. Neither
opens, continues or closes a block, so scripts whose lines are recut have the same blocks
(`Script.recut_compile`).
-/

set_option autoImplicit false

namespace MudTrigger

namespace Chars

variable {b w t : List Char}

/-- The first word of a text stands behind the blanks and before the next one. -/
theorem splitWord_fst (hb : ∀ c ∈ b, isBlank c = true) (hne : w ≠ [])
    (hw : (w.all (!isBlank ·)) = true) (ht : ∀ c ∈ t.head?, isBlank c = true) :
    (splitWord (b ++ (w ++ t))).1 = w := by
  have htrim : trimStart (b ++ (w ++ t)) = w ++ t := by
    rw [trimStart, List.dropWhile_append_of_pos hb]
    exact trimStart_word hne hw t
  have htake : t.takeWhile (!isBlank ·) = [] := by
    cases t with
    | nil => rfl
    | cons c t => rw [List.takeWhile_cons_of_neg (by simp [ht c rfl])]
  rw [splitWord, htrim, firstWord, List.takeWhile_append_of_pos (List.all_eq_true.1 hw), htake,
    List.append_nil]

/-- A text is blanks, its first word, and the rest, which begins with a blank. -/
theorem splitWord_parts (cs : List Char) :
    ∃ b t, cs = b ++ ((splitWord cs).1 ++ t) ∧ (∀ c ∈ b, isBlank c = true) ∧
      (∀ c ∈ t.head?, isBlank c = true) := by
  refine ⟨cs.takeWhile isBlank, afterWord (trimStart cs), ?_, fun c hc => ?_, fun c hc => ?_⟩
  · rw [splitWord, firstWord, afterWord, List.takeWhile_append_dropWhile, trimStart,
      List.takeWhile_append_dropWhile]
  · exact List.mem_takeWhile_imp hc
  · have hhead := List.head?_dropWhile_not (!isBlank ·) (trimStart cs)
    rw [show (trimStart cs).dropWhile (!isBlank ·) = afterWord (trimStart cs) from rfl, hc] at hhead
    simpa using hhead

theorem all_splitWord (cs : List Char) : ((splitWord cs).1.all (!isBlank ·)) = true :=
  List.all_eq_true.2 fun _ hc => List.mem_takeWhile_imp (p := (!isBlank ·)) hc

end Chars

namespace Text

/-- The word of a line that says what to do. -/
def command (line : String) : String := fold (splitWord line).1

/-- The commands of scripts, and `echo`. -/
def scripted : List String :=
  ["eval", "halt", "global", "return", "set", "unset", "wait", "echo"]

/-- The line stays within its script (module doc). -/
def IsScripted (line : String) : Prop := Keyword.ofText line = .command → command line ∈ scripted

instance (line : String) : Decidable (IsScripted line) := inferInstanceAs (Decidable (_ → _))

/-- A valid wait without variables. -/
structure IsFixedWait (c : Config) (line : String) : Prop where
  command : command line = "wait"
  fixed : '%' ∉ line.toList
  valid : ∃ pulse hour delay, Delay.pulses c pulse hour (splitWord line).2 = .ok delay

/-- The line is kept, or is a comment in the place of a wait (module doc). -/
def Recut (c : Config) (line line' : String) : Prop :=
  line' = line ∨ IsFixedWait c line ∧ Keyword.ofText line' = .comment

variable {line : String}

theorem toList_command (line : String) :
    (command line).toList = Chars.fold (Chars.splitWord line.toList).1 := by
  rw [command, fold, splitWord, String.toList_ofList, String.toList_ofList]

theorem mem_fold_percent {cs : List Char} (h : '%' ∈ cs) : '%' ∈ Chars.fold cs :=
  List.mem_map.2 ⟨'%', h, by decide⟩

/-- What scripts can do is written without percent signs. -/
theorem not_percent_of_scripted (h : command line ∈ scripted) :
    '%' ∉ (Chars.splitWord line.toList).1 := fun hp => by
  have hall : ∀ word ∈ scripted, '%' ∉ word.toList := by decide
  exact hall _ h (toList_command line ▸ mem_fold_percent hp)

theorem splitWord_ne_nil (h : command line ∈ scripted) : (Chars.splitWord line.toList).1 ≠ [] :=
  fun hnil => by
  have hall : ∀ word ∈ scripted, word.toList ≠ [] := by decide
  exact hall _ h (by rw [toList_command, hnil]; rfl)

theorem echo_of_scripted (h : command line ∈ scripted) (h1 : command line ≠ "eval")
    (h2 : command line ≠ "halt") (h3 : command line ≠ "global") (h4 : command line ≠ "return")
    (h5 : command line ≠ "set") (h6 : command line ≠ "unset") (h7 : command line ≠ "wait") :
    command line = "echo" := by
  simp only [scripted, List.mem_cons, List.not_mem_nil, or_false, h1, h2, h3, h4, h5, h6, h7,
    false_or] at h
  exact h

/-- Whatever the variables hold, an expanded line is the same command. -/
theorem command_expand (s : Scene) (d : Draft) (h : command line ∈ scripted) :
    command (s.expand line d).1 = command line := by
  obtain ⟨b, t, hcs, hb, ht⟩ := Chars.splitWord_parts line.toList
  have hw := not_percent_of_scripted h
  have hne := splitWord_ne_nil h
  have hall := Chars.all_splitWord line.toList
  generalize (Chars.splitWord line.toList).1 = w at hcs hw hne hall
  have hline : line = String.ofList (b ++ (w ++ t)) := by rw [← hcs, String.ofList_toList]
  have hblank : ∀ c, Chars.isBlank c = true → c ≠ '%' := by
    rintro c hc rfl
    cases hc
  have hcommand : ∀ t', (∀ c ∈ t'.head?, Chars.isBlank c = true) →
      command (String.ofList (b ++ (w ++ t'))) = String.ofList (Chars.fold w) := fun t' ht' => by
    rw [command, fold, splitWord, String.toList_ofList, String.toList_ofList,
      Chars.splitWord_fst hb hne hall ht']
  rw [hline, hcommand t ht]
  cases t with
  | nil =>
    have hplain : '%' ∉ b ++ (w ++ []) := by
      simp only [List.append_nil, List.mem_append, not_or]
      exact ⟨fun hp => hblank _ (hb _ hp) rfl, hw⟩
    rw [(Scene.Expands.plain hplain).expand d, hcommand [] ht]
  | cons c t =>
    -- The blank behind the word is literal text, so the word ends where it did.
    have hplain : '%' ∉ b ++ (w ++ [c]) := by
      simp only [List.mem_append, List.mem_singleton, not_or]
      exact ⟨fun hp => hblank _ (hb _ hp) rfl, hw, fun hp => hblank c (ht c rfl) hp.symm⟩
    have hsplit : b ++ (w ++ c :: t) = (b ++ (w ++ [c])) ++ t := by simp
    obtain ⟨fuel, -, he⟩ := Scene.Expands.plain (s := s) hplain _ t d (Nat.le_refl _)
    rw [Scene.expand, Template.parse, String.toList_ofList, hsplit, he]
    generalize (s.segments (Template.parseWithin fuel t) d).1 = more
    have hword := hcommand (c :: more.toList) ht
    rwa [show b ++ (w ++ c :: more.toList) = (b ++ (w ++ [c])) ++ more.toList by simp,
      String.ofList_append, String.ofList_toList] at hword

/-- Nothing in a wait without variables is expanded. -/
theorem IsFixedWait.expand {c : Config} (h : IsFixedWait c line) (s : Scene) (d : Draft) :
    s.expand line d = (line, d) := by
  have he := (Scene.Expands.plain (s := s) h.fixed).expand d
  rwa [String.ofList_toList] at he

theorem IsFixedWait.keyword {c : Config} (h : IsFixedWait c line) :
    Keyword.ofText line = .command := by
  have hne : ¬ (line = "" ∨ line.toList.head? = some '*') := by
    have hword := h.command
    rintro (rfl | hstar)
    · revert hword
      decide
    · obtain ⟨cs, hcs⟩ := List.head?_eq_some_iff.1 hstar
      have hlist := congrArg String.toList hword
      rw [toList_command, hcs, Chars.splitWord, trimStart_cons (by decide), Chars.firstWord,
        List.takeWhile_cons_of_pos (by decide), Chars.fold, List.map_cons] at hlist
      exact absurd (List.cons.inj hlist).1 (by decide)
  have hword : Text.fold (Text.splitWord line).1 = "wait" := h.command
  rw [Keyword.ofText, if_neg hne, hword]
  rfl

end Text

/-! ## Delays -/

namespace Delay

variable {c : Config} {pulse hour pulse' hour' : Nat} {arg : String}

theorem untilMinute?_isSome (c : Config) (pulse hour pulse' hour' minute : Nat) :
    (untilMinute? c pulse hour minute).isSome = (untilMinute? c pulse' hour' minute).isSome := by
  unfold untilMinute?
  simp only
  split <;> rfl

/-- Whether an argument is valid does not depend on when the wait begins. -/
theorem pulses_cases (c : Config) (pulse hour pulse' hour' : Nat) (arg : String) :
    (∃ n n', pulses c pulse hour arg = .ok n ∧ pulses c pulse' hour' arg = .ok n') ∨
      ∃ e, pulses c pulse hour arg = .error e ∧ pulses c pulse' hour' arg = .error e := by
  unfold pulses
  generalize Chars.trim arg.toList = cs
  cases cs with
  | nil => exact .inr ⟨_, rfl, rfl⟩
  | cons x cs =>
    simp only
    cases afterUntil? (x :: cs) with
    | none =>
      cases ofAmount? c (x :: cs) with
      | none => exact .inr ⟨_, rfl, rfl⟩
      | some n => exact .inl ⟨n, n, rfl, rfl⟩
    | some clock =>
      simp only
      cases minuteOfDay? clock with
      | none => exact .inr ⟨_, rfl, rfl⟩
      | some minute =>
        have hsome := untilMinute?_isSome c pulse hour pulse' hour' minute
        rw [Option.bind_some, Option.bind_some]
        cases hn : untilMinute? c pulse hour minute with
        | none =>
          rw [hn, Option.isSome_none, eq_comm, Option.isSome_eq_false_iff,
            Option.isNone_iff_eq_none] at hsome
          rw [hsome]
          exact .inr ⟨_, rfl, rfl⟩
        | some n =>
          rw [hn, Option.isSome_some, eq_comm, Option.isSome_iff_exists] at hsome
          obtain ⟨n', hn'⟩ := hsome
          rw [hn']
          exact .inl ⟨n, n', rfl, rfl⟩

/-- A wait that is valid once is valid at every pulse and hour. -/
theorem pulses_ok (h : ∃ pulse hour delay, pulses c pulse hour arg = .ok delay) (pulse hour : Nat) :
    ∃ delay, pulses c pulse hour arg = .ok delay := by
  obtain ⟨p, t, delay, hd⟩ := h
  rcases pulses_cases c p t pulse hour arg with ⟨-, n, -, hn⟩ | ⟨e, he, -⟩
  · exact ⟨n, hn⟩
  · rw [hd] at he
    cases he

end Delay

/-! ## Scripts whose lines are recut -/

/-- The keywords are the same, but that commands may have become comments. -/
def Keyword.Recut (k k' : Keyword) : Prop := k' = k ∨ k = .command ∧ k' = .comment

theorem Text.Recut.keyword {c : Config} {line line' : String} (h : Recut c line line') :
    (Keyword.ofText line).Recut (Keyword.ofText line') := by
  rcases h with rfl | ⟨hw, hc⟩
  · exact .inl rfl
  · exact .inr ⟨hw.keyword, hc⟩

theorem Matcher.step_recut {k k' : Keyword} (h : k.Recut k') (m : Matcher) (i : Nat) :
    m.step i k' = m.step i k := by
  rcases h with rfl | ⟨rfl, rfl⟩
  · rfl
  · rfl

/-- Commands and comments belong to no block. -/
theorem Matcher.run_recut {ks ks' : List Keyword} (h : List.Forall₂ Keyword.Recut ks ks')
    (m : Matcher) (i : Nat) : m.run i ks' = m.run i ks := by
  induction h generalizing m i with
  | nil => rfl
  | cons hk _ ih => rw [run, run, step_recut hk, ih]

namespace Script

/-- Line by line the second script is the first, but that some waits are comments there. -/
structure Recut (c : Config) (s s' : Script) : Prop where
  length : s'.length = s.length
  line : ∀ {i line}, s.line? i = some line → s'.line? i = some line ∨
    line.op = .command ∧ Text.IsFixedWait c line.text ∧
      ∃ line', s'.line? i = some line' ∧ line'.op = .comment

/-- What the lines of recut scripts do. -/
theorem Recut.op {c : Config} {s s' : Script} (h : Recut c s s') (i : Nat) :
    s'.op? i = s.op? i ∨ s.op? i = some .command ∧ s'.op? i = some .comment := by
  cases hl : s.line? i with
  | none =>
    have hle : s.length ≤ i := List.getElem?_eq_none_iff.1 hl
    have hl' : s'.line? i = none :=
      List.getElem?_eq_none_iff.2 (Nat.le_trans (Nat.le_of_eq h.length) hle)
    exact .inl (by rw [op?, op?, hl, hl'])
  | some line =>
    rcases h.line hl with hl' | ⟨hop, -, line', hl', hop'⟩
    · exact .inl (by rw [op?, op?, hl, hl'])
    · exact .inr ⟨by rw [op?, hl, Option.map_some, hop], by rw [op?, hl', Option.map_some, hop']⟩

theorem recut_ofLines {c : Config} {texts texts' : List String}
    (h : List.Forall₂ (Text.Recut c) texts texts') : Recut c (ofLines texts) (ofLines texts') := by
  have hks : List.Forall₂ Keyword.Recut (texts.map Keyword.ofText) (texts'.map Keyword.ofText) :=
    List.forall₂_map_left_iff.2 (List.forall₂_map_right_iff.2 (h.imp fun _ _ => Text.Recut.keyword))
  have hlinks : Links.ofKeywords (texts'.map Keyword.ofText) =
      Links.ofKeywords (texts.map Keyword.ofText) := congrArg Matcher.links (Matcher.run_recut hks {} 0)
  refine ⟨by rw [length_ofLines, length_ofLines, h.length_eq], fun {i line} hl => ?_⟩
  rw [line?_ofLines, Option.map_eq_some_iff] at hl
  obtain ⟨text, ht, rfl⟩ := hl
  obtain ⟨hi, ht⟩ := List.getElem?_eq_some_iff.1 ht
  have hi' : i < texts'.length := h.length_eq ▸ hi
  have hr : Text.Recut c text texts'[i] := ht ▸ h.get hi hi'
  rw [line?_ofLines, List.getElem?_eq_getElem hi', Option.map_some, hlinks]
  rcases hr with he | ⟨hw, hc⟩
  · exact .inl (by rw [he])
  · refine .inr ⟨?_, hw, _, rfl, ?_⟩
    · rw [hw.keyword, Links.op]
    · rw [hc, Links.op]

/-- The lines of a body after compiling are its lines without their indentation. -/
def bodyLines (body : String) : List String := (Text.lines body).map Text.trim

theorem recut_compile {c : Config} {body body' : String}
    (h : List.Forall₂ (Text.Recut c) (bodyLines body) (bodyLines body')) :
    Recut c (compile body) (compile body') := recut_ofLines h

/-- Every line stays within the script. -/
def IsScripted (s : Script) : Prop := ∀ i line, s.line? i = some line → line.op = .command →
  Text.command line.text ∈ Text.scripted

theorem isScripted_compile {body : String} (h : ∀ line ∈ bodyLines body, Text.IsScripted line) :
    (compile body).IsScripted := by
  intro i line hl hop
  rw [compile, line?_ofLines, Option.map_eq_some_iff] at hl
  obtain ⟨text, ht, rfl⟩ := hl
  refine h text (List.mem_of_getElem? ht) ?_
  cases hk : Keyword.ofText text with
  | command => rfl
  | _ => rw [hk] at hop; cases hop

/-- A comment in the place of a wait stays within the script. -/
theorem Recut.isScripted {c : Config} {s s' : Script} (h : Recut c s s') (hs : s.IsScripted) :
    s'.IsScripted := by
  intro i line' hl' hop
  have hlt : i < s.length := h.length ▸ (List.getElem?_eq_some_iff.1 hl').1
  have hl : s.line? i = some s.lines[i] := List.getElem?_eq_getElem hlt
  rcases h.line hl with he | ⟨-, -, line, he, hcomment⟩
  · obtain rfl := Option.some.inj (he.symm.trans hl')
    exact hs i _ hl hop
  · obtain rfl := Option.some.inj (he.symm.trans hl')
    rw [hcomment] at hop
    cases hop

end Script

end MudTrigger
