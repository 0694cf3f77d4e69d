import MudTrigger.Proofs.Text.Lines
import MudTrigger.Proofs.Variables.Keyed

/-!
# Locals that become global

The command `global` takes variables from the locals of a run to the globals of its owner. Because a
local variable hides the global one of its name, every name stands for the same as before, and so
does every text that the run expands (`Scene.expand_congr`). `Moved` says where each variable is
afterwards; it is proved for one name and goes on from name to name (`Moved.trans`), so a list may name
a variable twice, in whatever spelling, or one that is not there.
-/

set_option autoImplicit false

namespace MudTrigger

/-! ## Tables of variables -/

/-- A list of names has the name of a variable, in whatever spelling. -/
def Lists (names : List String) (name : String) : Prop :=
  ∃ n ∈ names, Text.fold n = Text.fold name

instance (names : List String) (name : String) : Decidable (Lists names name) :=
  inferInstanceAs (Decidable (∃ n ∈ names, _))

theorem lists_singleton {n name : String} : Lists [n] name ↔ Text.fold name = Text.fold n := by
  rw [Lists]
  simp only [List.mem_singleton, exists_eq_left]
  exact eq_comm

theorem lists_append {names more : List String} {name : String} :
    Lists (names ++ more) name ↔ Lists names name ∨ Lists more name := by
  simp only [Lists, List.mem_append, or_and_right, exists_or]

namespace Variables

variable {vs : Variables} {name other : String}

theorem find?_congr (vs : Variables) (h : Text.fold other = Text.fold name) :
    vs.find? other = vs.find? name := congrArg vs.table.get? h

theorem find?_insert (vs : Variables) (v : Variable) (name : String) :
    (vs.insert v).find? name = if Text.fold name = Text.fold v.name then some v else vs.find? name :=
  Table.get?_set _ _ _ _

theorem find?_erase (vs : Variables) (name other : String) :
    (vs.erase name).find? other =
      if Text.fold other = Text.fold name then none else vs.find? other :=
  Table.get?_erase _ _ _

/-- The locals and the globals after the variables with these names were moved: what was listed is no
longer local, and what was local and listed is global, in place of the global of that name. -/
structure Moved (names : List String) (locals globals locals' globals' : Variables) : Prop where
  locals_eq : ∀ name, locals'.find? name = if Lists names name then none else locals.find? name
  globals_eq : ∀ name, globals'.find? name =
    if Lists names name then (locals.find? name).or (globals.find? name) else globals.find? name

namespace Moved

variable {locals globals locals' globals' locals'' globals'' : Variables} {names more : List String}
  {v : Variable}

theorem nil : Moved [] locals globals locals globals where
  locals_eq _ := by simp [Lists]
  globals_eq _ := by simp [Lists]

theorem one (hl : locals.Keyed) (hv : locals.find? name = some v) :
    Moved [name] locals globals (locals.erase v.name) (globals.insert v) where
  locals_eq other := by
    rw [find?_erase, hl.fold_name hv]
    simp only [lists_singleton]
  globals_eq other := by
    rw [find?_insert, hl.fold_name hv]
    simp only [lists_singleton]
    split
    · next h => rw [find?_congr locals h, hv, Option.some_or]
    · rfl

theorem unknown (hn : locals.find? name = none) : Moved [name] locals globals locals globals where
  locals_eq other := by
    simp only [lists_singleton]
    split
    · next h => rw [find?_congr locals h, hn]
    · rfl
  globals_eq other := by
    simp only [lists_singleton]
    split
    · next h => rw [find?_congr locals h, hn, Option.none_or]
    · rfl

theorem trans (h : Moved names locals globals locals' globals')
    (h' : Moved more locals' globals' locals'' globals'') :
    Moved (names ++ more) locals globals locals'' globals'' where
  locals_eq name := by
    rw [h'.locals_eq, h.locals_eq]
    simp only [lists_append]
    by_cases hn : Lists names name <;> by_cases hm : Lists more name <;> simp [hn, hm]
  globals_eq name := by
    rw [h'.globals_eq, h.globals_eq, h.locals_eq]
    simp only [lists_append]
    by_cases hn : Lists names name <;> by_cases hm : Lists more name <;> simp [hn, hm]

end Moved

end Variables

/-! ## What an expansion looks at -/

namespace Scene

variable {s : Scene} {locals globals : Variables}

theorem token_congr
    (h : ∀ name, ({ s with locals, globals } : Scene).valueOf? name = s.valueOf? name)
    (name field value : String) :
    ({ s with locals, globals } : Scene).token name field value = s.token name field value := by
  unfold token
  rw [h]
  -- All that is looked at besides is the host, the world and the owner.
  unfold entityOf entityOfNumber entityField fieldOf? characterField objectField roomField exitField
    itemIn personIn nextInRoom groupOf roomUid pseudoField randomField getField? visiblePeople
  dsimp only

mutual

theorem segment_congr
    (h : ∀ name, ({ s with locals, globals } : Scene).valueOf? name = s.valueOf? name) :
    ∀ x, ({ s with locals, globals } : Scene).segment x = s.segment x
  | .literal _ => rfl
  | .percent => rfl
  | .token name field value => by
    rw [segment, segment, segments_congr h value]
    simp only [token_congr h]

theorem segments_congr
    (h : ∀ name, ({ s with locals, globals } : Scene).valueOf? name = s.valueOf? name) :
    ∀ xs, ({ s with locals, globals } : Scene).segments xs = s.segments xs
  | [] => rfl
  | x :: xs => by rw [segments, segments, segment_congr h x, segments_congr h xs]

end

/-- An expansion looks at variables by their values only. -/
theorem expand_congr
    (h : ∀ name, ({ s with locals, globals } : Scene).valueOf? name = s.valueOf? name) :
    ({ s with locals, globals } : Scene).expand = s.expand :=
  funext fun _ => segments_congr h _

end Scene

/-! ## The command -/

/-- A trigger `i` of an entity, and the entity's container `c`. -/
structure Game.Scope (g : Game) (h : Handle) (u : Uid) (i : Instance) (c : Container) : Prop where
  live : g.instance? h = some i
  owner : i.owner = u
  container : g.container? u = some c
  locals : i.locals.Keyed
  globals : c.globals.Keyed

/-- Only the locals of a trigger, the globals of an entity and the log differ. -/
structure Game.VariesAt (h : Handle) (u : Uid) (g g' : Game) : Prop where
  instances : ∀ x, x ≠ h → g'.instance? x = g.instance? x
  containers : ∀ v, v ≠ u → g'.container? v = g.container? v
  world : g'.world = g.world
  notes : g'.notes = g.notes
  engine : g'.engine =
    { g.engine with triggers := g'.engine.triggers, containers := g'.engine.containers }

namespace Game

variable {g g' g'' : Game} {h : Handle} {u : Uid} {i : Instance} {c : Container}

theorem VariesAt.refl : VariesAt h u g g := ⟨fun _ _ => rfl, fun _ _ => rfl, rfl, rfl, rfl⟩

theorem VariesAt.trans (hv : VariesAt h u g g') (hv' : VariesAt h u g' g'') :
    VariesAt h u g g'' where
  instances x hx := (hv'.instances x hx).trans (hv.instances x hx)
  containers v hu := (hv'.containers v hu).trans (hv.containers v hu)
  world := hv'.world.trans hv.world
  notes := hv'.notes.trans hv.notes
  engine := by rw [hv'.engine, hv.engine]

theorem Scope.blame (hs : g.Scope h u i c) (p : Prototype) (faults : List Fault) :
    (g.blame p faults).Scope h u i c := ⟨hs.live, hs.owner, hs.container, hs.locals, hs.globals⟩

theorem Scope.makeGlobal (hs : g.Scope h u i c) (v : Variable) :
    (g.makeGlobal h u v).Scope h u { i with locals := i.locals.erase v.name }
      { c with globals := c.globals.insert v } where
  live := by
    show (g.modifyInstance h _).instance? h = _
    rw [instance?_modifyInstance_self, hs.live]
    rfl
  owner := hs.owner
  container := by
    show (g.engine.containers.modify u _).get? u = _
    rw [Table.get?_modify, if_pos rfl]
    exact congrArg _ hs.container
  locals := hs.locals.erase v.name
  globals := hs.globals.insert v

theorem variesAt_makeGlobal (v : Variable) : VariesAt h u g (g.makeGlobal h u v) where
  instances x hx := instance?_modifyInstance_ne g x _ hx
  containers w hw := by
    show (g.engine.containers.modify u _).get? w = _
    rw [Table.get?_modify, if_neg hw]
    rfl
  world := rfl
  notes := rfl
  engine := rfl

theorem variesAt_blame (p : Prototype) (faults : List Fault) :
    VariesAt h u g (g.blame p faults) := ⟨fun _ _ => rfl, fun _ _ => rfl, rfl, rfl, rfl⟩

/-- The trigger and the container after a list of variables was moved. -/
theorem Scope.moveGlobals {r : Run} (hs : g.Scope r.trigger r.owner i c) (names : List String) :
    ∃ locals globals, Variables.Moved names i.locals c.globals locals globals ∧
      (r.moveGlobals g names).Scope r.trigger r.owner { i with locals } { c with globals } ∧
      VariesAt r.trigger r.owner g (r.moveGlobals g names) := by
  induction names generalizing g i c with
  | nil => exact ⟨i.locals, c.globals, .nil, hs, .refl⟩
  | cons name names ih =>
    have hfind : (g.instance? r.trigger).bind (·.locals.find? name) = i.locals.find? name := by
      rw [hs.live, Option.bind_some]
    unfold Run.moveGlobals
    rw [List.foldl_cons, hfind]
    cases hv : i.locals.find? name with
    | none =>
      obtain ⟨locals, globals, hm, hs', hvaries⟩ :=
        ih (hs.blame r.proto [.unknownLocal name])
      exact ⟨locals, globals, (Variables.Moved.unknown hv).trans hm, hs',
        (variesAt_blame _ _).trans hvaries⟩
    | some v =>
      obtain ⟨locals, globals, hm, hs', hvaries⟩ := ih (hs.makeGlobal v)
      exact ⟨locals, globals, (Variables.Moved.one hs.locals hv).trans hm, hs',
        (variesAt_makeGlobal v).trans hvaries⟩

theorem Scope.scene? {r : Run} (hs : g.Scope r.trigger r.owner i c) :
    r.scene? g = some { host := r.host, world := g.world, owner := r.owner, locals := i.locals
                        globals := c.globals } := by
  rw [Run.scene?, hs.live, Option.map_some, hs.owner, hs.container]
  rfl

end Game

/-- A moved variable has the value that it had. -/
theorem Variables.Moved.valueOf? {names : List String} {locals globals : Variables} {s : Scene}
    (h : Moved names s.locals s.globals locals globals) (name : String) :
    ({ s with locals, globals } : Scene).valueOf? name = s.valueOf? name := by
  unfold Scene.valueOf? get?
  dsimp only
  rw [h.locals_eq, h.globals_eq]
  by_cases hn : Lists names name
  · cases s.locals.find? name <;> simp [hn]
  · simp [hn]

/-- The line is the command `global` for these names. -/
structure IsGlobal (line : String) (names : List String) : Prop where
  word : Text.fold (Text.splitWord line).1 = "global"
  names_eq : Text.words (Text.splitWord line).2 = names

theorem isGlobal_join {names : List String} (h : ∀ n ∈ names, Chars.Solid n.toList) :
    IsGlobal (Text.join " " ("global" :: names)) names := by
  have hword : Chars.Solid "global".toList := by decide
  -- What follows the command is nothing, or a space and the names.
  obtain ⟨rest, hrest, hline, hwords⟩ : ∃ rest : List Char,
      (∀ c, rest.head? = some c → Chars.isBlank c = true) ∧
      (Text.join " " ("global" :: names)).toList = "global".toList ++ rest ∧
      Chars.words rest = names.map String.toList := by
    have hlist : (Text.join " " ("global" :: names)).toList =
        [' '].intercalate ("global".toList :: names.map String.toList) :=
      String.toList_intercalate
    cases names with
    | nil => exact ⟨[], by simp, hlist, rfl⟩
    | cons n names =>
      rw [List.map_cons, List.intercalate_cons_cons, List.append_assoc] at hlist
      refine ⟨_, ?_, hlist, ?_⟩
      · rintro c hc
        obtain rfl := Option.some.inj hc
        rfl
      · have hsolid : ∀ w ∈ (n :: names).map String.toList, Chars.Solid w := by simpa using h
        exact Chars.words_intercalate hsolid
  have hsplit : Chars.splitWord (Text.join " " ("global" :: names)).toList =
      ("global".toList, Chars.trimStart rest) := by
    rw [hline, hword.splitWord_append hrest]
  constructor
  · rw [Text.splitWord, hsplit]
    show Text.fold (String.ofList "global".toList) = "global"
    decide
  · rw [Text.splitWord, hsplit, Text.words, String.toList_ofList, Chars.words_trimStart, hwords,
      List.map_map]
    simp

/-- The command `global` does nothing but move the variables. -/
theorem Run.command_global {r : Run} {g : Game} {i : Instance} {c : Container} {names : List String}
    {line : String} (f : Frame) (hs : g.Scope r.trigger r.owner i c) (hline : IsGlobal line names) :
    (r.command f line g).1 = .next (f.after f.line) ∧
    ∃ locals globals, Variables.Moved names i.locals c.globals locals globals ∧
      (r.command f line g).2.Scope r.trigger r.owner { i with locals } { c with globals } ∧
      Game.VariesAt r.trigger r.owner g (r.command f line g).2 := by
  unfold Run.command
  simp only [hline.word, hline.names_eq]
  refine ⟨trivial, ?_⟩
  split
  · obtain ⟨locals, globals, hm, hs', hvaries⟩ :=
      (hs.blame r.proto [.missingArgument .global line]).moveGlobals names
    exact ⟨locals, globals, hm, hs', (Game.variesAt_blame _ _).trans hvaries⟩
  · exact hs.moveGlobals names

/-- At every stage of a game the owner of an attached trigger has a container. -/
theorem Stage.exists_scope {may : Game → Operation → Prop} {config : Config} {registry : Registry}
    {world : World} {p : Stage} {h : Handle} {i : Instance}
    (hp : Course may (Stage.start (Game.start config registry world)) p)
    (hi : p.game.instance? h = some i) : ∃ c, p.game.Scope h i.owner i c := by
  have hsane := Stage.sane_start config registry world
  have hkeyed := hsane.keyed_course (Game.keyed_start config registry world) hp
  obtain ⟨c, hc, -⟩ := (hsane.course hp).coherent.listed hi
  exact ⟨c, hi, rfl, hc, hkeyed.locals hi, hkeyed.globals hc⟩

/-- The command `global` takes variables from the locals of a run to the globals of its owner, spelling
and value kept, and changes nothing that the run sees; the only value lost is that of a global in whose
place a local was moved. Every owner of an attached trigger has a container for them. -/
theorem global_moves (may : Game → Operation → Prop) (config : Config) (registry : Registry)
    (world : World) :
    (∀ {p h i}, Course may (Stage.start (Game.start config registry world)) p →
      p.game.instance? h = some i → ∃ c, p.game.Scope h i.owner i c) ∧
    (∀ {names}, (∀ n ∈ names, Chars.Solid n.toList) →
      IsGlobal (Text.join " " ("global" :: names)) names) ∧
    ∀ {r : Run} {g : Game} {i c names line} (f : Frame), g.Scope r.trigger r.owner i c →
      IsGlobal line names →
      let g' := (r.command f line g).2
      (r.command f line g).1 = .next (f.after f.line) ∧
      ∃ locals globals s s', Variables.Moved names i.locals c.globals locals globals ∧
        g'.Scope r.trigger r.owner { i with locals } { c with globals } ∧
        Game.VariesAt r.trigger r.owner g g' ∧
        r.scene? g = some s ∧ r.scene? g' = some s' ∧ s'.expand = s.expand := by
  refine ⟨Stage.exists_scope, isGlobal_join, fun {r g i c names line} f hs hline => ?_⟩
  obtain ⟨hstep, locals, globals, hm, hs', hvaries⟩ := Run.command_global f hs hline
  refine ⟨hstep, locals, globals, _, _, hm, hs', hvaries, hs.scene?, hs'.scene?, ?_⟩
  rw [hvaries.world]
  exact Scene.expand_congr (hm.valueOf? (s := ⟨r.host, g.world, r.owner, i.locals, c.globals⟩))

/-- A trigger of rooms that sets two variables and waits. -/
def pricing : Prototype :=
  { vnum := 1, name := "price", kind := .room
    script := Script.compile "set Rate 7\nset fee 2\nwait 9\n" }

def market : Game :=
  .start {} ((∅ : Registry).register pricing) (({} : World).addRoom 100 "market").2

/-- The room has a rate of its own when the trigger is run. -/
def opened : List Operation :=
  [.attach 1 (Uid.room 0) none, .setGlobal (Uid.room 0) "rate" "3", .run .standard ⟨0, 0⟩ .new]

/-- The run that waits, once it is taken up. -/
def priceRun : Run where
  host := .standard
  execute := fun g _ _ => g
  trigger := ⟨0, 0⟩
  owner := Uid.room 0
  proto := pricing
  mode := .resume

/-- A local rate takes the place of the global one; it is listed twice, with an unknown name between. -/
theorem global_moves_rate :
    ∃ i c locals globals s s', (market.play opened).Scope priceRun.trigger priceRun.owner i c ∧
      IsGlobal "global RATE tip rate" ["RATE", "tip", "rate"] ∧
      Variables.Moved ["RATE", "tip", "rate"] i.locals c.globals locals globals ∧
      c.globals.get? "rate" = some "3" ∧ globals.get? "rate" = some "7" ∧
      locals.get? "rate" = none ∧ locals.get? "fee" = some "2" ∧
      priceRun.scene? (market.play opened) = some s ∧
      priceRun.scene? (priceRun.command { line := 3 } "global RATE tip rate"
        (market.play opened)).2 = some s' ∧
      s'.expand "%rate% %fee%" = s.expand "%rate% %fee%" := by
  obtain ⟨hscope, hnames, hmoves⟩ := global_moves (fun _ _ => True) {}
    ((∅ : Registry).register pricing) (({} : World).addRoom 100 "market").2
  have hpaced : market.Paced opened := by decide +kernel
  have hmay : market.Allows (fun _ _ => True) opened := ⟨trivial, trivial, trivial, trivial⟩
  obtain ⟨k, hk⟩ := play_course hmay hpaced market.attachments
  have hlocals : ((market.play opened).instance? ⟨0, 0⟩).map (fun i =>
      (i.owner, i.locals.get? "rate", i.locals.get? "fee")) =
        some (Uid.room 0, some "7", some "2") := by decide +kernel
  have hglobals : ((market.play opened).container? (Uid.room 0)).map (·.globals.get? "rate") =
      some (some "3") := by decide +kernel
  obtain ⟨i, hi, hvalues⟩ := Option.map_eq_some_iff.1 hlocals
  obtain ⟨howner, hrate, hfee⟩ : i.owner = Uid.room 0 ∧ i.locals.get? "rate" = some "7" ∧
      i.locals.get? "fee" = some "2" := by simpa using hvalues
  obtain ⟨c, hc⟩ := hscope hk hi
  rw [howner] at hc
  have hglobal : c.globals.get? "rate" = some "3" := by
    rw [hc.container] at hglobals
    exact Option.some.inj hglobals
  have hsolid : ∀ n ∈ ["RATE", "tip", "rate"], Chars.Solid n.toList := by
    simp only [List.mem_cons, List.not_mem_nil, or_false]
    rintro n (rfl | rfl | rfl) <;> decide
  obtain ⟨-, locals, globals, s, s', hm, -, -, hs, hs', hexpand⟩ :=
    hmoves (r := priceRun) { line := 3 } hc (hnames hsolid)
  refine ⟨i, c, locals, globals, s, s', hc, hnames hsolid, hm, hglobal, ?_, ?_, ?_, hs, hs',
    congrFun hexpand _⟩
  · rw [Variables.get?, hm.globals_eq, if_pos (by decide)]
    obtain ⟨v, hv, hvalue⟩ := Option.map_eq_some_iff.1 hrate
    rw [hv, Option.some_or, Option.map_some, hvalue]
  · rw [Variables.get?, hm.locals_eq, if_pos (by decide), Option.map_none]
  · rw [Variables.get?, hm.locals_eq, if_neg (by decide)]
    exact hfee

end MudTrigger
