import MudTrigger.Proofs.Text.Brackets
import MudTrigger.Proofs.Text.Numbers
import MudTrigger.Proofs.World.Lasting

/-!
# Identities in variables

A script takes hold of an entity by setting a variable to its identity, `set v %self%`, and reads its
fields later, `%v.name%`. On the way the identity is written into the line, cut out of it as a word, kept
in a table, looked up, and read again, also with blanks before it and text behind it that does not begin
with a digit (`Uid.parse?_text`, `Run.perform_set`, `Scene.entityOf_text`). What the variable then leads
to is what it was set to, as long as that is in the world, and nothing afterwards, through any commands
of the world (`captured_reach`), while there are 50,000 rooms at most: one more gets the identity of a
character (`annex_reached`).
-/

set_option autoImplicit false

namespace MudTrigger

/-! ## The text of an identity -/

namespace Uid

theorem toList_text (u : Uid) : u.text.toList = sigil :: (toString u.raw).toList :=
  String.toList_ofList

theorem solid_text (u : Uid) : Chars.Solid u.text.toList := by
  rw [toList_text]
  exact (Chars.solid_toString _).cons (by decide)

/-- Blanks before the text of an identity and text behind it make no difference, unless digits stand
behind it. -/
theorem parse?_text {u : Uid} {before after : String} (hu : u.raw < 0x1_0000_0000_0000_0000)
    (hbefore : ∀ c ∈ before.toList, Chars.isBlank c = true)
    (hafter : ∀ c, after.toList.head? = some c → c.isDigit = false) :
    parse? (before ++ u.text ++ after) = some u := by
  have htext : (before ++ u.text ++ after).toList =
      before.toList ++ (sigil :: ((toString u.raw).toList ++ after.toList)) := by
    simp [toList_text]
  have hstart : Chars.trimStart (before ++ u.text ++ after).toList =
      sigil :: ((toString u.raw).toList ++ after.toList) := by
    rw [htext, Chars.trimStart_blanks hbefore]
    exact List.dropWhile_cons_of_neg (by decide)
  have hdigits : Chars.digits ((toString u.raw).toList ++ after.toList) = (toString u.raw).toList := by
    rw [Chars.digits, List.takeWhile_append_of_pos (Chars.isDigit_toString _)]
    cases htail : after.toList with
    | nil => exact List.append_nil _
    | cons c cs =>
      rw [List.takeWhile_cons_of_neg (by simp [hafter c (by rw [htail]; rfl)]), List.append_nil]
  rw [parse?, hstart]
  simp only [if_true, hdigits, Chars.natBelow?, Chars.allDigits_toString, Chars.value_toString,
    Bool.true_and, decide_eq_true hu, Option.map_some]

end Uid

/-! ## Setting a variable -/

namespace Scene

variable {s : Scene} {u : Uid} {p : Part}

/-- A token that stands for an identity: the owner's, that in a variable, or that in a field. -/
inductive Names (s : Scene) : Part → Uid → Prop
  | self {name : TokenName} : s.valueOf? name.text = none → isSelf name.text = true →
    Names s (.bare name) s.owner
  | bound {name : TokenName} {u : Uid} : s.valueOf? name.text = some u.text →
    Names s (.bare name) u
  | field {name : TokenName} {f : FieldName} {value : String} {target : EntityRef} {u : Uid} :
    s.valueOf? name.text = some value → s.entityOf value = .ok target →
    s.fieldOf? target (Text.fold f.text) "" = some (.uid (some u)) → Names s (.field name f) u
  | selfField {name : TokenName} {f : FieldName} {u : Uid} : s.valueOf? name.text = none →
    isSelf name.text = true →
    s.fieldOf? (s.world.resolve s.owner) (Text.fold f.text) "" = some (.uid (some u)) →
    Names s (.field name f) u

theorem Names.meaning (h : s.Names p u) : p.IsClosed ∧ s.meaning p = pure u.text := by
  cases h with
  | self hnone hself =>
    refine ⟨trivial, ?_⟩
    rw [Scene.meaning, token, if_pos rfl, hnone]
    simp only [hself, if_true]
  | bound hvalue =>
    refine ⟨trivial, ?_⟩
    rw [Scene.meaning, token, if_pos rfl, hvalue]
  | @field name f _ _ _ hvalue htarget hread =>
    refine ⟨trivial, ?_⟩
    rw [Scene.meaning, token, if_neg f.nonempty, hvalue]
    simp only [htarget, entityField, hread]
    rfl
  | @selfField name f _ hnone hself hread =>
    refine ⟨trivial, ?_⟩
    rw [Scene.meaning, token, if_neg f.nonempty, hnone]
    simp only [hself, if_true, entityField, hread]
    rfl

end Scene

/-- The line that sets a variable to what a token stands for. -/
structure Line.Sets (line : Line) (v : TokenName) (p : Part) : Prop where
  op : line.op = .command
  solid : Chars.Solid v.text.toList
  text : line.text = "set " ++ v.text ++ " " ++ String.ofList p.chars

/-- The part of the line before the token. -/
def Line.setting (v : TokenName) : Part :=
  .literal ("set " ++ v.text ++ " ") (by
    have hv : '%' ∉ v.text.toList := fun h => (v.plain _ h).1 rfl
    simp [hv])

namespace Run

variable {r : Run} {g : Game} {s : Scene} {line : Line} {v : TokenName} {p : Part} {u : Uid}

theorem scene?_look (hs : r.scene? g = some s) (read : Scene → Expand String) :
    r.scene? (r.look g read).2 = some s ∧
      (r.look g read).1 = (read s { dice := g.engine.dice }).1 := by
  unfold look
  rw [hs]
  exact ⟨hs, rfl⟩

theorem scene?_setLocal (hs : r.scene? g = some s) (name value : String) :
    r.scene? (g.setLocal r.trigger name value) =
      some { s with locals := s.locals.set name value } := by
  obtain ⟨i, hi, rfl⟩ := Option.map_eq_some_iff.1 hs
  have hset : (g.setLocal r.trigger name value).instance? r.trigger =
      some { i with locals := i.locals.set name value } := by
    rw [Game.setLocal, Game.instance?_modifyInstance_self, hi, Option.map_some]
  rw [scene?, hset]
  rfl

/-- The command `set`, for a name and a value of one word. -/
theorem command_set (f : Frame) {name value : String} (hname : Chars.Solid name.toList)
    (hvalue : Chars.Solid value.toList) :
    r.command f ("set " ++ name ++ " " ++ value) g =
      (.next (f.after f.line), g.setLocal r.trigger name value) := by
  have hline : Text.splitWord ("set " ++ name ++ " " ++ value) =
      ("set", name ++ (" " ++ value)) := by
    have hword : Chars.Solid "set".toList := by decide
    have htext : "set " ++ name ++ " " ++ value = "set" ++ " " ++ (name ++ (" " ++ value)) := by
      rw [← String.toList_inj]
      simp
    rw [htext, Text.splitWord_space hword hname]
  have hrest : Text.splitWord (name ++ (" " ++ value)) = (name, value) := by
    have hsplit := Text.splitWord_space hname hvalue ""
    rwa [String.append_empty, String.append_assoc] at hsplit
  have hfold : Text.fold "set" = "set" := by decide
  have hne : name ≠ "" := fun h => hname.ne_nil (h ▸ rfl)
  unfold command
  simp only [hline, hrest, hfold, if_neg hne]

theorem perform_set (f : Frame) (hs : r.scene? g = some s) (hline : line.Sets v p)
    (hp : p.IsClosed) (hu : (s.meaning p { dice := g.engine.dice }).1 = u.text) :
    (r.perform f line g).1 = .next (f.after f.line) ∧
    r.scene? (r.perform f line g).2 = some { s with locals := s.locals.set v.text u.text } := by
  have htext : line.text = String.ofList (Part.written [Line.setting v, p]) := by
    rw [hline.text, ← String.toList_inj]
    simp [Part.written, Line.setting, Part.chars]
  have hclosed : ∀ q ∈ [Line.setting v, p], q.IsClosed := by
    simp only [List.mem_cons, List.not_mem_nil, or_false]
    rintro q (rfl | rfl)
    · trivial
    · exact hp
  obtain ⟨hscene, hlook⟩ := scene?_look hs (·.expand line.text)
  have hexpand : (r.look g (·.expand line.text)).1 = "set " ++ v.text ++ " " ++ u.text := by
    rw [hlook, htext, Scene.expand_eq_meanings hclosed]
    show _ ++ ((s.meaning p { dice := g.engine.dice }).1 ++ "") = _
    rw [hu, String.append_empty]
  have hperform : r.perform f line g =
      r.command f (r.look g (·.expand line.text)).1 (r.look g (·.expand line.text)).2 := by
    unfold perform
    rw [hline.op]
  rw [hperform, hexpand, command_set f hline.solid u.solid_text]
  exact ⟨rfl, scene?_setLocal hscene v.text u.text⟩

end Run

/-! ## Reading through a variable -/

/-- What an identity leads to is a record of this identity. -/
theorem World.Sound.uidOf? {w : World} {u : Uid} (hw : w.Sound) (hu : w.resolve u ≠ .nothing) :
    w.uidOf? (w.resolve u) = some u := by
  have hrecord := hw.resolve u
  cases hr : w.resolve u with
  | character h =>
    rw [hr] at hrecord
    obtain ⟨c, hc, rfl⟩ := hrecord
    exact congrArg (Option.map _) hc
  | object h =>
    rw [hr] at hrecord
    obtain ⟨o, ho, rfl⟩ := hrecord
    exact congrArg (Option.map _) ho
  | room h =>
    rw [hr] at hrecord
    obtain ⟨a, ha, rfl⟩ := hrecord
    exact congrArg (Option.map _) ha
  | nothing => exact absurd hr hu

namespace Scene

variable {s : Scene} {u : Uid} {v : TokenName} {f : FieldName}

theorem valueOf?_local {name value : String} (h : s.locals.get? name = some value) :
    s.valueOf? name = some value := by
  rw [valueOf?, h]

/-- The text of an identity leads to what the identity leads to. -/
theorem entityOf_text (s : Scene) (hu : u.raw < 0x1_0000_0000_0000_0000) :
    s.entityOf u.text =
      match s.world.resolve u with
      | .nothing => .error .extracted
      | r => .ok r := by
  have hparse : Uid.parse? u.text = some u := by
    have h : Uid.parse? ("" ++ u.text ++ "") = some u := Uid.parse?_text hu (by simp) (by simp)
    rwa [String.empty_append, String.append_empty] at h
  have hne : u.text ≠ "" := fun h => u.solid_text.ne_nil (h ▸ rfl)
  rw [entityOf, Text.trim_of_solid u.solid_text]
  cases hr : s.world.resolve u <;> simp only [hparse, if_neg hne, hr]

/-- The token `%v.f%`. -/
def fieldToken (v : TokenName) (f : FieldName) : String := String.ofList (Part.field v f).chars

theorem expand_fieldToken (s : Scene) (v : TokenName) (f : FieldName) :
    s.expand (fieldToken v f) = s.token v.text f.text "" := by
  have hclosed : (Part.field v f).IsClosed := trivial
  have hpart := s.expand_part hclosed []
  rw [List.append_nil] at hpart
  rw [fieldToken, hpart]
  funext d
  exact Prod.ext String.append_empty rfl

/-- A variable with an identity in it: its fields are those of what the identity leads to, and empty
where it leads to nothing. -/
theorem expand_identity (hu : u.raw < 0x1_0000_0000_0000_0000)
    (hv : s.valueOf? v.text = some u.text) (f : FieldName) :
    s.expand (fieldToken v f) =
      if s.world.resolve u = .nothing then .fault (.fieldOf f.text .extracted v.text) ""
      else s.entityField (s.world.resolve u) v.text f.text "" := by
  rw [expand_fieldToken, token, if_neg f.nonempty, hv]
  simp only [entityOf_text s hu]
  cases s.world.resolve u <;> rfl

end Scene

/-- What becomes of an identity, as long as there are 50,000 rooms at most. -/
theorem World.resolve_later {w w' : World} {u : Uid}
    (hw : Relation.ReflTransGen World.Craft {} w) (h : Relation.ReflTransGen World.Craft w w')
    (hn : w'.nextRoom ≤ 50000) (hu : w.resolve u ≠ .nothing) :
    w'.resolve u = w.resolve u ∧ w'.uidOf? (w.resolve u) = some u ∨ w'.resolve u = .nothing := by
  have hranged := World.ranged_empty.crafts hw
  refine (hranged.resolve_retains h hn (hranged.used_of_resolve hu)).imp_left fun he => ⟨he, ?_⟩
  have hsound : w'.Sound := (World.sound_empty.crafts hw).crafts h
  have huid := hsound.uidOf? (he ▸ hu)
  rwa [he] at huid

/-- An identity is read back from its text; a line that sets a variable to a token for it puts it into
the variable; and the fields of the variable are those of the entity that it was given to, as long as
this is in the world, and empty afterwards. -/
theorem captured_reach {u : Uid} (hu : u.raw < 0x1_0000_0000_0000_0000) (v : TokenName) :
    (∀ {before after : String}, (∀ c ∈ before.toList, Chars.isBlank c = true) →
      (∀ c, after.toList.head? = some c → c.isDigit = false) →
      Uid.parse? (before ++ u.text ++ after) = some u) ∧
    (∀ {s : Scene} {p}, s.Names p u → p.IsClosed ∧ s.meaning p = pure u.text) ∧
    (∀ {r : Run} {g s line p} (f : Frame), r.scene? g = some s → line.Sets v p →
      p.IsClosed → (s.meaning p { dice := g.engine.dice }).1 = u.text →
      (r.perform f line g).1 = .next (f.after f.line) ∧
      ∃ s', r.scene? (r.perform f line g).2 = some s' ∧ s'.world = s.world ∧
        s'.valueOf? v.text = some u.text) ∧
    (∀ {may p p'}, (∀ g op, may g op → Operation.Crafts g op) → Course may p p' →
      Relation.ReflTransGen World.Craft p.game.world p'.game.world) ∧
    ∀ {w w' : World} {s : Scene},
      Relation.ReflTransGen World.Craft {} w → Relation.ReflTransGen World.Craft w w' →
      w'.nextRoom ≤ 50000 → w.resolve u ≠ .nothing →
      s.world = w' → s.valueOf? v.text = some u.text →
      (w'.resolve u = w.resolve u ∧ w'.uidOf? (w.resolve u) = some u ∧
        ∀ f, s.expand (Scene.fieldToken v f) = s.entityField (w.resolve u) v.text f.text "") ∨
      w'.resolve u = .nothing ∧ ∀ f d, (s.expand (Scene.fieldToken v f) d).1 = "" := by
  refine ⟨Uid.parse?_text hu, Scene.Names.meaning, fun {r g s line p} f hs hline hp hvalue => ?_,
    fun hmay => world_crafts hmay, fun {w w' s} hw h hn hthere hworld hv => ?_⟩
  · obtain ⟨hstep, hscene⟩ := Run.perform_set f hs hline hp hvalue
    exact ⟨hstep, _, hscene, rfl, Scene.valueOf?_local (Variables.get?_set_self _ _ rfl)⟩
  · have hexpand := Scene.expand_identity (s := s) hu hv
    rw [hworld] at hexpand
    rcases World.resolve_later hw h hn hthere with ⟨he, huid⟩ | he
    · refine .inl ⟨he, huid, fun f => ?_⟩
      rw [hexpand f, he, if_neg hthere]
    · refine .inr ⟨he, fun f d => ?_⟩
      rw [hexpand f, if_pos he]
      rfl

/-- A room with a guard in it. -/
def guardroom : World :=
  ((({} : World).addRoom 100 "guardroom").2.addMobile 7 "a guard" (Uid.room 0)).2

def guard : Uid := ⟨100000⟩

/-- A trigger of the room takes hold of the guard. -/
def mustering : Prototype :=
  { vnum := 1, name := "muster", kind := .room
    script := Script.compile "set captive %self.people%\nwait 9\nsay %captive.name%\n" }

def mustered : Game :=
  (Game.start {} ((∅ : Registry).register mustering) guardroom).attachTo (Uid.room 0) 1 mustering none

def musterRun : Run where
  host := .standard
  execute := fun g _ _ => g
  trigger := ⟨0, 0⟩
  owner := Uid.room 0
  proto := mustering
  mode := .new

def captive : TokenName := ⟨"captive", by decide, by simp⟩

/-- The token `%self.people%`. -/
def people : Part := .field ⟨"self", by decide, by simp⟩ ⟨"people", by decide, by simp⟩

def musterLine : Line := ⟨"set captive %self.people%", .command⟩

/-- What the run sees, with these locals and in this world. -/
def musterScene (locals : Variables) (world : World) : Scene :=
  { host := .standard, world, owner := Uid.room 0, locals, globals := ∅ }

/-- The guard is found by its name, and no more when it has left. -/
theorem captured_reach_guard :
    let w' := (guardroom.extract guard).2
    let kept := (∅ : Variables).set "captive" guard.text
    Uid.parse? (" " ++ guard.text ++ "!") = some guard ∧
    (musterScene ∅ guardroom).Names people guard ∧
    (musterRun.perform { line := 0 } musterLine mustered).1 = .next { line := 1 } ∧
    (∃ s', musterRun.scene? (musterRun.perform { line := 0 } musterLine mustered).2 = some s' ∧
      s'.valueOf? "captive" = some guard.text) ∧
    ((musterScene kept guardroom).expand "%captive.name%" { dice := default }).1 = "a guard" ∧
    w'.resolve guard = .nothing ∧
    ((musterScene kept w').expand "%captive.name%" { dice := default }).1 = "" := by
  intro w' kept
  obtain ⟨hparse, hnames, hset, -, hreach⟩ := captured_reach (u := guard) (by decide) captive
  have hpath : Relation.ReflTransGen World.Craft {} guardroom :=
    .tail (.single (.addRoom 100 "guardroom")) (.addMobile 7 "a guard" (Uid.room 0))
  have hthere : guardroom.resolve guard = .character ⟨0, 0⟩ := by decide +kernel
  have hgone : w'.resolve guard = .nothing := by decide +kernel
  have hne : guardroom.resolve guard ≠ .nothing := by rw [hthere]; exact nofun
  have hpeople : (musterScene ∅ guardroom).Names people guard :=
    .selfField (by decide) (by decide) (by decide +kernel)
  obtain ⟨hclosed, hmeaning⟩ := hnames hpeople
  have hscene : musterRun.scene? mustered = some (musterScene ∅ guardroom) := rfl
  have hline : musterLine.Sets captive people := ⟨rfl, by decide, by decide⟩
  obtain ⟨hstep, s', hs', -, hvalue⟩ := hset { line := 0 } hscene hline hclosed
    (by rw [hmeaning]; rfl)
  have hspace : ∀ c ∈ " ".toList, Chars.isBlank c = true := List.all_eq_true.1 (by decide)
  have htoken : Scene.fieldToken captive ⟨"name", by decide, by simp⟩ = "%captive.name%" := by decide
  have hbefore := hreach (s := musterScene kept guardroom) hpath .refl (by decide) hne rfl
    (by decide)
  have hafter := hreach (s := musterScene kept w') hpath (.single (.extract guard))
    (by decide +kernel) hne rfl (by decide)
  refine ⟨hparse hspace (by rintro _ ⟨⟩; decide), hpeople, hstep, ⟨s', hs', hvalue⟩, ?_, hgone,
    ?_⟩
  · obtain ⟨-, -, hfield⟩ := hbefore.resolve_right fun h => hne h.1
    rw [← htoken, hfield]
    decide +kernel
  · obtain ⟨-, hempty⟩ := hafter.resolve_left fun h => hne (h.1.symm.trans hgone)
    rw [← htoken, hempty]

/-! ## One room too many -/

namespace World

theorem History.crafts_step (s : History) (c : Command) : Craft s.world (s.step c).world := by
  cases c with
  | addRoom vnum name => exact .addRoom vnum name
  | addPlayer name room => exact .addPlayer name room
  | addMobile vnum name room => exact .addMobile vnum name room
  | addObject vnum name location => exact .addObject vnum name location
  | placeCharacter u room => exact .placeCharacter u room
  | placeObject u location => exact .placeObject u location
  | extract u => exact .extract u

theorem History.crafts_foldl (s : History) (cs : List Command) :
    Relation.ReflTransGen Craft s.world (cs.foldl History.step s).world := by
  induction cs generalizing s with
  | nil => exact .refl
  | cons c cs ih => exact .head (s.crafts_step c) (ih _)

/-- After 50,000 rooms the next one gets the identity of the first character. -/
theorem History.resolve_addRoom {cs : List Command} (hn : cs.countP Command.addsRoom = 50000)
    (vnum : Vnum) (name : String) :
    ∃ h r, ((of cs).world.addRoom vnum name).2.resolve ⟨100000⟩ = .room h ∧
      ((of cs).world.addRoom vnum name).2.rooms.get? h = some r ∧ r.name = name := by
  have hsound : (of cs).world.Sound := sound_empty.crafts (crafts_foldl {} cs)
  have hroom : (⟨100000⟩ : Uid) = Uid.room (of cs).world.nextRoom := by rw [nextRoom_of, hn]; rfl
  refine ⟨_, _, ?_, hsound.rooms.get?_insert_self, rfl⟩
  rw [hroom]
  exact resolve_of_get? (Table.get?_set_self _ _ _)

/-- A hall with Ann in it. -/
def annHall : List Command := [.addRoom 0 "hall", .addPlayer "Ann" (Uid.room 0)]

/-- With 49,999 more rooms and the annex. -/
theorem exists_annex :
    ∃ w', Relation.ReflTransGen Craft (History.of annHall).world w' ∧
      ∃ h r, w'.resolve ⟨100000⟩ = .room h ∧ w'.rooms.get? h = some r ∧ r.name = "annex" := by
  obtain ⟨cs, hcs⟩ : ∃ cs, (annHall ++ cs).countP Command.addsRoom = 50000 := by
    refine ⟨List.replicate 49999 (.addRoom 0 ""), ?_⟩
    rw [List.countP_append, List.countP_replicate]
    decide
  have hpath := (History.of annHall).crafts_foldl cs
  rw [History.of, ← List.foldl_append] at hpath
  exact ⟨_, hpath.tail (.addRoom 0 "annex"), History.resolve_addRoom hcs 0 "annex"⟩

end World

/-- A variable that was set to Ann, and her hall after 50,000 more rooms were added to it, the last of
them the annex: Ann's identity leads to the annex. -/
theorem annex_reached :
    ∃ w w' : World, ∃ s : Scene,
      Relation.ReflTransGen World.Craft {} w ∧ Relation.ReflTransGen World.Craft w w' ∧
      w.displayName ⟨100000⟩ = "Ann" ∧ s.world = w' ∧
      s.valueOf? "captive" = some (Uid.text ⟨100000⟩) ∧ w'.resolve ⟨100000⟩ ≠ .nothing ∧
      ∀ d, (s.expand "%captive.name%" d).1 = "annex" := by
  obtain ⟨w', hpath, h, r, hresolve, hroom, hname⟩ := World.exists_annex
  let s := musterScene ((∅ : Variables).set "captive" (Uid.text ⟨100000⟩)) w'
  have hvalue : s.valueOf? "captive" = some (Uid.text ⟨100000⟩) :=
    Scene.valueOf?_local (Variables.get?_set_self _ _ rfl)
  refine ⟨(World.History.of World.annHall).world, w', s, World.History.crafts_foldl {} _, hpath,
    by decide +kernel, rfl, hvalue, by rw [hresolve]; exact nofun, fun d => ?_⟩
  have htoken : Scene.fieldToken captive ⟨"name", by decide, by simp⟩ = "%captive.name%" := by decide
  have hread : s.fieldOf? (.room h) (Text.fold "name") "" = some (.value "annex") := by
    show (w'.rooms.get? h).map (s.roomField · (Text.fold "name") "") = _
    have hfold : Text.fold "name" = "name" := by decide
    have hdirection : Direction.ofName? "name" = none := by decide
    rw [hroom, hfold, Option.map_some, Scene.roomField, hdirection, ← hname]
  have hexpand := Scene.expand_identity (s := s) (v := captive) (u := ⟨100000⟩) (by decide) hvalue
    ⟨"name", by decide, by simp⟩
  rw [htoken, show s.world = w' from rfl, hresolve, if_neg nofun, Scene.entityField, hread] at hexpand
  rw [hexpand]
  rfl

end MudTrigger
