import MudTrigger.Game.Attachment
import MudTrigger.Proofs.Data.Arena
import MudTrigger.Proofs.Trace.Change

/-!
# The attached triggers and the containers agree

`Game.Coherent`: no container is empty or lists a trigger twice, what a container lists is attached
and belongs to the container's entity, every attached trigger is listed by its owner's container, and
the event bits of a container are the union of those of its triggers. What keeps the owners, the
prototypes and the lists keeps this (`Coherent.of_same`); otherwise a trigger is attached
(`Coherent.attach`), one is removed (`Coherent.removeInstance`), or all of an entity
(`Coherent.forget`).
-/

set_option autoImplicit false

namespace MudTrigger

/-! ## Bit sets -/

namespace Bits

theorem testBit_union (a b : Bits) (k : Nat) :
    (a.union b).testBit k = (a.testBit k || b.testBit k) := Nat.testBit_or a b k

theorem meets_iff {a b : Bits} :
    a.meets b = true ↔ ∃ k, a.testBit k = true ∧ b.testBit k = true := by
  rw [meets, bne_iff_ne]
  constructor
  · intro h
    obtain ⟨k, hk⟩ := Nat.exists_testBit_of_ne_zero h
    rw [Nat.testBit_and, Bool.and_eq_true] at hk
    exact ⟨k, hk⟩
  · rintro ⟨k, ha, hb⟩ h
    have hk := congrArg (·.testBit k) h
    simp [ha, hb] at hk

end Bits

namespace Table

variable {κ α : Type} [DecidableEq κ] [LT κ] [DecidableLT κ]

omit [LT κ] [DecidableLT κ] in
theorem get?_erase (t : Table κ α) (k k' : κ) :
    (t.erase k).get? k' = if k' = k then none else t.get? k' := by
  split
  · rename_i h
    rw [h, get?_erase_self]
  · rename_i h
    exact get?_erase_ne t h

theorem get?_modify (t : Table κ α) (k k' : κ) (f : α → α) :
    (t.modify k f).get? k' = if k' = k then (t.get? k).map f else t.get? k' := by
  unfold modify
  split
  · rename_i a ha
    rw [get?_set, ha]
    rfl
  · rename_i ha
    split
    · rename_i h
      rw [h, ha]
      rfl
    · rfl

end Table

namespace Game

variable {g g' : Game}

/-! ## Event bits -/

theorem testBit_foldl_union (is : List Instance) (b : Bits) (k : Nat) :
    (is.foldl (fun b i => b.union i.proto.events) b).testBit k = true ↔
      b.testBit k = true ∨ ∃ i ∈ is, i.proto.events.testBit k = true := by
  induction is generalizing b with
  | nil => simp
  | cons i is ih =>
    rw [List.foldl_cons, ih, Bits.testBit_union, Bool.or_eq_true, or_assoc]
    simp

theorem testBit_eventsOf {hs : List Handle} {k : Nat} :
    (g.eventsOf hs).testBit k = true ↔
      ∃ h ∈ hs, ∃ i, g.instance? h = some i ∧ i.proto.events.testBit k = true := by
  rw [eventsOf, testBit_foldl_union]
  simp only [Nat.zero_testBit, Bool.false_eq_true, false_or, List.mem_filterMap]
  constructor
  · rintro ⟨i, ⟨h, hm, hi⟩, hk⟩
    exact ⟨h, hm, i, hi, hk⟩
  · rintro ⟨h, hm, i, hi, hk⟩
    exact ⟨i, ⟨h, hm, hi⟩, hk⟩

/-- What the event bits of some triggers are, whatever their order. -/
theorem eq_eventsOf {b : Bits} {hs : List Handle}
    (hb : ∀ k, b.testBit k = true ↔
      ∃ h ∈ hs, ∃ i, g.instance? h = some i ∧ i.proto.events.testBit k = true) :
    b = g.eventsOf hs :=
  Nat.eq_of_testBit_eq fun k => by rw [Bool.eq_iff_iff, hb, testBit_eventsOf]

theorem meets_eventsOf {hs : List Handle} {events : Bits} :
    (g.eventsOf hs).meets events = true ↔
      ∃ h ∈ hs, ∃ i, g.instance? h = some i ∧ i.proto.events.meets events = true := by
  simp only [Bits.meets_iff, testBit_eventsOf]
  constructor
  · rintro ⟨k, ⟨h, hm, i, hi, hk⟩, he⟩
    exact ⟨h, hm, i, hi, k, hk, he⟩
  · rintro ⟨h, hm, i, hi, k, hk, he⟩
    exact ⟨k, ⟨h, hm, i, hi, hk⟩, he⟩

theorem eventsOf_congr {hs : List Handle} (h : ∀ x ∈ hs, g'.instance? x = g.instance? x) :
    g'.eventsOf hs = g.eventsOf hs := by
  refine eq_eventsOf fun k => testBit_eventsOf.trans ?_
  constructor
  · rintro ⟨x, hm, hi⟩
    exact ⟨x, hm, h x hm ▸ hi⟩
  · rintro ⟨x, hm, hi⟩
    exact ⟨x, hm, (h x hm).symm ▸ hi⟩

/-! ## The invariant -/

/-- The triggers that the container of an entity lists. -/
def listed (g : Game) (u : Uid) : List Handle := ((g.container? u).map (·.triggers)).getD []

theorem listed_eq {u : Uid} {c : Container} (hc : g.container? u = some c) :
    g.listed u = c.triggers := by
  rw [listed, hc]
  rfl

theorem listed_eq_nil {u : Uid} (hc : g.container? u = none) : g.listed u = [] := by
  rw [listed, hc]
  rfl

theorem mem_listed {u : Uid} {h : Handle} :
    h ∈ g.listed u ↔ ∃ c, g.container? u = some c ∧ h ∈ c.triggers := by
  cases hc : g.container? u with
  | none => simp [listed_eq_nil hc]
  | some c => simp [listed_eq hc]

/-- The attached triggers and the containers agree (module doc). -/
structure Coherent (g : Game) : Prop where
  sound : g.engine.triggers.Sound
  nonempty : ∀ {u c}, g.container? u = some c → c.triggers ≠ []
  nodup : ∀ {u c}, g.container? u = some c → c.triggers.Nodup
  live : ∀ {u c h}, g.container? u = some c → h ∈ c.triggers →
    ∃ i, g.instance? h = some i ∧ i.owner = u
  listed : ∀ {h i}, g.instance? h = some i → ∃ c, g.container? i.owner = some c ∧ h ∈ c.triggers
  types : ∀ {u c}, g.container? u = some c → c.types = g.eventsOf c.triggers

theorem Coherent.nodup_listed (hg : g.Coherent) (u : Uid) : (g.listed u).Nodup := by
  cases hc : g.container? u with
  | none => rw [listed_eq_nil hc]; exact List.nodup_nil
  | some c => rw [listed_eq hc]; exact hg.nodup hc

theorem Coherent.mem_listed_iff (hg : g.Coherent) {u : Uid} {h : Handle} :
    h ∈ g.listed u ↔ ∃ i, g.instance? h = some i ∧ i.owner = u := by
  rw [mem_listed]
  constructor
  · rintro ⟨c, hc, hm⟩
    exact hg.live hc hm
  · rintro ⟨i, hi, rfl⟩
    exact hg.listed hi

theorem coherent_start (config : Config) (registry : Registry) (world : World) :
    Coherent { engine := Engine.new config registry, world } where
  sound := Arena.sound_empty
  nonempty hc := by cases hc
  nodup hc := by cases hc
  live hc := by cases hc
  listed hi := by cases hi
  types hc := by cases hc

end Game

/-- What the containers have to know of a trigger. -/
def Instance.origin (i : Instance) : Uid × Prototype := (i.owner, i.proto)

/-- What a container has to do with the attached triggers. -/
def Container.listing (c : Container) : List Handle × Bits := (c.triggers, c.types)

namespace Game

/-- The same triggers are attached to the same entities and listed by the same containers. -/
structure Same (g g' : Game) : Prop where
  sound : g.engine.triggers.Sound → g'.engine.triggers.Sound
  origin : ∀ h, (g'.instance? h).map Instance.origin = (g.instance? h).map Instance.origin
  listing : ∀ u, (g'.container? u).map Container.listing = (g.container? u).map Container.listing

variable {g g' : Game}

theorem Same.refl : Same g g := ⟨id, fun _ => rfl, fun _ => rfl⟩

theorem Same.trans {g1 g2 g3 : Game} (h : Same g1 g2) (h' : Same g2 g3) : Same g1 g3 :=
  ⟨h'.sound ∘ h.sound, fun x => (h'.origin x).trans (h.origin x),
    fun u => (h'.listing u).trans (h.listing u)⟩

theorem Same.symm_instance (hs : Same g g') {h : Handle} {i : Instance}
    (hi : g'.instance? h = some i) :
    ∃ j, g.instance? h = some j ∧ j.owner = i.owner ∧ j.proto = i.proto := by
  have ho := hs.origin h
  rw [hi, Option.map_some, eq_comm, Option.map_eq_some_iff] at ho
  obtain ⟨j, hj, he⟩ := ho
  exact ⟨j, hj, congrArg Prod.fst he, congrArg Prod.snd he⟩

theorem Same.instance (hs : Same g g') {h : Handle} {i : Instance} (hi : g.instance? h = some i) :
    ∃ j, g'.instance? h = some j ∧ j.owner = i.owner ∧ j.proto = i.proto := by
  have ho := hs.origin h
  rw [hi, Option.map_some, Option.map_eq_some_iff] at ho
  obtain ⟨j, hj, he⟩ := ho
  exact ⟨j, hj, congrArg Prod.fst he, congrArg Prod.snd he⟩

theorem Same.symm_container (hs : Same g g') {u : Uid} {c : Container}
    (hc : g'.container? u = some c) :
    ∃ d, g.container? u = some d ∧ d.triggers = c.triggers ∧ d.types = c.types := by
  have hl := hs.listing u
  rw [hc, Option.map_some, eq_comm, Option.map_eq_some_iff] at hl
  obtain ⟨d, hd, he⟩ := hl
  exact ⟨d, hd, congrArg Prod.fst he, congrArg Prod.snd he⟩

theorem Same.container (hs : Same g g') {u : Uid} {c : Container} (hc : g.container? u = some c) :
    ∃ d, g'.container? u = some d ∧ d.triggers = c.triggers ∧ d.types = c.types := by
  have hl := hs.listing u
  rw [hc, Option.map_some, Option.map_eq_some_iff] at hl
  obtain ⟨d, hd, he⟩ := hl
  exact ⟨d, hd, congrArg Prod.fst he, congrArg Prod.snd he⟩

theorem Same.eventsOf (hs : Same g g') (l : List Handle) : g'.eventsOf l = g.eventsOf l := by
  refine eq_eventsOf fun k => testBit_eventsOf.trans ?_
  constructor
  · rintro ⟨h, hm, i, hi, hk⟩
    obtain ⟨j, hj, -, hp⟩ := hs.symm_instance hi
    exact ⟨h, hm, j, hj, by rw [hp]; exact hk⟩
  · rintro ⟨h, hm, i, hi, hk⟩
    obtain ⟨j, hj, -, hp⟩ := hs.instance hi
    exact ⟨h, hm, j, hj, by rw [hp]; exact hk⟩

theorem Coherent.of_same (hg : g.Coherent) (hs : Same g g') : g'.Coherent where
  sound := hs.sound hg.sound
  nonempty hc := by
    obtain ⟨d, hd, ht, -⟩ := hs.symm_container hc
    exact ht ▸ hg.nonempty hd
  nodup hc := by
    obtain ⟨d, hd, ht, -⟩ := hs.symm_container hc
    exact ht ▸ hg.nodup hd
  live hc hm := by
    obtain ⟨d, hd, ht, -⟩ := hs.symm_container hc
    obtain ⟨i, hi, ho⟩ := hg.live hd (ht ▸ hm)
    obtain ⟨j, hj, ho', -⟩ := hs.instance hi
    exact ⟨j, hj, ho'.trans ho⟩
  listed hi := by
    obtain ⟨j, hj, ho, -⟩ := hs.symm_instance hi
    obtain ⟨c, hc, hm⟩ := hg.listed hj
    obtain ⟨d, hd, ht, -⟩ := hs.container hc
    exact ⟨d, ho ▸ hd, ht ▸ hm⟩
  types hc := by
    obtain ⟨d, hd, ht, hb⟩ := hs.symm_container hc
    rw [← hb, hg.types hd, hs.eventsOf, ht]

/-! ## What keeps the same triggers attached -/

theorem same_modifyInstance (h : Handle) {f : Instance → Instance}
    (hf : ∀ i, (f i).origin = i.origin) : Same g (g.modifyInstance h f) where
  sound hs := hs.modify h f
  origin h' := by
    rw [instance?_modifyInstance]
    split
    · rename_i he
      rw [he, Option.map_map]
      exact congrArg (fun f => (g.instance? h).map f) (funext hf)
    · rfl
  listing _ := rfl

theorem same_modifyContainer (u : Uid) {f : Container → Container}
    (hf : ∀ c, (f c).listing = c.listing) : Same g (g.modifyContainer u f) where
  sound := id
  origin _ := rfl
  listing u' := by
    show ((g.engine.containers.modify u f).get? u').map _ = _
    rw [Table.get?_modify]
    split
    · rename_i he
      rw [he, Option.map_map]
      exact congrArg (fun f => (g.container? u).map f) (funext hf)
    · rfl

/-- Neither triggers nor containers are touched. -/
theorem same_of_eq (ht : g'.engine.triggers = g.engine.triggers)
    (hc : g'.engine.containers = g.engine.containers) : Same g g' where
  sound hs := ht ▸ hs
  origin h := by rw [instance?, ht, ← instance?]
  listing u := by rw [container?, hc, ← container?]

theorem same_setLocal (h : Handle) (name value : String) : Same g (g.setLocal h name value) :=
  same_modifyInstance h fun _ => rfl

theorem same_bindLocals (h : Handle) (bindings : List (String × String)) :
    Same g (g.bindLocals h bindings) := same_modifyInstance h fun _ => rfl

theorem same_deepen (h : Handle) : Same g (g.deepen h) := same_modifyInstance h fun _ => rfl

theorem same_rise (h : Handle) : Same g (g.rise h) := same_modifyInstance h fun _ => rfl

theorem same_countLoop (h : Handle) : Same g (g.countLoop h) := same_modifyInstance h fun _ => rfl

theorem same_takeUp (h : Handle) : Same g (g.takeUp h) := same_modifyInstance h fun _ => rfl

theorem same_finish (h : Handle) : Same g (g.finish h) := same_modifyInstance h fun _ => rfl

theorem same_enter (h : Handle) (u : Uid) : Same g (g.enter h u) := same_of_eq rfl rfl

theorem same_leave : Same g g.leave := same_of_eq rfl rfl

theorem same_withWaits (q : WaitQueue) : Same g (g.withWaits q) := same_of_eq rfl rfl

theorem Same.report {n : Notice} (hs : Same g g') : Same g (g'.report n) :=
  hs.trans (same_of_eq rfl rfl)

theorem same_makeGlobal (h : Handle) (u : Uid) (v : Variable) : Same g (g.makeGlobal h u v) :=
  (same_modifyInstance h (f := fun i => { i with locals := i.locals.erase v.name }) fun _ => rfl).trans
    (same_modifyContainer u fun _ => rfl)

theorem same_unset (h : Handle) (u : Uid) (name : String) : Same g (g.unset h u name) := by
  unfold unset
  split
  · exact same_modifyContainer u fun _ => rfl
  · exact same_modifyInstance h fun _ => rfl

theorem same_begin (h : Handle) : Same g (g.begin h) := by
  unfold begin
  simp only
  split
  · exact (same_withWaits _).trans (same_modifyInstance h fun _ => rfl)
  · exact same_modifyInstance h fun _ => rfl

theorem same_suspend (h : Handle) (u : Uid) (line delay : Nat) (kind : WaitKind) :
    Same g (g.suspend h u line delay kind) := by
  unfold suspend
  simp only
  split
  · exact same_withWaits _
  · exact Same.report ((same_withWaits _).trans (same_modifyInstance h fun _ => rfl))

theorem same_refuse (h : Handle) (i : Instance) (mode : RunMode) : Same g (g.refuse h i mode) := by
  cases mode with
  | new => exact Same.refl.report.trans (same_finish h)
  | resume => exact Same.refl.report

end Game

end MudTrigger
