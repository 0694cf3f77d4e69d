import MudTrigger.Proofs.Data.Table
import MudTrigger.Proofs.Trace.Course

/-!
# The containers stand in the order of their entities

A table that is sorted has each key once, in decreasing order (`Table.Sorted`). Setting a key and
erasing one keep that, and whatever happens in a game changes its containers by these two operations
only (`Change.shelves`, `Operation.shelves_opening`). So the containers of every game are sorted
(`play_sorted`), and the owners that a scan goes through come in increasing order, each once, and are
all that the events wake (`Game.ownersWith_increasing`, `Game.mem_ownersWith`).
-/

set_option autoImplicit false

namespace MudTrigger

namespace Uid

instance : Std.Irrefl (α := Uid) (· < ·) := ⟨fun u => Nat.lt_irrefl u.raw⟩

instance : IsTrans Uid (· < ·) := ⟨fun _ _ _ => Nat.lt_trans⟩

instance : Std.Trichotomous (α := Uid) (· < ·) where
  trichotomous _ _ huv hvu :=
    congrArg mk (Nat.le_antisymm (Nat.le_of_not_lt hvu) (Nat.le_of_not_lt huv))

end Uid

namespace Table

/-- One key is set, or one is erased. -/
inductive Edit {κ α : Type} [DecidableEq κ] [LT κ] [DecidableLT κ] : Table κ α → Table κ α → Prop
  | set (t : Table κ α) (k : κ) (a : α) : Edit t (t.set k a)
  | erase (t : Table κ α) (k : κ) : Edit t (t.erase k)

/-- One after another. -/
abbrev Edits {κ α : Type} [DecidableEq κ] [LT κ] [DecidableLT κ] : Table κ α → Table κ α → Prop :=
  Relation.ReflTransGen Edit

theorem edits_modify {κ α : Type} [DecidableEq κ] [LT κ] [DecidableLT κ] (t : Table κ α) (k : κ)
    (f : α → α) : t.Edits (t.modify k f) := by
  unfold modify
  split
  · exact .single (.set t k _)
  · exact .refl

variable {α : Type} {t t' : Table Uid α} {k : Uid} {a : α}

/-- The keys are decreasing in the order in which the entries are kept. -/
def Sorted (t : Table Uid α) : Prop := t.latest.Pairwise fun e e' => e'.1.raw < e.1.raw

theorem sorted_empty : (∅ : Table Uid α).Sorted := .nil

theorem Sorted.set (h : t.Sorted) (k : Uid) (a : α) : (t.set k a).Sorted := Ordered.set h k a

theorem Sorted.erase (h : t.Sorted) (k : Uid) : (t.erase k).Sorted := Ordered.erase h k

theorem Sorted.edits (h : t.Sorted) (he : t.Edits t') : t'.Sorted := by
  induction he with
  | refl => exact h
  | tail _ he ih =>
    cases he with
    | set k a => exact ih.set k a
    | erase k => exact ih.erase k

theorem Sorted.increasing (h : t.Sorted) : t.entries.Pairwise fun e e' => e.1.raw < e'.1.raw :=
  Ordered.increasing h

theorem Sorted.mem_entries (h : t.Sorted) : (k, a) ∈ t.entries ↔ t.get? k = some a :=
  Ordered.mem_entries h

end Table

/-! ## Whatever happens -/

namespace Game

variable {g g' : Game}

/-- How the containers of a game change. -/
def Shelves (g g' : Game) : Prop := g.engine.containers.Edits g'.engine.containers

theorem Shelves.refl : Shelves g g := Relation.ReflTransGen.refl

theorem Shelves.of_eq (h : g'.engine.containers = g.engine.containers) : Shelves g g' := by
  rw [Shelves, h]

theorem Shelves.trans {g1 g2 g3 : Game} (h : Shelves g1 g2) (h' : Shelves g2 g3) : Shelves g1 g3 :=
  Relation.ReflTransGen.trans h h'

theorem shelves_modifyContainer (u : Uid) (f : Container → Container) :
    Shelves g (g.modifyContainer u f) := Table.edits_modify _ u f

theorem containers_begin (h : Handle) : (g.begin h).engine.containers = g.engine.containers := by
  unfold begin
  simp only
  split <;> rfl

theorem containers_suspend (h : Handle) (u : Uid) (line delay : Nat) (kind : WaitKind) :
    (g.suspend h u line delay kind).engine.containers = g.engine.containers := by
  unfold suspend
  simp only
  split <;> rfl

theorem containers_refuse (h : Handle) (i : Instance) (mode : RunMode) :
    (g.refuse h i mode).engine.containers = g.engine.containers := by
  cases mode <;> rfl

theorem containers_dropInstance (h : Handle) :
    (g.dropInstance h).engine.containers = g.engine.containers := by
  unfold dropInstance
  split
  · rfl
  · simp only
    split <;> rfl

theorem shelves_unset (h : Handle) (u : Uid) (name : String) : Shelves g (g.unset h u name) := by
  unfold unset
  split
  · exact shelves_modifyContainer u _
  · exact .refl

theorem shelves_removeInstance (u : Uid) (h : Handle) : Shelves g (g.removeInstance u h) := by
  refine Shelves.trans (.of_eq (containers_dropInstance h)) ?_
  unfold removeInstance
  simp only
  split
  · exact .refl
  · split
    · exact .single (.erase _ u)
    · exact .single (.set _ u _)

theorem shelves_detachAll (u : Uid) : Shelves g (g.detachAll u).2 := by
  unfold detachAll
  split
  · exact .refl
  · rename_i c _
    have hdrop : ∀ (hs : List Handle) (g : Game),
        (hs.foldl dropInstance g).engine.containers = g.engine.containers := by
      intro hs
      induction hs with
      | nil => exact fun _ => rfl
      | cons h hs ih => exact fun g => (ih _).trans (containers_dropInstance h)
    exact Shelves.trans (.single (.erase _ u)) (.of_eq (hdrop c.triggers _))

theorem shelves_extractEntity (u : Uid) : Shelves g (g.extractEntity u) := by
  have hwaits : ∀ g1 : Game, Shelves g g1 → Shelves g
      (if 0 < g1.engine.waits.size - (g1.engine.waits.cancelOwner u).size then
        (g1.withWaits (g1.engine.waits.cancelOwner u)).report
          (.cancelledWaits u (g1.engine.waits.size - (g1.engine.waits.cancelOwner u).size))
      else g1.withWaits (g1.engine.waits.cancelOwner u)) := by
    intro g1 h
    split <;> exact h
  unfold extractEntity
  cases g.container? u with
  | none => exact hwaits g .refl
  | some c => exact hwaits _ (.single (.erase _ u))

theorem shelves_purge (u : Uid) : Shelves g (g.purge u) := by
  have hfold : ∀ (us : List Uid) (g : Game), Shelves g (us.foldl extractEntity g) := by
    intro us
    induction us with
    | nil => exact fun _ => .refl
    | cons v us ih => exact fun g => (shelves_extractEntity v).trans (ih _)
  exact hfold _ (g.withWorld (g.world.extract u).2)

end Game

open Game

theorem Change.shelves {m m' : Moment} (h : Change m m') : Shelves m.game m'.game := by
  cases h with
  | report | blame | addNote | roll | tell | place | reach | evaluate | command | setLocal | deepen
    | rise | loopOver | loopAgain | loopHalt | finish | vanish | refuse | noteHour | skip | resume
    | refuseResume => exact .of_eq rfl
  | purge => exact shelves_purge _
  | attach ha =>
    obtain ⟨p, -, rfl⟩ := attach_ok ha
    exact .single (.set _ _ _)
  | detach => exact shelves_removeInstance _ _
  | detachAll target => exact shelves_detachAll target
  | makeGlobal v => exact shelves_modifyContainer _ _
  | unset name => exact shelves_unset _ _ name
  | loopYield | suspend => exact .of_eq (containers_suspend _ _ _ _ _)
  | start => exact .of_eq (containers_begin _)

theorem Changes.shelves {m m' : Moment} (h : Changes m m') : Shelves m.game m'.game := by
  induction h with
  | refl => exact .refl
  | tail _ h ih => exact ih.trans h.shelves

theorem Operation.shelves_opening (g : Game) (op : Operation) : Shelves g (op.opening g).game := by
  cases op with
  | extractEntity u => exact shelves_extractEntity u
  | setGlobal u name value => exact shelves_modifyContainer u _
  | purge u => exact shelves_purge u
  | run host h mode =>
    show Shelves g (runOpening g h mode).game
    have hopens := runOpening_opens g h mode
    generalize runOpening g h mode = m at hopens
    cases hopens with
    | stale => exact .refl
    | @refused _ i => exact .of_eq (containers_refuse h i mode)
    | begun => exact .of_eq (containers_begin h)
    | takenUp => exact .of_eq rfl
  | attach | detach | detachAll | dispatch | pulse | interpret | execute | walk | replaceWorld =>
    exact .of_eq rfl

theorem Operation.shelves_apply (g : Game) (op : Operation) : Shelves g (op.apply g) := by
  have hleads : Changes (op.opening g) ⟨[], op.apply g⟩ :=
    (op.opening_leads g).lift id fun _ _ => Fair.change
  exact (op.shelves_opening g).trans hleads.shelves

namespace Game

/-- The containers of every game are sorted. -/
theorem play_sorted (config : Config) (registry : Registry) (world : World) (ops : List Operation) :
    ((start config registry world).play ops).engine.containers.Sorted :=
  play_induction (P := fun g => g.engine.containers.Sorted) Table.sorted_empty
    fun op _ g hg => hg.edits (op.shelves_apply g)

/-! ## The owners that events wake -/

variable {g : Game} {events : Bits} {u : Uid} {c : Container}

theorem mem_ownersWith (hg : g.engine.containers.Sorted) :
    (u, c) ∈ g.ownersWith events ↔ g.container? u = some c ∧ c.hasEvent events = true := by
  rw [ownersWith, List.mem_filter, hg.mem_entries, container?]

theorem ownersWith_increasing (hg : g.engine.containers.Sorted) (events : Bits) :
    ((g.ownersWith events).map (·.1.raw)).Pairwise (· < ·) :=
  List.pairwise_map.2 (hg.increasing.filter _)

end Game

end MudTrigger
