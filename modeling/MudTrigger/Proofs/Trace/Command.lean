import MudTrigger.Proofs.Trace.Event

/-!
# What commands do

A command speaks, moves the actor to a room, purges entities other than players, attaches or detaches
triggers (`Chore`), or lets events happen; typing one is first an event itself (`Errand`,
`execute_errands`, `interpret_errands`). Walking moves the actor between events. All of this is made of
changes, if what the runner does is (`execute_evolves`, `interpret_evolves`, `walk_evolves`).
-/

set_option autoImplicit false

namespace MudTrigger

/-- What a command does that lets no event happen. -/
inductive Chore (actor : Uid) : Game → Game → Prop
  | report {g n} : n.isPlain = true → Chore actor g (g.report n)
  | tell {g} (message : String) : Chore actor g (g.withWorld (g.world.tell message))
  | goto {g arg room} : Game.destination? g.world arg = some room →
    Chore actor g (g.withWorld (g.world.placeCharacter actor room))
  | purge {g u} : Game.isPlayer g.world u = false → Chore actor g (g.purge u)
  | attach {g g' vnum target position h} : g.attach vnum target position = .ok (h, g') →
    Chore actor g g'
  | detach {g target c h} : g.container? target = some c → h ∈ c.triggers →
    Chore actor g (g.removeInstance target h)
  | detachAll {g} (target : Uid) : Chore actor g (g.detachAll target).2

@[inherit_doc Looks]
abbrev Chores (actor : Uid) : Game → Game → Prop := Relation.ReflTransGen (Chore actor)

/-- What a command does. -/
inductive Errand (run : Runner) (actor : Uid) : Game → Game → Prop
  | chore {g g'} : Chore actor g g' → Errand run actor g g'
  | stir {g g'} : Stir run g g' → Errand run actor g g'

@[inherit_doc Looks]
abbrev Errands (run : Runner) (actor : Uid) : Game → Game → Prop :=
  Relation.ReflTransGen (Errand run actor)

variable {s : List Activation} {g g' : Game} {run : Runner} {actor : Uid}

theorem Chore.change (h : Chore actor g g') : Change ⟨s, g⟩ ⟨s, g'⟩ := by
  cases h with
  | report hn => exact .report hn
  | tell message => exact .tell message
  | goto => exact .place actor _
  | purge hp => exact .purge hp
  | attach ha => exact .attach ha
  | detach hc hm => exact .detach hc hm
  | detachAll target => exact .detachAll target

theorem Chores.evolves (h : Chores actor g g') : Evolves s g g' :=
  h.lift (Moment.mk s) fun _ _ => Chore.change

theorem Chores.errands (h : Chores actor g g') : Errands run actor g g' :=
  h.lift id fun _ _ => .chore

theorem Stirs.errands (h : Stirs run g g') : Errands run actor g g' := h.lift id fun _ _ => .stir

theorem Errands.evolves (h : Errands run actor g g') (hr : Fires run) : Evolves s g g' := by
  induction h with
  | refl => exact .refl
  | tail _ h ih =>
    cases h with
    | chore h => exact ih.tail h.change
    | stir h => exact ih.trans (Stirs.evolves (.single h) hr)

namespace Game

/-! ## Commands without events -/

theorem purgeAll_chores (us : List Uid) : Chores actor g (g.purgeAll us) := by
  unfold purgeAll
  induction us generalizing g with
  | nil => exact .refl
  | cons u us ih =>
    rw [List.foldl_cons]
    split
    · exact ih
    · rename_i hp
      exact .head (.purge (by simpa using hp)) ih

theorem doPurge_chores (actor : Uid) (arg : String) : Chores actor g (g.doPurge actor arg) := by
  unfold doPurge
  split
  · exact .single (.report rfl)
  · exact purgeAll_chores _

theorem doAttach_chores (actor : Uid) (arg : String) : Chores actor g (g.doAttach actor arg) := by
  unfold doAttach
  simp only
  split
  · exact .single (.report rfl)
  · split
    · exact .single (.report rfl)
    · split
      · exact .single (.report rfl)
      · rename_i ha
        exact .single (.attach ha)

theorem mem_of_findBySpec {c : Container} {spec : String} {h : Handle}
    (hf : g.findBySpec c spec = some h) : h ∈ c.triggers := by
  unfold findBySpec at hf
  exact (List.mem_filter.1 (List.mem_of_getElem? hf)).1

theorem detach_cases (target : Uid) (spec : String) : (g.detach target spec).2 = g ∨
    ∃ c h, g.container? target = some c ∧ h ∈ c.triggers ∧
      (g.detach target spec).2 = g.removeInstance target h := by
  unfold detach
  split
  · exact .inl rfl
  · rename_i h he
    obtain ⟨c, hc, hf⟩ := Option.bind_eq_some_iff.1 he
    exact .inr ⟨c, h, hc, mem_of_findBySpec hf, rfl⟩

theorem detach_evolves (target : Uid) (spec : String) : Evolves s g (g.detach target spec).2 := by
  rcases detach_cases (g := g) target spec with he | ⟨c, h, hc, hm, he⟩ <;> rw [he]
  exact .single (.detach hc hm)

theorem doDetach_chores (actor : Uid) (arg : String) : Chores actor g (g.doDetach actor arg) := by
  unfold doDetach
  simp only
  split
  · exact .single (.report rfl)
  · rename_i target _
    split
    · exact .single (.detachAll _)
    · rcases detach_cases (g := g) target (Text.splitWord arg).2 with he | ⟨c, h, hc, hm, he⟩ <;>
        rw [he]
      exact .single (.detach hc hm)

theorem doGoto_chores (actor : Uid) (arg : String) : Chores actor g (g.doGoto actor arg) := by
  unfold doGoto
  split
  · rename_i hd
    exact .single (.goto hd)
  · exact .single (.report rfl)

/-! ## All commands -/

theorem doSay_errands (actor : Uid) (text : String) :
    Errands run actor g (g.doSay run actor text) := by
  have hm : ∀ g, Stirs run g (MobileEvent.onSpeech run actor text g) := fun _ =>
    MobileEvent.dispatch_stirs .standard (.speech actor text)
  exact .head (.chore (.tell _))
    ((hm _).errands.trans (RoomEvent.dispatch_stirs (.speech actor text)).errands)

theorem execute_errands (actor : Uid) (line : String) :
    Errands run actor g (g.execute run actor line) := by
  unfold execute
  simp only
  split
  · exact .single (.chore (.tell _))
  · exact .single (.chore (.tell _))
  · exact doSay_errands actor _
  · exact (doPurge_chores actor _).errands
  · exact (doAttach_chores actor _).errands
  · exact (doDetach_chores actor _).errands
  · exact (doGoto_chores actor _).errands
  · exact .refl
  · exact .single (.chore (.report rfl))

theorem interpret_errands (actor : Uid) (line : String) :
    Errands run actor g (interpret run actor line g) := by
  unfold interpret
  simp only
  split
  · exact .refl
  · have hroom : Stirs run g (RoomEvent.onCommand run actor (Text.splitWord (Text.trim line)).1
        (Text.splitWord (Text.trim line)).2 g).2 := RoomEvent.dispatch_stirs (.command actor _ _)
    split
    · rename_i he
      rw [he] at hroom
      exact hroom.errands
    · rename_i g1 he
      rw [he] at hroom
      have hmob : Stirs run g1 (MobileEvent.onCommand run actor (Text.splitWord (Text.trim line)).1
          (Text.splitWord (Text.trim line)).2 g1).2 :=
        MobileEvent.dispatch_stirs .standard (.command actor _ _)
      split
      · rename_i he
        rw [he] at hmob
        exact hroom.errands.trans hmob.errands
      · rename_i g2 he
        rw [he] at hmob
        have hobj : Stirs run g2 (ObjectEvent.onCommand run actor
            (Text.splitWord (Text.trim line)).1 (Text.splitWord (Text.trim line)).2 g2).2 :=
          ObjectEvent.onCommand_stirs actor _ _
        split
        · rename_i he
          rw [he] at hobj
          exact (hroom.errands.trans hmob.errands).trans hobj.errands
        · rename_i g3 he
          rw [he] at hobj
          exact ((hroom.errands.trans hmob.errands).trans hobj.errands).trans
            (execute_errands actor line)

/-! ## Walking -/

/-- The first three stages of leaving: the mobiles, the room and the objects that the actor leaves. After
each of them the walk looks where the actor is. -/
def mayGo (run : Runner) (actor start : Uid) (d : Direction) (g : Game) : Bool × Game :=
  match MobileEvent.onLeave .standard run actor (some d) g with
  | (allowed, g) =>
    if !(allowed && isStillIn g.world actor start) then (false, g)
    else match RoomEvent.onLeave run start actor d g with
      | (allowed, g) =>
        if !(allowed && isStillIn g.world actor start) then (false, g)
        else match ObjectEvent.onLeave run start actor (some d) g with
          | (allowed, g) => (allowed && isStillIn g.world actor start, g)

/-- The last two stages, after which the walk does not look: the actor itself, and the room ahead. -/
def mayEnter (run : Runner) (actor : Uid) (vnum : Vnum) (finish : Uid) (d : Direction) (g : Game) :
    Bool × Game :=
  match MobileEvent.onEntry run actor vnum g with
  | (false, g) => (false, g)
  | (true, g) => RoomEvent.onPreentry run finish actor d g

theorem mayLeave_eq (run : Runner) (actor start : Uid) (vnum : Vnum) (finish : Uid) (d : Direction)
    (g : Game) : mayLeave run actor start vnum finish d g =
      match mayGo run actor start d g with
      | (false, g) => (false, g)
      | (true, g) => mayEnter run actor vnum finish d g := by
  unfold mayLeave mayGo
  generalize MobileEvent.onLeave .standard run actor (some d) g = p1
  obtain ⟨allowed1, g1⟩ := p1
  dsimp only
  cases allowed1 && isStillIn g1.world actor start with
  | false => rfl
  | true =>
    generalize RoomEvent.onLeave run start actor d g1 = p2
    obtain ⟨allowed2, g2⟩ := p2
    dsimp only
    cases allowed2 && isStillIn g2.world actor start with
    | false => rfl
    | true =>
      generalize ObjectEvent.onLeave run start actor (some d) g2 = p3
      obtain ⟨allowed3, g3⟩ := p3
      dsimp only
      cases allowed3 && isStillIn g3.world actor start <;> rfl

/-- An actor that passes the first three stages is where it was. -/
theorem isStillIn_of_mayGo {start : Uid} {d : Direction}
    (h : mayGo run actor start d g = (true, g')) : isStillIn g'.world actor start = true := by
  unfold mayGo at h
  split at h
  split at h
  · cases h
  · split at h
    split at h
    · cases h
    · split at h
      obtain ⟨hs, rfl⟩ := Prod.mk.inj h
      exact (Bool.and_eq_true _ _ ▸ hs).2

theorem mayGo_stirs (actor start : Uid) (d : Direction) :
    Stirs run g (mayGo run actor start d g).2 := by
  unfold mayGo
  have h1 : Stirs run g (MobileEvent.onLeave .standard run actor (some d) g).2 :=
    MobileEvent.dispatch_stirs .standard (.leave actor (some d))
  split
  rename_i g1 he
  rw [he] at h1
  split
  · exact h1
  · have h2 : Stirs run g1 (RoomEvent.onLeave run start actor d g1).2 :=
      RoomEvent.dispatch_stirs (.leave start actor d)
    split
    rename_i g2 he
    rw [he] at h2
    split
    · exact h1.trans h2
    · have h3 : Stirs run g2 (ObjectEvent.onLeave run start actor (some d) g2).2 :=
        ObjectEvent.dispatch_stirs (.leave start actor (some d))
      split
      rename_i g3 he
      rw [he] at h3
      exact (h1.trans h2).trans h3

theorem mayEnter_stirs (actor : Uid) (vnum : Vnum) (finish : Uid) (d : Direction) :
    Stirs run g (mayEnter run actor vnum finish d g).2 := by
  have h1 : Stirs run g (MobileEvent.onEntry run actor vnum g).2 :=
    MobileEvent.dispatch_stirs .standard (.entry actor vnum)
  unfold mayEnter
  split
  · rename_i he
    rw [he] at h1
    exact h1
  · rename_i g1 he
    rw [he] at h1
    exact h1.trans (RoomEvent.dispatch_stirs (.preentry finish actor d))

theorem mayLeave_stirs (actor start : Uid) (vnum : Vnum) (finish : Uid) (d : Direction) :
    Stirs run g (mayLeave run actor start vnum finish d g).2 := by
  have h1 : Stirs run g (mayGo run actor start d g).2 := mayGo_stirs actor start d
  rw [mayLeave_eq]
  split
  · rename_i he
    rw [he] at h1
    exact h1
  · rename_i g1 he
    rw [he] at h1
    exact h1.trans (mayEnter_stirs actor vnum finish d)

/-- The actor is put into the room ahead, events happen, and a last one, or it is put back. -/
theorem arrive_stirs (run : Runner) (actor start finish : Uid) (d : Direction) (g : Game) :
    ∃ g1, Stirs run (g.withWorld (g.world.placeCharacter actor finish)) g1 ∧
      ((arrive run actor start finish d g).1 = true ∧
        Stirs run g1 (arrive run actor start finish d g).2 ∨
      (arrive run actor start finish d g).1 = false ∧
        (arrive run actor start finish d g).2 =
          g1.withWorld (g1.world.placeCharacter actor start)) := by
  have h1 : Stirs run (g.withWorld (g.world.placeCharacter actor finish))
      (MobileEvent.onGreet .standard run actor d
        (g.withWorld (g.world.placeCharacter actor finish))).2 :=
    MobileEvent.dispatch_stirs .standard (.greet actor d)
  refine ⟨_, h1, ?_⟩
  unfold arrive
  simp only
  split
  · rename_i he
    rw [he]
    exact .inl ⟨rfl, RoomEvent.dispatch_stirs (.postentry actor d)⟩
  · rename_i he
    rw [he]
    exact .inr ⟨rfl, rfl⟩

section

variable (hr : Fires run)
include hr

theorem execute_evolves (actor : Uid) (line : String) : Evolves s g (g.execute run actor line) :=
  (execute_errands actor line).evolves hr

theorem interpret_evolves (actor : Uid) (line : String) :
    Evolves s g (interpret run actor line g) := (interpret_errands actor line).evolves hr

theorem walk_evolves (actor : Uid) (d : Direction) : Evolves s g (walk run actor d g).2 := by
  unfold walk
  split
  · exact .refl
  · rename_i start vnum finish _
    have h1 := (mayLeave_stirs actor start vnum finish d (g := g)).evolves hr (s := s)
    split
    · rename_i he
      rw [he] at h1
      exact h1
    · rename_i g1 he
      rw [he] at h1
      obtain ⟨g2, h2, ⟨-, h3⟩ | ⟨-, h3⟩⟩ := arrive_stirs run actor start finish d g1
      · exact h1.trans (.head (.place actor finish) ((h2.evolves hr).trans (h3.evolves hr)))
      · rw [h3]
        exact h1.trans (.head (.place actor finish) ((h2.evolves hr).tail (.place actor start)))

end

end Game

end MudTrigger
