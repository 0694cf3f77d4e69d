import MudTrigger.Proofs.World.Indexed
import Mathlib.Data.List.Induction
import Mathlib.Data.List.Nodup

/-!
# Identities over the whole history of a world

A `History` is a world together with the identities that it has given out and those that were taken
out of it since it was empty. The rooms count from 50000 and all others from 100000, and nothing keeps
the first counter from running into the second (`nodup_issued_iff`). As long as no identity is given
out twice, each is that of one record while it is in the world, and of none afterwards (`Orderly`), so
that identities are unique in a world of up to 50,000 rooms (`identities_unique`).
-/

set_option autoImplicit false

namespace MudTrigger

namespace World

/-- A command that builds the world, or moves or takes out what is in it. -/
inductive Command where
  | addRoom (vnum : Vnum) (name : String)
  | addPlayer (name : String) (room : Uid)
  | addMobile (vnum : Vnum) (name : String) (room : Uid)
  | addObject (vnum : Vnum) (name : String) (location : Location)
  | placeCharacter (u room : Uid)
  | placeObject (u : Uid) (location : Location)
  | extract (u : Uid)

namespace Command

def addsRoom : Command → Bool
  | addRoom .. => true
  | _ => false

/-- A character or an object is added. -/
def addsOther : Command → Bool
  | addPlayer .. | addMobile .. | addObject .. => true
  | _ => false

end Command

/-- A world, the identities that it gave out and those that were taken out of it, in this order. -/
structure History where
  world : World := {}
  issued : List Uid := []
  taken : List Uid := []

namespace History

/-- An identity is given out. -/
def issue (s : History) (r : Uid × World) : History :=
  { s with world := r.2, issued := s.issued ++ [r.1] }

def step (s : History) : Command → History
  | .addRoom vnum name => s.issue (s.world.addRoom vnum name)
  | .addPlayer name room => s.issue (s.world.addPlayer name room)
  | .addMobile vnum name room => s.issue (s.world.addMobile vnum name room)
  | .addObject vnum name location => s.issue (s.world.addObject vnum name location)
  | .placeCharacter u room => { s with world := s.world.placeCharacter u room }
  | .placeObject u location => { s with world := s.world.placeObject u location }
  | .extract u =>
    { s with world := (s.world.extract u).2, taken := s.taken ++ (s.world.extract u).1 }

/-- What comes of the empty world. -/
def of (cs : List Command) : History := cs.foldl step {}

end History

variable {w w' : World} {u : Uid} {s : History}

/-! ## The counters -/

theorem nextRoom_addCharacter (vnum : Option Vnum) (name : String) (room : Uid) :
    (w.addCharacter vnum name room).2.nextRoom = w.nextRoom :=
  (Moves.placeCharacter _ room).nextRoom

theorem nextUid_addCharacter (vnum : Option Vnum) (name : String) (room : Uid) :
    (w.addCharacter vnum name room).2.nextUid = w.nextUid + 1 :=
  (Moves.placeCharacter _ room).nextUid

theorem nextRoom_addObject (vnum : Vnum) (name : String) (location : Location) :
    (w.addObject vnum name location).2.nextRoom = w.nextRoom :=
  (Moves.placeObject _ location).nextRoom

theorem nextUid_addObject (vnum : Vnum) (name : String) (location : Location) :
    (w.addObject vnum name location).2.nextUid = w.nextUid + 1 :=
  (Moves.placeObject _ location).nextUid

namespace History

theorem nextRoom_step (s : History) (c : Command) :
    (s.step c).world.nextRoom = s.world.nextRoom + c.addsRoom.toNat := by
  cases c with
  | addRoom => rfl
  | addPlayer name room => exact nextRoom_addCharacter none name room
  | addMobile vnum name room => exact nextRoom_addCharacter (some vnum) name room
  | addObject vnum name location => exact nextRoom_addObject vnum name location
  | placeCharacter u room => exact (Moves.placeCharacter u room).nextRoom
  | placeObject u location => exact (Moves.placeObject u location).nextRoom
  | extract u => exact (takes_extract s.world u).nextRoom

theorem nextUid_step (s : History) (c : Command) :
    (s.step c).world.nextUid = s.world.nextUid + c.addsOther.toNat := by
  cases c with
  | addRoom => rfl
  | addPlayer name room => exact nextUid_addCharacter none name room
  | addMobile vnum name room => exact nextUid_addCharacter (some vnum) name room
  | addObject vnum name location => exact nextUid_addObject vnum name location
  | placeCharacter u room => exact (Moves.placeCharacter u room).nextUid
  | placeObject u location => exact (Moves.placeObject u location).nextUid
  | extract u => exact (takes_extract s.world u).wanes.nextUid

theorem of_append (cs : List Command) (c : Command) : of (cs ++ [c]) = (of cs).step c := by
  rw [of, List.foldl_append]
  rfl

theorem nextRoom_of (cs : List Command) :
    (of cs).world.nextRoom = cs.countP Command.addsRoom := by
  induction cs using List.reverseRecOn with
  | nil => rfl
  | append_singleton cs c ih =>
    rw [of_append, nextRoom_step, ih, List.countP_append, List.countP_singleton]
    cases c.addsRoom <;> rfl

theorem nextUid_of (cs : List Command) :
    (of cs).world.nextUid = Uid.firstMobile + cs.countP Command.addsOther := by
  induction cs using List.reverseRecOn with
  | nil => rfl
  | append_singleton cs c ih =>
    rw [of_append, nextUid_step, ih, List.countP_append, List.countP_singleton]
    cases c.addsOther <;> rfl

/-! ## What is given out -/

/-- Characters and objects have these identities, in this order. -/
def other (i : Nat) : Uid := ⟨Uid.firstMobile + i⟩

theorem issued_append (cs : List Command) (c : Command) :
    (of (cs ++ [c])).issued = (of cs).issued ++ match c with
      | .addRoom .. => [Uid.room (cs.countP Command.addsRoom)]
      | .addPlayer .. | .addMobile .. | .addObject .. => [other (cs.countP Command.addsOther)]
      | .placeCharacter .. | .placeObject .. | .extract .. => [] := by
  have hroom := nextRoom_of cs
  have huid := nextUid_of cs
  rw [of_append]
  cases c with
  | addRoom vnum name =>
    rw [← hroom]
    rfl
  | addPlayer | addMobile | addObject =>
    simp only [other, ← huid]
    rfl
  | placeCharacter | placeObject | extract => exact (List.append_nil _).symm

/-- Rooms and all others count on their own. -/
theorem issued_perm (cs : List Command) :
    (of cs).issued.Perm ((List.range (cs.countP Command.addsRoom)).map Uid.room ++
      (List.range (cs.countP Command.addsOther)).map other) := by
  induction cs using List.reverseRecOn with
  | nil => exact .refl _
  | append_singleton cs c ih =>
    rw [issued_append, List.countP_append, List.countP_append]
    cases c with
    | addRoom =>
      refine (ih.append_right _).trans ?_
      show List.Perm _ ((List.range (_ + 1)).map Uid.room ++ _)
      rw [List.range_succ, List.map_append, List.append_assoc, List.append_assoc]
      exact List.perm_append_comm.append_left _
    | addPlayer | addMobile | addObject =>
      show List.Perm _ (_ ++ (List.range (_ + 1)).map other)
      rw [List.range_succ, List.map_append, ← List.append_assoc]
      exact ih.append_right _
    | placeCharacter | placeObject | extract =>
      rw [List.append_nil]
      exact ih

theorem room_injective : Function.Injective Uid.room := fun i j h => by
  have h := congrArg Uid.raw h
  simp only [Uid.room] at h
  omega

theorem other_injective : Function.Injective other := fun i j h => by
  have h := congrArg Uid.raw h
  simp only [other] at h
  omega

/-- No identity is given out twice, unless the rooms run into characters and objects. -/
theorem nodup_issued_iff (cs : List Command) :
    (of cs).issued.Nodup ↔
      cs.countP Command.addsRoom ≤ 50000 ∨ cs.countP Command.addsOther = 0 := by
  rw [(issued_perm cs).nodup_iff, List.nodup_append]
  constructor
  · rintro ⟨-, -, hne⟩
    by_contra hc
    obtain ⟨hrooms, hothers⟩ := not_or.1 hc
    refine hne (Uid.room 50000) ?_ (other 0) ?_ rfl
    · exact List.mem_map_of_mem (List.mem_range.2 (by omega))
    · exact List.mem_map_of_mem (List.mem_range.2 (by omega))
  · intro h
    refine ⟨List.nodup_range.map room_injective, List.nodup_range.map other_injective,
      fun u hu v hv he => ?_⟩
    obtain ⟨i, hi, rfl⟩ := List.mem_map.1 hu
    obtain ⟨j, hj, rfl⟩ := List.mem_map.1 hv
    rw [List.mem_range] at hi hj
    have he := congrArg Uid.raw he
    simp only [Uid.room, other, Uid.firstRoom, Uid.firstMobile] at he
    omega

/-! ## Order -/

/-- What is in the world is found under an identity that was given out, and what was taken is not in
the world. -/
structure Orderly (s : History) : Prop where
  sound : s.world.Sound
  indexed : s.world.Indexed
  known : ∀ {u r}, s.world.index.get? u = some r → u ∈ s.issued
  taken : ∀ u ∈ s.taken, u ∈ s.issued ∧ s.world.index.get? u = none

theorem orderly_empty : Orderly {} where
  sound := sound_empty
  indexed := indexed_empty
  known hu := by cases hu
  taken := by simp

namespace Orderly

variable (hs : s.Orderly)
include hs

theorem moves (hw : w.Sound) (h : s.world.Moves w) : Orderly { s with world := w } where
  sound := hw
  indexed := hs.indexed.moves h
  known hu := hs.known (h.index ▸ hu)
  taken u hu := ⟨(hs.taken u hu).1, h.index ▸ (hs.taken u hu).2⟩

theorem extract (u : Uid) : (s.step (.extract u)).Orderly := by
  have ht := takes_extract s.world u
  refine ⟨hs.sound.extract u, ht.indexed hs.indexed, fun hx => hs.known (ht.wanes.index hx),
    fun x hx => ?_⟩
  rcases List.mem_append.1 hx with hx | hx
  · obtain ⟨hi, hn⟩ := hs.taken x hx
    refine ⟨hi, Option.eq_none_iff_forall_not_mem.2 fun r hr => ?_⟩
    rw [ht.wanes.index hr] at hn
    cases hn
  · obtain ⟨r, hr⟩ := get?_of_isMovable (ht.isMovable_of_mem hx)
    exact ⟨hs.known hr, ht.index_of_mem hx⟩

/-- A new identity is given out. -/
theorem issue {r : Uid × World} (hw : r.2.Sound) (hadds : s.world.Adds r.1 r.2)
    (hnodup : (s.issue r).issued.Nodup) : (s.issue r).Orderly := by
  have hnew : r.1 ∉ s.issued := fun hu =>
    (List.nodup_append.1 hnodup).2.2 _ hu _ (List.mem_singleton.2 rfl) rfl
  have habsent : s.world.index.get? r.1 = none :=
    Option.eq_none_iff_forall_not_mem.2 fun _ hr => hnew (hs.known hr)
  obtain ⟨ref, hindex⟩ := hadds.index
  refine ⟨hw, hadds.indexed habsent hs.sound hs.indexed, fun {x _} hx => ?_, fun x hx => ?_⟩
  · have hx : r.2.index.get? x = some _ := hx
    rw [hindex] at hx
    rcases Table.get?_set_cases hx with ⟨he, -⟩ | hx
    · exact List.mem_append_right _ (List.mem_singleton.2 he)
    · exact List.mem_append_left _ (hs.known hx)
  · obtain ⟨hi, hn⟩ := hs.taken x hx
    refine ⟨List.mem_append_left _ hi, ?_⟩
    show r.2.index.get? x = none
    rw [hindex, Table.get?_set_ne, hn]
    rintro rfl
    exact hnew hi

/-- A command keeps order, if it gives out no identity for a second time. -/
theorem step (c : Command) (h : (s.step c).issued.Nodup) : (s.step c).Orderly := by
  cases c with
  | addRoom vnum name => exact hs.issue (hs.sound.addRoom vnum name) (adds_addRoom _ vnum name) h
  | addPlayer name room =>
    exact hs.issue (hs.sound.addCharacter none name room) (adds_addCharacter _ none name room) h
  | addMobile vnum name room =>
    exact hs.issue (hs.sound.addMobile vnum name room) (adds_addMobile _ vnum name room) h
  | addObject vnum name location =>
    exact hs.issue (hs.sound.addObject vnum name location) (adds_addObject _ vnum name location) h
  | placeCharacter u room => exact hs.moves (hs.sound.placeCharacter u room) (.placeCharacter u room)
  | placeObject u location => exact hs.moves (hs.sound.placeObject u location) (.placeObject u location)
  | extract u => exact hs.extract u

end Orderly

theorem orderly_of (cs : List Command) (h : (of cs).issued.Nodup) : (of cs).Orderly := by
  induction cs using List.reverseRecOn with
  | nil => exact orderly_empty
  | append_singleton cs c ih =>
    have hprefix := h
    rw [issued_append] at hprefix
    rw [of_append] at h ⊢
    exact (ih (List.nodup_append.1 hprefix).1).step c h

/-- Identities are looked up by the records and lead to them, and what was taken is found no more. -/
theorem Orderly.resolve (hs : s.Orderly) :
    (∀ h c, s.world.characters.get? h = some c → s.world.resolve c.uid = .character h) ∧
    (∀ h o, s.world.objects.get? h = some o → s.world.resolve o.uid = .object h) ∧
    (∀ h r, s.world.rooms.get? h = some r → s.world.resolve r.uid = .room h) ∧
    ∀ u ∈ s.taken, s.world.resolve u = .nothing := by
  refine ⟨fun h c hc => ?_, fun h o ho => ?_, fun h r hr => ?_, fun u hu => ?_⟩
  · exact resolve_of_get? (hs.indexed.characters h c hc)
  · exact resolve_of_get? (hs.indexed.objects h o ho)
  · exact resolve_of_get? (hs.indexed.rooms h r hr)
  · rw [World.resolve, (hs.taken u hu).2, Option.getD_none]

end History

/-- What an identity leads to has this identity. -/
theorem Sound.resolve (hw : w.Sound) (u : Uid) :
    match w.resolve u with
    | .character h => ∃ c, w.characters.get? h = some c ∧ c.uid = u
    | .object h => ∃ o, w.objects.get? h = some o ∧ o.uid = u
    | .room h => ∃ r, w.rooms.get? h = some r ∧ r.uid = u
    | .nothing => True := by
  cases hr : w.resolve u with
  | character h => exact hw.character (get?_of_resolve hr (by simp))
  | object h => exact hw.object (get?_of_resolve hr (by simp))
  | room h => exact hw.room (get?_of_resolve hr (by simp))
  | nothing => trivial

/--
However a world came about from the empty one, as long as at most 50,000 rooms were added to it, or
nothing but rooms: no identity was given out twice, every record is found under its identity, every
identity that is found leads to a record with this identity, and what was taken out is never found again.
-/
theorem identities_unique (cs : List Command)
    (h : cs.countP Command.addsRoom ≤ 50000 ∨ cs.countP Command.addsOther = 0) :
    let s := History.of cs
    s.issued.Nodup ∧
    (∀ h c, s.world.characters.get? h = some c → s.world.resolve c.uid = .character h) ∧
    (∀ h o, s.world.objects.get? h = some o → s.world.resolve o.uid = .object h) ∧
    (∀ h r, s.world.rooms.get? h = some r → s.world.resolve r.uid = .room h) ∧
    (∀ u ∈ s.taken, s.world.resolve u = .nothing) ∧
    ∀ u, match s.world.resolve u with
      | .character h => ∃ c, s.world.characters.get? h = some c ∧ c.uid = u
      | .object h => ∃ o, s.world.objects.get? h = some o ∧ o.uid = u
      | .room h => ∃ r, s.world.rooms.get? h = some r ∧ r.uid = u
      | .nothing => True := by
  intro s
  have hnodup := (History.nodup_issued_iff cs).2 h
  have hs := History.orderly_of cs hnodup
  obtain ⟨hcharacters, hobjects, hrooms, htaken⟩ := hs.resolve
  exact ⟨hnodup, hcharacters, hobjects, hrooms, htaken, hs.sound.resolve⟩

/-- An orc with a sword comes, leaves, and another one comes. -/
def visits : List Command :=
  [.addRoom 100 "den", .addMobile 7 "an orc" (Uid.room 0), .addObject 5 "a sword" (.carried ⟨100000⟩),
    .extract ⟨100000⟩, .addMobile 7 "an orc" (Uid.room 0)]

theorem visits_unique :
    let s := History.of visits
    s.issued = [⟨50000⟩, ⟨100000⟩, ⟨100001⟩, ⟨100002⟩] ∧ s.issued.Nodup ∧
    s.taken = [⟨100001⟩, ⟨100000⟩] ∧ (∀ u ∈ s.taken, s.world.resolve u = .nothing) ∧
    s.world.resolve ⟨100002⟩ = .character ⟨0, 1⟩ := by
  intro s
  obtain ⟨hnodup, hcharacters, -, -, htaken, -⟩ := identities_unique visits (.inl (by decide))
  have hnew : (s.world.characters.get? ⟨0, 1⟩).map (·.uid) = some ⟨100002⟩ := by decide +kernel
  obtain ⟨c, hc, hu⟩ := Option.map_eq_some_iff.1 hnew
  exact ⟨by decide +kernel, hnodup, by decide +kernel, htaken, hu ▸ hcharacters _ c hc⟩

/-- One room too many, and a player. -/
def crowd : List Command := List.replicate 50001 (.addRoom 0 "") ++ [.addPlayer "Ann" (Uid.room 0)]

theorem crowd_collides : ¬ (History.of crowd).issued.Nodup := by
  rw [History.nodup_issued_iff, crowd, List.countP_append, List.countP_append,
    List.countP_replicate, List.countP_replicate]
  decide

end World

end MudTrigger
