import MudTrigger.Proofs.World.Culled

/-!
# What is taken, and in which order

Taking an entity out of a sound world takes out exactly what it holds, directly or not
(`Takes.mem_iff`). If nothing holds itself, all of it leaves before what holds it
(`Takes.ordered_single`). Whoever has left is no longer listed where it was (`Takes.unlisted`).
-/

set_option autoImplicit false

namespace MudTrigger

namespace World

variable {w w' w1 : World} {u x y : Uid} {us out : List Uid} {h : Handle} {r : EntityRef}

/-! ## All that is held is taken -/

theorem mem_belongings_of_object {o : Object} (ho : w.object? u = some o) :
    x ∈ w.belongings u ↔ x ∈ o.contents := by
  obtain ⟨h, hi, hg⟩ := object?_eq_some.1 ho
  rw [belongings, resolve_of_get? hi, ho]

theorem resolve_forget_ne (hx : x ≠ u) : (w.forget u).resolve x = w.resolve x := by
  rw [resolve, get?_forget, if_neg hx, resolve]

theorem belongings_forget (hx : x ≠ u) : (w.forget u).belongings x = w.belongings x := by
  unfold belongings character? object?
  rw [resolve_forget_ne hx]
  rfl

theorem ne_of_forget (hx : (w.forget u).isMovable x = true) : x ≠ u := by
  rintro rfl
  obtain ⟨r, hr⟩ := get?_of_isMovable hx
  rw [get?_forget, if_pos rfl] at hr
  cases hr

/-- A thing that can leave the world is an object. -/
theorem Thing.object? (hx : w.Thing x) (hm : w.isMovable x = true) : ∃ o, w.object? x = some o := by
  refine (isMovable_iff.1 hm).resolve_left ?_
  rintro ⟨c, hc⟩
  obtain ⟨h, hi, -⟩ := character?_eq_some.1 hc
  exact hx.1 h hi

theorem Wanes.thing (hw : w.Wanes w') (hx : w.Thing x) : w'.Thing x :=
  ⟨fun h he => hx.1 h (hw.index he), hw.nextUid ▸ hx.2⟩

theorem Sound.things_forget (hw : w.Sound) (u : Uid) : ∀ v ∈ w.belongings u, (w.forget u).Thing v :=
  fun _ hv => (Wanes.forget u).thing (hw.thing_of_belongings hv)

namespace Takes

/-- Where things are to leave, only things are taken. -/
theorem things (ht : Takes w us out w') (hw : w.Sound) (hus : ∀ u ∈ us, w.Thing u) (hx : x ∈ out) :
    w.Thing x :=
  (ht.thing hw hx).elim (hus x) id

/-- What an object held that was not taken, it still holds, unless that was taken. -/
theorem still_holds (ht : Takes w us out w') (hw : w.Sound) (hx : w.Thing x)
    (hm : w'.isMovable x = true) (hy : y ∈ w.belongings x) : y ∈ w'.belongings x ∨ y ∈ out := by
  obtain ⟨o', ho'⟩ := (ht.wanes.thing hx).object? hm
  obtain ⟨h, hi', hg'⟩ := object?_eq_some.1 ho'
  have hi := ht.wanes.index hi'
  obtain ⟨o, hg, -⟩ := hw.object hi
  have hs : w.Spared (.object h) out := fun z hz he => by
    obtain rfl := hw.ref_inj he hi (by simp)
    rw [ht.index_of_mem hz] at hi'
    cases hi'
  obtain ⟨o2, hg2, hkept⟩ := ht.object_kept hg hs
  rw [hg', Option.some.injEq] at hg2
  subst hg2
  rw [mem_belongings_of_object (object?_eq_some.2 ⟨h, hi, hg⟩)] at hy
  rw [mem_belongings_of_object ho']
  exact hkept.kept y hy

/-- Nothing is left of what something held that was taken. -/
theorem emptied (ht : Takes w us out w') (hw : w.Sound) (hus : ∀ u ∈ us, w.Thing u) (hx : x ∈ out)
    (hy : y ∈ w.belongings x) : w'.isMovable y = false := by
  induction ht with
  | done => exact absurd hx List.not_mem_nil
  | skip _ _ ih => exact ih hw (fun u hu => hus u (List.mem_cons_of_mem _ hu)) hx hy
  | @take w w1 w' u us inner outer hu ht ht' ih ih' =>
    have hwhole : Takes w [u] (inner ++ [u]) (w1.drop (w.resolve u) u) := .take hu ht .done
    have hrest : w1.Wanes w' := (Wanes.drop _ _).trans ht'.wanes
    rcases List.mem_append.1 hx with hx | hx
    · refine hrest.not_movable (ih (hw.forget u) (hw.things_forget u) hx ?_)
      rwa [belongings_forget (ne_of_forget (ht.isMovable_of_mem hx))]
    · rcases List.mem_cons.1 hx with rfl | hx
      · exact hrest.not_movable (ht.left hy)
      · have hthing := (Takes.take hu ht ht').things hw hus
          (List.mem_append_right _ (List.mem_cons_of_mem _ hx))
        rcases hwhole.still_holds hw hthing (ht'.isMovable_of_mem hx) hy with hy | hy
        · exact ih' (hwhole.sound hw)
            (fun v hv => hwhole.wanes.thing (hus v (List.mem_cons_of_mem _ hv))) hx hy
        · exact ht'.wanes.not_movable (not_movable_of_absent (hwhole.index_of_mem hy))

end Takes

/-! ## One entity with all that it holds -/

/-- An entity is taken after all that it holds. -/
theorem Takes.of_single (ht : Takes w [u] out w') (hu : w.isMovable u = true) :
    ∃ inner w1, Takes (w.forget u) (w.belongings u) inner w1 ∧ out = inner ++ [u] ∧
      w' = w1.drop (w.resolve u) u := by
  cases ht with
  | skip hn => rw [hu] at hn; cases hn
  | @take _ w1 _ _ _ inner outer _ ht ht' =>
    cases ht'
    exact ⟨inner, w1, ht, rfl, rfl⟩

section

variable (ht : Takes w [u] out w') (hw : w.Sound)
include ht hw

/-- Nothing but things is taken with an entity. -/
theorem Takes.object_of_mem (hx : x ∈ out) (hne : x ≠ u) : ∃ o, w.object? x = some o := by
  rcases ht.thing hw hx with hmem | hthing
  · exact absurd (List.mem_singleton.1 hmem) hne
  · exact hthing.object? (ht.isMovable_of_mem hx)

variable (hu : w.isMovable u = true)
include hu

theorem Takes.single_emptied (hx : x ∈ out) (hy : y ∈ w.belongings x) : w'.isMovable y = false := by
  obtain ⟨inner, w1, hin, rfl, rfl⟩ := ht.of_single hu
  rcases List.mem_append.1 hx with hx | hx
  · refine (Wanes.drop _ _).not_movable (hin.emptied (hw.forget u) (hw.things_forget u) hx ?_)
    rwa [belongings_forget (ne_of_forget (hin.isMovable_of_mem hx))]
  · rw [List.mem_singleton.1 hx] at hy
    exact (Wanes.drop _ _).not_movable (hin.left hy)

/-- Exactly what the entity holds, directly or not, is taken with it. -/
theorem Takes.mem_iff :
    x ∈ out ↔ w.isMovable x = true ∧ Relation.ReflTransGen w.Holds u x := by
  constructor
  · intro hx
    obtain ⟨v, hv, hr⟩ := ht.reaches hx
    rw [List.mem_singleton.1 hv] at hr
    exact ⟨ht.isMovable_of_mem hx, hr⟩
  · rintro ⟨hm, hr⟩
    have hgone : ∀ {z}, w.isMovable z = true → w'.isMovable z = false → z ∈ out := by
      intro z hz hz'
      by_cases hz0 : z ∈ out
      · exact hz0
      · rw [isMovable_of_index hw (ht.sound hw) (ht.index_of_not_mem hz0), hz] at hz'
        cases hz'
    induction hr with
    | refl => exact hgone hm (ht.left List.mem_cons_self)
    | @tail v x _ hvx ih =>
      have hv : w.isMovable v = true := by
        rw [isMovable_iff]
        rcases mem_belongings.1 hvx with ⟨c, hc, -⟩ | ⟨o, ho, -⟩
        · exact .inl ⟨c, hc⟩
        · exact .inr ⟨o, ho⟩
      exact hgone hm (ht.single_emptied hw hu (ih hv) hvx)

end

/-! ## The order of leaving -/

/-- Nothing holds itself, directly or not. -/
def Acyclic (w : World) : Prop := ∀ u, ¬ Relation.TransGen w.Holds u u

theorem Acyclic.wanes (hw : w.Acyclic) (h : w.Wanes w') : w'.Acyclic := fun u hu =>
  hw u (hu.lift id fun _ _ hx => h.belongings hx)

/-- Neither the same nor holding it. -/
def Clear (w : World) (x y : Uid) : Prop := x ≠ y ∧ y ∉ w.belongings x

/-- An entity leaves after what it holds, so they are in order if its belongings are. -/
theorem Takes.ordered_append (ht : Takes (w.forget u) (w.belongings u) out w') (ha : w.Acyclic)
    (hp : out.Pairwise (w.forget u).Clear) : (out ++ [u]).Pairwise w.Clear := by
  have hne : ∀ {x}, x ∈ out → x ≠ u := fun hx => ne_of_forget (ht.isMovable_of_mem hx)
  refine List.pairwise_append.2 ⟨?_, List.pairwise_singleton _ _, fun x hx y hy => ?_⟩
  · refine hp.imp_of_mem ?_
    rintro x y hx - ⟨hxy, hy⟩
    exact ⟨hxy, belongings_forget (hne hx) ▸ hy⟩
  · obtain rfl := List.mem_singleton.1 hy
    refine ⟨hne hx, fun hheld => ?_⟩
    obtain ⟨v, hv, hr⟩ := ht.reaches hx
    exact ha y (.head' hv (((Wanes.forget y).reaches hr).tail hheld))

/-- Nobody is taken twice, and nobody before what it holds. -/
theorem Takes.ordered (ht : Takes w us out w') (hw : w.Sound) (ha : w.Acyclic)
    (hus : ∀ u ∈ us, w.Thing u) : out.Pairwise w.Clear := by
  induction ht with
  | done => exact .nil
  | skip _ _ ih => exact ih hw ha fun u hu => hus u (List.mem_cons_of_mem _ hu)
  | @take w w1 w' u us inner outer hu ht ht' ih ih' =>
    have hwhole : Takes w [u] (inner ++ [u]) (w1.drop (w.resolve u) u) := .take hu ht .done
    have hin : (inner ++ [u]).Pairwise w.Clear :=
      ht.ordered_append ha (ih (hw.forget u) (ha.wanes (.forget u)) (hw.things_forget u))
    have hout : outer.Pairwise w.Clear := by
      refine (ih' (hwhole.sound hw) (ha.wanes hwhole.wanes) fun v hv =>
        hwhole.wanes.thing (hus v (List.mem_cons_of_mem _ hv))).imp_of_mem ?_
      rintro x y hx hy ⟨hne, hxy⟩
      refine ⟨hne, fun hheld => ?_⟩
      have hthing := (Takes.take hu ht ht').things hw hus
        (List.mem_append_right _ (List.mem_cons_of_mem _ hx))
      rcases hwhole.still_holds hw hthing (ht'.isMovable_of_mem hx) hheld with hheld | hgone
      · exact hxy hheld
      · have hm := ht'.isMovable_of_mem hy
        rw [not_movable_of_absent (hwhole.index_of_mem hgone)] at hm
        cases hm
    rw [List.append_cons]
    -- Those who are taken later are still there when the first one and its belongings have left.
    refine List.pairwise_append.2 ⟨hin, hout, fun x hx y hy => ⟨?_, fun hheld => ?_⟩⟩
    · rintro rfl
      have hm := ht'.isMovable_of_mem hy
      rw [not_movable_of_absent (hwhole.index_of_mem hx)] at hm
      cases hm
    · have hm := ht'.isMovable_of_mem hy
      rw [hwhole.single_emptied hw hu hx hheld] at hm
      cases hm

theorem Takes.ordered_single (ht : Takes w [u] out w') (hw : w.Sound) (ha : w.Acyclic)
    (hu : w.isMovable u = true) : out.Pairwise w.Clear := by
  obtain ⟨inner, w1, hin, rfl, -⟩ := ht.of_single hu
  exact hin.ordered_append ha
    (hin.ordered (hw.forget u) (ha.wanes (.forget u)) (hw.things_forget u))

/-! ## The places of those who left -/

/-- The place of an object lists it. -/
def Lists (w : World) (x : Uid) : Location → Prop
  | .nowhere => False
  | .room room => ∃ r, w.room? room = some r ∧ x ∈ r.contents
  | .carried holder => ∃ c, w.character? holder = some c ∧ x ∈ c.inventory
  | .worn holder p => ∃ c, w.character? holder = some c ∧ c.equipment.get? p = some x
  | .inside container => ∃ o, w.object? container = some o ∧ x ∈ o.contents

/-- The room has the character among its people. -/
def HasPerson (w : World) (x room : Uid) : Prop := ∃ r, w.room? room = some r ∧ x ∈ r.people

theorem Wanes.lists (hw : w.Wanes w') {location : Location} (hl : w'.Lists x location) :
    w.Lists x location := by
  cases location with
  | nowhere => exact hl
  | room room =>
    obtain ⟨r', hr, hx⟩ := hl
    obtain ⟨r, hr, hf⟩ := hw.room? hr
    exact ⟨r, hr, hf.contents hx⟩
  | carried holder =>
    obtain ⟨c', hc, hx⟩ := hl
    obtain ⟨c, hc, hf⟩ := hw.character? hc
    exact ⟨c, hc, hf.inventory hx⟩
  | worn holder p =>
    obtain ⟨c', hc, hx⟩ := hl
    obtain ⟨c, hc, hf⟩ := hw.character? hc
    exact ⟨c, hc, hf.worn hx⟩
  | inside container =>
    obtain ⟨o', ho, hx⟩ := hl
    obtain ⟨o, ho, hf⟩ := hw.object? ho
    exact ⟨o, ho, hf.contents hx⟩

theorem character?_modifyCharacter (u : Uid) (f : Character → Character) :
    (w.modifyCharacter u f).character? u = (w.character? u).map f := by
  cases hr : w.resolve u with
  | character h =>
    have hm : w.modifyCharacter u f = { w with characters := w.characters.modify h f } := by
      rw [modifyCharacter, hr]
    have hr' : (w.modifyCharacter u f).resolve u = .character h := by
      rw [resolve, index_modifyCharacter]
      exact hr
    rw [character?, character?, hr', hr, hm]
    exact (Arena.get?_modify _ _ _ _).trans (if_pos rfl)
  | object | room | nothing =>
    have hm : w.modifyCharacter u f = w := by rw [modifyCharacter, hr]
    have hc : w.character? u = none := by rw [character?, hr]
    rw [hm, hc]
    rfl

theorem object?_modifyObject (u : Uid) (f : Object → Object) :
    (w.modifyObject u f).object? u = (w.object? u).map f := by
  cases hr : w.resolve u with
  | object h =>
    have hm : w.modifyObject u f = { w with objects := w.objects.modify h f } := by
      rw [modifyObject, hr]
    have hr' : (w.modifyObject u f).resolve u = .object h := by
      rw [resolve, index_modifyObject]
      exact hr
    rw [object?, object?, hr', hr, hm]
    exact (Arena.get?_modify _ _ _ _).trans (if_pos rfl)
  | character | room | nothing =>
    have hm : w.modifyObject u f = w := by rw [modifyObject, hr]
    have ho : w.object? u = none := by rw [object?, hr]
    rw [hm, ho]
    rfl

theorem room?_modifyRoom (u : Uid) (f : Room → Room) :
    (w.modifyRoom u f).room? u = (w.room? u).map f := by
  cases hr : w.resolve u with
  | room h =>
    have hm : w.modifyRoom u f = { w with rooms := w.rooms.modify h f } := by
      rw [modifyRoom, hr]
    have hr' : (w.modifyRoom u f).resolve u = .room h := by
      rw [resolve, index_modifyRoom]
      exact hr
    rw [room?, room?, hr', hr, hm]
    exact (Arena.get?_modify _ _ _ _).trans (if_pos rfl)
  | character | object | nothing =>
    have hm : w.modifyRoom u f = w := by rw [modifyRoom, hr]
    have hn : w.room? u = none := by rw [room?, hr]
    rw [hm, hn]
    rfl

theorem not_mem_filter_ne (us : List Uid) : x ∉ us.filter (· ≠ x) := fun hx =>
  of_decide_eq_true (List.mem_filter.1 hx).2 rfl

theorem not_lists_unlink (location : Location) : ¬ (w.unlink x location).Lists x location := by
  cases location with
  | nowhere => exact id
  | room room =>
    rintro ⟨r, hr, hx⟩
    rw [unlink, room?_modifyRoom] at hr
    obtain ⟨r0, -, rfl⟩ := Option.map_eq_some_iff.1 hr
    exact not_mem_filter_ne _ hx
  | carried holder =>
    rintro ⟨c, hc, hx⟩
    rw [unlink, character?_modifyCharacter] at hc
    obtain ⟨c0, -, rfl⟩ := Option.map_eq_some_iff.1 hc
    exact not_mem_filter_ne _ hx
  | worn holder p =>
    rintro ⟨c, hc, hx⟩
    rw [unlink, character?_modifyCharacter] at hc
    obtain ⟨c0, -, rfl⟩ := Option.map_eq_some_iff.1 hc
    have hx : (c0.equipment.erase p).get? p = some x := hx
    rw [Table.get?_erase_self] at hx
    cases hx
  | inside container =>
    rintro ⟨o, ho, hx⟩
    rw [unlink, object?_modifyObject] at ho
    obtain ⟨o0, -, rfl⟩ := Option.map_eq_some_iff.1 ho
    exact not_mem_filter_ne _ hx

theorem not_hasPerson_vacate (room : Uid) : ¬ (w.vacate x (some room)).HasPerson x room := by
  rintro ⟨r, hr, hx⟩
  rw [vacate, room?_modifyRoom] at hr
  obtain ⟨r0, -, rfl⟩ := Option.map_eq_some_iff.1 hr
  exact not_mem_filter_ne _ hx

/-- An object that can still be taken is where it was. -/
theorem Wanes.object_of_isMovable (hw : w.Wanes w') {o : Object} (ho : w.object? x = some o)
    (hm : w'.isMovable x = true) : ∃ o', w'.object? x = some o' ∧ o'.location = o.location := by
  rcases isMovable_iff.1 hm with ⟨c', hc⟩ | ⟨o', ho'⟩
  · obtain ⟨c, hc, -⟩ := hw.character? hc
    obtain ⟨h, hi, -⟩ := character?_eq_some.1 hc
    obtain ⟨h', hi', -⟩ := object?_eq_some.1 ho
    rw [hi] at hi'
    cases hi'
  · obtain ⟨o1, ho1, hf⟩ := hw.object? ho'
    rw [ho, Option.some.injEq] at ho1
    subst ho1
    exact ⟨o', ho', hf.location⟩

namespace Takes

/-- The one to be taken next is not among those who were taken before, under its old handle. -/
theorem spared_self (ht : Takes (w.forget u) us out w1) (hw : w.Sound)
    (hr : w.index.get? u = some r) (hn : r ≠ .nothing) : (w.forget u).Spared r out := by
  intro x hx he
  have hne := ne_of_forget (ht.isMovable_of_mem hx)
  exact hne (hw.ref_inj ((Wanes.forget u).index he) hr hn)

/-- The place where an object was does not list it after it has left. -/
theorem unlisted (ht : Takes w us out w') (hw : w.Sound) (hx : x ∈ out) {o : Object}
    (ho : w.object? x = some o) : ¬ w'.Lists x o.location := by
  induction ht generalizing o with
  | done => exact absurd hx List.not_mem_nil
  | skip _ _ ih => exact ih hw hx ho
  | @take w w1 w' u us inner outer hu ht ht' ih ih' =>
    have hwhole : Takes w [u] (inner ++ [u]) (w1.drop (w.resolve u) u) := .take hu ht .done
    have hrest : w1.Wanes w' := (Wanes.drop _ _).trans ht'.wanes
    rcases List.mem_append.1 hx with hx | hx
    · obtain ⟨o', ho', he⟩ := (Wanes.forget u).object_of_isMovable ho (ht.isMovable_of_mem hx)
      exact fun hl => ih (hw.forget u) hx ho' (he ▸ hrest.lists hl)
    · rcases List.mem_cons.1 hx with rfl | hx
      · obtain ⟨h, hi, hg⟩ := object?_eq_some.1 ho
        obtain ⟨o1, hg1, -⟩ := ht.object_kept hg (ht.spared_self hw hi (by simp))
        obtain ⟨o0, hg0, hf⟩ := ((Wanes.forget x).trans ht.wanes).object hg1
        rw [hg, Option.some.injEq] at hg0
        subst hg0
        intro hl
        have hl := ht'.wanes.lists hl
        rw [resolve_of_get? hi, drop_object x hg1, hf.location] at hl
        exact not_lists_unlink _ ((Wanes.removeObject h).lists hl)
      · obtain ⟨o', ho', he⟩ := hwhole.wanes.object_of_isMovable ho (ht'.isMovable_of_mem hx)
        exact fun hl => ih' (hwhole.sound hw) hx ho' (he ▸ hl)

/-- The room where a character was does not have it among its people after it has left. -/
theorem not_hasPerson (ht : Takes w [u] out w') (hw : w.Sound) {c : Character}
    (hc : w.character? u = some c) {room : Uid} (hroom : c.inRoom = some room) :
    ¬ w'.HasPerson u room := by
  obtain ⟨inner, w1, hin, -, rfl⟩ := ht.of_single (isMovable_iff.2 (.inl ⟨c, hc⟩))
  obtain ⟨h, hi, hg⟩ := character?_eq_some.1 hc
  obtain ⟨c1, hg1, he⟩ := hin.character_kept hg (hin.spared_self hw hi (by simp))
  rw [resolve_of_get? hi, drop_character u hg1, he.inRoom, hroom]
  exact not_hasPerson_vacate room

end Takes

end World

end MudTrigger
