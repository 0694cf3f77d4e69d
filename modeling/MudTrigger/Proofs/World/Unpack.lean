import MudTrigger.Proofs.World.Taken

/-!
# Leaving the index last

`World.Unpacks` takes entities out in another order: each stays in the index until its belongings have
left, so that a holder is seen, and edited, while it is emptied. Where nothing holds itself, this comes
to an end, with the same list of those who left and the same world (`Takes.unpacks`): what differs
meanwhile is the index entry and the record of a holder that is about to leave (`World.Veiled`).
-/

set_option autoImplicit false

namespace MudTrigger

namespace World

/-- Takes the entities of a list out of the world, together with what belongs to them; each stays in
the index until its belongings have left. -/
inductive Unpacks : World → List Uid → List Uid → World → Prop
  | done {w} : Unpacks w [] [] w
  | skip {w w' u us out} : w.isMovable u = false → Unpacks w us out w' → Unpacks w (u :: us) out w'
  | take {w w1 w' u us inner outer} : w.isMovable u = true →
    Unpacks w (w.belongings u) inner w1 →
    Unpacks ((w1.drop (w.resolve u) u).forget u) us outer w' →
    Unpacks w (u :: us) (inner ++ u :: outer) w'

/-- Edits the record of a reference. -/
def touch (w : World) (r : EntityRef) (f : Character → Character) (g : Object → Object) : World :=
  match r with
  | .character h => { w with characters := w.characters.modify h f }
  | .object h => { w with objects := w.objects.modify h g }
  | _ => w

/-- The second world is the first without one entity, which nobody else shares a record with; that
record may have been edited in the first, but says of its place what it said. -/
structure Veiled (u : Uid) (r : EntityRef) (w v : World) : Prop where
  seen : w.index.get? u = some r
  sole : ∀ {x}, w.index.get? x = some r → x = u
  movable : (∃ h, r = .character h) ∨ ∃ h, r = .object h
  eq : ∃ f g, (∀ c : Character, (f c).inRoom = c.inRoom) ∧
    (∀ o : Object, (g o).location = o.location) ∧ w.forget u = v.touch r f g

variable {w v w' v' : World} {u x : Uid} {us out : List Uid} {h : Handle} {r ref : EntityRef}
  {f f' : Character → Character} {g g' : Object → Object}

/-! ## Edits side by side -/

@[simp] theorem index_touch : (w.touch r f g).index = w.index := by
  cases r <;> rfl

@[simp] theorem resolve_touch (x : Uid) : (w.touch r f g).resolve x = w.resolve x := by
  rw [resolve, index_touch, resolve]

theorem touch_id : w.touch r id id = w := by
  cases r with
  | character h =>
    have hself : w.characters.modify h id = w.characters := Arena.modify_self _ _ _ fun _ => rfl
    simp only [touch, hself]
  | object h =>
    have hself : w.objects.modify h id = w.objects := Arena.modify_self _ _ _ fun _ => rfl
    simp only [touch, hself]
  | room | nothing => rfl

theorem touch_touch : (w.touch r f g).touch r f' g' = w.touch r (f' ∘ f) (g' ∘ g) := by
  cases r with
  | character h => simp only [touch, Arena.modify_modify]
  | object h => simp only [touch, Arena.modify_modify]
  | room | nothing => rfl

theorem touch_modifyRoom (y : Uid) (k : Room → Room) :
    (w.modifyRoom y k).touch r f g = (w.touch r f g).modifyRoom y k := by
  unfold modifyRoom
  rw [resolve_touch]
  cases w.resolve y <;> cases r <;> rfl

theorem touch_modifyCharacter (y : Uid) (k : Character → Character) (hy : w.resolve y ≠ r) :
    (w.modifyCharacter y k).touch r f g = (w.touch r f g).modifyCharacter y k := by
  unfold modifyCharacter
  rw [resolve_touch]
  cases hr : w.resolve y with
  | character h =>
    cases r with
    | character h' =>
      have hne : h ≠ h' := fun he => hy (by rw [hr, he])
      simp only [touch, Arena.modify_comm k f hne]
    | object | room | nothing => rfl
  | object | room | nothing => rfl

theorem touch_modifyObject (y : Uid) (k : Object → Object) (hy : w.resolve y ≠ r) :
    (w.modifyObject y k).touch r f g = (w.touch r f g).modifyObject y k := by
  unfold modifyObject
  rw [resolve_touch]
  cases hr : w.resolve y with
  | object h =>
    cases r with
    | object h' =>
      have hne : h ≠ h' := fun he => hy (by rw [hr, he])
      simp only [touch, Arena.modify_comm k g hne]
    | character | room | nothing => rfl
  | character | room | nothing => rfl

theorem forget_modifyRoom_ne (k : Room → Room) (hx : x ≠ u) :
    (w.modifyRoom x k).forget u = (w.forget u).modifyRoom x k := by
  unfold modifyRoom
  rw [resolve_forget_ne hx]
  cases w.resolve x <;> rfl

theorem forget_modifyCharacter_ne (k : Character → Character) (hx : x ≠ u) :
    (w.modifyCharacter x k).forget u = (w.forget u).modifyCharacter x k := by
  unfold modifyCharacter
  rw [resolve_forget_ne hx]
  cases w.resolve x <;> rfl

theorem forget_modifyObject_ne (k : Object → Object) (hx : x ≠ u) :
    (w.modifyObject x k).forget u = (w.forget u).modifyObject x k := by
  unfold modifyObject
  rw [resolve_forget_ne hx]
  cases w.resolve x <;> rfl

theorem forget_modifyCharacter_self (k : Character → Character) (hu : w.resolve u = r) :
    (w.modifyCharacter u k).forget u = (w.forget u).touch r k id := by
  unfold modifyCharacter
  rw [hu]
  cases r with
  | object h =>
    have hself : w.objects.modify h id = w.objects := Arena.modify_self _ _ _ fun _ => rfl
    simp only [touch, forget, hself]
  | character | room | nothing => rfl

theorem forget_modifyObject_self (k : Object → Object) (hu : w.resolve u = r) :
    (w.modifyObject u k).forget u = (w.forget u).touch r id k := by
  unfold modifyObject
  rw [hu]
  cases r with
  | character h =>
    have hself : w.characters.modify h id = w.characters := Arena.modify_self _ _ _ fun _ => rfl
    simp only [touch, forget, hself]
  | object | room | nothing => rfl

namespace Veiled

/-! ## What is seen in both worlds -/

theorem index_eq (hv : Veiled u r w v) : v.index = w.index.erase u := by
  obtain ⟨f, g, -, -, he⟩ := hv.eq
  rw [← index_touch, ← he]
  rfl

theorem resolve_ne (hv : Veiled u r w v) (hx : x ≠ u) : v.resolve x = w.resolve x := by
  rw [resolve, hv.index_eq, Table.get?_erase_ne _ hx, resolve]

theorem resolve_self (hv : Veiled u r w v) : v.resolve u = .nothing := by
  rw [resolve, hv.index_eq, Table.get?_erase_self, Option.getD_none]

theorem not_nothing (hv : Veiled u r w v) : r ≠ .nothing := by
  rintro rfl
  rcases hv.movable with ⟨h, he⟩ | ⟨h, he⟩ <;> cases he

theorem resolve_ne_ref (hv : Veiled u r w v) (hx : x ≠ u) : w.resolve x ≠ r := fun he =>
  hx (hv.sole (get?_of_resolve he hv.not_nothing))

theorem get?_character (hv : Veiled u r w v) (hr : r ≠ .character h) :
    v.characters.get? h = w.characters.get? h := by
  obtain ⟨f, g, -, -, he⟩ := hv.eq
  have hc : (w.forget u).characters = (v.touch r f g).characters := by rw [he]
  refine Eq.trans ?_ (congrArg (·.get? h) hc.symm)
  cases r with
  | character h' =>
    have hne : h ≠ h' := fun he => hr (by rw [he])
    exact ((Arena.get?_modify _ _ _ _).trans (if_neg hne)).symm
  | object | room | nothing => rfl

theorem get?_object (hv : Veiled u r w v) (hr : r ≠ .object h) :
    v.objects.get? h = w.objects.get? h := by
  obtain ⟨f, g, -, -, he⟩ := hv.eq
  have ho : (w.forget u).objects = (v.touch r f g).objects := by rw [he]
  refine Eq.trans ?_ (congrArg (·.get? h) ho.symm)
  cases r with
  | object h' =>
    have hne : h ≠ h' := fun he => hr (by rw [he])
    exact ((Arena.get?_modify _ _ _ _).trans (if_neg hne)).symm
  | character | room | nothing => rfl

theorem character?_eq (hv : Veiled u r w v) (hx : x ≠ u) : v.character? x = w.character? x := by
  have hn := hv.resolve_ne_ref hx
  unfold World.character?
  rw [hv.resolve_ne hx]
  cases hr : w.resolve x with
  | character h => exact hv.get?_character fun he => hn (hr.trans he.symm)
  | object | room | nothing => rfl

theorem object?_eq (hv : Veiled u r w v) (hx : x ≠ u) : v.object? x = w.object? x := by
  have hn := hv.resolve_ne_ref hx
  unfold World.object?
  rw [hv.resolve_ne hx]
  cases hr : w.resolve x with
  | object h => exact hv.get?_object fun he => hn (hr.trans he.symm)
  | character | room | nothing => rfl

theorem isMovable_eq (hv : Veiled u r w v) (hx : x ≠ u) : v.isMovable x = w.isMovable x := by
  rw [isMovable, hv.character?_eq hx, hv.object?_eq hx, isMovable]

theorem belongings_eq (hv : Veiled u r w v) (hx : x ≠ u) : v.belongings x = w.belongings x := by
  unfold belongings
  rw [hv.resolve_ne hx, hv.character?_eq hx, hv.object?_eq hx]

/-! ## What is done in both worlds -/

theorem modifyRoom (hv : Veiled u r w v) (y : Uid) (k : Room → Room) :
    Veiled u r (w.modifyRoom y k) (v.modifyRoom y k) := by
  obtain ⟨f, g, hf, hg, he⟩ := hv.eq
  refine ⟨by rw [index_modifyRoom]; exact hv.seen, by rw [index_modifyRoom]; exact hv.sole, hv.movable,
    f, g, hf, hg, ?_⟩
  by_cases hy : y = u
  · subst hy
    have hw : w.modifyRoom y k = w := by
      unfold World.modifyRoom
      rw [resolve_of_get? hv.seen]
      rcases hv.movable with ⟨h, rfl⟩ | ⟨h, rfl⟩ <;> rfl
    have hv0 : v.modifyRoom y k = v := by
      unfold World.modifyRoom
      rw [hv.resolve_self]
    rw [hw, hv0, he]
  · rw [forget_modifyRoom_ne k hy, he, touch_modifyRoom]

theorem modifyCharacter (hv : Veiled u r w v) (y : Uid) {k : Character → Character}
    (hk : ∀ c, (k c).inRoom = c.inRoom) :
    Veiled u r (w.modifyCharacter y k) (v.modifyCharacter y k) := by
  obtain ⟨f, g, hf, hg, he⟩ := hv.eq
  have hseen : (w.modifyCharacter y k).index.get? u = some r := by
    rw [index_modifyCharacter]
    exact hv.seen
  have hsole : ∀ {x}, (w.modifyCharacter y k).index.get? x = some r → x = u := by
    rw [index_modifyCharacter]
    exact hv.sole
  by_cases hy : y = u
  · subst hy
    have hv0 : v.modifyCharacter y k = v := by
      unfold World.modifyCharacter
      rw [hv.resolve_self]
    refine ⟨hseen, hsole, hv.movable, k ∘ f, id ∘ g, fun c => (hk _).trans (hf c), hg, ?_⟩
    rw [forget_modifyCharacter_self k (resolve_of_get? hv.seen), he, touch_touch, hv0]
  · refine ⟨hseen, hsole, hv.movable, f, g, hf, hg, ?_⟩
    rw [forget_modifyCharacter_ne k hy, he, touch_modifyCharacter]
    rw [hv.resolve_ne hy]
    exact hv.resolve_ne_ref hy

theorem modifyObject (hv : Veiled u r w v) (y : Uid) {k : Object → Object}
    (hk : ∀ o, (k o).location = o.location) :
    Veiled u r (w.modifyObject y k) (v.modifyObject y k) := by
  obtain ⟨f, g, hf, hg, he⟩ := hv.eq
  have hseen : (w.modifyObject y k).index.get? u = some r := by
    rw [index_modifyObject]
    exact hv.seen
  have hsole : ∀ {x}, (w.modifyObject y k).index.get? x = some r → x = u := by
    rw [index_modifyObject]
    exact hv.sole
  by_cases hy : y = u
  · subst hy
    have hv0 : v.modifyObject y k = v := by
      unfold World.modifyObject
      rw [hv.resolve_self]
    refine ⟨hseen, hsole, hv.movable, id ∘ f, k ∘ g, hf, fun o => (hk _).trans (hg o), ?_⟩
    rw [forget_modifyObject_self k (resolve_of_get? hv.seen), he, touch_touch, hv0]
  · refine ⟨hseen, hsole, hv.movable, f, g, hf, hg, ?_⟩
    rw [forget_modifyObject_ne k hy, he, touch_modifyObject]
    rw [hv.resolve_ne hy]
    exact hv.resolve_ne_ref hy

theorem vacate (hv : Veiled u r w v) (y : Uid) (room : Option Uid) :
    Veiled u r (w.vacate y room) (v.vacate y room) := by
  cases room with
  | none => exact hv
  | some room => exact hv.modifyRoom room _

theorem unlink (hv : Veiled u r w v) (y : Uid) (location : Location) :
    Veiled u r (w.unlink y location) (v.unlink y location) := by
  cases location with
  | nowhere => exact hv
  | room room => exact hv.modifyRoom room _
  | carried holder | worn holder p => exact hv.modifyCharacter holder fun _ => rfl
  | inside container => exact hv.modifyObject container fun _ => rfl

theorem removeCharacter (hv : Veiled u r w v) (hr : r ≠ .character h) :
    Veiled u r { w with characters := (w.characters.remove h).2 }
      { v with characters := (v.characters.remove h).2 } := by
  obtain ⟨f, g, hf, hg, he⟩ := hv.eq
  refine ⟨hv.seen, hv.sole, hv.movable, f, g, hf, hg, ?_⟩
  show { w.forget u with characters := ((w.forget u).characters.remove h).2 } = _
  rw [he]
  cases r with
  | character h' =>
    have hne : h' ≠ h := fun he => hr (by rw [he])
    simp only [touch, Arena.remove_modify_ne f hne]
  | object | room | nothing => rfl

theorem removeObject (hv : Veiled u r w v) (hr : r ≠ .object h) :
    Veiled u r { w with objects := (w.objects.remove h).2 }
      { v with objects := (v.objects.remove h).2 } := by
  obtain ⟨f, g, hf, hg, he⟩ := hv.eq
  refine ⟨hv.seen, hv.sole, hv.movable, f, g, hf, hg, ?_⟩
  show { w.forget u with objects := ((w.forget u).objects.remove h).2 } = _
  rw [he]
  cases r with
  | object h' =>
    have hne : h' ≠ h := fun he => hr (by rw [he])
    simp only [touch, Arena.remove_modify_ne g hne]
  | character | room | nothing => rfl

/-- Another entity than the veiled one is dropped. -/
theorem drop (hv : Veiled u r w v) (y : Uid) (hr : ref ≠ r) :
    Veiled u r (w.drop ref y) (v.drop ref y) := by
  cases ref with
  | character h =>
    have hg := hv.get?_character (h := h) hr.symm
    cases hc : w.characters.get? h with
    | none =>
      have hw : w.drop (.character h) y = w := by simp only [World.drop, hc]
      have hv0 : v.drop (.character h) y = v := by simp only [World.drop, hg, hc]
      rw [hw, hv0]
      exact hv
    | some c =>
      rw [drop_character y hc, drop_character y (hg.trans hc)]
      exact (hv.vacate y c.inRoom).removeCharacter hr.symm
  | object h =>
    have hg := hv.get?_object (h := h) hr.symm
    cases ho : w.objects.get? h with
    | none =>
      have hw : w.drop (.object h) y = w := by simp only [World.drop, ho]
      have hv0 : v.drop (.object h) y = v := by simp only [World.drop, hg, ho]
      rw [hw, hv0]
      exact hv
    | some o =>
      rw [drop_object y ho, drop_object y (hg.trans ho)]
      exact (hv.unlink y o.location).removeObject hr.symm
  | room | nothing => exact hv

/-- Another entity than the veiled one is forgotten. -/
theorem forget (hv : Veiled u r w v) (hx : x ≠ u) : Veiled u r (w.forget x) (v.forget x) := by
  obtain ⟨f, g, hf, hg, he⟩ := hv.eq
  refine ⟨?_, fun {y} hy => hv.sole ((Wanes.forget x).index hy), hv.movable, f, g, hf, hg, ?_⟩
  · rw [get?_forget, if_neg hx.symm]
    exact hv.seen
  · have hcomm : (w.forget x).forget u = (w.forget u).forget x := by
      unfold World.forget Table.erase
      simp only [List.filter_filter, Bool.and_comm]
    rw [hcomm, he]
    cases r <;> rfl

/-- When the veiled entity goes, nothing tells the worlds apart. -/
theorem lift (hv : Veiled u r w v) : (w.drop r u).forget u = v.drop r u := by
  obtain ⟨f, g, hf, hg, he⟩ := hv.eq
  rcases hv.movable with ⟨h, rfl⟩ | ⟨h, rfl⟩
  · have hc : (w.forget u).characters = v.characters.modify h f := by rw [he]; rfl
    change w.characters = _ at hc
    have hget : w.characters.get? h = (v.characters.get? h).map f := by
      rw [hc, Arena.get?_modify, if_pos rfl]
    cases hx : v.characters.get? h with
    | none =>
      have hw : w.drop (.character h) u = w := by simp only [World.drop, hget, hx, Option.map_none]
      have hv0 : v.drop (.character h) u = v := by simp only [World.drop, hx]
      rw [hw, hv0, he]
      show { v with characters := v.characters.modify h f } = v
      rw [Arena.modify_of_stale f hx]
    | some c =>
      rw [hx] at hget
      rw [drop_character u hx, drop_character u hget, hf c]
      obtain ⟨f', g', -, -, he'⟩ := (hv.vacate u c.inRoom).eq
      show { (w.vacate u c.inRoom).forget u with
        characters := (((w.vacate u c.inRoom).forget u).characters.remove h).2 } = _
      rw [he']
      simp only [touch, Arena.remove_modify_self]
  · have ho : (w.forget u).objects = v.objects.modify h g := by rw [he]; rfl
    change w.objects = _ at ho
    have hget : w.objects.get? h = (v.objects.get? h).map g := by
      rw [ho, Arena.get?_modify, if_pos rfl]
    cases hx : v.objects.get? h with
    | none =>
      have hw : w.drop (.object h) u = w := by simp only [World.drop, hget, hx, Option.map_none]
      have hv0 : v.drop (.object h) u = v := by simp only [World.drop, hx]
      rw [hw, hv0, he]
      show { v with objects := v.objects.modify h g } = v
      rw [Arena.modify_of_stale g hx]
    | some o =>
      rw [hx] at hget
      rw [drop_object u hx, drop_object u hget, hg o]
      obtain ⟨f', g', -, -, he'⟩ := (hv.unlink u o.location).eq
      show { (w.unlink u o.location).forget u with
        objects := (((w.unlink u o.location).forget u).objects.remove h).2 } = _
      rw [he']
      simp only [touch, Arena.remove_modify_self]

end Veiled

/-! ## The two orders -/

theorem veiled_forget (hw : w.Sound) (hu : w.isMovable u = true) :
    Veiled u (w.resolve u) w (w.forget u) := by
  have hkind : (∃ h, w.index.get? u = some (.character h)) ∨ ∃ h, w.index.get? u = some (.object h) :=
    hw.isMovable_iff.1 hu
  have hmov : (∃ h, w.resolve u = .character h) ∨ ∃ h, w.resolve u = .object h :=
    hkind.imp (fun ⟨h, hi⟩ => ⟨h, resolve_of_get? hi⟩) fun ⟨h, hi⟩ => ⟨h, resolve_of_get? hi⟩
  have hn : w.resolve u ≠ .nothing := by
    rcases hmov with ⟨h, he⟩ | ⟨h, he⟩ <;> rw [he] <;> nofun
  have hseen := get?_of_resolve rfl hn
  exact ⟨hseen, fun hx => hw.ref_inj hx hseen hn, hmov, id, id, fun _ => rfl, fun _ => rfl,
    touch_id.symm⟩

theorem Unpacks.wanes (h : Unpacks w us out w') : w.Wanes w' := by
  induction h with
  | done => exact .refl
  | skip _ _ ih => exact ih
  | take _ _ _ ih ih' => exact ih.trans ((Wanes.drop _ _).trans ((Wanes.forget _).trans ih'))

/-- What is done without an entity can be done in its presence, unless it is held by what leaves. -/
theorem Unpacks.unveil (ht : Unpacks v us out v') (hv : Veiled u r w v)
    (hn : ∀ x ∈ us, ¬ Relation.ReflTransGen w.Holds x u) :
    ∃ w', Unpacks w us out w' ∧ Veiled u r w' v' := by
  induction ht generalizing w with
  | done => exact ⟨w, .done, hv⟩
  | @skip v v' x us out hx _ ih =>
    have hxu : x ≠ u := fun he => hn x List.mem_cons_self (he ▸ .refl)
    obtain ⟨w', ht', hv'⟩ := ih hv fun y hy => hn y (List.mem_cons_of_mem _ hy)
    exact ⟨w', .skip (hv.isMovable_eq hxu ▸ hx) ht', hv'⟩
  | @take v v1 v' x us inner outer hx _ _ ih ih' =>
    have hxu : x ≠ u := fun he => hn x List.mem_cons_self (he ▸ .refl)
    rw [hv.isMovable_eq hxu] at hx
    rw [hv.belongings_eq hxu] at ih
    obtain ⟨w1, ht1, hv1⟩ := ih hv fun y hy hr => hn x List.mem_cons_self (.head hy hr)
    rw [hv.resolve_ne hxu] at ih'
    have hnext := (hv1.drop x (hv.resolve_ne_ref hxu)).forget hxu
    have hwane : w.Wanes ((w1.drop (w.resolve x) x).forget x) :=
      ht1.wanes.trans ((Wanes.drop _ _).trans (.forget _))
    obtain ⟨w', ht2, hv2⟩ := ih' hnext fun y hy hr =>
      hn y (List.mem_cons_of_mem _ hy) (hwane.reaches hr)
    exact ⟨w', .take hx ht1 ht2, hv2⟩

/-- Where nothing holds itself, entities may leave the index last as well as first. -/
theorem Takes.unpacks (ht : Takes w us out w') (hw : w.Sound) (ha : w.Acyclic) :
    Unpacks w us out w' := by
  induction ht with
  | done => exact .done
  | skip hu _ ih => exact .skip hu (ih hw ha)
  | @take w w1 w' u us inner outer hu ht _ ih ih' =>
    have hwhole : Takes w [u] (inner ++ [u]) (w1.drop (w.resolve u) u) := .take hu ht .done
    have hin := ih (hw.forget u) (ha.wanes (.forget u))
    have hout := ih' (hwhole.sound hw) (ha.wanes hwhole.wanes)
    obtain ⟨w2, ht2, hv2⟩ := hin.unveil (veiled_forget hw hu) fun x hx hr => ha u (.head' hx hr)
    refine .take hu ht2 ?_
    rw [hv2.lift]
    exact hout

end World

end MudTrigger
