import MudTrigger.Proofs.Store.Reach

/-!
# Handles of runs under way are not issued again

Handles start over after 2^32 reuses of a slot. `Game.attachments` counts the triggers that were ever
attached, and `Tracked n m` bounds how often the slots of the runs under way can have been reused
since there were `n` attachments. As long as fewer than 2^32 triggers were attached meanwhile, every
change keeps the runs tracked (`Tracked.change`), and a trigger that is attached gets a handle that no
run under way has (`Tracked.attach`).
-/

set_option autoImplicit false

namespace MudTrigger

namespace Notice

def isAttached : Notice → Bool
  | attached .. => true
  | _ => false

/-- The record of an attachment or of a run that was cut short. -/
def isRecord : Notice → Bool
  | attached .. => true
  | looped .. => true
  | _ => false

theorem isRecord_of_isPlain {n : Notice} (hn : n.isPlain = true) : n.isRecord = false := by
  cases n <;> first | rfl | cases hn

theorem isRecord_of_isAttached {n : Notice} (hn : n.isAttached = true) : n.isRecord = true := by
  cases n <;> first | rfl | cases hn

end Notice

namespace Game

variable {g g' g1 g2 : Game}

def records (g : Game) : List Notice := g.log.filter Notice.isRecord

theorem records_report (n : Notice) :
    (g.report n).records = g.records ++ if n.isRecord then [n] else [] := by
  rw [records, report, List.filter_append, List.filter_cons, List.filter_nil, records]

/-- How many triggers were attached so far. -/
def attachments (g : Game) : Nat := g.log.countP Notice.isAttached

theorem attachments_eq : g.attachments = g.records.countP Notice.isAttached := by
  rw [attachments, records, List.countP_filter]
  refine List.countP_congr fun n _ => ?_
  rw [Bool.and_eq_true]
  exact ⟨fun hn => ⟨hn, Notice.isRecord_of_isAttached hn⟩, And.left⟩

theorem attachments_report (n : Notice) :
    (g.report n).attachments = g.attachments + if n.isAttached then 1 else 0 := by
  simp [attachments, report, List.countP_append, List.countP_cons]

/-- Nothing was attached, and no run cut short. -/
structure Quiet (g g' : Game) : Prop where
  config : g'.engine.config = g.engine.config
  records : g'.records = g.records
  within : ∀ {h n}, g.engine.triggers.Within h n → g'.engine.triggers.Within h n

theorem Quiet.attachments (h : Quiet g g') : g'.attachments = g.attachments := by
  rw [attachments_eq, h.records, ← attachments_eq]

theorem Quiet.refl : Quiet g g := ⟨rfl, rfl, id⟩

theorem Quiet.trans (h : Quiet g g1) (h' : Quiet g1 g2) : Quiet g g2 :=
  ⟨h'.config.trans h.config, h'.records.trans h.records, h'.within ∘ h.within⟩

theorem quiet_of_eq (hc : g'.engine.config = g.engine.config) (hl : g'.log = g.log)
    (ht : g'.engine.triggers = g.engine.triggers) : Quiet g g' :=
  ⟨hc, by rw [Game.records, hl, Game.records], fun hw => ht ▸ hw⟩

theorem quiet_report {n : Notice} (hn : n.isRecord = false) : Quiet g (g.report n) :=
  ⟨rfl, by rw [records_report, hn]; exact List.append_nil _, id⟩

theorem Quiet.report {n : Notice} (h : Quiet g g') (hn : n.isRecord = false) :
    Quiet g (g'.report n) := h.trans (quiet_report hn)

theorem quiet_blame (p : Prototype) (faults : List Fault) : Quiet g (g.blame p faults) := by
  have hf : (faults.map fun f => Notice.authoring p.vnum p.name f).filter Notice.isRecord = [] := by
    rw [List.filter_eq_nil_iff]
    intro n hn
    obtain ⟨f, -, rfl⟩ := List.mem_map.1 hn
    exact Bool.false_ne_true
  refine ⟨rfl, ?_, id⟩
  rw [Game.records, blame, List.filter_append, hf, List.append_nil, Game.records]

theorem quiet_modifyInstance (h : Handle) (f : Instance → Instance) :
    Quiet g (g.modifyInstance h f) := ⟨rfl, rfl, fun hw => hw.modify h f⟩

theorem quiet_withWaits (q : WaitQueue) : Quiet g (g.withWaits q) := quiet_of_eq rfl rfl rfl

theorem quiet_makeGlobal (h : Handle) (u : Uid) (v : Variable) : Quiet g (g.makeGlobal h u v) :=
  (quiet_modifyInstance h fun i => { i with locals := i.locals.erase v.name }).trans
    (quiet_of_eq rfl rfl rfl)

theorem quiet_unset (h : Handle) (u : Uid) (name : String) : Quiet g (g.unset h u name) := by
  unfold unset
  split
  · exact quiet_of_eq rfl rfl rfl
  · exact quiet_modifyInstance h _

theorem quiet_bindLocals (h : Handle) (bindings : List (String × String)) :
    Quiet g (g.bindLocals h bindings) := quiet_modifyInstance h _

theorem quiet_countLoop (h : Handle) : Quiet g (g.countLoop h) := quiet_modifyInstance h _

theorem quiet_finish (h : Handle) : Quiet g (g.finish h) := quiet_modifyInstance h _

theorem quiet_takeUp (h : Handle) : Quiet g (g.takeUp h) := quiet_modifyInstance h _

theorem quiet_leave : Quiet g g.leave := quiet_of_eq rfl rfl rfl

theorem quiet_enter (h : Handle) (u : Uid) : Quiet g (g.enter h u) := by
  have hd : Quiet g (g.withDepth (g.engine.depth + 1)) := quiet_of_eq rfl rfl rfl
  exact hd.report rfl

theorem quiet_begin (h : Handle) : Quiet g (g.begin h) := by
  unfold begin
  simp only
  split
  · exact (quiet_withWaits _).trans (quiet_modifyInstance h _)
  · exact quiet_modifyInstance h _

theorem quiet_suspend (h : Handle) (u : Uid) (line delay : Nat) (kind : WaitKind) :
    Quiet g (g.suspend h u line delay kind) := by
  unfold suspend
  simp only
  split
  · exact quiet_withWaits _
  · exact Quiet.report ((quiet_withWaits _).trans (quiet_modifyInstance h _)) rfl

theorem quiet_refuse (h : Handle) (i : Instance) (mode : RunMode) :
    Quiet g (g.refuse h i mode) := by
  cases mode with
  | new => exact (quiet_report rfl).trans (quiet_finish h)
  | resume => exact quiet_report rfl

theorem quiet_dropInstance (h : Handle) : Quiet g (g.dropInstance h) := by
  have hr : Quiet g (g.withTriggers (g.engine.triggers.remove h).2) :=
    ⟨rfl, rfl, fun hw => hw.remove h⟩
  unfold dropInstance
  split
  · exact .refl
  · simp only
    split
    · exact Quiet.report (hr.trans (quiet_withWaits _)) rfl
    · exact Quiet.report hr rfl

theorem quiet_removeInstance (u : Uid) (h : Handle) : Quiet g (g.removeInstance u h) := by
  have hd := quiet_dropInstance (g := g) h
  unfold removeInstance
  simp only
  split
  · exact hd
  · split
    · exact Quiet.report (hd.trans (quiet_of_eq rfl rfl rfl)) rfl
    · exact hd.trans (quiet_of_eq rfl rfl rfl)

theorem quiet_foldl {α : Type} {f : Game → α → Game} (hf : ∀ g a, Quiet g (f g a)) (as : List α) :
    Quiet g (as.foldl f g) := by
  induction as generalizing g with
  | nil => exact .refl
  | cons a as ih => exact (hf g a).trans ih

theorem quiet_detachAll (u : Uid) : Quiet g (g.detachAll u).2 := by
  unfold detachAll
  split
  · exact .refl
  · rename_i c _
    have hc : Quiet g (g.withContainers (g.engine.containers.erase u)) := quiet_of_eq rfl rfl rfl
    exact Quiet.report (hc.trans (quiet_foldl (fun _ h => quiet_dropInstance h) c.triggers)) rfl

theorem within_foldl_remove (hs : List Handle) {a : Arena Instance} {h : Handle} {n : Nat}
    (hw : a.Within h n) : (hs.foldl (fun ts h => (ts.remove h).2) a).Within h n := by
  induction hs generalizing a with
  | nil => exact hw
  | cons x hs ih => exact ih (hw.remove x)

theorem quiet_extractEntity (u : Uid) : Quiet g (g.extractEntity u) := by
  have hr : ∀ {g1 : Game} (q : WaitQueue) (k : Nat),
      Quiet g1 ((g1.withWaits q).report (.cancelledWaits u k)) := fun q k =>
    (quiet_withWaits q).report rfl
  unfold extractEntity
  cases g.container? u with
  | none =>
    simp only
    split
    · exact hr _ _
    · exact quiet_withWaits _
  | some c =>
    have hc : Quiet g ((g.withContainers (g.engine.containers.erase u)).withTriggers
        (c.triggers.foldl (fun ts h => (ts.remove h).2) g.engine.triggers)) :=
      ⟨rfl, rfl, fun hw => within_foldl_remove _ hw⟩
    simp only
    split
    · exact hc.trans (hr _ _)
    · exact hc.trans (quiet_withWaits _)

theorem quiet_purge (u : Uid) : Quiet g (g.purge u) := by
  have hw : Quiet g (g.withWorld (g.world.extract u).2) := quiet_of_eq rfl rfl rfl
  exact hw.trans (quiet_foldl (fun _ v => quiet_extractEntity v) _)

theorem records_attachTo (target : Uid) (vnum : Vnum) (p : Prototype) (position : Option Nat) :
    (g.attachTo target vnum p position).records = g.records ++ [.attached vnum target] := by
  rw [attachTo, records_report]
  rfl

theorem attachments_attachTo (target : Uid) (vnum : Vnum) (p : Prototype) (position : Option Nat) :
    (g.attachTo target vnum p position).attachments = g.attachments + 1 := by
  rw [attachTo, attachments_report]
  rfl

end Game

open Game

/-- What a change adds to the records: nothing, an attachment, or a run that is cut short. -/
theorem Change.quiet_or_record {m m' : Moment} (h : Change m m') :
    Quiet m.game m'.game ∨
    (m'.stack = m.stack ∧
      ∃ target vnum p position, m'.game = m.game.attachTo target vnum p position) ∨
    ∃ a s i, m.stack = a :: s ∧ m'.stack = s ∧ m.game.instance? a.trigger = some i ∧
      a.loops + 1 < m.game.engine.config.loopDeferAfter ∧
      m.game.engine.config.loopAbortAfter ≤ i.loops + 1 ∧
      Quiet (m.game.report (.looped a.proto.vnum a.proto.name (i.loops + 1))) m'.game := by
  cases h with
  | attach ha =>
    obtain ⟨p, -, rfl⟩ := attach_ok ha
    exact .inr (.inl ⟨rfl, _, _, p, _, rfl⟩)
  | report hn => exact .inl (quiet_report (Notice.isRecord_of_isPlain hn))
  | blame p faults => exact .inl (quiet_blame p faults)
  | addNote | roll | tell | place | vanish | noteHour => exact .inl (quiet_of_eq rfl rfl rfl)
  | loopOver => exact .inl .refl
  | purge => exact .inl (quiet_purge _)
  | detach => exact .inl (quiet_removeInstance _ _)
  | detachAll target => exact .inl (quiet_detachAll target)
  | reach | evaluate | command => exact .inl (quiet_report rfl)
  | setLocal | deepen | rise | loopAgain => exact .inl (quiet_modifyInstance _ _)
  | makeGlobal v => exact .inl (quiet_makeGlobal _ _ v)
  | unset name => exact .inl (quiet_unset _ _ name)
  | loopYield =>
    exact .inl ((quiet_countLoop _).trans ((quiet_suspend _ _ _ _ _).trans quiet_leave))
  | @loopHalt a s g i hi hd ha =>
    have hq : Quiet (g.report (.looped a.proto.vnum a.proto.name (i.loops + 1)))
        ((g.countLoop a.trigger).report (.looped a.proto.vnum a.proto.name (i.loops + 1))) :=
      ⟨rfl, by rw [records_report, records_report]; rfl, fun hw => hw.modify _ _⟩
    exact .inr (.inr ⟨a, s, i, rfl, rfl, hi, hd, ha, hq.trans ((quiet_finish _).trans quiet_leave)⟩)
  | suspend => exact .inl ((quiet_suspend _ _ _ _ _).trans quiet_leave)
  | finish => exact .inl ((quiet_finish _).trans quiet_leave)
  | start bindings =>
    exact .inl ((quiet_bindLocals _ bindings).trans ((quiet_enter _ _).trans (quiet_begin _)))
  | refuse bindings => exact .inl ((quiet_bindLocals _ bindings).trans (quiet_refuse _ _ .new))
  | skip => exact .inl (quiet_withWaits _)
  | resume =>
    exact .inl (((quiet_withWaits _).report rfl).trans ((quiet_enter _ _).trans (quiet_takeUp _)))
  | @refuseResume _ w _ i =>
    exact .inl (((quiet_withWaits _).report rfl).trans
      (quiet_refuse w.continuation.trigger i .resume))

/-- A change attaches one trigger, or it attaches none. -/
theorem Change.attachments_cases {m m' : Moment} (h : Change m m') :
    (m'.game.attachments = m.game.attachments ∧
      ∀ {h n}, m.game.engine.triggers.Within h n → m'.game.engine.triggers.Within h n) ∨
    (m'.stack = m.stack ∧
      ∃ target vnum p position, m'.game = m.game.attachTo target vnum p position) := by
  rcases h.quiet_or_record with hq | ha | ⟨a, s, i, -, -, -, -, -, hq⟩
  · exact .inl ⟨hq.attachments, hq.within⟩
  · exact .inr ha
  · exact .inl ⟨hq.attachments.trans (attachments_report _), hq.within⟩

theorem Change.attachments_le {m m' : Moment} (h : Change m m') :
    m.game.attachments ≤ m'.game.attachments := by
  rcases h.attachments_cases with ⟨hq, -⟩ | ⟨-, target, vnum, p, position, he⟩
  · exact Nat.le_of_eq hq.symm
  · rw [he, attachments_attachTo]
    exact Nat.le_succ _

theorem Changes.attachments_le {m m' : Moment} (h : Changes m m') :
    m.game.attachments ≤ m'.game.attachments := by
  induction h with
  | refl => exact Nat.le_refl _
  | tail _ h ih => exact Nat.le_trans ih h.attachments_le

/-- A handle stays within as many insertions as triggers are attached. -/
theorem Change.within {m m' : Moment} (h : Change m m') (hs : m.game.engine.triggers.Sound) {n : Nat}
    (hle : n ≤ m.game.attachments) (hn : m'.game.attachments < n + 0x1_0000_0000) {x : Handle}
    (hw : m.game.engine.triggers.Within x (m.game.attachments - n)) :
    m'.game.engine.triggers.Within x (m'.game.attachments - n) := by
  rcases h.attachments_cases with ⟨hq, hsame⟩ | ⟨-, target, vnum, p, position, he⟩
  · rw [hq]
    exact hsame hw
  · rw [he, attachments_attachTo] at hn ⊢
    rw [Nat.succ_sub hle]
    exact (hw.insert hs (by omega) { proto := p, owner := target }).2

theorem Intervention.quiet {g g' : Game} (h : Intervention g g') : Quiet g g' := by
  cases h with
  | extractEntity u => exact quiet_extractEntity u
  | setGlobal u name value => exact quiet_of_eq rfl rfl rfl
  | purge u => exact quiet_purge u
  | replaceWorld w => exact quiet_of_eq rfl rfl rfl

/-- The runs under way after a change were under way before, or their triggers are attached. -/
theorem Change.mem_stack {m m' : Moment} (h : Change m m') {a : Activation} (ha : a ∈ m'.stack) :
    (∃ b ∈ m.stack, b.trigger = a.trigger ∧ b.proto = a.proto) ∨
      ∃ i, m'.game.instance? a.trigger = some i ∧ i.proto = a.proto := by
  cases h with
  | loopOver | loopAgain =>
    rcases List.mem_cons.1 ha with rfl | ha
    · exact .inl ⟨_, List.mem_cons_self, rfl, rfl⟩
    · exact .inl ⟨a, List.mem_cons_of_mem _ ha, rfl, rfl⟩
  | loopYield | loopHalt | suspend | finish | vanish =>
    exact .inl ⟨a, List.mem_cons_of_mem _ ha, rfl, rfl⟩
  | @start _ g h i bindings hi =>
    rcases List.mem_cons.1 ha with rfl | ha
    · refine .inr ?_
      have hb : ((g.bindLocals h bindings).enter h i.owner).instance? h =
          some { i with locals := i.locals.setAll bindings } := instance?_bindLocals hi bindings
      have he := (same_begin (g := (g.bindLocals h bindings).enter h i.owner) h).instance hb
      obtain ⟨j, hj, -, hp⟩ := he
      exact ⟨j, hj, hp⟩
    · exact .inl ⟨a, ha, rfl, rfl⟩
  | @resume g w q i hq hi =>
    rcases List.mem_cons.1 ha with rfl | ha
    · refine .inr ?_
      have hi : (((g.withWaits q).report
          (.resuming w.continuation.owner w.continuation.resumeAt)).enter w.continuation.trigger
            i.owner).instance? w.continuation.trigger = some i := hi
      obtain ⟨j, hj, -, hp⟩ := (same_takeUp w.continuation.trigger).instance hi
      exact ⟨j, hj, hp⟩
    · exact .inl ⟨a, ha, rfl, rfl⟩
  | _ => exact .inl ⟨a, ha, rfl, rfl⟩

/-- The slots of the runs under way were reused at most as often as triggers were attached since
there were `n` attachments. -/
structure Tracked (n : Nat) (m : Moment) : Prop where
  le : n ≤ m.game.attachments
  within : ∀ {a}, a ∈ m.stack →
    m.game.engine.triggers.Within a.trigger (m.game.attachments - n)

namespace Tracked

variable {n : Nat} {m m' : Moment}

theorem of_idle (g : Game) : Tracked g.attachments ⟨[], g⟩ :=
  ⟨Nat.le_refl _, fun ha => by cases ha⟩

/-- The handle of a trigger that is attached is not that of a run under way. -/
theorem attach (ht : Tracked n m) (hs : m.game.engine.triggers.Sound)
    (hn : m.game.attachments + 1 < n + 0x1_0000_0000) {a : Activation} (ha : a ∈ m.stack)
    (target : Uid) (p : Prototype) : a.trigger ≠ m.game.nextHandle target p := by
  have hle := ht.le
  exact fun he => ((ht.within ha).insert hs (by omega) { proto := p, owner := target }).1 he.symm

theorem change (ht : Tracked n m) (h : Change m m') (hs : m.game.engine.triggers.Sound)
    (hn : m'.game.attachments < n + 0x1_0000_0000) : Tracked n m' := by
  refine ⟨Nat.le_trans ht.le h.attachments_le, fun {a} ha => ?_⟩
  rcases h.mem_stack ha with ⟨b, hb, hba, -⟩ | ⟨i, hi, -⟩
  · exact hba ▸ h.within hs ht.le hn (ht.within hb)
  · exact Arena.within_of_get? hi _

end Tracked

end MudTrigger
