import MudTrigger.Proofs.Wait.Change

/-!
# Between the calls of the host every trigger rests or is pending

Whatever the host does, short of making runs go on by itself, the suspended runs are the pending
ones after each of its calls (`waits_agree`). Nothing that is due stays pending: no change adds an
entry that is due (`Change.recedes`), and a pulse takes out all that are (`overdue_resumeDue`).
Handles start over after 2^32 reuses of a slot, so the calls have to be `Paced`; and what is due is
never later than pulse 2^64 - 1, so the last pulse is left out of what is said about time.
-/

set_option autoImplicit false

namespace MudTrigger

namespace Game

variable {g g' g1 g2 : Game}

/-! ## Nothing that is due is added -/

/-- The pending entries that are due. -/
def overdue (g : Game) : List Wait := g.engine.waits.overdue g.engine.pulseCount

/-- The pulse before the last one that can be counted. -/
def lastPulse : Nat := 0xFFFF_FFFF_FFFF_FFFF

/-- No time passes, and nothing that is due is added. -/
structure Recedes (g g' : Game) : Prop where
  pulseCount : g'.engine.pulseCount = g.engine.pulseCount
  overdue : g.engine.pulseCount < lastPulse → g'.overdue.Sublist g.overdue

theorem Recedes.refl : Recedes g g := ⟨rfl, fun _ => .refl _⟩

theorem Recedes.trans (h : Recedes g g1) (h' : Recedes g1 g2) : Recedes g g2 :=
  ⟨h'.pulseCount.trans h.pulseCount,
    fun hn => (h'.overdue (h.pulseCount ▸ hn)).trans (h.overdue hn)⟩

theorem recedes_of_sublist (hc : g'.engine.pulseCount = g.engine.pulseCount)
    (hs : g'.engine.waits.pending.Sublist g.engine.waits.pending) : Recedes g g' := by
  refine ⟨hc, fun _ => ?_⟩
  rw [overdue, overdue, hc]
  exact WaitQueue.overdue_sublist hs

theorem recedes_of_eq (hc : g'.engine.pulseCount = g.engine.pulseCount)
    (hw : g'.engine.waits = g.engine.waits) : Recedes g g' :=
  recedes_of_sublist hc (hw ▸ .refl _)

theorem release_sublist (q : WaitQueue) (wait : Option WaitId) :
    (q.release wait).pending.Sublist q.pending := by
  cases wait with
  | none => exact .refl _
  | some id => exact WaitQueue.cancel_sublist id

theorem recedes_begin (h : Handle) : Recedes g (g.begin h) := by
  refine recedes_of_sublist ?_ (by rw [waits_begin]; exact release_sublist _ _)
  unfold begin
  simp only
  split <;> rfl

theorem recedes_unset (h : Handle) (u : Uid) (name : String) : Recedes g (g.unset h u name) := by
  unfold unset
  split <;> exact recedes_of_eq rfl rfl

theorem recedes_suspend (h : Handle) (u : Uid) (line delay : Nat) (kind : WaitKind) :
    Recedes g (g.suspend h u line delay kind) := by
  have hq : Recedes g (g.withWaits
      (g.engine.waits.schedule g.engine.pulseCount delay ⟨h, u, line, kind⟩).2) := by
    refine ⟨rfl, fun hn => ?_⟩
    show ((g.engine.waits.schedule g.engine.pulseCount delay ⟨h, u, line, kind⟩).2.overdue
      g.engine.pulseCount).Sublist (g.engine.waits.overdue g.engine.pulseCount)
    rw [WaitQueue.overdue_schedule _ _ _ hn]
  unfold suspend
  simp only
  split
  · exact hq
  · exact hq.trans (recedes_of_eq rfl rfl)

theorem recedes_refuse (h : Handle) (i : Instance) (mode : RunMode) :
    Recedes g (g.refuse h i mode) := by
  cases mode <;> exact recedes_of_eq rfl rfl

theorem recedes_dropInstance (h : Handle) : Recedes g (g.dropInstance h) := by
  refine recedes_of_sublist ?_ (by rw [waits_dropInstance]; exact release_sublist _ _)
  unfold dropInstance
  split
  · rfl
  · simp only
    split <;> rfl

theorem recedes_removeInstance (u : Uid) (h : Handle) : Recedes g (g.removeInstance u h) := by
  refine (recedes_dropInstance h).trans ?_
  unfold removeInstance
  simp only
  split
  · exact .refl
  · split <;> exact recedes_of_eq rfl rfl

theorem recedes_foldl {α : Type} {f : Game → α → Game} (hf : ∀ g a, Recedes g (f g a))
    (as : List α) : Recedes g (as.foldl f g) := by
  induction as generalizing g with
  | nil => exact .refl
  | cons a as ih => exact (hf g a).trans ih

theorem recedes_detachAll (u : Uid) : Recedes g (g.detachAll u).2 := by
  unfold detachAll
  split
  · exact .refl
  · rename_i c _
    have hc : Recedes g (g.withContainers (g.engine.containers.erase u)) := recedes_of_eq rfl rfl
    exact (hc.trans (recedes_foldl (fun _ h => recedes_dropInstance h) c.triggers)).trans
      (recedes_of_eq rfl rfl)

theorem recedes_extractEntity (u : Uid) : Recedes g (g.extractEntity u) := by
  refine recedes_of_sublist ?_ (by rw [waits_extractEntity]; exact WaitQueue.cancelOwner_sublist u)
  unfold extractEntity
  cases g.container? u with
  | none =>
    simp only
    split <;> rfl
  | some c =>
    simp only
    split <;> rfl

theorem recedes_purge (u : Uid) : Recedes g (g.purge u) := by
  have hw : Recedes g (g.withWorld (g.world.extract u).2) := recedes_of_eq rfl rfl
  exact hw.trans (recedes_foldl (fun _ v => recedes_extractEntity v) _)

end Game

open Game

theorem Change.recedes {m m' : Moment} (h : Change m m') : Recedes m.game m'.game := by
  cases h with
  | report | blame | addNote | roll | tell | place | reach | evaluate | command | noteHour | vanish
    | setLocal | makeGlobal | deepen | rise | loopAgain | finish => exact recedes_of_eq rfl rfl
  | loopOver => exact .refl
  | purge => exact recedes_purge _
  | attach ha =>
    obtain ⟨p, -, rfl⟩ := attach_ok ha
    exact recedes_of_eq rfl rfl
  | detach => exact recedes_removeInstance _ _
  | detachAll target => exact recedes_detachAll target
  | unset name => exact recedes_unset _ _ name
  | @loopYield a s g i line =>
    have hc : Recedes g (g.countLoop a.trigger) := recedes_of_eq rfl rfl
    exact (hc.trans (recedes_suspend _ _ _ _ _)).trans (recedes_of_eq rfl rfl)
  | loopHalt => exact recedes_of_eq rfl rfl
  | suspend => exact (recedes_suspend _ _ _ _ _).trans (recedes_of_eq rfl rfl)
  | @start _ g h i bindings =>
    have hb : Recedes g ((g.bindLocals h bindings).enter h i.owner) := recedes_of_eq rfl rfl
    exact hb.trans (recedes_begin h)
  | @refuse _ g h i j bindings =>
    have hb : Recedes g (g.bindLocals h bindings) := recedes_of_eq rfl rfl
    exact hb.trans (recedes_refuse h j .new)
  | skip hq => exact recedes_of_sublist rfl (WaitQueue.popDue?_sublist hq)
  | resume hq => exact recedes_of_sublist rfl (WaitQueue.popDue?_sublist hq)
  | refuseResume hq => exact recedes_of_sublist rfl (WaitQueue.popDue?_sublist hq)

theorem Changes.recedes {m m' : Moment} (h : Changes m m') : Recedes m.game m'.game := by
  induction h with
  | refl => exact .refl
  | tail _ h ih => exact ih.trans h.recedes

theorem Intervention.recedes {g g' : Game} (h : Intervention g g') : Recedes g g' := by
  cases h with
  | extractEntity u => exact recedes_extractEntity u
  | setGlobal u name value => exact recedes_of_eq rfl rfl
  | purge u => exact recedes_purge u
  | replaceWorld w => exact recedes_of_eq rfl rfl

/-! ## A pulse takes out all that is due -/

theorem recedes_resume (host : Host) {g : Game} {h : Handle} {i : Instance}
    (hi : g.instance? h = some i) : Recedes g (run host g h .resume).2 := by
  rcases run_resume_changes host hi with ⟨-, he⟩ | ⟨-, hc⟩
  · rw [he]
    exact recedes_refuse h i .resume
  · have ht : Recedes g ((g.enter h i.owner).takeUp h) := recedes_of_eq rfl rfl
    exact ht.trans hc.recedes

/-- The runs that are due are taken up as long as there are any, since each of them leaves fewer. -/
theorem overdue_resumeDue (host : Host) (fuel : Nat) {g : Game} (hm : Settled ⟨[], g⟩)
    (hg : g.Coherent) {n : Nat} (ht : Tracked n ⟨[], g⟩)
    (hn : (resumeDue (run host) fuel g).attachments < n + 0x1_0000_0000)
    (hp : g.engine.pulseCount < lastPulse) (hf : g.overdue.length ≤ fuel) :
    (resumeDue (run host) fuel g).overdue = [] := by
  induction fuel generalizing g with
  | zero => exact List.length_eq_zero_iff.1 (Nat.le_zero.1 hf)
  | succ fuel ih =>
    unfold resumeDue at hn ⊢
    cases hq : g.engine.waits.popDue? g.engine.pulseCount with
    | none => exact hm.ordered.overdue_eq_nil hq
    | some p =>
      obtain ⟨w, q⟩ := p
      rw [hq] at hn
      simp only at hn ⊢
      obtain ⟨-, hpend, -⟩ := WaitQueue.popDue?_eq_some_iff.1 hq
      obtain ⟨i, hi, hw⟩ := hm.pending (w := w) (hpend ▸ List.mem_cons_self)
      have hi : g.instance? w.continuation.trigger = some i := hi
      have hcur : ((g.withWaits q).instance? w.continuation.trigger).any (·.wait = some w.id) =
          true := by
        rw [instance?_withWaits, hi, Option.any_some, hw, decide_eq_true rfl]
      rw [if_pos hcur] at hn ⊢
      have he := run_resume_evolves host hq hi hw
      -- What is due after the run was due before, and `w` is gone.
      have hr : Recedes (g.withWaits q) (run host ((g.withWaits q).report
          (.resuming w.continuation.owner w.continuation.resumeAt)) w.continuation.trigger
            .resume).2 := by
        have h0 : Recedes (g.withWaits q) ((g.withWaits q).report
            (.resuming w.continuation.owner w.continuation.resumeAt)) := recedes_of_eq rfl rfl
        exact h0.trans (recedes_resume host hi)
      generalize (run host ((g.withWaits q).report (.resuming w.continuation.owner
        w.continuation.resumeAt)) w.continuation.trigger .resume).2 = g1 at he hr hn ⊢
      have hle : g1.attachments ≤ (resumeDue (run host) fuel g1).attachments :=
        Changes.attachments_le (resumeDue_evolves host fuel)
      obtain ⟨hm1, ht1⟩ := Settled.changes he hm hg ht (Nat.lt_of_le_of_lt hle hn)
      refine ih hm1 (Coherent.changes he hg) ht1 hn (hr.pulseCount ▸ hp) ?_
      have hlen : g1.overdue.length ≤ (q.overdue g.engine.pulseCount).length :=
        (hr.overdue hp).length_le
      rw [Game.overdue, WaitQueue.overdue_popDue? hq, List.length_cons] at hf
      omega

namespace Game

/-! ## Every game -/

/-- None of these operations attaches so many triggers that a handle may be issued again while it is
under way. -/
def Paced (g : Game) : List Operation → Prop
  | [] => True
  | op :: ops =>
    (op.apply g).attachments < g.attachments + 0x1_0000_0000 ∧ (op.apply g).Paced ops

instance decidablePaced : (g : Game) → (ops : List Operation) → Decidable (g.Paced ops)
  | _, [] => .isTrue trivial
  | g, op :: ops => haveI := decidablePaced (op.apply g) ops
    inferInstanceAs (Decidable (_ ∧ _))

/-- What holds between two calls of the host. -/
structure Orderly (g : Game) : Prop where
  coherent : g.Coherent
  settled : Settled ⟨[], g⟩
  overdue : g.engine.pulseCount < lastPulse → g.overdue = []

theorem orderly_start (config : Config) (registry : Registry) (world : World) :
    (start config registry world).Orderly :=
  ⟨coherent_start config registry world, settled_start config registry world, fun _ => rfl⟩

theorem settled_intervention {g g' : Game} (hg : g.Coherent) (hm : Settled ⟨[], g⟩)
    (h : Intervention g g') : Settled ⟨[], g'⟩ := by
  cases h with
  | extractEntity u => exact hm.extractEntity hg u
  | setGlobal u name value => exact hm.of_view (fun _ => rfl) rfl rfl
  | purge u => exact hm.purge hg u
  | replaceWorld w => exact hm.of_view (fun _ => rfl) rfl rfl

theorem Orderly.pulse {g : Game} (ho : g.Orderly) (host : Host)
    (hn : (g.pulse host).attachments < g.attachments + 0x1_0000_0000) : (g.pulse host).Orderly := by
  have hg : g.tick.Coherent := ho.coherent.of_same (same_of_eq rfl rfl)
  have hm : Settled ⟨[], g.tick⟩ := ho.settled.of_view (fun _ => rfl) rfl rfl
  have ht : Tracked g.attachments ⟨[], g.tick⟩ := Tracked.of_idle g.tick
  have htail := pulse_tail_evolves host (g := g)
  refine ⟨Coherent.changes (pulse_evolves host) hg,
    (Settled.changes (pulse_evolves host) hm hg ht hn).1, fun hp => ?_⟩
  have hc1 : (resumeDue (run host) g.engine.waits.size g.tick).engine.pulseCount =
      g.tick.engine.pulseCount := (Changes.recedes (resumeDue_evolves host _)).pulseCount
  have hc2 : (g.pulse host).engine.pulseCount =
      (resumeDue (run host) g.engine.waits.size g.tick).engine.pulseCount :=
    (Changes.recedes htail).pulseCount
  have hp1 := hc2 ▸ hp
  have hnil := overdue_resumeDue host g.engine.waits.size hm hg ht
    (Nat.lt_of_le_of_lt (Changes.attachments_le htail) hn) (hc1 ▸ hp1) (List.length_filter_le _ _)
  have hs := (Changes.recedes htail).overdue hp1
  exact List.sublist_nil.1 (hnil ▸ hs)

theorem Orderly.apply {g : Game} (ho : g.Orderly) {op : Operation} (hop : op.resumes = false)
    (hn : (op.apply g).attachments < g.attachments + 0x1_0000_0000) : (op.apply g).Orderly := by
  rcases op.apply_cases (g := g) with ⟨g1, h1, hc⟩ | ⟨host, rfl⟩ | hres
  · have hg : g1.Coherent ∧ Settled ⟨[], g1⟩ ∧ Recedes g g1 ∧ g1.attachments = g.attachments := by
      rcases h1 with rfl | h1
      · exact ⟨ho.coherent, ho.settled, .refl, rfl⟩
      · exact ⟨ho.coherent.intervention h1, settled_intervention ho.coherent ho.settled h1,
          h1.recedes, h1.quiet.attachments⟩
    obtain ⟨hg, hm, hr, ha⟩ := hg
    refine ⟨Coherent.changes hc hg,
      (Settled.changes hc hm hg (Tracked.of_idle g1) (ha ▸ hn)).1, fun hp => ?_⟩
    have hr := hr.trans hc.recedes
    have hs := hr.overdue (hr.pulseCount ▸ hp)
    exact List.sublist_nil.1 (ho.overdue (hr.pulseCount ▸ hp) ▸ hs)
  · exact ho.pulse host hn
  · rw [hop] at hres
    cases hres

theorem Orderly.play {g : Game} (ho : g.Orderly) {ops : List Operation}
    (hops : ∀ op ∈ ops, op.resumes = false) (hn : g.Paced ops) : (g.play ops).Orderly := by
  induction ops generalizing g with
  | nil => exact ho
  | cons op ops ih =>
    exact ih (ho.apply (hops op List.mem_cons_self) hn.1)
      (fun op h => hops op (List.mem_cons_of_mem _ h)) hn.2

/-- After each call of the host every attached trigger rests, or its run is suspended and exactly
what it waits for is pending and due later; and what is pending is what exactly one attached trigger
waits for. -/
theorem waits_agree (config : Config) (registry : Registry) (world : World)
    (ops : List Operation) (hops : ∀ op ∈ ops, op.resumes = false)
    (hpaced : (start config registry world).Paced ops) :
    let g := (start config registry world).play ops
    (∀ h i, g.instance? h = some i →
      (i.depth = 0 ∧ i.loops = 0 ∧ i.resumeAt = none ∧ i.wait = none ∧ i.locals = ∅) ∨
      (1 ≤ i.depth ∧ ∃ line id, i.resumeAt = some line ∧ i.wait = some id ∧
        ∃ w ∈ g.engine.waits.pending, w.id = id ∧ w.continuation.trigger = h ∧
          w.continuation.owner = i.owner ∧ w.continuation.resumeAt = line ∧
          (g.engine.pulseCount < lastPulse → g.engine.pulseCount < w.due))) ∧
    (∀ w ∈ g.engine.waits.pending,
      ∃! h, ∃ i, g.instance? h = some i ∧ i.wait = some w.id) ∧
    ∀ w ∈ g.engine.waits.pending, ∀ v ∈ g.engine.waits.pending,
      w.continuation.trigger = v.continuation.trigger → w = v := by
  intro g
  have ho : g.Orderly := (orderly_start config registry world).play hops hpaced
  have hm := ho.settled
  refine ⟨fun h i hi => ?_, fun w hw => ?_, fun w hw v hv he => ?_⟩
  · rcases hm.idle hi List.not_mem_nil with hr | ⟨w, hw, hwt⟩
    · exact .inl ⟨hr.depth, hr.loops, hr.resumeAt, hr.wait, hr.locals⟩
    · refine .inr ⟨hwt.depth, _, _, hwt.resumeAt, hwt.wait, w, hw, rfl, hwt.trigger, hwt.owner,
        rfl, fun hp => Nat.not_le.1 fun hd => ?_⟩
      have hmem : w ∈ g.overdue := WaitQueue.mem_overdue.2 ⟨hw, hd⟩
      rw [ho.overdue hp] at hmem
      cases hmem
  · obtain ⟨-, i, hi, hwt⟩ := hm.waits_of_mem hw
    refine ⟨_, ⟨i, hi, hwt.wait⟩, ?_⟩
    rintro h ⟨j, hj, hjw⟩
    exact hm.wait_inj hj hjw hi hwt.wait
  · obtain ⟨-, i, hi, hwt⟩ := hm.waits_of_mem hw
    have hvw := (hm.wait_iff hi hv).2 he.symm
    rw [hwt.wait, Option.some.injEq] at hvw
    exact hm.ordered.eq_of_id hw hv hvw

/-- A trigger of rooms that waits. -/
def napping : Prototype :=
  { vnum := 1, name := "nap", kind := .room, script := Script.compile "wait 2\nwait 3\n" }

/-- Attaching it to the first room, running it, and three pulses. -/
def nap : List Operation :=
  [.attach 1 (Uid.room 0) none, .run .standard ⟨0, 0⟩ .new, .pulse .standard, .pulse .standard,
    .pulse .standard]

def bedroom : Game :=
  start {} ((∅ : Registry).register napping) (({} : World).addRoom 100 "bedroom").2

theorem nap_waits_agree :
    (∀ op ∈ nap, op.resumes = false) ∧ bedroom.Paced nap ∧
      ∃ i, (bedroom.play nap).instance? ⟨0, 0⟩ = some i ∧
        ∃ w ∈ (bedroom.play nap).engine.waits.pending,
          i.wait = some w.id ∧ w.continuation.trigger = ⟨0, 0⟩ ∧ 3 < w.due := by
  have hops : ∀ op ∈ nap, op.resumes = false := by simp [nap, Operation.resumes]
  have hpaced : bedroom.Paced nap := by decide +kernel
  have hdepth : ((bedroom.play nap).instance? ⟨0, 0⟩).map (·.depth) = some 1 := by decide +kernel
  have hcount : (bedroom.play nap).engine.pulseCount = 3 := by decide +kernel
  have hw := waits_agree {} ((∅ : Registry).register napping) (({} : World).addRoom 100 "bedroom").2
    nap hops hpaced
  rw [← bedroom] at hw
  refine ⟨hops, hpaced, ?_⟩
  generalize bedroom.play nap = g at hdepth hcount hw ⊢
  obtain ⟨i, hi, hd⟩ := Option.map_eq_some_iff.1 hdepth
  refine ⟨i, hi, ?_⟩
  rcases hw.1 ⟨0, 0⟩ i hi with ⟨h0, -⟩ | ⟨-, line, id, -, hwait, w, hmem, hid, ht, -, -, hdue⟩
  · rw [h0] at hd
    cases hd
  · rw [hcount] at hdue
    exact ⟨w, hmem, hid ▸ hwait, ht, hdue (by decide)⟩

end Game

end MudTrigger
