import MudTrigger.Proofs.Trace.Pulse

/-!
# What the host can do

An `Operation` is one call of the host's, made while no run is under way; `Game.play` is a sequence
of them. The world can become any other one between two calls. An operation is made of changes, after
what only the host does (`Operation.apply_cases`); a pulse counts itself first (`pulse_evolves`), and
the host can also make a run go on that is not due (`Operation.apply_resume`).
-/

set_option autoImplicit false

namespace MudTrigger

/-- A call of the host's. -/
inductive Operation where
  | attach (vnum : Vnum) (target : Uid) (position : Option Nat)
  | detach (target : Uid) (spec : String)
  | detachAll (target : Uid)
  | extractEntity (u : Uid)
  | setGlobal (u : Uid) (name value : String)
  | dispatch (host : Host) (e : Event)
  | run (host : Host) (h : Handle) (mode : RunMode)
  | pulse (host : Host)
  | interpret (host : Host) (actor : Uid) (line : String)
  | execute (host : Host) (actor : Uid) (line : String)
  | walk (host : Host) (actor : Uid) (d : Direction)
  | purge (u : Uid)
  /-- Whatever else is done to the world. -/
  | replaceWorld (w : World)

namespace Operation

def apply (g : Game) : Operation → Game
  | attach vnum target position => match g.attach vnum target position with
    | .ok (_, g) => g
    | .error _ => g
  | detach target spec => (g.detach target spec).2
  | detachAll target => (g.detachAll target).2
  | extractEntity u => g.extractEntity u
  | setGlobal u name value => g.setGlobal u name value
  | dispatch host e => (e.dispatch host (Game.run host) g).2
  | run host h mode => (Game.run host g h mode).2
  | pulse host => g.pulse host
  | interpret host actor line => g.interpret (Game.run host) actor line
  | execute host actor line => g.execute (Game.run host) actor line
  | walk host actor d => (g.walk (Game.run host) actor d).2
  | purge u => g.purge u
  | replaceWorld w => g.withWorld w

/-- The host makes a run go on by itself, due or not. -/
def resumes : Operation → Bool
  | run _ _ .resume => true
  | _ => false

end Operation

/-- What only the host does, and only between runs. -/
inductive Intervention (g : Game) : Game → Prop
  | extractEntity (u : Uid) : Intervention g (g.extractEntity u)
  | setGlobal (u : Uid) (name value : String) : Intervention g (g.setGlobal u name value)
  | purge (u : Uid) : Intervention g (g.purge u)
  | replaceWorld (w : World) : Intervention g (g.withWorld w)

namespace Game

/-- A game in which nothing has happened. -/
def start (config : Config) (registry : Registry) (world : World) : Game :=
  { engine := Engine.new config registry, world }

/-- One operation after another. -/
def play (g : Game) (ops : List Operation) : Game := ops.foldl Operation.apply g

end Game

section

variable {g : Game}

theorem Game.attach_evolves (vnum : Vnum) (target : Uid) (position : Option Nat) :
    Evolves [] g ((Operation.attach vnum target position).apply g) := by
  rw [Operation.apply]
  split
  · rename_i he
    exact .single (.attach he)
  · exact .refl

/-- The host intervenes or not, and the rest of an operation is made of changes; unless it is a pulse
or makes a run go on. -/
theorem Operation.apply_cases (op : Operation) :
    (∃ g1, (g1 = g ∨ Intervention g g1) ∧ Evolves [] g1 (op.apply g)) ∨
      (∃ host, op = pulse host) ∨ op.resumes = true := by
  cases op with
  | attach vnum target position =>
    exact .inl ⟨g, .inl rfl, Game.attach_evolves vnum target position⟩
  | detach target spec => exact .inl ⟨g, .inl rfl, Game.detach_evolves target spec⟩
  | detachAll target => exact .inl ⟨g, .inl rfl, .single (.detachAll target)⟩
  | extractEntity u => exact .inl ⟨_, .inr (.extractEntity u), .refl⟩
  | setGlobal u name value => exact .inl ⟨_, .inr (.setGlobal u name value), .refl⟩
  | dispatch host e => exact .inl ⟨g, .inl rfl, e.dispatch_evolves (Game.fires_run host) host⟩
  | run host h mode =>
    cases mode with
    | new => exact .inl ⟨g, .inl rfl, Game.run_new_evolves host h⟩
    | resume => exact .inr (.inr rfl)
  | pulse host => exact .inr (.inl ⟨host, rfl⟩)
  | interpret host actor line =>
    exact .inl ⟨g, .inl rfl, Game.interpret_evolves (Game.fires_run host) actor line⟩
  | execute host actor line =>
    exact .inl ⟨g, .inl rfl, Game.execute_evolves (Game.fires_run host) actor line⟩
  | walk host actor d => exact .inl ⟨g, .inl rfl, Game.walk_evolves (Game.fires_run host) actor d⟩
  | purge u => exact .inl ⟨_, .inr (.purge u), .refl⟩
  | replaceWorld w => exact .inl ⟨_, .inr (.replaceWorld w), .refl⟩

/-- A run that the host makes go on is refused or is under way until it is over or suspended. -/
theorem Operation.apply_resume (g : Game) (host : Host) (h : Handle) :
    ∃ g1 s, Changes ⟨s, g1⟩ ⟨[], (Operation.run host h .resume).apply g⟩ ∧
      (g1 = g ∧ s = [] ∨ ∃ i, g.instance? h = some i ∧
        (g1 = g.refuse h i .resume ∧ s = [] ∨
          g1 = (g.enter h i.owner).takeUp h ∧ s = [⟨h, i.owner, i.proto, 0, false⟩])) := by
  show ∃ g1 s, Changes ⟨s, g1⟩ ⟨[], (Game.run host g h .resume).2⟩ ∧ _
  cases hi : g.instance? h with
  | none =>
    refine ⟨g, [], ?_, .inl ⟨rfl, rfl⟩⟩
    rw [Game.run, Game.runWithin_stale _ host .resume hi]
  | some i =>
    rcases Game.run_resume_changes host hi with ⟨-, he⟩ | ⟨-, hc⟩
    · refine ⟨_, [], ?_, .inr ⟨i, rfl, .inl ⟨rfl, rfl⟩⟩⟩
      rw [he]
    · exact ⟨_, _, hc, .inr ⟨i, rfl, .inr ⟨rfl, rfl⟩⟩⟩

end

namespace Game

variable {g : Game}

theorem play_induction {P : Game → Prop} {ops : List Operation} (hg : P g)
    (hop : ∀ op ∈ ops, ∀ g, P g → P (op.apply g)) : P (g.play ops) := by
  induction ops generalizing g with
  | nil => exact hg
  | cons op ops ih =>
    exact ih (hop op List.mem_cons_self g hg) fun op h => hop op (List.mem_cons_of_mem _ h)

end Game

end MudTrigger
