import Rl78Sim.Framework.Transition
import Rl78Sim.Kernel.Sim

/-! # Runs of a Simulator

    What the owner of a simulator does to it: it gives commands, polls, resets
    the entity and works on its devices and ports, in any order.
-/

namespace Rl78Sim

open Transition

/-- One call into a simulator or its entity. -/
inductive SimAct (F : Type) where
  | command (cmd : Command)
  | poll (fuel : Nat)
  | reset
  | poll_actions
  | apply_action (req : ActionRequest)
  | receive (port : String) (v : F)
  | drain_pending (ports : List String)

variable {E F : Type} [Entity E F]

/-- Change the entity of a simulator. -/
def Simulator.update {E E' : Type} (sim : Simulator E) (entity : E') : Simulator E' :=
  ⟨entity, sim.state, sim.max_quantum, sim.step_once, sim.allowed⟩

def SimAct.step (sim : Simulator E) : SimAct F → Option (Simulator E)
  | .command cmd => some (sim.command cmd).1
  | .poll fuel => (sim.poll fuel).map Prod.fst
  | .reset => some (sim.update (Entity.reset sim.entity))
  | .poll_actions => some (sim.update (Entity.poll_actions sim.entity))
  | .apply_action req => some (sim.update (Entity.apply_action sim.entity req).1)
  | .receive port v => some (sim.update (Entity.receive sim.entity port v))
  | .drain_pending ports => some (sim.update (Entity.drain_pending sim.entity ports))

/-- The runs that start with an entity of which `start` holds, with any
    `SimConfig`. -/
def sim_runs (start : E → Prop) : System (Simulator E) (SimAct F) where
  init sim := start sim.entity ∧ sim = { Simulator.new sim.entity with
    max_quantum := sim.max_quantum }
  step := SimAct.step

/-- No single step is commanded. -/
def NoStep (_ : Simulator E) (l : SimAct F) : Prop := l ≠ .command .Step

instance (s : Simulator E) (l : SimAct F) : Decidable (NoStep s l) :=
  match l with
  | .command cmd => decidable_of_iff (cmd ≠ .Step) (by simp [NoStep])
  | .poll _ | .reset | .poll_actions | .apply_action _ | .receive _ _ | .drain_pending _ =>
      .isTrue nofun

/-- All runs of a simulator. -/
def AnySimRun (_ : Simulator E) (_ : SimAct F) : Prop := True

/-! ### What a run keeps of its entity -/

/-- Every operation keeps `P`; polls do so in the contexts that `ok` allows. -/
structure Entity.Keeps (ok : AdvanceCtx → Prop) (P : E → Prop) : Prop where
  poll (fuel : Nat) (e e' : E) (ctx : AdvanceCtx) (r : EntityPoll) :
    ok ctx → P e → Entity.poll fuel e ctx = some (e', r) → P e'
  reset (e : E) : P e → P (Entity.reset e)
  inspect (e : E) (cmd : InspectCommand) : P e → P (Entity.inspect e cmd).1
  poll_actions (e : E) : P e → P (Entity.poll_actions e)
  apply_action (e : E) (req : ActionRequest) : P e → P (Entity.apply_action e req).1
  receive (e : E) (port : String) (v : F) : P e → P (Entity.receive e port v)
  drain_pending (e : E) (ports : List String) : P e → P (Entity.drain_pending e ports)

theorem Entity.Keeps.step {ok : AdvanceCtx → Prop} {P : E → Prop} (hkeeps : Entity.Keeps ok P)
    {s s' : Simulator E} {l : SimAct F} (hctx : ok s.advance_ctx) (hP : P s.entity)
    (h : SimAct.step s l = some s') : P s'.entity := by
  cases l with
  | command cmd =>
    cases h
    unfold Simulator.command
    split
    · exact hP
    · cases cmd with
      | Inspect other =>
        dsimp only
        split
        · exact hP
        · exact hkeeps.inspect _ _ hP
      | _ => exact hP
  | poll fuel =>
    obtain ⟨⟨s₁, rsp⟩, hpoll, heq⟩ := Option.map_eq_some_iff.mp h
    cases heq
    rcases Simulator.poll_cases hpoll with ⟨-, rfl, -⟩ | ⟨-, -, r, hentity, -⟩
    · exact hP
    · exact hkeeps.poll fuel _ _ _ r hctx hP hentity
  | reset =>
    cases h
    exact hkeeps.reset _ hP
  | poll_actions =>
    cases h
    exact hkeeps.poll_actions _ hP
  | apply_action req =>
    cases h
    exact hkeeps.apply_action _ req hP
  | receive port v =>
    cases h
    exact hkeeps.receive _ port v hP
  | drain_pending ports =>
    cases h
    exact hkeeps.drain_pending _ ports hP

/-- In any run, what every operation keeps holds throughout. -/
theorem Entity.Keeps.reachable {start P : E → Prop} (hkeeps : Entity.Keeps (fun _ => True) P)
    (hstart : ∀ e, start e → P e) {s : Simulator E}
    (h : Reachable (sim_runs start) AnySimRun s) : P s.entity := by
  have hinv : Inductive (sim_runs start) AnySimRun fun s => P s.entity := by
    intro s l s' hP _ hstep
    exact hkeeps.step trivial hP hstep
  refine h.invariant ?_ hinv
  intro s hs
  exact hstart _ hs.1

/-- A poll never sets `step_once`. -/
theorem Simulator.complete_once {s : Simulator E} (hs : s.step_once = false) (r : EntityPoll) :
    (s.complete r).1.step_once = false := by
  unfold Simulator.complete Simulator.commit_stop
  repeat' split
  all_goals first
    | rfl
    | exact hs

/-- Without a single step, `step_once` is never set. -/
theorem step_once_of_noStep {start : E → Prop} {s : Simulator E}
    (h : Reachable (sim_runs start) NoStep s) : s.step_once = false := by
  have hinv : Inductive (sim_runs start) NoStep fun s => s.step_once = false := by
    intro s l s' hs hok hstep
    replace hstep : SimAct.step s l = some s' := hstep
    cases l with
    | command cmd =>
      cases hstep
      unfold Simulator.command
      split
      · exact hs
      · cases cmd with
        -- The run has no `Step`, the only command that sets the flag.
        | Step => exact absurd rfl hok
        | Inspect other =>
          dsimp only
          split <;> exact hs
        | Start | Stop => rfl
        | _ => exact hs
    | poll fuel =>
      obtain ⟨⟨s₁, rsp⟩, hpoll, heq⟩ := Option.map_eq_some_iff.mp hstep
      cases heq
      -- A poll completes its frame, which does not set the flag either.
      rcases Simulator.poll_cases hpoll with ⟨-, rfl, -⟩ | ⟨-, -, r, -, hcomplete⟩
      · exact hs
      · have honce := Simulator.complete_once (s := { s with entity := s₁.entity }) hs r
        rw [hcomplete] at honce
        exact honce
    | _ =>
      cases hstep
      exact hs
  refine h.invariant ?_ hinv
  intro s hinit
  rw [hinit.2]
  rfl

/-- Without a single step, an operation need only keep `P` outside of one. -/
theorem Entity.Keeps.reachable_noStep {start P : E → Prop}
    (hkeeps : Entity.Keeps (fun ctx => ctx.step_once = false) P)
    (hstart : ∀ e, start e → P e) {s : Simulator E}
    (h : Reachable (sim_runs start) NoStep s) : P s.entity := by
  have hinv : Inductive (sim_runs start) (fun s l => NoStep s l ∧ s.step_once = false)
      fun s => P s.entity := by
    intro s l s' hP hok hstep
    exact hkeeps.step hok.2 hP hstep
  refine (h.strengthen fun _ => step_once_of_noStep).invariant ?_ hinv
  intro s hs
  exact hstart _ hs.1

/-! ### Entities that are alike -/

/-- `f` turns every operation of an entity into the same one of another. -/
structure Entity.Hom {E' : Type} [Entity E' F] (f : E → E') : Prop where
  poll (fuel : Nat) (e : E) (ctx : AdvanceCtx) :
    Entity.poll fuel (f e) ctx = (Entity.poll fuel e ctx).map fun x => (f x.1, x.2)
  reset (e : E) : Entity.reset (f e) = f (Entity.reset e)
  now (e : E) : Entity.now (f e) = Entity.now e
  inspect (e : E) (cmd : InspectCommand) :
    Entity.inspect (f e) cmd = ((Entity.inspect e cmd).map f id)
  poll_actions (e : E) : Entity.poll_actions (f e) = f (Entity.poll_actions e)
  apply_action (e : E) (req : ActionRequest) :
    (Entity.apply_action (f e) req).1 = f (Entity.apply_action e req).1
  receive (e : E) (port : String) (v : F) :
    Entity.receive (f e) port v = f (Entity.receive e port v)
  drain_pending (e : E) (ports : List String) :
    Entity.drain_pending (f e) ports = f (Entity.drain_pending e ports)

namespace Entity.Hom

variable {E' : Type} [Entity E' F] {f : E → E'}

/-- What the image keeps, the entity keeps. -/
theorem keeps (hf : Entity.Hom f) {ok : AdvanceCtx → Prop} {P : E' → Prop}
    (hkeeps : Entity.Keeps ok P) : Entity.Keeps ok fun e => P (f e) where
  poll fuel e e' ctx r hok hP hpoll := by
    have himage := hf.poll fuel e ctx
    rw [hpoll] at himage
    exact hkeeps.poll fuel _ _ ctx r hok hP himage
  reset e hP := by
    rw [← hf.reset]
    exact hkeeps.reset _ hP
  inspect e cmd hP := by
    have himage := hkeeps.inspect _ cmd hP
    rw [hf.inspect] at himage
    exact himage
  poll_actions e hP := by
    rw [← hf.poll_actions]
    exact hkeeps.poll_actions _ hP
  apply_action e req hP := by
    rw [← hf.apply_action]
    exact hkeeps.apply_action _ req hP
  receive e port v hP := by
    rw [← hf.receive]
    exact hkeeps.receive _ port v hP
  drain_pending e ports hP := by
    rw [← hf.drain_pending]
    exact hkeeps.drain_pending _ ports hP

/-- The simulator around the image of the entity. -/
def sim (f : E → E') (s : Simulator E) : Simulator E' := s.update (f s.entity)

omit [Entity E F] [Entity E' F] in
theorem sim_complete (s : Simulator E) (r : EntityPoll) :
    ((sim f s).complete r) = ((s.complete r).map (sim f) id) := by
  unfold Simulator.complete
  split
  · rfl
  · show (if s.step_once then _ else _) = _
    split <;> rfl
  · rename_i reason
    unfold Simulator.commit_stop
    split
    · show (if s.step_once then _ else _) = _
      split <;> rfl
    · rfl
  · rfl
  · rfl

theorem sim_poll (hf : Entity.Hom f) (fuel : Nat) (s : Simulator E) :
    (sim f s).poll fuel = (s.poll fuel).map fun x => (sim f x.1, x.2) := by
  have hctx : (sim f s).advance_ctx = s.advance_ctx := by
    unfold Simulator.advance_ctx Simulator.now
    rw [show Entity.now (sim f s).entity = Entity.now s.entity from hf.now s.entity]
    rfl
  unfold Simulator.poll
  by_cases hrun : s.state = .Running
  · rw [if_pos hrun, if_pos (show (sim f s).state = .Running from hrun), hctx,
      show (sim f s).entity = f s.entity from rfl, hf.poll, Option.map_map, Option.map_map]
    congr 1
    funext x
    exact sim_complete ({ s with entity := x.1 } : Simulator E) x.2
  · rw [if_neg hrun, if_neg (show (sim f s).state ≠ .Running from hrun)]
    rfl

theorem sim_command (hf : Entity.Hom f) (s : Simulator E) (cmd : Command) :
    ((sim f s).command cmd).1 = sim f (s.command cmd).1 := by
  unfold Simulator.command
  by_cases hquit : s.state = .Quit
  · rw [if_pos hquit, if_pos (show (sim f s).state = .Quit from hquit)]
  · rw [if_neg hquit, if_neg (show (sim f s).state ≠ .Quit from hquit)]
    cases cmd with
    | Inspect other =>
      dsimp only
      by_cases hrun : s.state = .Running
      · rw [if_pos hrun, if_pos (show (sim f s).state = .Running from hrun)]
      · rw [if_neg hrun, if_neg (show (sim f s).state ≠ .Running from hrun),
          show (sim f s).entity = f s.entity from rfl, hf.inspect]
        rfl
    | _ => rfl

/-- Simulators of entities that are alike have the same runs. -/
theorem projects (hf : Entity.Hom f) {start : E → Prop} {start' : E' → Prop}
    (hstart : ∀ e, start e → start' (f e)) (hlift : ∀ e', start' e' → ∃ e, start e ∧ f e = e') :
    Projects (sim_runs start) (sim_runs start') (sim f) where
  init s h := by
    refine ⟨hstart _ h.1, ?_⟩
    rw [h.2]
    rfl
  init_lift s' h := by
    obtain ⟨e, he, hfe⟩ := hlift _ h.1
    refine ⟨{ Simulator.new e with max_quantum := s'.max_quantum }, ⟨he, rfl⟩, ?_⟩
    rw [h.2]
    unfold sim Simulator.update Simulator.new
    dsimp only
    rw [hfe]
  step s l := by
    show SimAct.step (sim f s) l = (SimAct.step s l).map (sim f)
    cases l with
    | command cmd => exact congrArg some (hf.sim_command s cmd)
    | poll fuel =>
      show ((sim f s).poll fuel).map Prod.fst = ((s.poll fuel).map Prod.fst).map (sim f)
      rw [hf.sim_poll, Option.map_map, Option.map_map]
      rfl
    | reset => exact congrArg (fun e => some (s.update e)) (hf.reset s.entity)
    | poll_actions => exact congrArg (fun e => some (s.update e)) (hf.poll_actions s.entity)
    | apply_action req =>
      exact congrArg (fun e => some (s.update e)) (hf.apply_action s.entity req)
    | receive port v => exact congrArg (fun e => some (s.update e)) (hf.receive s.entity port v)
    | drain_pending ports =>
      exact congrArg (fun e => some (s.update e)) (hf.drain_pending s.entity ports)

end Entity.Hom

end Rl78Sim
