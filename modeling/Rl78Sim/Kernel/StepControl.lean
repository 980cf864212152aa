import Rl78Sim.Kernel.Inspection
import Rl78Sim.Kernel.SimRuns

/-! # Step and Run Control

    A single step shares `Running` with a normal run and is told from it by
    `step_once`. The step is open until a poll or a `Stop` answers it, a `Start`
    makes it a run, or the simulator quits. -/

namespace Rl78Sim

open Transition

variable {E F : Type} [Entity E F]

/-- What `Entity` asks of a poll: a single step retires one instruction at most, `NoProgress`
    stands for no work, and `Done` for a stop or an error. -/
structure Entity.StepsOnce (E : Type) {F : Type} [Entity E F] : Prop where
  retires {fuel : Nat} {e e' : E} {ctx : AdvanceCtx} {r : EntityPoll} :
    Entity.poll fuel e ctx = some (e', r) → ctx.step_once = true →
      Entity.retired e' ≤ Entity.retired e + 1
  idle {fuel : Nat} {e e' : E} {ctx : AdvanceCtx} :
    Entity.poll fuel e ctx = some (e', .NoProgress) → Entity.retired e' = Entity.retired e
  done {fuel : Nat} {e e' : E} {ctx : AdvanceCtx} {rsp : Response} :
    Entity.poll fuel e ctx = some (e', .Done rsp) →
      (∃ reason, rsp = .Stopped reason) ∨ ∃ err, rsp = .Error err

/-- Machines, plants and boards do so. -/
theorem LawfulEntity.stepsOnce [LawfulEntity E] : Entity.StepsOnce E where
  retires := LawfulEntity.poll_retired
  idle := LawfulEntity.poll_noProgress_retired
  done := LawfulEntity.poll_done

/-! ### Calls -/

/-- A command, or a poll of the loop. -/
inductive SimCall where
  | command (cmd : Command)
  | poll (fuel : Nat)

namespace SimCall

/-- The simulator after a call, and what it returned. -/
def run (sim : Simulator E) : SimCall → Option (Simulator E × Option Response)
  | .command cmd => some ((sim.command cmd).1, some (sim.command cmd).2)
  | .poll fuel => sim.poll fuel

/-- The response answers a step. The error that an inspect command gets while the simulator is
    running answers that command. -/
def Answers : SimCall → Option Response → Prop
  | .command (.Inspect _), _ => False
  | _, some (.Stopped _) => True
  | _, some (.Error _) => True
  | _, _ => False

end SimCall

namespace Simulator

/-- A step was commanded, and is neither answered nor replaced. -/
def Stepping (sim : Simulator E) : Prop := sim.state = .Running ∧ sim.step_once = true

/-- Calls, with what they returned, that all leave the step open. -/
inductive StaysOpen (sim : Simulator E) :
    List (SimCall × Option Response) → Simulator E → Prop where
  | nil : sim.Stepping → StaysOpen sim [] sim
  | concat {log : List (SimCall × Option Response)} {sim' sim'' : Simulator E} {call : SimCall}
      {rsp : Option Response} : StaysOpen sim log sim' → call.run sim' = some (sim'', rsp) →
      sim''.Stepping → StaysOpen sim (log ++ [(call, rsp)]) sim''

/-- How a call ends a step that was open, which retired `before` instructions so far. -/
inductive Ends (before : Nat) (sim : Simulator E) : SimCall → Option Response → Prop where
  /-- It is answered, and the simulator stopped. -/
  | answered {call : SimCall} {rsp : Option Response} : sim.state = .Stopped →
      sim.step_once = false → Entity.retired sim.entity ≤ before + 1 → call.Answers rsp →
      Ends before sim call rsp
  /-- It has become a run. -/
  | replaced : sim.state = .Running → sim.step_once = false →
      Entity.retired sim.entity = before → Ends before sim (.command .Start) (some .Started)
  /-- The simulator has quit. -/
  | quit : sim.state = .Quit → Entity.retired sim.entity = before →
      Ends before sim (.command .Quit) (some .Quit)

/-! ### One call -/

/-- What a call does to an open step. -/
inductive CallSpec (sim sim' : Simulator E) (call : SimCall) (rsp : Option Response) : Prop where
  | open_ : sim'.Stepping → Entity.retired sim'.entity = Entity.retired sim.entity →
      ¬ call.Answers rsp → CallSpec sim sim' call rsp
  | ends : Ends (Entity.retired sim.entity) sim' call rsp → CallSpec sim sim' call rsp

theorem command_spec {sim : Simulator E} (h : sim.Stepping) (cmd : Command) :
    CallSpec sim (sim.command cmd).1 (.command cmd) (some (sim.command cmd).2) := by
  obtain ⟨hstate, honce⟩ := h
  have hquit : sim.state ≠ .Quit := by
    rw [hstate]
    decide
  unfold command
  rw [if_neg hquit]
  cases cmd with
  | Start => exact .ends (.replaced rfl rfl rfl)
  | Step => exact .open_ ⟨rfl, rfl⟩ rfl id
  | Stop => exact .ends (.answered rfl rfl (Nat.le_succ _) trivial)
  | Quit => exact .ends (.quit rfl rfl)
  | SetAllowed tick => exact .open_ ⟨hstate, honce⟩ rfl id
  | NotifyHalt reason => exact .open_ ⟨hstate, honce⟩ rfl id
  | Inspect other =>
    dsimp only
    rw [if_pos hstate]
    exact .open_ ⟨hstate, honce⟩ rfl id

/-- A stop of the entity answers the step; a halt does as well. -/
theorem commit_stop_stepping (sim : Simulator E) (honce : sim.step_once = true)
    (reason : StopReason) : ∃ reason', sim.commit_stop reason =
      ({ sim with step_once := false, state := .Stopped }, some (.Stopped reason')) := by
  cases reason with
  | Halt =>
    refine ⟨.Step, ?_⟩
    unfold commit_stop
    rw [if_pos honce]
  | ExternalStop | Step | Breakpoint | Unmapped => exact ⟨_, rfl⟩

theorem poll_stepping (hE : Entity.StepsOnce E) {fuel : Nat} {sim sim' : Simulator E}
    {rsp : Option Response} (h : sim.Stepping) (hpoll : sim.poll fuel = some (sim', rsp)) :
    CallSpec sim sim' (.poll fuel) rsp := by
  obtain ⟨hstate, honce⟩ := h
  rcases poll_cases hpoll with ⟨hidle, -⟩ | ⟨-, -, r, hentity, heq⟩
  · exact absurd hstate hidle
  have hretires : Entity.retired sim'.entity ≤ Entity.retired sim.entity + 1 :=
    hE.retires hentity honce
  generalize sim'.entity = e at hentity heq hretires
  cases r with
  | NoProgress =>
    cases heq
    exact .open_ ⟨hstate, honce⟩ (hE.idle hentity) id
  | Progressed =>
    dsimp only [complete] at heq
    rw [if_pos honce] at heq
    cases heq
    exact .ends (.answered rfl rfl hretires trivial)
  | Done answer =>
    rcases hE.done hentity with ⟨reason, rfl⟩ | ⟨err, rfl⟩
    · obtain ⟨reason', hcommit⟩ := commit_stop_stepping { sim with entity := e } honce reason
      dsimp only [complete] at heq
      rw [hcommit] at heq
      cases heq
      exact .ends (.answered rfl rfl hretires trivial)
    · cases heq
      exact .ends (.answered rfl rfl hretires trivial)

theorem call_spec (hE : Entity.StepsOnce E) {call : SimCall} {sim sim' : Simulator E}
    {rsp : Option Response} (h : sim.Stepping) (hcall : call.run sim = some (sim', rsp)) :
    CallSpec sim sim' call rsp := by
  cases call with
  | command cmd =>
    cases hcall
    exact command_spec h cmd
  | poll fuel => exact poll_stepping hE h hcall

/-! ### A whole step -/

/-- An open step has retired nothing, and nothing has answered it. -/
theorem StaysOpen.silent (hE : Entity.StepsOnce E) {sim sim' : Simulator E}
    {log : List (SimCall × Option Response)} (h : StaysOpen sim log sim') :
    sim'.Stepping ∧ Entity.retired sim'.entity = Entity.retired sim.entity ∧
      ∀ entry ∈ log, ¬ entry.1.Answers entry.2 := by
  induction h with
  | nil hstepping => exact ⟨hstepping, rfl, nofun⟩
  | concat hopen hcall hstepping ih =>
    obtain ⟨hbefore, hretired, hsilent⟩ := ih
    cases call_spec hE hbefore hcall with
    | open_ _ hsame hanswers =>
      refine ⟨hstepping, hsame.trans hretired, ?_⟩
      intro entry hentry
      rcases List.mem_append.mp hentry with hentry | hentry
      · exact hsilent entry hentry
      · rw [List.mem_singleton.mp hentry]
        exact hanswers
    | ends hends =>
      -- Whatever ends a step leaves it closed.
      obtain ⟨hrunning, honce⟩ := hstepping
      cases hends with
      | answered hstopped =>
        rw [hstopped] at hrunning
        cases hrunning
      | replaced _ hoff =>
        rw [hoff] at honce
        cases honce
      | quit hquit =>
        rw [hquit] at hrunning
        cases hrunning

/-! ### All runs -/

theorem complete_not_stopped (sim : Simulator E) (r : EntityPoll)
    (h : sim.step_once = true → sim.state ≠ .Stopped) :
    (sim.complete r).1.step_once = true → (sim.complete r).1.state ≠ .Stopped := by
  unfold complete commit_stop
  repeat' split
  all_goals first
    | exact h
    | exact nofun

/-- The flag of a single step is not left behind in a stopped simulator. -/
theorem step_once_not_stopped {start : E → Prop} {sim : Simulator E}
    (h : Reachable (sim_runs start) AnySimRun sim) :
    sim.step_once = true → sim.state ≠ .Stopped := by
  have hinv : Inductive (sim_runs start) AnySimRun
      fun s : Simulator E => s.step_once = true → s.state ≠ .Stopped := by
    intro s l s' hs _ hstep
    replace hstep : SimAct.step s l = some s' := hstep
    cases l with
    | command cmd =>
      cases hstep
      unfold command
      split
      · exact hs
      · cases cmd with
        -- These clear the flag.
        | Start | Stop => exact nofun
        -- These set it or leave it, but the state is not `Stopped` then.
        | Step | Quit =>
          intro _
          exact nofun
        | SetAllowed | NotifyHalt => exact hs
        | Inspect other =>
          dsimp only
          split <;> exact hs
    | poll fuel =>
      obtain ⟨⟨s₁, rsp⟩, hpoll, heq⟩ := Option.map_eq_some_iff.mp hstep
      cases heq
      rcases poll_cases hpoll with ⟨-, rfl, -⟩ | ⟨-, -, r, -, hcomplete⟩
      · exact hs
      · have hkept := complete_not_stopped { s with entity := s₁.entity } r hs
        rw [hcomplete] at hkept
        exact hkept
    | _ =>
      cases hstep
      exact hs
  refine h.invariant ?_ hinv
  intro s hinit
  rw [hinit.2]
  exact nofun

/-- In every reachable state, and whatever calls follow: a step retires nothing and gets no
    answer while it is open, and one instruction at most and one answer when it ends, unless it
    becomes a run or the simulator quits. The flag of a step is set only while running or after
    a quit, nothing leads out of `Quit`, the entity is inspected only while stopped, and a poll
    outside of `Running` does nothing. -/
theorem step_run_control (hE : Entity.StepsOnce E) {start : E → Prop} {sim : Simulator E}
    (h : Reachable (sim_runs start) AnySimRun sim) :
    (sim.state ≠ .Quit → (sim.command .Step).2 = .Started ∧ (sim.command .Step).1.Stepping ∧
      ∀ log sim', StaysOpen (sim.command .Step).1 log sim' →
        Entity.retired sim'.entity = Entity.retired sim.entity ∧
        (∀ entry ∈ log, ¬ entry.1.Answers entry.2) ∧
        ∀ call sim'' rsp, call.run sim' = some (sim'', rsp) → ¬ sim''.Stepping →
          Ends (Entity.retired sim.entity) sim'' call rsp) ∧
    (sim.step_once = true → sim.state = .Running ∨ sim.state = .Quit) ∧
    (sim.state = .Quit → ∀ cmd, sim.command cmd = (sim, .Quit)) ∧
    (∀ cmd, (sim.state = .Running → sim.command (.Inspect cmd) = (sim, .Error .Running)) ∧
      (sim.state = .Stopped → sim.command (.Inspect cmd) =
        ({ sim with entity := (Entity.inspect sim.entity cmd).1 },
          (Entity.inspect sim.entity cmd).2))) ∧
    (sim.state ≠ .Running → ∀ fuel, sim.poll fuel = some (sim, none)) := by
  refine ⟨?_, ?_, ?_, ?_, ?_⟩
  · intro hquit
    have hstep : sim.command .Step =
        ({ sim with step_once := true, state := .Running }, .Started) := if_neg hquit
    rw [hstep]
    refine ⟨rfl, ⟨rfl, rfl⟩, ?_⟩
    intro log sim' hopen
    obtain ⟨hstepping, hretired, hsilent⟩ := hopen.silent hE
    refine ⟨hretired, hsilent, ?_⟩
    -- The call that closes the step is the one that ends it.
    intro call sim'' rsp hcall hclosed
    cases call_spec hE hstepping hcall with
    | open_ hopen' => exact absurd hopen' hclosed
    | ends hends =>
      rw [hretired] at hends
      exact hends
  · intro honce
    have hstopped := step_once_not_stopped h honce
    cases hstate : sim.state with
    | Stopped => exact absurd hstate hstopped
    | Running => exact Or.inl rfl
    | Quit => exact Or.inr rfl
  · intro hquit cmd
    exact if_pos hquit
  · intro cmd
    constructor
    · intro hrunning
      unfold command
      rw [hrunning]
      rfl
    · intro hstopped
      unfold command
      rw [hstopped]
      rfl
  · intro hstate fuel
    exact poll_of_not_running hstate

/-- A core that has retired nothing is stepped; a read of a register comes in between. -/
theorem step_run_control_counting :
    let stepped := ((Simulator.new (counting .Log)).command .Step).1
    ∃ sim', SimCall.run stepped (.poll 1) = some (sim', some (.Stopped .Step)) ∧
      StaysOpen stepped [(.command (.Inspect (.ReadReg 0)), some (.Error .Running))] stepped ∧
      Ends 0 sim' (.poll 1) (some (.Stopped .Step)) := by
  have hreach : Reachable (sim_runs fun _ => True) AnySimRun (Simulator.new (counting .Log)) :=
    .init ⟨trivial, rfl⟩
  obtain ⟨hstep, -⟩ := step_run_control LawfulEntity.stepsOnce hreach
  obtain ⟨-, hstepping, hwhole⟩ := hstep nofun
  have hread : SimCall.run ((Simulator.new (counting .Log)).command .Step).1
      (.command (.Inspect (.ReadReg 0))) =
        some (((Simulator.new (counting .Log)).command .Step).1, some (.Error .Running)) := rfl
  have hopen := StaysOpen.concat (.nil hstepping) hread hstepping
  refine ⟨_, rfl, hopen, ?_⟩
  exact (hwhole _ _ hopen).2.2 (.poll 1) _ _ rfl nofun

end Simulator

end Rl78Sim
