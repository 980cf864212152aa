import Rl78Sim.Cluster.Guests
import Rl78Sim.Cluster.Stops
import Rl78Sim.Kernel.Stepping

/-! # The Reply to a Gdb Step

    `perform_local_step` polls the simulator until the step completes. It
    answers the arbiter with a time report and a stop only when the poll loop
    ends in a stop of the simulator; its other ends, an error of the poll and
    the deadline, are only logged. The results are about the boards that are
    chips; a plant, which may be stepped as well, is left out. -/

namespace Rl78Sim

open Transition Machine

variable {C Ev M F : Type} [Cpu C Ev F] [Model M F]

/-! ### The poll loop -/

namespace Simulator

omit [Cpu C Ev F] [Model M F] in
/-- A poll that completes a pending single step stops the simulator. -/
theorem complete_answered (sim : Simulator (Board C Ev M F)) (honce : sim.step_once = true)
    {r : EntityPoll} (h : Answered r) :
    ∃ reason, (sim.complete r).2 = some (.Stopped reason) ∧
      (sim.complete r).1.state = .Stopped := by
  rcases h with rfl | ⟨reason, rfl⟩
  · exact ⟨.Step, by simp [complete, honce]⟩
  · cases reason with
    | Halt => exact ⟨.Step, by simp [complete, commit_stop, honce]⟩
    | _ => exact ⟨_, rfl, rfl⟩

/-- The poll of a machine's simulator. -/
theorem poll_machine {sim : Simulator (Board C Ev M F)} {m : Machine C Ev F}
    (hentity : sim.entity = .machine m) (hrun : sim.state = .Running) (fuel : Nat) :
    sim.poll fuel = (m.poll fuel sim.advance_ctx).map fun (m', r) =>
      ({ sim with entity := .machine m' } : Simulator (Board C Ev M F)).complete r := by
  unfold poll
  rw [if_pos hrun, hentity]
  change ((m.poll fuel sim.advance_ctx).map _).map _ = _
  rw [Option.map_map]
  rfl

end Simulator

namespace Node

section

variable {sim sim' : Simulator (Board C Ev M F)} {m m' : Machine C Ev F} {fuel fuel' polls : Nat}

/-- The simulator with the machine that a poll left. -/
def with_machine (sim : Simulator (Board C Ev M F)) (m : Machine C Ev F) :
    Simulator (Board C Ev M F) :=
  { sim with entity := .machine m }

/-- A poll that answers ends the loop. -/
theorem step_loop_answered {r : EntityPoll} (hentity : sim.entity = .machine m)
    (hrun : sim.state = .Running) (honce : sim.step_once = true)
    (hpoll : m.poll fuel sim.advance_ctx = some (m', r)) (hans : Answered r) (polls : Nat) :
    step_loop fuel polls sim = some ((with_machine sim m').complete r) := by
  obtain ⟨reason, hsome, -⟩ := Simulator.complete_answered (with_machine sim m') honce hans
  have hsim : sim.poll fuel = some ((with_machine sim m').complete r) := by
    rw [Simulator.poll_machine hentity hrun fuel, hpoll]
    rfl
  unfold step_loop
  rw [hsim]
  generalize (with_machine sim m').complete r = done at hsome
  obtain ⟨sim', rsp⟩ := done
  cases hsome
  rfl

theorem stop_of_answered {r : EntityPoll} (hentity : sim.entity = .machine m)
    (hrun : sim.state = .Running) (honce : sim.step_once = true)
    (hpoll : m.poll fuel sim.advance_ctx = some (m', r)) (hans : Answered r) (polls : Nat) :
    ∃ sim' reason, step_loop fuel polls sim = some (sim', some (.Stopped reason)) ∧
      sim'.state = .Stopped := by
  obtain ⟨reason, hsome, hstop⟩ :=
    Simulator.complete_answered (with_machine sim m') honce hans
  refine ⟨_, reason, ?_, hstop⟩
  rw [step_loop_answered hentity hrun honce hpoll hans, ← hsome]

/-- A poll that fails ends the loop as well. -/
theorem step_loop_failed {err : SimError} (hentity : sim.entity = .machine m)
    (hrun : sim.state = .Running)
    (hpoll : m.poll fuel sim.advance_ctx = some (m', .Done (.Error err))) (polls : Nat) :
    step_loop fuel polls sim =
      some ((with_machine sim m').complete (.Done (.Error err))) := by
  have hsim := Simulator.poll_machine hentity hrun fuel
  rw [hpoll, Option.map_some] at hsim
  unfold step_loop
  rw [hsim]
  rfl

/-- A poll that gets nowhere is the last one, or is tried again. -/
theorem step_loop_again (hentity : sim.entity = .machine m) (hrun : sim.state = .Running)
    (hpoll : m.poll fuel sim.advance_ctx = some (m', .NoProgress)) :
    step_loop fuel 0 sim = some (with_machine sim m', none) ∧
      ∀ polls, step_loop fuel (polls + 1) sim =
        step_loop fuel polls (with_machine sim m') := by
  have hsim := Simulator.poll_machine hentity hrun fuel
  rw [hpoll, Option.map_some] at hsim
  refine ⟨?_, fun polls => ?_⟩
  · unfold step_loop
    rw [hsim]
    rfl
  · rw [step_loop, hsim]
    rfl

theorem step_loop_none (hentity : sim.entity = .machine m) (hrun : sim.state = .Running)
    (hpoll : m.poll fuel sim.advance_ctx = none) (polls : Nat) :
    step_loop fuel polls sim = none := by
  have hsim := Simulator.poll_machine hentity hrun fuel
  rw [hpoll, Option.map_none] at hsim
  unfold step_loop
  rw [hsim]

/-- A retry leaves the simulator as it was, but for the machine. -/
theorem retried_ctx (hentity : sim.entity = .machine m)
    (h : m.poll fuel sim.advance_ctx = some (m', .NoProgress)) :
    (with_machine sim m').advance_ctx = sim.advance_ctx := by
  have hnow : Entity.now m' = Entity.now m :=
    LawfulEntity.poll_noProgress (E := Machine C Ev F) h
  have hsim : (with_machine sim m').now = sim.now := by
    change Entity.now m' = _
    rw [hnow, Simulator.now, hentity]
    rfl
  simp only [Simulator.advance_ctx, hsim]
  rfl

omit [Cpu C Ev F] [Model M F] in
theorem with_machine_entity (sim : Simulator (Board C Ev M F)) (m : Machine C Ev F) :
    (with_machine sim m).entity = .machine m := rfl

/-- A loop that ends in a stop is one of a step that can complete. -/
theorem answers_of_step_loop {reason : StopReason} (hentity : sim.entity = .machine m)
    (hrun : sim.state = .Running) (honce : sim.step_once = true)
    (h : step_loop fuel polls sim = some (sim', some (.Stopped reason))) :
    StepAnswers sim.advance_ctx polls m := by
  induction polls generalizing sim m with
  | zero =>
    cases hpoll : m.poll fuel sim.advance_ctx with
    | none => simp [step_loop_none hentity hrun hpoll] at h
    | some x =>
      obtain ⟨m', r⟩ := x
      cases step_poll honce hpoll with
      | answered _ hans => exact hans 0
      | stuck | again => simp [(step_loop_again hentity hrun hpoll).1] at h
      | failed => simp [step_loop_failed hentity hrun hpoll, Simulator.complete] at h
  | succ polls ih =>
    cases hpoll : m.poll fuel sim.advance_ctx with
    | none => simp [step_loop_none hentity hrun hpoll] at h
    | some x =>
      obtain ⟨m', r⟩ := x
      cases step_poll honce hpoll with
      | answered _ hans => exact hans _
      -- The next poll starts where this one did, and would be stuck for good.
      | stuck _ hstuck =>
        rw [(step_loop_again hentity hrun hpoll).2] at h
        have hrest := ih (with_machine_entity sim _) hrun honce h
        rw [retried_ctx hentity hpoll] at hrest
        exact absurd hrest hstuck.not_answers
      | again hset hperiod hfits hidle =>
        rw [(step_loop_again hentity hrun hpoll).2] at h
        have hrest := ih (with_machine_entity sim _) hrun honce h
        rw [retried_ctx hentity hpoll] at hrest
        exact .retried hset hperiod hfits hidle hrest
      | failed => simp [step_loop_failed hentity hrun hpoll, Simulator.complete] at h

/-- More fuel does not change how a loop ends. -/
theorem step_loop_mono {x : Simulator (Board C Ev M F) × Option Response}
    (hentity : sim.entity = .machine m) (hrun : sim.state = .Running)
    (honce : sim.step_once = true) (hle : fuel ≤ fuel')
    (h : step_loop fuel polls sim = some x) : step_loop fuel' polls sim = some x := by
  induction polls generalizing sim m with
  | zero =>
    cases hpoll : m.poll fuel sim.advance_ctx with
    | none => simp [step_loop_none hentity hrun hpoll] at h
    | some y =>
      have hsim := Simulator.poll_machine hentity hrun fuel
      rw [hpoll] at hsim
      have hsim' := Simulator.poll_machine hentity hrun fuel'
      rw [Machine.poll_mono hle hpoll] at hsim'
      unfold step_loop at h ⊢
      rwa [hsim', ← hsim]
  | succ polls ih =>
    cases hpoll : m.poll fuel sim.advance_ctx with
    | none => simp [step_loop_none hentity hrun hpoll] at h
    | some y =>
      obtain ⟨m', r⟩ := y
      have hpoll' := Machine.poll_mono hle hpoll
      -- More fuel gives the same poll, so the rest of the loop is the induction's.
      have hagain (hr : r = .NoProgress) : step_loop fuel' (polls + 1) sim = some x := by
        subst hr
        rw [(step_loop_again hentity hrun hpoll).2] at h
        rw [(step_loop_again hentity hrun hpoll').2]
        exact ih (with_machine_entity sim _) hrun honce h
      cases step_poll honce hpoll with
      | answered hans =>
        rw [step_loop_answered hentity hrun honce hpoll hans] at h
        rwa [step_loop_answered hentity hrun honce hpoll' hans]
      | stuck | again => exact hagain rfl
      | failed =>
        rw [step_loop_failed hentity hrun hpoll] at h
        rwa [step_loop_failed hentity hrun hpoll']

/-- With enough fuel, the loop of a step that can complete ends in a stop. -/
theorem step_loop_of_answers (hentity : sim.entity = .machine m) (hrun : sim.state = .Running)
    (honce : sim.step_once = true) (h : StepAnswers sim.advance_ctx polls m) :
    ∃ fuel sim' reason, step_loop fuel polls sim = some (sim', some (.Stopped reason)) ∧
      sim'.state = .Stopped := by
  induction polls generalizing sim m with
  | zero =>
    rcases poll_of_answers honce h with ⟨fuel, m', r, hpoll, hans⟩ | ⟨_, _, _, hk, -⟩
    · exact ⟨fuel, stop_of_answered hentity hrun honce hpoll hans 0⟩
    · cases hk
  | succ polls ih =>
    rcases poll_of_answers honce h with
      ⟨fuel, m', r, hpoll, hans⟩ | ⟨fuel₁, m', k, hk, hpoll, hrest⟩
    · exact ⟨fuel, stop_of_answered hentity hrun honce hpoll hans _⟩
    · obtain rfl : polls = k := by omega
      rw [← retried_ctx hentity hpoll] at hrest
      obtain ⟨fuel₂, sim', reason, hloop, hstop⟩ :=
        ih (with_machine_entity sim m') hrun honce hrest
      -- one amount of fuel for the first poll and for those after it
      obtain ⟨fuel, hle₁, hle₂⟩ : ∃ fuel, fuel₁ ≤ fuel ∧ fuel₂ ≤ fuel :=
        ⟨max fuel₁ fuel₂, Nat.le_max_left _ _, Nat.le_max_right _ _⟩
      refine ⟨fuel, sim', reason, ?_, hstop⟩
      rw [(step_loop_again hentity hrun (Machine.poll_mono hle₁ hpoll)).2]
      exact step_loop_mono (with_machine_entity sim m') hrun honce hle₂ hloop

end

/-! ### The step of a node -/

/-- What the polls of a gdb step are given. -/
def step_ctx {n : Nat} (nd : Node n (Board C Ev M F) F) : AdvanceCtx :=
  { nd.sim.advance_ctx with step_once := true }

/-- The step is answered by one time report and one host stop, and the simulator
    stands stopped. `polls` retries fit before the deadline. -/
def StepAnswered {n : Nat} (nd : Node n (Board C Ev M F) F) (polls : Nat) : Prop :=
  ∃ fuel nd' t reason,
    nd.perform_local_step fuel polls = some (nd', [.TimeReport t, .HostStop reason]) ∧
      nd'.sim.state = .Stopped

/-- `perform_local_step` answers exactly the steps that can complete. -/
theorem step_answered_iff {k : Nat} {nd : Node k (Board C Ev M F) F} {m : Machine C Ev F}
    (hquit : nd.sim.state ≠ .Quit) (hentity : nd.sim.entity = .machine m) (polls : Nat) :
    nd.StepAnswered polls ↔ StepAnswers nd.step_ctx polls m := by
  have hcmd : nd.sim.command .Step =
      ({ nd.sim with step_once := true, state := .Running }, .Started) := if_neg hquit
  constructor
  · rintro ⟨fuel, nd', t, reason, hstep, -⟩
    simp only [perform_local_step, hcmd] at hstep
    split at hstep
    · cases hstep
    · rename_i sim stop hloop
      have hentity : ({ nd.sim with step_once := true, state := .Running } :
        Simulator (Board C Ev M F)).entity = .machine m := hentity
      exact answers_of_step_loop hentity rfl rfl hloop
    · cases hstep
  · intro hans
    have hentity : ({ nd.sim with step_once := true, state := .Running } :
      Simulator (Board C Ev M F)).entity = .machine m := hentity
    obtain ⟨fuel, sim, reason, hloop, hstop⟩ := step_loop_of_answers hentity rfl rfl hans
    have hspec := (step_loop_spec rfl rfl hloop).outcome
    cases hspec with
    | stopped _ _ _ hhalt =>
      obtain ⟨host_reason, hr⟩ := cluster_host_stop_reason_isSome hhalt
      refine ⟨fuel, { nd with sim := sim, last_time_report := some sim.now }, sim.now,
        host_reason, ?_, hstop⟩
      simp only [perform_local_step, hcmd, hloop, host_stop, hr]

end Node

/-! ### Steps of a cluster's nodes -/

section cluster

variable {n k : Nat} {cfg : Config n k} {s : Cluster n k (Board C Ev M F) F}

end cluster

/-- A chip that selects the stopped low-speed clock after 100 instructions, and a
    plant. -/
def sleepy_kinds (i : Fin 2) : GuestKind :=
  if i = 0 then .chip [(100, .sfr 4 0x40)] [] else .plant 10000 false

/-- The step that finds the chip settled, its clock stopped and no room left. -/
def Guest.idles (g : Guest) (ctx : AdvanceCtx) : Bool :=
  match g with
  | .machine m =>
      (fire_due_events 1 m).any fun (m', stop) =>
        stop.isNone && m'.period.isNone && m'.budget_ns ctx == 0
  | .plant _ => false

theorem Guest.idles_stuck {g : Guest} {ctx : AdvanceCtx} (h : g.idles ctx = true) :
    ∃ m, g = .machine m ∧ Stuck ctx m := by
  cases g with
  | plant => cases h
  | machine m =>
    obtain ⟨⟨m', stop⟩, hfire, hidle⟩ := (Option.any_eq_true _ _).mp h
    simp only [Bool.and_eq_true, Option.isNone_iff_eq_none, beq_iff_eq] at hidle
    obtain ⟨⟨rfl, hperiod⟩, hroom⟩ := hidle
    exact ⟨m, rfl, m', ⟨1, hfire⟩, hperiod, hroom⟩

/-- The chip runs to its ceiling and is stopped there. -/
def sleepy_run : List (Step 2) :=
  host (.Start none) :: receive 0 1 ++ full_loop 0 ++ full_loop 0 ++ host .Stop :: receive 0 1

end Rl78Sim
