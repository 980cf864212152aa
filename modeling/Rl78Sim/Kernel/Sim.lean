import Rl78Sim.Kernel.Plant

/-! # The Simulator

    `Simulator` wraps an entity with a session state and the virtual-time
    ceiling. A node of a cluster installs no `before_quantum` hook, so the hook
    is left out. -/

namespace Rl78Sim

/-- `DEFAULT_MAX_QUANTUM`, in nanoseconds. -/
def default_max_quantum : Nat := 10000

/-- `SimState`. -/
inductive SimState where
  | Stopped
  | Running
  | Quit
  deriving DecidableEq

/-- `Simulator`. -/
structure Simulator (E : Type) where
  entity : E
  state : SimState
  max_quantum : Nat
  /-- When set, the next poll completes as `StopReason.Step`. -/
  step_once : Bool
  /-- Ceiling of a multi-board run: virtual time must not pass it. -/
  allowed : Option Nat

namespace Simulator

variable {E F : Type} [Entity E F]

/-- `Simulator::new` with `SimConfig::default`. -/
def new (entity : E) : Simulator E :=
  ⟨entity, .Stopped, default_max_quantum, false, none⟩

/-- The virtual time of the entity. -/
def now (sim : Simulator E) : Nat := Entity.now sim.entity

/-- `Simulator::waiting_on_allowed_ceiling`. -/
def waiting_on_allowed_ceiling (sim : Simulator E) : Bool :=
  match sim.state, sim.allowed with
  | .Running, some allowed => allowed - sim.now = 0
  | _, _ => false

/-- `Simulator::command`. -/
def command (sim : Simulator E) (cmd : Command) : Simulator E × Response :=
  if sim.state = .Quit then (sim, .Quit)
  else
    match cmd with
    | .Start => ({ sim with step_once := false, state := .Running }, .Started)
    | .Step => ({ sim with step_once := true, state := .Running }, .Started)
    | .Stop => ({ sim with step_once := false, state := .Stopped }, .Stopped .ExternalStop)
    | .Quit => ({ sim with state := .Quit }, .Quit)
    | .SetAllowed tick => ({ sim with allowed := some tick }, .Inspect .Ok)
    | .NotifyHalt _ => (sim, .Inspect .Ok)
    | .Inspect other =>
        if sim.state = .Running then (sim, .Error .Running)
        else
          match Entity.inspect sim.entity other with
          | (entity, rsp) => ({ sim with entity := entity }, rsp)

/-- `Simulator::commit_stop`. A guest halt keeps the simulator running unless
    it completes a single step. -/
def commit_stop (sim : Simulator E) : StopReason → Simulator E × Option Response
  | .Halt =>
      if sim.step_once then
        ({ sim with step_once := false, state := .Stopped }, some (.Stopped .Step))
      else ({ sim with step_once := false }, none)
  | other => ({ sim with step_once := false, state := .Stopped }, some (.Stopped other))

/-- What the simulator makes of one entity poll. -/
def complete (sim : Simulator E) : EntityPoll → Simulator E × Option Response
  | .NoProgress => (sim, none)
  | .Progressed =>
      if sim.step_once then
        ({ sim with step_once := false, state := .Stopped }, some (.Stopped .Step))
      else (sim, none)
  | .Done (.Stopped reason) => sim.commit_stop reason
  | .Done (.Error err) =>
      ({ sim with step_once := false, state := .Stopped }, some (.Error err))
  | .Done other => (sim, some other)

/-- The budget of the next poll. -/
def advance_ctx (sim : Simulator E) : AdvanceCtx where
  budget :=
    match sim.allowed with
    | some allowed => allowed - sim.now
    | none => u64_max
  max_quantum := sim.max_quantum
  step_once := sim.step_once

/-- `Simulator::poll`. -/
def poll (fuel : Nat) (sim : Simulator E) : Option (Simulator E × Option Response) :=
  if sim.state = .Running then
    (Entity.poll fuel sim.entity sim.advance_ctx).map fun (entity, r) =>
      ({ sim with entity := entity } : Simulator E).complete r
  else some (sim, none)

/-! ### What a command does -/

/-- `sim'` is `sim` up to the lifecycle fields, at the same instant. -/
structure Frame (sim sim' : Simulator E) : Prop where
  timeless : Entity.Timeless sim.entity sim'.entity
  max_quantum_eq : sim'.max_quantum = sim.max_quantum

theorem timeless_refl (e : E) : Entity.Timeless e e :=
  ⟨rfl, rfl, OutPorts.Extends.refl _ _ _⟩

/-- A simulator that is not running is left alone by a poll. -/
theorem poll_of_not_running {fuel : Nat} {sim : Simulator E} (h : sim.state ≠ .Running) :
    sim.poll fuel = some (sim, none) :=
  if_neg h

/-- `complete` changes the lifecycle fields only. -/
theorem complete_frame (sim : Simulator E) (r : EntityPoll) :
    (sim.complete r).1.entity = sim.entity ∧ (sim.complete r).1.allowed = sim.allowed ∧
      (sim.complete r).1.max_quantum = sim.max_quantum := by
  unfold complete
  split
  · exact ⟨rfl, rfl, rfl⟩
  · split <;> exact ⟨rfl, rfl, rfl⟩
  · unfold commit_stop
    split
    · split <;> exact ⟨rfl, rfl, rfl⟩
    · exact ⟨rfl, rfl, rfl⟩
  · exact ⟨rfl, rfl, rfl⟩
  · exact ⟨rfl, rfl, rfl⟩

/-- A poll does nothing, or it polls the entity and completes the result. -/
theorem poll_cases {fuel : Nat} {sim sim' : Simulator E} {rsp : Option Response}
    (h : sim.poll fuel = some (sim', rsp)) :
    (sim.state ≠ .Running ∧ sim' = sim ∧ rsp = none) ∨
      sim.state = .Running ∧ sim'.max_quantum = sim.max_quantum ∧
        ∃ r, Entity.poll fuel sim.entity sim.advance_ctx = some (sim'.entity, r) ∧
          ({ sim with entity := sim'.entity } : Simulator E).complete r = (sim', rsp) := by
  unfold poll at h
  split at h
  · rename_i hrun
    obtain ⟨⟨entity, r⟩, hpoll, hcomplete⟩ := Option.map_eq_some_iff.mp h
    obtain ⟨hentity, -, hquantum⟩ :=
      complete_frame ({ sim with entity := entity } : Simulator E) r
    dsimp only at hcomplete
    rw [hcomplete] at hentity hquantum
    obtain rfl : sim'.entity = entity := hentity
    exact .inr ⟨hrun, hquantum, r, hpoll, hcomplete⟩
  · rename_i hidle
    cases h
    exact .inl ⟨hidle, rfl, rfl⟩

variable [LawfulEntity E]

/-- No command moves the clock. -/
theorem frame_command (sim : Simulator E) (cmd : Command) :
    Frame sim (sim.command cmd).1 := by
  have hsame {sim' : Simulator E} (he : sim'.entity = sim.entity)
      (hq : sim'.max_quantum = sim.max_quantum) : Frame sim sim' :=
    ⟨by rw [he]; exact timeless_refl _, hq⟩
  unfold command
  split
  · exact hsame rfl rfl
  · cases cmd with
    | Inspect other =>
      dsimp only
      split
      · exact hsame rfl rfl
      · exact ⟨LawfulEntity.inspect_timeless sim.entity other, rfl⟩
    | _ => exact hsame rfl rfl

/-! ### What a poll does -/

/-- How a running simulator leaves a poll. -/
inductive Outcome (sim sim' : Simulator E) : Option Response → Prop where
  /-- It goes on running; a pending single step made no progress. -/
  | running : sim'.state = .Running → sim'.step_once = sim.step_once →
      (sim.step_once = true → sim'.now = sim.now ∧
        Entity.retired sim'.entity = Entity.retired sim.entity) →
      Outcome sim sim' none
  /-- It stopped for a reason other than a guest halt. -/
  | stopped (reason : StopReason) : sim'.state = .Stopped → sim'.step_once = false →
      reason ≠ .Halt → Outcome sim sim' (some (.Stopped reason))
  /-- The entity refused to run. -/
  | failed (err : SimError) : sim'.state = .Stopped → sim'.step_once = false →
      sim'.now = sim.now → Outcome sim sim' (some (.Error err))

/-- What one poll of a running simulator guarantees. -/
structure PollSpec (sim sim' : Simulator E) (rsp : Option Response) : Prop where
  now_le : sim.now ≤ sim'.now
  /-- Only a single step passes the ceiling. -/
  le_allowed : sim.step_once = false → ∀ a, sim.allowed = some a → sim'.now ≤ max sim.now a
  allowed_eq : sim'.allowed = sim.allowed
  max_quantum_eq : sim'.max_quantum = sim.max_quantum
  outcome : Outcome sim sim' rsp
  retired_le : sim.step_once = true →
    Entity.retired sim'.entity ≤ Entity.retired sim.entity + 1
  ports : (Entity.ports sim.entity).Extends (Entity.ports sim'.entity) sim.now sim'.now
  drive_quantum : sim.step_once = false →
    (Entity.ports sim'.entity).driven = (Entity.ports sim.entity).driven ∨
      sim'.now ≤ sim.now + sim.max_quantum

/-- The outcome of a poll of a running simulator, from the entity's result. -/
theorem outcome_complete {fuel : Nat} {sim : Simulator E} {entity : E} {r : EntityPoll}
    (hrun : sim.state = .Running)
    (h : Entity.poll fuel sim.entity sim.advance_ctx = some (entity, r)) :
    Outcome sim (({ sim with entity := entity } : Simulator E).complete r).1
      (({ sim with entity := entity } : Simulator E).complete r).2 := by
  cases r with
  | NoProgress =>
    exact .running hrun rfl fun _ =>
      ⟨LawfulEntity.poll_noProgress h, LawfulEntity.poll_noProgress_retired h⟩
  | Progressed =>
    by_cases honce : sim.step_once = true
    · simp only [complete, honce, if_true]
      exact .stopped _ rfl rfl (by decide)
    · simp only [complete, honce]
      exact .running hrun (by simpa using honce) fun h => absurd h honce
  | Done rsp =>
    rcases LawfulEntity.poll_done h with ⟨reason, rfl⟩ | ⟨err, rfl⟩
    · by_cases hhalt : reason = .Halt
      · subst hhalt
        by_cases honce : sim.step_once = true
        · simp only [complete, commit_stop, honce, if_true]
          exact .stopped _ rfl rfl (by decide)
        · simp only [complete, commit_stop, honce]
          exact .running hrun (by simpa using honce) fun h => absurd h honce
      · have hcommit : ({ sim with entity := entity } : Simulator E).complete
            (.Done (.Stopped reason)) =
            ({ sim with entity := entity, step_once := false, state := .Stopped },
              some (.Stopped reason)) := by
          cases reason <;> first | rfl | exact absurd rfl hhalt
        rw [hcommit]
        exact .stopped _ rfl rfl hhalt
    · exact .failed err rfl rfl (LawfulEntity.poll_error h)

theorem poll_spec {fuel : Nat} {sim sim' : Simulator E} {rsp : Option Response}
    (hrun : sim.state = .Running) (h : sim.poll fuel = some (sim', rsp)) :
    PollSpec sim sim' rsp := by
  rcases poll_cases h with ⟨hidle, -⟩ | ⟨-, hquantum, r, hpoll, hcomplete⟩
  · exact absurd hrun hidle
  have hout := outcome_complete hrun hpoll
  obtain ⟨-, hallowed, -⟩ := complete_frame ({ sim with entity := sim'.entity } : Simulator E) r
  rw [hcomplete] at hout hallowed
  refine
    { now_le := LawfulEntity.poll_now_le hpoll
      le_allowed := ?_
      allowed_eq := hallowed
      max_quantum_eq := hquantum
      outcome := hout
      retired_le := fun honce => LawfulEntity.poll_retired hpoll honce
      ports := LawfulEntity.poll_ports hpoll
      drive_quantum := fun honce => LawfulEntity.poll_drive_quantum hpoll honce }
  intro honce a ha
  have hle := LawfulEntity.poll_le_budget hpoll honce
  simp only [advance_ctx, ha] at hle
  simp only [now] at hle ⊢
  omega

end Simulator

end Rl78Sim
