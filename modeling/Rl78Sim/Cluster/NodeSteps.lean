import Rl78Sim.Cluster.Node

/-! # What One Step of a Node Can Do

    `Took` lists the outcomes of handling one control message, and `Acted` the
    outcomes of the other steps, as far as the control plane is concerned. They
    hold of a node past its startup (`Node.Live`).
-/

namespace Rl78Sim

variable {n m : Nat} {E F : Type} [Entity E F]

namespace Node

/-- The node is past the Ready barrier and its simulator has not quit. -/
structure Live (nd : Node m E F) : Prop where
  started : nd.state ≠ .AwaitingStartup
  not_quit : nd.sim.state ≠ .Quit

/-! ### The local step -/

/-- What the poll loop of a gdb step leaves: the simulator stopped, with or
    without a report, or the loop ran into its deadline. -/
inductive LocalStep (sim sim' : Simulator E) : Option Response → Prop where
  | stopped (reason : StopReason) : sim'.state = .Stopped → sim'.step_once = false →
      reason ≠ .Halt → LocalStep sim sim' (some (.Stopped reason))
  | failed (err : SimError) : sim'.state = .Stopped → sim'.step_once = false →
      sim'.now = sim.now → LocalStep sim sim' (some (.Error err))
  | timed_out : sim'.state = .Running → sim'.now = sim.now → LocalStep sim sim' none

/-- What the poll loop of a gdb step guarantees. -/
structure StepSpec (sim sim' : Simulator E) (rsp : Option Response) : Prop where
  now_le : sim.now ≤ sim'.now
  allowed_eq : sim'.allowed = sim.allowed
  max_quantum_eq : sim'.max_quantum = sim.max_quantum
  retired_le : Entity.retired sim'.entity ≤ Entity.retired sim.entity + 1
  ports : (Entity.ports sim.entity).Extends (Entity.ports sim'.entity) sim.now sim'.now
  outcome : LocalStep sim sim' rsp

/-- The poll that ends the loop. -/
theorem StepSpec.of_poll {sim sim' : Simulator E} {rsp answer : Option Response}
    (h : Simulator.PollSpec sim sim' answer) (honce : sim.step_once = true)
    (hout : LocalStep sim sim' rsp) : StepSpec sim sim' rsp :=
  ⟨h.now_le, h.allowed_eq, h.max_quantum_eq, h.retired_le honce, h.ports, hout⟩

theorem step_loop_spec [LawfulEntity E] {fuel polls : Nat} {sim sim' : Simulator E}
    {rsp : Option Response} (hrun : sim.state = .Running) (honce : sim.step_once = true)
    (h : step_loop fuel polls sim = some (sim', rsp)) : StepSpec sim sim' rsp := by
  induction polls generalizing sim with
  | zero =>
    unfold step_loop at h
    cases hpoll : sim.poll fuel with
    | none => rw [hpoll] at h; cases h
    | some res =>
      obtain ⟨polled, answer⟩ := res
      rw [hpoll] at h
      have hspec := Simulator.poll_spec hrun hpoll
      cases hout : hspec.outcome with
      | running hstate _ hidle =>
        cases h
        exact .of_poll hspec honce (.timed_out hstate (hidle honce).1)
      | stopped reason hstate hclear hhalt =>
        cases h
        exact .of_poll hspec honce (.stopped reason hstate hclear hhalt)
      | failed err hstate hclear hnow =>
        cases h
        exact .of_poll hspec honce (.failed err hstate hclear hnow)
  | succ polls ih =>
    unfold step_loop at h
    cases hpoll : sim.poll fuel with
    | none => rw [hpoll] at h; cases h
    | some res =>
      obtain ⟨polled, answer⟩ := res
      rw [hpoll] at h
      have hspec := Simulator.poll_spec hrun hpoll
      cases hout : hspec.outcome with
      | running hstate hpending hidle =>
        -- No progress yet: the clock and the retired count have not moved.
        obtain ⟨hnow, hretired⟩ := hidle honce
        have hrest := ih hstate (by rw [hpending, honce]) h
        refine ⟨hnow ▸ hrest.now_le, hrest.allowed_eq.trans hspec.allowed_eq,
          hrest.max_quantum_eq.trans hspec.max_quantum_eq, hretired ▸ hrest.retired_le, ?_, ?_⟩
        · have hfirst := hspec.ports.mono (Nat.le_refl _) hrest.now_le
          have hsecond := hrest.ports
          rw [hnow] at hsecond
          exact hfirst.trans hsecond
        · cases hrest.outcome with
          | stopped reason hstate hclear hhalt => exact .stopped reason hstate hclear hhalt
          | failed err hstate hclear hnow' => exact .failed err hstate hclear (hnow'.trans hnow)
          | timed_out hstate hnow' => exact .timed_out hstate (hnow'.trans hnow)
      | stopped reason hstate hclear hhalt =>
        cases h
        exact .of_poll hspec honce (.stopped reason hstate hclear hhalt)
      | failed err hstate hclear hnow =>
        cases h
        exact .of_poll hspec honce (.failed err hstate hclear hnow)

/-- The outcomes of `perform_local_step`. -/
inductive Stepped (nd : Node m E F) : Node m E F → List ControlToArbiter → Prop where
  | stopped (sim : Simulator E) (reason : StopReason) (host_reason : HostStopReason) :
      StepSpec nd.sim sim (some (.Stopped reason)) →
      cluster_host_stop_reason reason = some host_reason →
      Stepped nd { nd with sim := sim, last_time_report := some sim.now }
        [.TimeReport sim.now, .HostStop host_reason]
  | silent (sim : Simulator E) (rsp : Option Response) : StepSpec nd.sim sim rsp →
      sim.now = nd.sim.now → sim.state ≠ .Quit →
      Stepped nd { nd with sim := sim } []

/-- Everything a `StepSpec` says but its outcome is about the entity. -/
theorem StepSpec.of_entity (sim : Simulator E) {sim₀ sim' : Simulator E} {rsp : Option Response}
    (h : StepSpec sim₀ sim' rsp) (he : sim₀.entity = sim.entity)
    (ha : sim₀.allowed = sim.allowed) (hq : sim₀.max_quantum = sim.max_quantum) :
    StepSpec sim sim' rsp := by
  have hnow : sim₀.now = sim.now := by simp only [Simulator.now, he]
  obtain ⟨h1, h2, h3, h4, h5, h6⟩ := h
  rw [hnow] at h1 h5
  rw [he] at h4 h5
  refine ⟨h1, h2.trans ha, h3.trans hq, h4, h5, ?_⟩
  cases h6 with
  | stopped reason hs hc hh => exact .stopped reason hs hc hh
  | failed err hs hc hn => exact .failed err hs hc (hn.trans hnow)
  | timed_out hs hn => exact .timed_out hs (hn.trans hnow)

theorem perform_local_step_cases [LawfulEntity E] (nd : Node m E F) {nd' : Node m E F}
    {fuel polls : Nat}
    {out : List ControlToArbiter} (hquit : nd.sim.state ≠ .Quit)
    (h : nd.perform_local_step fuel polls = some (nd', out)) : Stepped nd nd' out := by
  have hcmd : nd.sim.command .Step =
      ({ nd.sim with step_once := true, state := .Running }, .Started) := if_neg hquit
  simp only [perform_local_step, hcmd] at h
  split at h
  · cases h
  · rename_i sim reason hloop
    have hspec := (step_loop_spec rfl rfl hloop).of_entity nd.sim rfl rfl rfl
    cases hspec.outcome with
    | stopped _ hstate hclear hhalt =>
      obtain ⟨host_reason, hr⟩ := cluster_host_stop_reason_isSome hhalt
      simp only [host_stop, hr] at h
      cases h
      exact .stopped sim reason host_reason hspec hr
  · rename_i sim rsp hne hloop
    have hspec := (step_loop_spec rfl rfl hloop).of_entity nd.sim rfl rfl rfl
    cases h
    cases hspec.outcome with
    | stopped reason => exact absurd rfl (hne _)
    | failed err hstate _ hnow => exact .silent sim _ hspec hnow (by rw [hstate]; decide)
    | timed_out hstate hnow => exact .silent sim _ hspec hnow (by rw [hstate]; decide)

/-! ### Handling a control message -/

/-- The simulator stops when its node leaves the running state. -/
def halt_if_running (nd : Node m E F) (sim : Simulator E) : Simulator E :=
  if nd.state = .Running then { sim with step_once := false, state := .Stopped } else sim

/-- The simulator of a node that handles `Start`. -/
def started (nd : Node m E F) (allowed_ns : Nat) : Simulator E :=
  if nd.state = .Running then { nd.sim with allowed := some allowed_ns }
  else { nd.sim with allowed := some allowed_ns, step_once := false, state := .Running }

/-- The outcomes of handling one control message. -/
inductive Took (i : Fin n) (nd : Node m E F) :
    ControlToNode n → Node m E F → List ControlToArbiter → Prop where
  | startup (margin_ns thr : Nat) (out : List ControlToArbiter) : (∀ msg ∈ out, msg = .Ready) →
      Took i nd (.StartupRecord margin_ns thr) { nd with headroom_threshold_ns := thr } out
  | start (a : Nat) :
      Took i nd (.Start a)
        { nd with
          handled := nd.handled + 1
          allowed_ns := a
          sim := nd.started a
          state := .Running } []
  | allowed (a : Nat) :
      Took i nd (.Allowed a)
        { nd with allowed_ns := a, sim := { nd.sim with allowed := some a } } []
  | cluster_stop (reason : HostStopReason) :
      Took i nd (.ClusterStop reason)
        { nd with state := .Stopped, sim := nd.halt_if_running nd.sim } []
  | reset : nd.state = .Stopped →
      Took i nd .Reset
        { nd with
          last_time_report := none
          pending_actions := []
          sim := { nd.sim with entity := Entity.reset nd.sim.entity } } []
  | reset_ignored : nd.state = .Running → Took i nd .Reset nd []
  | watch (board : Fin n) (count : Nat) (probe_ids : List Nat) :
      Took i nd (.ProbeWatch board count probe_ids) nd []
  | gdb_other (board : Fin n) : board ≠ i →
      Took i nd (.GdbStep board)
        { nd with
          handled := nd.handled + 1
          state := .Stopped
          sim := nd.halt_if_running nd.sim } []
  | gdb_step (nd' : Node m E F) (out : List ControlToArbiter) :
      Stepped { nd with handled := nd.handled + 1 } nd' out →
      Took i nd (.GdbStep i)
        { nd' with state := .Stopped, sim := nd.halt_if_running nd'.sim } out

omit [Entity E F] in
theorem Live.state_cases {nd : Node m E F} (h : nd.Live) :
    nd.state = .Stopped ∨ nd.state = .Running := by
  cases hs : nd.state with
  | AwaitingStartup => exact absurd hs h.started
  | Stopped => exact .inl rfl
  | Running => exact .inr rfl

theorem command_stop {sim : Simulator E} (h : sim.state ≠ .Quit) :
    (sim.command .Stop).1 = { sim with step_once := false, state := .Stopped } := by
  simp only [Simulator.command, if_neg h]

theorem command_set_allowed {sim : Simulator E} (h : sim.state ≠ .Quit) (a : Nat) :
    (sim.command (.SetAllowed a)).1 = { sim with allowed := some a } := by
  simp only [Simulator.command, if_neg h]

/-- A node that stays in its state leaves the simulator alone. -/
theorem follow_same (nd : Node m E F) : nd.follow_state nd.state = nd := by
  unfold follow_state
  split
  · rename_i h
    exact absurd h.2 h.1
  · split
    · rename_i h
      exact absurd h.1 h.2
    · rfl

/-- A node that stops, stops its simulator if it was running. -/
theorem follow_stopped (nd nd' : Node m E F) (hstate : nd'.state = nd.state)
    (hquit : nd'.sim.state ≠ .Quit) :
    nd'.follow_state .Stopped =
      { nd' with state := .Stopped, sim := nd.halt_if_running nd'.sim } := by
  unfold follow_state halt_if_running
  rw [hstate, command_stop hquit]
  by_cases hrun : nd.state = .Running <;> simp [hrun]

omit [Entity E F] in
theorem Live.on_start {nd : Node m E F} (h : nd.Live) (a : Nat) :
    nd.state.on_message (.Start a : ControlToNode n) = (.Running, some (.SetAllowed a)) := by
  rcases h.state_cases with hs | hs <;> rw [hs] <;> rfl

omit [Entity E F] in
theorem Live.on_allowed {nd : Node m E F} (h : nd.Live) (a : Nat) :
    nd.state.on_message (.Allowed a : ControlToNode n) = (nd.state, some (.SetAllowed a)) := by
  rcases h.state_cases with hs | hs <;> rw [hs] <;> rfl

omit [Entity E F] in
theorem Live.on_gdb_step {nd : Node m E F} (h : nd.Live) (board : Fin n) :
    nd.state.on_message (.GdbStep board) = (.Stopped, some (.GdbStep board)) := by
  rcases h.state_cases with hs | hs <;> rw [hs] <;> rfl

/-- Following the new state touches the state and the simulator only. -/
theorem follow_handled (nd : Node m E F) (next : NodeState) :
    (nd.follow_state next).handled = nd.handled := by
  unfold follow_state
  split
  · rfl
  · split <;> rfl

theorem stamp_follow (nd : Node m E F) (next : NodeState) (msgs : List ControlToArbiter) :
    (nd.follow_state next).stamp msgs = nd.stamp msgs := by
  simp only [stamp, follow_handled]

/-- Handling `Start` starts the simulator of a stopped node. -/
theorem follow_started {nd : Node m E F} (hlive : nd.Live) (a : Nat) :
    ({ nd with
        handled := nd.handled + 1
        allowed_ns := a
        sim := (nd.sim.command (.SetAllowed a)).1 } : Node m E F).follow_state .Running =
      { nd with
        handled := nd.handled + 1
        allowed_ns := a
        sim := nd.started a
        state := .Running } := by
  rw [command_set_allowed hlive.not_quit]
  unfold follow_state started
  by_cases hrun : nd.state = .Running
  · simp [hrun]
  · simp [hrun, Simulator.command, hlive.not_quit]

theorem Stepped.keeps {nd nd' : Node m E F} {out : List ControlToArbiter}
    (h : Stepped nd nd' out) : nd'.state = nd.state ∧ nd'.sim.state ≠ .Quit := by
  cases h with
  | stopped _ _ _ hspec =>
    cases hspec.outcome with
    | stopped _ hstate => exact ⟨rfl, by dsimp only; rw [hstate]; decide⟩
  | silent _ _ _ _ hne => exact ⟨rfl, hne⟩

/-- `Took` lists all that handling a control message can do. -/
theorem take_cases [LawfulEntity E] {cfg : Config n m} {i : Fin n} {t : Take}
    {msg : ControlToNode n} {lanes lanes' : Lanes m F} {nd nd' : Node m E F}
    {out : List Report} (hlive : nd.Live)
    (h : nd.take cfg i t msg lanes = some (lanes', nd', out)) :
    nd.pc = .drain ∧ ∃ msgs, out = nd'.stamp msgs ∧ Took i nd msg nd' msgs := by
  unfold take at h
  split at h
  case h_2 => cases h
  rename_i hpc
  refine ⟨hpc, ?_⟩
  have hquit := hlive.not_quit
  cases msg with
  | StartupRecord margin_ns thr =>
    -- Only a stopped board answers the record.
    rcases hlive.state_cases with hs | hs <;>
      simp only [note_startup, note_handled, hs, NodeState.on_message, apply_effect] at h <;>
      cases h
    · refine ⟨[.Ready], by rw [stamp_follow], ?_⟩
      rw [← hs, follow_same { nd with headroom_threshold_ns := thr }]
      exact .startup _ _ _ (by simp)
    · refine ⟨[], rfl, ?_⟩
      rw [← hs, follow_same { nd with headroom_threshold_ns := thr }]
      exact .startup _ _ _ (by simp)
  | Start a =>
    simp only [note_startup, note_handled, hlive.on_start, apply_effect] at h
    cases h
    refine ⟨[], rfl, ?_⟩
    rw [follow_started hlive]
    exact .start a
  | Allowed a =>
    simp only [note_startup, note_handled, hlive.on_allowed, apply_effect,
      command_set_allowed hquit] at h
    cases h
    refine ⟨[], rfl, ?_⟩
    rw [follow_same { nd with allowed_ns := a, sim := { nd.sim with allowed := some a } }]
    exact .allowed a
  | ClusterStop reason =>
    rcases hlive.state_cases with hs | hs <;>
      simp only [note_startup, note_handled, hs, NodeState.on_message, apply_effect] at h <;>
      cases h
    all_goals
      refine ⟨[], rfl, ?_⟩
      rw [follow_stopped nd nd rfl hquit]
      exact .cluster_stop reason
  | Reset =>
    rcases hlive.state_cases with hs | hs <;>
      simp only [note_startup, note_handled, hs, NodeState.on_message, apply_effect] at h <;>
      cases h
    · refine ⟨[], rfl, ?_⟩
      rw [← hs, follow_same { nd with
        last_time_report := none
        pending_actions := []
        sim := { nd.sim with entity := Entity.reset nd.sim.entity } }]
      exact .reset hs
    · refine ⟨[], rfl, ?_⟩
      rw [← hs, follow_same nd]
      exact .reset_ignored hs
  | ProbeWatch board count probe_ids =>
    rcases hlive.state_cases with hs | hs <;>
      simp only [note_startup, note_handled, hs, NodeState.on_message, apply_effect] at h <;>
      cases h
    all_goals
      refine ⟨[], rfl, ?_⟩
      rw [← hs, follow_same nd]
      exact .watch board count probe_ids
  | GdbStep board =>
    simp only [note_startup, note_handled, hlive.on_gdb_step, apply_effect] at h
    -- The board that is named steps; every other one stops.
    by_cases hboard : board = i
    · subst hboard
      rw [if_pos rfl] at h
      split at h
      · cases h
      · rename_i stepped heq
        obtain ⟨⟨nd₁, msgs⟩, hstep, hres⟩ := Option.map_eq_some_iff.mp heq
        cases hres
        cases h
        have hstepped :=
          perform_local_step_cases { nd with handled := nd.handled + 1 } hquit hstep
        refine ⟨msgs, by rw [stamp_follow], ?_⟩
        rw [follow_stopped nd nd₁ hstepped.keeps.1 hstepped.keeps.2]
        exact .gdb_step nd₁ msgs hstepped
    · rw [if_neg hboard] at h
      cases h
      refine ⟨[], rfl, ?_⟩
      rw [follow_stopped nd { nd with handled := nd.handled + 1 } rfl hquit]
      exact .gdb_other board hboard

/-! ### The other steps -/

/-- The part of the loop that runs while the node is running. -/
def NodePc.guest : NodePc m F → Bool
  | .drain => false
  | .service => false
  | _ => true

/-- The step leaves the lifecycle, the reports and the clock alone. -/
structure Quiet (nd nd' : Node m E F) : Prop where
  state_eq : nd'.state = nd.state
  thr_eq : nd'.headroom_threshold_ns = nd.headroom_threshold_ns
  allowed_ns_eq : nd'.allowed_ns = nd.allowed_ns
  last_eq : nd'.last_time_report = nd.last_time_report
  handled_eq : nd'.handled = nd.handled
  sim_state_eq : nd'.sim.state = nd.sim.state
  step_once_eq : nd'.sim.step_once = nd.sim.step_once
  allowed_eq : nd'.sim.allowed = nd.sim.allowed
  max_quantum_eq : nd'.sim.max_quantum = nd.sim.max_quantum
  now_eq : nd'.sim.now = nd.sim.now
  retired_eq : Entity.retired nd'.sim.entity = Entity.retired nd.sim.entity

/-- A change of the entity that takes no virtual time is quiet. -/
theorem Quiet.of_entity {nd nd' : Node m E F}
    (hnow : Entity.now nd'.sim.entity = Entity.now nd.sim.entity)
    (hret : Entity.retired nd'.sim.entity = Entity.retired nd.sim.entity)
    (hsim : nd'.sim = { nd.sim with entity := nd'.sim.entity })
    (hnd : nd' = { nd with sim := nd'.sim, pc := nd'.pc, pending_actions := nd'.pending_actions }) :
    Quiet nd nd' := by
  have hs : ∀ {α : Type} (f : Simulator E → α), f nd'.sim =
      f { nd.sim with entity := nd'.sim.entity } := fun f => congrArg f hsim
  constructor
  all_goals first
    | exact hret
    | exact hnow
    | exact hs Simulator.state
    | exact hs Simulator.step_once
    | exact hs Simulator.allowed
    | exact hs Simulator.max_quantum
    | (rw [hnd])

/-- What `maybe_time_report` does at virtual time `v`. -/
inductive MaybeReport (nd : Node m E F) (v : Nat) :
    Option Nat → List ControlToArbiter → Prop where
  | report : nd.allowed_ns - v < nd.headroom_threshold_ns → nd.last_time_report ≠ some v →
      MaybeReport nd v (some v) [.TimeReport v]
  | skip : ¬(nd.allowed_ns - v < nd.headroom_threshold_ns ∧ nd.last_time_report ≠ some v) →
      MaybeReport nd v nd.last_time_report []

/-- What a node publishes after a poll, and the time it last reported. -/
inductive Reported (nd : Node m E F) (v : Nat) :
    Option Response → Option Nat → List ControlToArbiter → Prop where
  | running (last : Option Nat) (msgs : List ControlToArbiter) :
      MaybeReport nd v last msgs → Reported nd v none last msgs
  | stopped (reason : StopReason) (host_reason : HostStopReason) (last : Option Nat)
      (msgs : List ControlToArbiter) : MaybeReport nd v last msgs →
      cluster_host_stop_reason reason = some host_reason →
      Reported nd v (some (.Stopped reason)) last (msgs ++ [.HostStop host_reason])
  /-- An error of the simulator is only logged. -/
  | failed (err : SimError) : Reported nd v (some (.Error err)) nd.last_time_report []

/-- The outcomes of the node's other steps. -/
inductive Acted (nd : Node m E F) : Act → Node m E F → List ControlToArbiter → Prop where
  | quiet (l : Act) (nd' : Node m E F) : Quiet nd nd' →
      (NodePc.guest nd'.pc = true → NodePc.guest nd.pc = true ∨ nd.state = .Running) →
      Acted nd l nd' []
  | polled (fuel : Nat) (sim : Simulator E) (rsp : Option Response) (last : Option Nat)
      (nd' : Node m E F) (msgs : List ControlToArbiter) :
      nd.pc = .poll → nd.sim.state = .Running →
      nd.sim.waiting_on_allowed_ceiling = false →
      nd.sim.poll fuel = some (sim, rsp) →
      Simulator.PollSpec nd.sim sim rsp →
      Reported nd sim.now rsp last msgs →
      Quiet { nd with sim := sim, last_time_report := last } nd' →
      Acted nd (.poll fuel) nd' msgs

/-- The poll of an iteration is made. -/
def polls (nd : Node m E F) : Bool :=
  nd.sim.state = .Running && !nd.sim.waiting_on_allowed_ceiling

theorem maybe_time_report_cases (nd : Node m E F) :
    ∃ last msgs, nd.maybe_time_report = ({ nd with last_time_report := last }, msgs) ∧
      MaybeReport nd nd.sim.now last msgs := by
  unfold maybe_time_report
  dsimp only
  by_cases h : nd.allowed_ns - nd.sim.now < nd.headroom_threshold_ns ∧
      nd.last_time_report ≠ some nd.sim.now
  · rw [if_pos h]
    exact ⟨_, _, rfl, .report h.1 h.2⟩
  · rw [if_neg h]
    exact ⟨nd.last_time_report, [], rfl, .skip h⟩

theorem report_poll_cases {nd : Node m E F} {sim : Simulator E} {rsp : Option Response}
    (h : Simulator.Outcome nd.sim sim rsp) :
    ∃ last msgs, report_poll { nd with sim := sim } rsp =
        ({ nd with sim := sim, last_time_report := last }, msgs) ∧
      Reported nd sim.now rsp last msgs := by
  obtain ⟨last, msgs, heq, hmaybe⟩ := maybe_time_report_cases { nd with sim := sim }
  have hmaybe' : MaybeReport nd sim.now last msgs := by
    cases hmaybe with
    | report hroom hlast => exact .report hroom hlast
    | skip hno => exact .skip hno
  cases h with
  | running => exact ⟨last, msgs, heq, .running _ _ hmaybe'⟩
  | stopped reason _ _ hhalt =>
    obtain ⟨host_reason, hr⟩ := cluster_host_stop_reason_isSome hhalt
    refine ⟨last, msgs ++ [.HostStop host_reason], ?_, .stopped _ _ _ _ hmaybe' hr⟩
    simp only [report_poll, heq, host_stop, hr]
  | failed err => exact ⟨nd.last_time_report, [], rfl, .failed err⟩

/-- Reports leave the simulator alone. -/
theorem report_poll_sim (nd : Node m E F) (rsp : Option Response) :
    (report_poll nd rsp).1.sim = nd.sim := by
  unfold report_poll maybe_time_report
  split
  · dsimp only
    split <;> rfl
  · rfl
  · dsimp only
    split <;> rfl

/-- The poll of an iteration is left out, or it answers and is reported. -/
theorem act_poll {cfg : Config n m} {i : Fin n} {fuel : Nat} {lanes lanes' : Lanes m F}
    {nd nd' : Node m E F} {out : List Report}
    (h : nd.act cfg i lanes (.poll fuel) = some (lanes', nd', out)) :
    nd.pc = .poll ∧ lanes' = lanes ∧
      ((nd.polls = false ∧ nd' = { nd with pc := .drain } ∧ out = []) ∨
        nd.polls = true ∧ nd.sim.state = .Running ∧ ∃ sim rsp nd₁ msgs,
          nd.sim.poll fuel = some (sim, rsp) ∧
          report_poll { nd with sim := sim } rsp = (nd₁, msgs) ∧ nd₁.sim = sim ∧
          nd' = nd₁.begin_tx cfg i ∧ out = nd'.stamp msgs) := by
  simp only [act] at h
  split at h
  case h_2 => cases h
  rename_i hpc
  obtain ⟨⟨nd₁, msgs⟩, hpoll, heq⟩ := Option.map_eq_some_iff.mp h
  cases heq
  refine ⟨hpc, rfl, ?_⟩
  unfold poll at hpoll
  split at hpoll
  · rename_i hwait
    -- At its ceiling the node waits.
    cases hpoll
    exact .inl ⟨by simp [polls, hwait], rfl, rfl⟩
  · rename_i hwait
    split at hpoll
    · rename_i hidle
      cases hpoll
      exact .inl ⟨by simp [polls, hidle], rfl, rfl⟩
    · rename_i hrun
      have hrun : nd.sim.state = .Running := by simpa using hrun
      split at hpoll
      · cases hpoll
      · rename_i sim rsp hsim
        cases hpoll
        exact .inr ⟨by simp [polls, hwait, hrun], hrun, sim, rsp, _, _, hsim, rfl,
          report_poll_sim _ rsp, rfl, rfl⟩

variable [LawfulEntity E]

theorem quiet_begin_tx (cfg : Config n m) (i : Fin n) (nd : Node m E F) :
    Quiet nd (nd.begin_tx cfg i) :=
  .of_entity (LawfulEntity.drain_now _ _) (LawfulEntity.drain_retired _ _) rfl rfl

/-- Applying the queued actions takes no virtual time. -/
theorem timeless_apply_actions (requests : List ActionRequest) (e : E) :
    Entity.now (requests.foldl (fun e req => (Entity.apply_action e req).1) e) = Entity.now e ∧
      Entity.retired (requests.foldl (fun e req => (Entity.apply_action e req).1) e) =
        Entity.retired e := by
  induction requests generalizing e with
  | nil => exact ⟨rfl, rfl⟩
  | cons req requests ih =>
    have hact := LawfulEntity.apply_action_timeless e req
    obtain ⟨hnow, hret⟩ := ih (Entity.apply_action e req).1
    exact ⟨hnow.trans hact.now_eq, hret.trans hact.retired_eq⟩

theorem quiet_service_actions (nd : Node m E F) (requests : List ActionRequest) :
    Quiet nd (nd.service_actions requests) := by
  unfold service_actions
  split
  · dsimp only
    split
    · have hpoll := LawfulEntity.poll_actions_timeless nd.sim.entity
      obtain ⟨hnow, hret⟩ := timeless_apply_actions (nd.pending_actions ++ requests)
        (Entity.poll_actions nd.sim.entity)
      exact .of_entity (hnow.trans hpoll.now_eq) (hret.trans hpoll.retired_eq) rfl rfl
    · exact .of_entity rfl rfl rfl rfl
  · exact .of_entity rfl rfl rfl rfl

omit [LawfulEntity E] in
/-- Moving on in the loop is quiet. -/
theorem Quiet.set_pc {nd nd' : Node m E F} (h : Quiet nd nd') (pc : NodePc m F) :
    Quiet nd { nd' with pc := pc } :=
  ⟨h.1, h.2, h.3, h.4, h.5, h.6, h.7, h.8, h.9, h.10, h.11⟩

theorem quiet_command_inspect (nd : Node m E F) (cmd : InspectCommand) :
    Quiet nd { nd with sim := (nd.sim.command (.Inspect cmd)).1 } := by
  have hframe := Simulator.frame_command nd.sim (.Inspect cmd)
  have hsim : (nd.sim.command (.Inspect cmd)).1 =
      { nd.sim with entity := (nd.sim.command (.Inspect cmd)).1.entity } := by
    unfold Simulator.command
    split
    · rfl
    · dsimp only
      split <;> rfl
  exact .of_entity hframe.timeless.now_eq hframe.timeless.retired_eq hsim rfl

theorem quiet_pump_rx (cfg : Config n m) (lanes : Lanes m F) (nd : Node m E F)
    (todo : List (Fin m × Nat)) :
    Quiet nd (nd.pump_rx cfg lanes todo).2 := by
  unfold pump_rx
  split
  · exact .of_entity rfl rfl rfl rfl
  · exact .of_entity rfl rfl rfl rfl
  · split
    · exact .of_entity rfl rfl rfl rfl
    · rename_i e _ _ _ frame _ _
      have hrecv := LawfulEntity.receive_timeless nd.sim.entity (cfg.edge e).dst_port frame.value
      exact .of_entity hrecv.now_eq hrecv.retired_eq rfl rfl

omit [LawfulEntity E] in
theorem quiet_pump_tx (cfg : Config n m) (lanes : Lanes m F) (nd : Node m E F)
    (todo : List (Fin m × Drive F)) :
    Quiet nd (nd.pump_tx cfg lanes todo).2 := by
  unfold pump_tx
  split <;> exact .of_entity rfl rfl rfl rfl

/-- A step that polls the simulator: what it leaves, and what it publishes. -/
structure Polled (nd : Node m E F) (fuel : Nat) (sim : Simulator E) (rsp : Option Response)
    (last : Option Nat) (nd' : Node m E F) (msgs : List ControlToArbiter) : Prop where
  pc : nd.pc = .poll
  running : nd.sim.state = .Running
  waiting : nd.sim.waiting_on_allowed_ceiling = false
  poll : nd.sim.poll fuel = some (sim, rsp)
  spec : Simulator.PollSpec nd.sim sim rsp
  reported : Reported nd sim.now rsp last msgs
  quiet : Quiet { nd with sim := sim, last_time_report := last } nd'

omit [LawfulEntity E] in
theorem Polled.acted {nd nd' : Node m E F} {fuel : Nat} {sim : Simulator E}
    {rsp : Option Response} {last : Option Nat} {msgs : List ControlToArbiter}
    (h : Polled nd fuel sim rsp last nd' msgs) : Acted nd (.poll fuel) nd' msgs :=
  .polled fuel sim rsp last nd' msgs h.pc h.running h.waiting h.poll h.spec h.reported h.quiet

theorem act_poll_cases {cfg : Config n m} {i : Fin n} {fuel : Nat} {lanes lanes' : Lanes m F}
    {nd nd' : Node m E F} {out : List Report} (hpolls : nd.polls = true)
    (h : nd.act cfg i lanes (.poll fuel) = some (lanes', nd', out)) :
    ∃ sim rsp last msgs, out = nd'.stamp msgs ∧ Polled nd fuel sim rsp last nd' msgs := by
  simp only [polls, Bool.and_eq_true, decide_eq_true_eq, Bool.not_eq_true'] at hpolls
  obtain ⟨hrun, hwait⟩ := hpolls
  obtain ⟨hpc, -, ⟨hno, -⟩ | ⟨-, -, sim, rsp, nd₁, msgs, hsim, hreport, -, rfl, rfl⟩⟩ := act_poll h
  · simp [polls, hrun, hwait] at hno
  · have hspec := Simulator.poll_spec hrun hsim
    obtain ⟨last, msgs', hrep, hreported⟩ := report_poll_cases hspec.outcome
    rw [hrep] at hreport
    cases hreport
    exact ⟨sim, rsp, last, _, rfl, hpc, hrun, hwait, hsim, hspec, hreported,
      quiet_begin_tx cfg i _⟩

/-- `Acted` lists all that the other steps can do. -/
theorem act_cases {cfg : Config n m} {i : Fin n} {l : Act} {lanes lanes' : Lanes m F}
    {nd nd' : Node m E F} {out : List Report}
    (h : nd.act cfg i lanes l = some (lanes', nd', out)) :
    ∃ msgs, out = nd'.stamp msgs ∧ Acted nd l nd' msgs := by
  cases l with
  | drained =>
    simp only [act] at h
    split at h <;> cases h
    exact ⟨[], rfl, .quiet _ _ (Quiet.of_entity rfl rfl rfl rfl) (fun hg => by cases hg)⟩
  | inspect cmd =>
    simp only [act] at h
    split at h <;> cases h
    exact ⟨[], rfl, .quiet _ _ (quiet_command_inspect nd cmd) .inl⟩
  | service requests =>
    simp only [act] at h
    split at h
    · have hquiet := quiet_service_actions nd requests
      split at h <;> cases h
      · rename_i hrun
        exact ⟨[], rfl, .quiet _ _ (hquiet.set_pc _) fun _ => .inr (hquiet.state_eq ▸ hrun)⟩
      · exact ⟨[], rfl, .quiet _ _ (hquiet.set_pc _) (fun hg => by cases hg)⟩
    · cases h
  | pump_rx =>
    simp only [act] at h
    split at h <;> cases h
    rename_i todo hpc
    exact ⟨[], rfl, .quiet _ _ (quiet_pump_rx cfg lanes nd todo) fun _ => .inl (by rw [hpc]; rfl)⟩
  | pump_tx =>
    simp only [act] at h
    split at h <;> cases h
    rename_i todo hpc
    exact ⟨[], rfl, .quiet _ _ (quiet_pump_tx cfg lanes nd todo) fun _ => .inl (by rw [hpc]; rfl)⟩
  | poll fuel =>
    by_cases hpolls : nd.polls = true
    · obtain ⟨sim, rsp, last, msgs, hout, hpolled⟩ := act_poll_cases hpolls h
      exact ⟨msgs, hout, hpolled.acted⟩
    · obtain ⟨-, -, ⟨-, rfl, rfl⟩ | ⟨hyes, -⟩⟩ := act_poll h
      · exact ⟨[], rfl, .quiet _ _ (Quiet.of_entity rfl rfl rfl rfl) (fun hg => by cases hg)⟩
      · exact absurd hyes hpolls

end Node

end Rl78Sim
