import Mathlib.Data.List.DropRight
import Rl78Sim.Cluster.System

/-! # The Startup of a Cluster

    The arbiter publishes the startup record, again and again, until every
    board has answered it (`await_ready`). Meanwhile each node opens its
    control channel, builds its entity and enters the loop of `run_node`. Of
    what is published before a node has opened its channel, it gets what the
    service has kept for it. Only the arbiter reads the clock, which never goes
    back. An open channel loses nothing and has no bound: a node that lets more
    records come than its subscriber has slots is not modelled.
-/

namespace Rl78Sim

open Transition

variable {n m : Nat} {E F : Type}

/-! ### The Ready barrier -/

/-- Where `await_ready` stands. -/
inductive BarrierPc (n : Nat) where
  | publish
  | turn
  | drain
  | complete
  /-- `ArbiterError::ReadyTimeout`. -/
  | timeout (missing : List (Fin n))
  /-- `ArbiterError::Ipc`. -/
  | failed
  deriving DecidableEq

/-- The locals of `await_ready`, in nanoseconds. `clock` is the last reading of
    the clock. -/
structure ReadyBarrier (n : Nat) where
  peers : Fin n → PeerState
  ready_timeout_ns : Nat
  clock : Nat
  deadline : Nat
  last_startup : Nat
  pc : BarrierPc n

/-- How long the arbiter waits before it publishes the record again. -/
def startup_period_ns : Nat := 50000000

/-- The record of a topology. -/
def startup_record (cfg : Config n m) : ControlToNode n :=
  .StartupRecord cfg.margin_ns cfg.headroom_threshold_ns

namespace ReadyBarrier

/-- The steps of `await_ready`, with what they read from the clock. -/
inductive Act where
  | publish (now sent : Nat)
  | turn (now checked sent : Nat) (published : Bool)
  /-- `try_recv` has no message. -/
  | drained
  /-- The first publish fails, or `try_recv`. -/
  | failed

/-- The start of `await_ready`, at time zero. -/
def new (n ready_timeout_ns : Nat) : ReadyBarrier n where
  peers := fun _ => .AwaitingReady
  ready_timeout_ns := ready_timeout_ns
  clock := 0
  deadline := 0
  last_startup := 0
  pc := .publish

/-- The boards that `ready_timeout` lists. -/
def ready_timeout (b : ReadyBarrier n) : List (Fin n) :=
  (List.finRange n).filter fun i => b.peers i ≠ .Ready

/-- One turn of the outer loop, up to its drain. -/
def turn (startup : ControlToNode n) (now checked sent : Nat) (published : Bool)
    (b : ReadyBarrier n) : ReadyBarrier n × List (ControlToNode n) :=
  if ∀ i, b.peers i = .Ready then ({ b with pc := .complete }, [])
  else if b.deadline ≤ now then ({ b with clock := now, pc := .timeout b.ready_timeout }, [])
  else if startup_period_ns < checked - b.last_startup ∧ ∃ i, b.peers i = .AwaitingReady then
    -- A publish that fails waits for its period as well.
    ({ b with clock := sent, last_startup := sent, pc := .drain },
      if published then [startup] else [])
  else ({ b with clock := checked, pc := .drain }, [])

def act (startup : ControlToNode n) (b : ReadyBarrier n) :
    Act → Option (ReadyBarrier n × List (ControlToNode n))
  | .publish now sent =>
      match b.pc with
      | .publish =>
          if b.clock ≤ now ∧ now ≤ sent then
            some ({ b with
              clock := sent
              deadline := now + b.ready_timeout_ns
              last_startup := sent
              pc := .turn }, [startup])
          else none
      | _ => none
  | .turn now checked sent published =>
      match b.pc with
      | .turn =>
          if b.clock ≤ now ∧ now ≤ checked ∧ checked ≤ sent then
            some (b.turn startup now checked sent published)
          else none
      | _ => none
  | .drained =>
      match b.pc with
      | .drain => some ({ b with pc := .turn }, [])
      | _ => none
  | .failed =>
      match b.pc with
      | .publish | .drain => some ({ b with pc := .failed }, [])
      | _ => none

/-- One turn of the drain. Any message but `Ready` is unexpected before `Start`
    and only logged. -/
def recv (i : Fin n) (msg : ControlToArbiter) (b : ReadyBarrier n) : Option (ReadyBarrier n) :=
  match b.pc with
  | .drain =>
      match msg with
      | .Ready => some { b with
          peers := Function.update b.peers i ((b.peers i).on_message .Ready).1 }
      | _ => some b
  | _ => none

end ReadyBarrier

/-! ### The system -/

/-- A cluster that comes up. `opened` are the boards whose `NodeControl` is open,
    and `history` is how many messages the service keeps for a board until then. -/
structure Startup (n m : Nat) (E F : Type) where
  net : Star.Net (Fin n) (ReadyBarrier n) (Node m E F) (Lanes m F) (ControlToNode n) Report
  opened : Fin n → Bool
  history : Fin n → Nat

namespace Startup

/-- A step of the arbiter or of a node that runs. -/
abbrev NetStep (n : Nat) := Star.Label (Fin n) ReadyBarrier.Act Node.Act Node.Take

/-- A step of a cluster that comes up. -/
inductive Label (n : Nat) where
  | control_open (i : Fin n)
  | net (l : NetStep n)

/-- `NodeControl::open` of board `i`. The last messages of those published before
    reach it. -/
def control_open (s : Startup n m E F) (i : Fin n) : Startup n m E F :=
  { s with
    net := { s.net with
      down := Function.update s.net.down i ((s.net.down i).rtake (s.history i)) }
    opened := Function.update s.opened i true }

variable [Entity E F]

/-- The local steps of the arbiter and of the nodes. The nodes are those of a
    running cluster. -/
def barrier (cfg : Config n m) :
    Star.Protocol (Fin n) (ReadyBarrier n) (Node m E F) (Lanes m F) (ControlToNode n) Report
      ReadyBarrier.Act Node.Act Node.Take where
  hub_act l b := b.act (startup_record cfg) l
  hub_take i r b := b.recv i r.msg
  spoke_act i l lanes nd := nd.act cfg i lanes l
  spoke_take i t msg lanes nd := nd.take cfg i t msg lanes

/-- A node moves once its channel is open. -/
def runs (s : Startup n m E F) : NetStep n → Bool
  | .spoke i _ => s.opened i
  | .take i _ => s.opened i
  | _ => true

def step (cfg : Config n m) (s : Startup n m E F) : Label n → Option (Startup n m E F)
  | .control_open i => if s.opened i then none else some (s.control_open i)
  | .net l =>
      if s.runs l then ((barrier cfg).step s.net l).map fun net => { s with net := net }
      else none

end Startup

/-- A node at the head of its loop, after the firmware load and the reset. -/
structure Node.Fresh [Entity E F] (nd : Node m E F) : Prop where
  state_eq : nd.state = .AwaitingStartup
  thr_eq : nd.headroom_threshold_ns = 0
  allowed_ns_eq : nd.allowed_ns = 0
  last_eq : nd.last_time_report = none
  pending_eq : nd.pending_actions = []
  pc_eq : nd.pc = .drain
  handled_eq : nd.handled = 0
  sim_eq : nd.sim = Simulator.new nd.sim.entity
  now_eq : nd.sim.now = 0
  ports_eq : Entity.ports nd.sim.entity = OutPorts.empty

namespace Startup

variable [Entity E F]

/-- The cluster before its arbiter waits. -/
structure Initial (ready_timeout_ns : Nat) (s : Startup n m E F) : Prop where
  hub_eq : s.net.hub = ReadyBarrier.new n ready_timeout_ns
  spoke (i : Fin n) : (s.net.spoke i).Fresh
  down_eq (i : Fin n) : s.net.down i = []
  up_eq (i : Fin n) : s.net.up i = []
  env_eq (e : Fin m) : s.net.env e = Lane.empty
  opened_eq (i : Fin n) : s.opened i = false

/-- The startup as a transition system. -/
def system (cfg : Config n m) (ready_timeout_ns : Nat) :
    System (Startup n m E F) (Label n) :=
  ⟨Initial ready_timeout_ns, step cfg⟩

/-- The cluster that `run_host_session` goes on with: its peers are those that
    `await_ready` returns. -/
def cluster (cfg : Config n m) (s : Startup n m E F) : Cluster n m E F where
  hub := { Arbiter.new n cfg.margin_ns with peers := s.net.hub.peers }
  spoke := s.net.spoke
  down := s.net.down
  up := s.net.up
  env := s.net.env

/-- Inspect requests do not drive a board-edge port. -/
def Undriven (s : Startup n m E F) (l : Label n) : Prop :=
  ∀ i cmd, l = .net (.spoke i (.inspect cmd)) →
    Entity.ports ((s.net.spoke i).sim.command (.Inspect cmd)).1.entity =
      Entity.ports (s.net.spoke i).sim.entity

/-- The step is an inspect request. -/
def is_inspect : Label n → Bool
  | .net (.spoke _ (.inspect _)) => true
  | _ => false

/-- Runs without inspect requests. -/
def NoInspect (_ : Startup n m E F) (l : Label n) : Prop := is_inspect l = false

instance (s : Startup n m E F) (l : Label n) : Decidable (NoInspect s l) :=
  inferInstanceAs (Decidable (is_inspect l = false))

theorem NoInspect.undriven {s : Startup n m E F} {l : Label n} (h : NoInspect s l) :
    Undriven s l := by
  rintro i cmd rfl
  cases h

/-- All runs. -/
def AnyRun (_ : Startup n m E F) (_ : Label n) : Prop := True

instance (s : Startup n m E F) (l : Label n) : Decidable (AnyRun s l) := .isTrue trivial

end Startup

/-! ### What the barrier can do -/

namespace ReadyBarrier

/-- All that a step of `await_ready` can do. -/
inductive Effect (startup : ControlToNode n) (b : ReadyBarrier n) :
    Act → ReadyBarrier n → List (ControlToNode n) → Prop where
  | publish (now sent : Nat) : b.pc = .publish → b.clock ≤ now → now ≤ sent →
      Effect startup b (.publish now sent)
        { b with
          clock := sent
          deadline := now + b.ready_timeout_ns
          last_startup := sent
          pc := .turn } [startup]
  | complete (now checked sent : Nat) (published : Bool) : b.pc = .turn →
      (∀ i, b.peers i = .Ready) →
      Effect startup b (.turn now checked sent published) { b with pc := .complete } []
  | timeout (now checked sent : Nat) (published : Bool) : b.pc = .turn → b.clock ≤ now →
      (¬∀ i, b.peers i = .Ready) → b.deadline ≤ now →
      Effect startup b (.turn now checked sent published)
        { b with clock := now, pc := .timeout b.ready_timeout } []
  | again (now checked sent : Nat) (published : Bool) : b.pc = .turn → b.clock ≤ sent →
      Effect startup b (.turn now checked sent published)
        { b with clock := sent, last_startup := sent, pc := .drain }
        (if published then [startup] else [])
  | wait (now checked sent : Nat) (published : Bool) : b.pc = .turn → b.clock ≤ checked →
      Effect startup b (.turn now checked sent published)
        { b with clock := checked, pc := .drain } []
  | drained : b.pc = .drain → Effect startup b .drained { b with pc := .turn } []
  | failed : Effect startup b .failed { b with pc := .failed } []

theorem turn_effect {startup : ControlToNode n} {b : ReadyBarrier n} {now checked sent : Nat}
    (published : Bool) (hpc : b.pc = .turn) (hnow : b.clock ≤ now) (hchecked : now ≤ checked)
    (hsent : checked ≤ sent) :
    Effect startup b (.turn now checked sent published)
      (b.turn startup now checked sent published).1
      (b.turn startup now checked sent published).2 := by
  unfold turn
  split
  · exact .complete now checked sent published hpc ‹_›
  · split
    · exact .timeout now checked sent published hpc hnow ‹_› ‹_›
    · split
      · exact .again now checked sent published hpc (by omega)
      · exact .wait now checked sent published hpc (by omega)

theorem act_effect {startup : ControlToNode n} {b b' : ReadyBarrier n} {l : Act}
    {out : List (ControlToNode n)} (h : b.act startup l = some (b', out)) :
    Effect startup b l b' out := by
  cases l with
  | publish now sent =>
    simp only [act] at h
    split at h
    case h_2 => cases h
    rename_i hpc
    split at h <;> cases h
    rename_i hclock
    exact .publish now sent hpc hclock.1 hclock.2
  | turn now checked sent published =>
    simp only [act] at h
    split at h
    case h_2 => cases h
    rename_i hpc
    split at h
    · rename_i hclock
      obtain ⟨rfl, rfl⟩ := Prod.mk.inj (Option.some.inj h)
      exact turn_effect published hpc hclock.1 hclock.2.1 hclock.2.2
    · cases h
  | drained =>
    simp only [act] at h
    split at h <;> cases h
    rename_i hpc
    exact .drained hpc
  | failed =>
    simp only [act] at h
    split at h <;> cases h <;> exact .failed

/-- All that taking a message can do. -/
theorem recv_cases {i : Fin n} {msg : ControlToArbiter} {b b' : ReadyBarrier n}
    (h : b.recv i msg = some b') : b.pc = .drain ∧
      ((msg = .Ready ∧ b' = { b with
          peers := Function.update b.peers i ((b.peers i).on_message .Ready).1 }) ∨
        (msg ≠ .Ready ∧ b' = b)) := by
  unfold recv at h
  split at h
  case h_2 => cases h
  rename_i hpc
  refine ⟨hpc, ?_⟩
  cases msg with
  | Ready =>
    cases h
    exact .inl ⟨rfl, rfl⟩
  | TimeReport v =>
    cases h
    exact .inr ⟨by simp, rfl⟩
  | HostStop reason =>
    cases h
    exact .inr ⟨by simp, rfl⟩

end ReadyBarrier

/-- A peer that answers the record is ready, the first time and again. -/
theorem PeerState.on_ready {p : PeerState} (h : p = .AwaitingReady ∨ p = .Ready) :
    (p.on_message .Ready).1 = .Ready := by
  rcases h with rfl | rfl <;> rfl

/-! ### What an unstarted node can do -/

namespace Node

variable [Entity E F]

/-- A node before its first `Start`: it has not left the head of its loop, and
    nothing has changed its simulator but inspect requests. -/
structure Unstarted (cfg : Config n m) (nd : Node m E F) : Prop where
  state : nd.state = .AwaitingStartup ∨
    nd.state = .Stopped ∧ nd.headroom_threshold_ns = cfg.headroom_threshold_ns
  allowed_ns_eq : nd.allowed_ns = 0
  last_eq : nd.last_time_report = none
  handled_eq : nd.handled = 0
  pc : nd.pc = .drain ∨ nd.pc = .service
  sim_eq : nd.sim = Simulator.new nd.sim.entity
  now_eq : nd.sim.now = 0

theorem Fresh.unstarted {cfg : Config n m} {nd : Node m E F} (h : nd.Fresh) : nd.Unstarted cfg :=
  ⟨.inl h.state_eq, h.allowed_ns_eq, h.last_eq, h.handled_eq, .inl h.pc_eq, h.sim_eq, h.now_eq⟩

namespace Unstarted

variable {cfg : Config n m} {nd nd' : Node m E F} {i : Fin n} {lanes lanes' : Lanes m F}
  {out : List Report}

omit [Entity E F] in
theorem not_running_of {s : NodeState} {p : Prop}
    (h : s = .AwaitingStartup ∨ s = .Stopped ∧ p) : s ≠ .Running := by
  rcases h with rfl | ⟨rfl, -⟩ <;> decide

theorem not_running (h : nd.Unstarted cfg) : nd.state ≠ .Running := not_running_of h.state

/-- Its answer to the record, whether it has answered before or not. -/
theorem take_startup (h : nd.Unstarted cfg) (t : Take) (hpc : nd.pc = .drain) :
    nd.take cfg i t (startup_record cfg) lanes = some (lanes,
      { nd with
        state := .Stopped
        headroom_threshold_ns := cfg.headroom_threshold_ns }, [⟨.Ready, 0⟩]) := by
  unfold take startup_record
  rw [hpc]
  rcases h.state with hs | ⟨hs, -⟩
  · simp [note_startup, note_handled, hs, NodeState.on_message, apply_effect, follow_state, stamp,
      h.handled_eq, hpc]
  · simp [note_startup, note_handled, hs, NodeState.on_message, apply_effect, follow_state, stamp,
      h.handled_eq, hpc]

/-- It has answered the record. -/
theorem answered (h : nd.Unstarted cfg) : ({ nd with
    state := .Stopped
    headroom_threshold_ns := cfg.headroom_threshold_ns } : Node m E F).Unstarted cfg :=
  ⟨.inr ⟨rfl, rfl⟩, h.allowed_ns_eq, h.last_eq, h.handled_eq, h.pc, h.sim_eq, h.now_eq⟩

end Unstarted

/-- All that the other steps of an unstarted node can do. -/
inductive Idled (nd : Node m E F) : Act → Node m E F → Prop where
  | drained : nd.pc = .drain → Idled nd .drained { nd with pc := .service }
  | inspect (cmd : InspectCommand) : nd.pc = .service →
      Idled nd (.inspect cmd) { nd with sim := (nd.sim.command (.Inspect cmd)).1 }
  | service (requests pending : List ActionRequest) : nd.pc = .service →
      Idled nd (.service requests) { nd with pending_actions := pending, pc := .drain }

namespace Unstarted

variable {cfg : Config n m} {nd nd' : Node m E F} {i : Fin n} {lanes lanes' : Lanes m F}
  {out : List Report}

/-- Requests only queue. -/
theorem service_actions_eq (h : nd.Unstarted cfg) (requests : List ActionRequest) :
    ∃ pending, nd.service_actions requests = { nd with pending_actions := pending } := by
  unfold service_actions
  split
  · rw [if_neg h.not_running]
    exact ⟨_, rfl⟩
  · exact ⟨nd.pending_actions, rfl⟩

/-- One iteration of the loop ends at its head again. -/
theorem act_service (h : nd.Unstarted cfg) (hpc : nd.pc = .service)
    (requests : List ActionRequest) : ∃ pending,
      nd.act cfg i lanes (.service requests) =
        some (lanes, { nd with pending_actions := pending, pc := .drain }, []) := by
  obtain ⟨pending, heq⟩ := h.service_actions_eq requests
  refine ⟨pending, ?_⟩
  simp only [act, hpc]
  rw [heq, if_neg h.not_running]

theorem act_cases (h : nd.Unstarted cfg) {l : Act}
    (hact : nd.act cfg i lanes l = some (lanes', nd', out)) :
    lanes' = lanes ∧ out = [] ∧ Idled nd l nd' := by
  have hguest {pc : NodePc m F} (hpc : nd.pc = pc) (hguest : NodePc.guest pc = true) : False := by
    rcases h.pc with hd | hd <;> rw [hd] at hpc <;> rw [← hpc] at hguest <;> cases hguest
  cases l with
  | drained =>
    simp only [act] at hact
    split at hact <;> cases hact
    exact ⟨rfl, rfl, .drained ‹_›⟩
  | inspect cmd =>
    simp only [act] at hact
    split at hact <;> cases hact
    exact ⟨rfl, rfl, .inspect cmd ‹_›⟩
  | service requests =>
    have hpc : nd.pc = .service := by
      rcases h.pc with hpc | hpc
      · simp [act, hpc] at hact
      · exact hpc
    obtain ⟨pending, heq⟩ := h.act_service hpc requests
    cases heq.symm.trans hact
    exact ⟨rfl, rfl, .service requests pending hpc⟩
  | pump_rx =>
    simp only [act] at hact
    split at hact
    · exact (hguest ‹_› rfl).elim
    · cases hact
  | poll fuel =>
    simp only [act] at hact
    split at hact
    · exact (hguest ‹_› rfl).elim
    · cases hact
  | pump_tx =>
    simp only [act] at hact
    split at hact
    · exact (hguest ‹_› rfl).elim
    · cases hact

end Unstarted

/-- A simulator that was never started takes an inspect request to its entity. -/
theorem command_inspect_new (entity : E) (cmd : InspectCommand) :
    ((Simulator.new entity).command (.Inspect cmd)).1 =
      Simulator.new (Entity.inspect entity cmd).1 := by
  simp [Simulator.command, Simulator.new]

theorem Idled.unstarted [LawfulEntity E] {cfg : Config n m} {nd nd' : Node m E F} {l : Act}
    (hidle : Idled nd l nd') (h : nd.Unstarted cfg) : nd'.Unstarted cfg := by
  cases hidle with
  | drained =>
    exact ⟨h.state, h.allowed_ns_eq, h.last_eq, h.handled_eq, .inr rfl, h.sim_eq, h.now_eq⟩
  | inspect cmd =>
    have hnew := command_inspect_new nd.sim.entity cmd
    rw [← h.sim_eq] at hnew
    refine ⟨h.state, h.allowed_ns_eq, h.last_eq, h.handled_eq, h.pc, ?_, ?_⟩
    · dsimp only
      rw [hnew]
      rfl
    · have htimeless := LawfulEntity.inspect_timeless nd.sim.entity cmd
      dsimp only
      rw [hnew]
      exact htimeless.now_eq.trans h.now_eq
  | service =>
    exact ⟨h.state, h.allowed_ns_eq, h.last_eq, h.handled_eq, .inl rfl, h.sim_eq, h.now_eq⟩

/-- None of these steps changes the state of the node. -/
theorem Idled.state_eq {nd nd' : Node m E F} {l : Act} (h : Idled nd l nd') :
    nd'.state = nd.state := by
  cases h <;> rfl

end Node

end Rl78Sim
