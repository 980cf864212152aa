import Rl78Sim.Kernel.Entity

/-! # Control Messages and Lifecycle

    The messages between the arbiter and the nodes, and the two state machines
    that receive them. Boards are numbered: the hash of a board's name is its
    index `Fin n`, and a message of the link of board `i` is from board `i`.
-/

namespace Rl78Sim

/-- `HostStopReason`. -/
inductive HostStopReason where
  | Breakpoint
  | ExternalStop
  | Step
  | Unmapped
  /-- The virtual-time cap of a host start was reached, or already passed. -/
  | Until
  deriving DecidableEq

/-- `ControlToNode`: what the arbiter broadcasts. -/
inductive ControlToNode (n : Nat) where
  | StartupRecord (margin_ns headroom_threshold_ns : Nat)
  | Start (allowed_ns : Nat)
  | Allowed (allowed_ns : Nat)
  | ClusterStop (reason : HostStopReason)
  | Reset
  | ProbeWatch (board : Fin n) (count : Nat) (probe_ids : List Nat)
  | GdbStep (board : Fin n)
  deriving DecidableEq

/-- `ControlToArbiter`: what a node reports. -/
inductive ControlToArbiter where
  | Ready
  | TimeReport (virtual_time_ns : Nat)
  | HostStop (reason : HostStopReason)
  deriving DecidableEq

/-- A report with a history stamp: how many `Start` and `GdbStep` messages its
    node had handled when it published the report. -/
structure Report where
  msg : ControlToArbiter
  handled : Nat
  deriving DecidableEq

/-! ### Nodes -/

/-- `NodeState`. -/
inductive NodeState where
  | AwaitingStartup
  | Stopped
  | Running
  deriving DecidableEq

/-- What a warning of `NodeState::on_message` says. -/
inductive NodeWarning (n : Nat) where
  | ClusterStop (reason : HostStopReason)
  | Ignoring (msg : ControlToNode n) (state : NodeState)
  deriving DecidableEq

/-- `NodeEffect`. -/
inductive NodeEffect (n : Nat) where
  | SendReady
  | SetAllowed (allowed_ns : Nat)
  | Reset
  | ProbeWatch (board : Fin n) (probe_ids : List Nat)
  | GdbStep (board : Fin n)
  | Warn (warning : NodeWarning n)
  deriving DecidableEq

/-- `NodeState::on_message`. -/
def NodeState.on_message {n : Nat} (state : NodeState) (msg : ControlToNode n) :
    NodeState × Option (NodeEffect n) :=
  match state, msg with
  | .AwaitingStartup, .StartupRecord _ _ => (.Stopped, some .SendReady)
  | .Stopped, .StartupRecord _ _ => (.Stopped, some .SendReady)
  | .Stopped, .Start allowed_ns => (.Running, some (.SetAllowed allowed_ns))
  | .Running, .Start allowed_ns => (.Running, some (.SetAllowed allowed_ns))
  | .Stopped, .Allowed allowed_ns => (.Stopped, some (.SetAllowed allowed_ns))
  | .Running, .Allowed allowed_ns => (.Running, some (.SetAllowed allowed_ns))
  | .Stopped, .Reset => (.Stopped, some .Reset)
  | .Running, .ClusterStop reason => (.Stopped, some (.Warn (.ClusterStop reason)))
  | .AwaitingStartup, .ClusterStop _ => (.Stopped, none)
  | .Stopped, .ClusterStop _ => (.Stopped, none)
  | state, .ProbeWatch board count probe_ids =>
      (state, some (.ProbeWatch board (probe_ids.take count)))
  | .Stopped, .GdbStep board => (.Stopped, some (.GdbStep board))
  | .Running, .GdbStep board => (.Stopped, some (.GdbStep board))
  | state, msg => (state, some (.Warn (.Ignoring msg state)))

/-! ### Peers -/

/-- `PeerState`: the arbiter's view of one node. -/
inductive PeerState where
  | AwaitingReady
  | Ready
  | Running
  | Stopped
  deriving DecidableEq

/-- What a warning of `PeerState::on_message` says. -/
inductive PeerWarning where
  | DuplicateReady
  | Ignoring (msg : ControlToArbiter) (state : PeerState)
  deriving DecidableEq

/-- `PeerEffect`. -/
inductive PeerEffect where
  | Warn (warning : PeerWarning)
  | TimeReport (virtual_time_ns : Nat)
  | HostStop (reason : HostStopReason)
  deriving DecidableEq

/-- `PeerState::on_message`. -/
def PeerState.on_message (state : PeerState) (msg : ControlToArbiter) :
    PeerState × Option PeerEffect :=
  match state, msg with
  | .AwaitingReady, .Ready => (.Ready, none)
  | .Ready, .Ready => (.Ready, some (.Warn .DuplicateReady))
  | .Ready, .TimeReport v => (.Ready, some (.TimeReport v))
  | .Running, .TimeReport v => (.Running, some (.TimeReport v))
  | .Stopped, .TimeReport v => (.Stopped, some (.TimeReport v))
  | .Ready, .HostStop reason => (.Stopped, some (.HostStop reason))
  | .Running, .HostStop reason => (.Stopped, some (.HostStop reason))
  | .Stopped, .HostStop reason => (.Stopped, some (.HostStop reason))
  | state, msg => (state, some (.Warn (.Ignoring msg state)))

/-- `PeerState::on_start_broadcast`. -/
def PeerState.on_start_broadcast : PeerState → PeerState
  | .Ready => .Running
  | .Running => .Running
  | .Stopped => .Running
  | other => other

/-! ### Stop reasons -/

/-- `cluster_host_stop_reason`: a guest halt is not a stop of the cluster. -/
def cluster_host_stop_reason : StopReason → Option HostStopReason
  | .Halt => none
  | .Breakpoint _ => some .Breakpoint
  | .ExternalStop => some .ExternalStop
  | .Step => some .Step
  | .Unmapped _ _ => some .Unmapped

theorem cluster_host_stop_reason_isSome {reason : StopReason} (h : reason ≠ .Halt) :
    ∃ r, cluster_host_stop_reason reason = some r := by
  cases reason with
  | Halt => exact absurd rfl h
  | _ => exact ⟨_, rfl⟩

end Rl78Sim
