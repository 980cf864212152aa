import Rl78Sim.Cluster.Control
import Rl78Sim.Cluster.TimeSync

/-! # The Arbiter

    The session loop of `run_host_session`. One iteration handles the queued
    host commands, forwards probe control, and runs `step_time_sync`, which
    drains the reports of the nodes and then acts once on what it found. The
    drain is a loop over the inbox, so the position in it (`ArbiterPc`) is part
    of the state; everything between two receives is one step.
-/

namespace Rl78Sim

variable {n : Nat}

/-- `GdbStepPhase`. -/
inductive GdbStepPhase (n : Nat) where
  | WaitInsn (board : Fin n)
  | CatchUp (reason : HostStopReason)
  deriving DecidableEq

/-- A host stop found in the inbox, with the history stamp of its report. -/
structure StopReport (n : Nat) where
  board : Fin n
  reason : HostStopReason
  handled : Nat
  deriving DecidableEq

/-- Where the session loop stands. `sync` holds the locals of
    `step_time_sync` during its drain. -/
inductive ArbiterPc (n : Nat) where
  | host
  | sync (changed : Bool) (cluster_stop gdb_insn : Option (StopReport n))
  | done
  deriving DecidableEq

/-- `HostCommand`. A step names a board, or a hash that resolves to none. -/
inductive HostCommand (n : Nat) where
  | Start (until_ns : Option Nat)
  | Stop
  | Reset
  | Step (board : Option (Fin n))
  | Shutdown
  deriving DecidableEq

/-- The locals of `run_host_session`. `broadcasts` is a history variable: the
    number of `Start` and `GdbStep` messages published. -/
structure Arbiter (n : Nat) where
  ceiling : TimeCeiling n
  allowed : Nat
  running : Bool
  until_cap : Option Nat
  last_stop_reason : Option HostStopReason
  gdb_step : Option (GdbStepPhase n)
  peers : Fin n → PeerState
  pc : ArbiterPc n
  broadcasts : Nat

namespace Arbiter

/-- The arbiter after the Ready barrier. -/
def new (n margin_ns : Nat) : Arbiter n where
  ceiling := TimeCeiling.new n margin_ns
  allowed := (TimeCeiling.new n margin_ns).allowed_ns
  running := false
  until_cap := none
  last_stop_reason := none
  gdb_step := none
  peers := fun _ => .Ready
  pc := .host
  broadcasts := 0

/-- The virtual time that `write_status` publishes. -/
def vt (a : Arbiter n) : Nat := a.ceiling.virtual_time_ns

/-! ### Broadcasts -/

/-- `broadcast_start`. -/
def broadcast_start (a : Arbiter n) (allowed_ns : Nat) : Arbiter n × List (ControlToNode n) :=
  ({ a with
      peers := fun i => (a.peers i).on_start_broadcast
      broadcasts := a.broadcasts + 1 }, [.Start allowed_ns])

/-- `broadcast_cluster_stop`. -/
def broadcast_cluster_stop (a : Arbiter n) (reason : HostStopReason) :
    Arbiter n × List (ControlToNode n) :=
  ({ a with peers := fun _ => .Stopped }, [.ClusterStop reason])

/-- Publishing `GdbStep`. -/
def publish_gdb_step (a : Arbiter n) (board : Fin n) : Arbiter n × List (ControlToNode n) :=
  ({ a with broadcasts := a.broadcasts + 1 }, [.GdbStep board])

/-! ### Host commands -/

/-- `should_stay_stopped`. -/
def should_stay_stopped (until_ns : Option Nat) (now_ns : Nat) : Bool :=
  match until_ns with
  | some u => u ≤ now_ns
  | none => false

/-- `reached_until`. -/
def reached_until (until_ns : Option Nat) (now_ns : Nat) : Bool :=
  match until_ns with
  | some u => u ≤ now_ns
  | none => false

/-- Leave the running state for `reason`. -/
def stop_run (a : Arbiter n) (reason : HostStopReason) : Arbiter n :=
  { a with
      running := false
      until_cap := none
      gdb_step := none
      last_stop_reason := some reason }

/-- `apply_start`. -/
def apply_start (a : Arbiter n) (until_ns : Option Nat) : Arbiter n × List (ControlToNode n) :=
  if should_stay_stopped until_ns a.vt then
    let (a, out) :=
      if a.running then
        let (a, out) := a.broadcast_cluster_stop .Until
        ({ a with running := false }, out)
      else (a, [])
    ({ a with
        until_cap := none
        last_stop_reason := some (a.last_stop_reason.getD .Until) }, out)
  else
    let a := { a with
      until_cap := until_ns
      allowed := a.ceiling.allowed_ns_until until_ns }
    let (a, out) := a.broadcast_start a.allowed
    ({ a with running := true, last_stop_reason := none }, out)

/-- `allowed_after_reset`: the ceiling with every report raised, and its
    natural allowance. -/
def allowed_after_reset (ceiling : TimeCeiling n) (last_allowed : Nat) : TimeCeiling n × Nat :=
  let now := max last_allowed ceiling.virtual_time_ns
  let ceiling := ceiling.advance_to now
  (ceiling, ceiling.allowed_ns)

/-- The `HostCommand::Reset` arm. -/
def apply_reset (a : Arbiter n) : Arbiter n × List (ControlToNode n) :=
  let (a, stop) := a.broadcast_cluster_stop .ExternalStop
  let (ceiling, allowed) := allowed_after_reset a.ceiling a.allowed
  let (a, start) := broadcast_start
    { a with gdb_step := none, until_cap := none, ceiling := ceiling, allowed := allowed } allowed
  ({ a with running := true, last_stop_reason := none }, stop ++ [.Reset] ++ start)

/-- `apply_gdb_step`. -/
def apply_gdb_step (a : Arbiter n) : Option (Fin n) → Arbiter n × List (ControlToNode n)
  | none => (a, [])
  | some board =>
      let (a, stop) :=
        if a.running then
          let (a, out) := a.broadcast_cluster_stop .ExternalStop
          ({ a with
              running := false
              until_cap := none
              last_stop_reason := some .ExternalStop }, out)
        else (a, [])
      let (a, step) := a.publish_gdb_step board
      ({ a with gdb_step := some (.WaitInsn board) }, stop ++ step)

/-- One arm of the host-command loop. -/
def host_command (a : Arbiter n) : HostCommand n → Arbiter n × List (ControlToNode n)
  | .Shutdown => ({ a with pc := .done }, [])
  | .Start until_ns => apply_start { a with gdb_step := none } until_ns
  | .Stop =>
      if a.running then
        let (a, out) := a.broadcast_cluster_stop .ExternalStop
        (a.stop_run .ExternalStop, out)
      else (a, [])
  | .Reset => a.apply_reset
  | .Step board => a.apply_gdb_step board

/-! ### Time synchronisation -/

/-- One turn of the drain of `step_time_sync`: a report of board `i`. -/
def sync_recv (a : Arbiter n) (i : Fin n) (r : Report) : Option (Arbiter n) :=
  match a.pc with
  | .sync changed cluster_stop gdb_insn =>
      let (next, effect) := (a.peers i).on_message r.msg
      let a := { a with peers := Function.update a.peers i next }
      match effect with
      | some (.TimeReport v) =>
          some { a with ceiling := a.ceiling.report i v, pc := .sync true cluster_stop gdb_insn }
      | some (.HostStop reason) =>
          let stop := some ⟨i, reason, r.handled⟩
          if a.gdb_step = some (.WaitInsn i) then
            some { a with pc := .sync changed cluster_stop stop }
          else some { a with pc := .sync changed stop gdb_insn }
      | _ => some a
  | _ => none

/-- The republication of `step_time_sync`: only a ceiling that changed. -/
def republish (a : Arbiter n) (changed : Bool) : Arbiter n × List (ControlToNode n) :=
  let next_allowed := a.ceiling.allowed_ns_until a.until_cap
  if changed && next_allowed != a.allowed then
    ({ a with allowed := next_allowed }, [.Allowed next_allowed])
  else (a, [])

/-- What a finished catch-up, or a run that reached its cap, is reported as. -/
def until_reason (a : Arbiter n) : HostStopReason :=
  match a.gdb_step with
  | some (.CatchUp reason) => reason
  | _ => .Until

/-- `step_time_sync` once the inbox is drained, and the `SyncStep::Stopped` arm
    of its caller. -/
def sync_finish (a : Arbiter n) : Option (Arbiter n × List (ControlToNode n)) :=
  match a.pc with
  | .sync changed cluster_stop gdb_insn =>
      let a := { a with pc := .host }
      match cluster_stop, gdb_insn with
      | some stop, _ =>
          let (a, out) := a.broadcast_cluster_stop stop.reason
          some (a.stop_run stop.reason, out)
      | none, some insn =>
          let target := (a.ceiling.last_report insn.board).getD 0
          let a := { a with
            until_cap := some target
            allowed := a.ceiling.allowed_ns_until (some target) }
          let (a, out) := a.broadcast_start a.allowed
          some ({ a with
            running := true
            last_stop_reason := none
            gdb_step := some (.CatchUp insn.reason) }, out)
      | none, none =>
          let (a, out) := a.republish changed
          if reached_until a.until_cap a.vt then
            let reason := a.until_reason
            let (a, stop) := a.broadcast_cluster_stop reason
            some (a.stop_run reason, out ++ stop)
          else some (a, out)
  | _ => none

/-! ### Steps -/

/-- The arbiter's own steps. `watch` forwards one probe subscription. -/
inductive Act (n : Nat) where
  | host (cmd : HostCommand n)
  | watch (board : Fin n) (count : Nat) (probe_ids : List Nat)
  | sync_begin
  | sync_finish
  deriving DecidableEq

def act (a : Arbiter n) : Act n → Option (Arbiter n × List (ControlToNode n))
  | .host cmd => if a.pc = .host then some (a.host_command cmd) else none
  | .watch board count probe_ids =>
      if a.pc = .host then some (a, [.ProbeWatch board count probe_ids]) else none
  | .sync_begin => if a.pc = .host then some ({ a with pc := .sync false none none }, []) else none
  | .sync_finish => a.sync_finish

end Arbiter

end Rl78Sim
