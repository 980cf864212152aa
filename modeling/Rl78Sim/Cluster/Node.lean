import Rl78Sim.Cluster.Control
import Rl78Sim.Cluster.DataPlane
import Rl78Sim.Kernel.Sim

/-! # Nodes

    The loop of `run_node`. One iteration drains the control inbox, serves the
    inspect socket and the action requests, and, while the node is running,
    pumps received frames, polls the simulator and pumps sent frames. The
    position in the iteration is part of the state (`NodePc`), and every
    message or frame that the node takes or publishes is a step of its own.

    Probes only observe and are left out; so are the log lines.
-/

namespace Rl78Sim

variable {n m : Nat} {E F : Type}

/-- Where the node loop stands. `rx` and `tx` hold what is left of the pumps. -/
inductive NodePc (m : Nat) (F : Type) where
  | drain
  | service
  | rx (todo : List (Fin m × Nat))
  | poll
  | tx (todo : List (Fin m × Drive F))

/-- The locals of `run_node`. `handled` is a history variable: the number of
    `Start` and `GdbStep` messages handled. -/
structure Node (m : Nat) (E F : Type) where
  sim : Simulator E
  state : NodeState
  headroom_threshold_ns : Nat
  allowed_ns : Nat
  last_time_report : Option Nat
  has_inspect : Bool
  has_actions : Bool
  pending_actions : List ActionRequest
  pc : NodePc m F
  handled : Nat

/-- The edges in operation. -/
abbrev Lanes (m : Nat) (F : Type) := Fin m → Lane F

namespace Node

/-- The virtual time of the node's entity. -/
def now [Entity E F] (nd : Node m E F) : Nat := nd.sim.now

/-- Publish reports, stamped with the node's history. -/
def stamp (nd : Node m E F) (msgs : List ControlToArbiter) : List Report :=
  msgs.map fun msg => ⟨msg, nd.handled⟩

/-- `maybe_time_report`: near the ceiling, and not the same time twice. -/
def maybe_time_report [Entity E F] (nd : Node m E F) : Node m E F × List ControlToArbiter :=
  let virtual_time_ns := nd.sim.now
  let headroom := nd.allowed_ns - virtual_time_ns
  if headroom < nd.headroom_threshold_ns ∧ nd.last_time_report ≠ some virtual_time_ns then
    ({ nd with last_time_report := some virtual_time_ns }, [.TimeReport virtual_time_ns])
  else (nd, [])

/-- The message for a simulator stop, if the cluster has to know. -/
def host_stop (reason : StopReason) : List ControlToArbiter :=
  match cluster_host_stop_reason reason with
  | some host_reason => [.HostStop host_reason]
  | none => []

/-! ### One gdb step -/

/-- The poll loop of `perform_local_step`; `polls` further polls fit before its
    wall-clock deadline. -/
def step_loop [Entity E F] (fuel : Nat) :
    Nat → Simulator E → Option (Simulator E × Option Response)
  | polls, sim =>
      match sim.poll fuel with
      | none => none
      | some (sim, some rsp) => some (sim, some rsp)
      | some (sim, none) =>
          match polls with
          | 0 => some (sim, none)
          | polls + 1 => step_loop fuel polls sim

/-- `perform_local_step`. -/
def perform_local_step [Entity E F] (nd : Node m E F) (fuel polls : Nat) :
    Option (Node m E F × List ControlToArbiter) :=
  match nd.sim.command .Step with
  | (sim, .Started) =>
      match step_loop fuel polls sim with
      | none => none
      | some (sim, some (.Stopped reason)) =>
          some ({ nd with sim := sim, last_time_report := some sim.now },
            .TimeReport sim.now :: host_stop reason)
      | some (sim, _) => some ({ nd with sim := sim }, [])
  | (sim, _) => some ({ nd with sim := sim }, [])

/-! ### Control messages -/

/-- What a control message needs besides its contents: fuel for the polls of a
    gdb step, and how many of them fit before the deadline. -/
structure Take where
  fuel : Nat
  polls : Nat

/-- `StartupRecord` carries the report threshold. -/
def note_startup (nd : Node m E F) : ControlToNode n → Node m E F
  | .StartupRecord _ headroom_threshold_ns =>
      { nd with headroom_threshold_ns := headroom_threshold_ns }
  | _ => nd

/-- The history of `Start` and `GdbStep` messages. -/
def note_handled (nd : Node m E F) : ControlToNode n → Node m E F
  | .Start _ => { nd with handled := nd.handled + 1 }
  | .GdbStep _ => { nd with handled := nd.handled + 1 }
  | _ => nd

/-- `plane.discard_rx` on every plane of board `i`. -/
def discard_rx (cfg : Config n m) (i : Fin n) (lanes : Lanes m F) : Lanes m F := fun e =>
  if (cfg.edge e).dst = i ∧ (cfg.edge e).wired then (lanes e).discard else lanes e

/-- The effect of one control message on the node. -/
def apply_effect [Entity E F] (cfg : Config n m) (i : Fin n) (t : Take) (lanes : Lanes m F)
    (nd : Node m E F) :
    Option (NodeEffect n) → Option (Lanes m F × Node m E F × List ControlToArbiter)
  | some .SendReady => some (lanes, nd, [.Ready])
  | some (.SetAllowed allowed_ns) =>
      some (lanes, { nd with
        allowed_ns := allowed_ns
        sim := (nd.sim.command (.SetAllowed allowed_ns)).1 }, [])
  | some .Reset =>
      some (discard_rx cfg i lanes, { nd with
        last_time_report := none
        pending_actions := []
        sim := { nd.sim with entity := Entity.reset nd.sim.entity } }, [])
  | some (.GdbStep board) =>
      if board = i then
        (nd.perform_local_step t.fuel t.polls).map fun (nd, out) => (lanes, nd, out)
      else some (lanes, nd, [])
  | some (.ProbeWatch _ _) => some (lanes, nd, [])
  | some (.Warn _) => some (lanes, nd, [])
  | none => some (lanes, nd, [])

/-- The simulator follows the node state. -/
def follow_state [Entity E F] (nd : Node m E F) (next : NodeState) : Node m E F :=
  if nd.state ≠ .Running ∧ next = .Running then
    { nd with state := next, sim := (nd.sim.command .Start).1 }
  else if nd.state = .Running ∧ next ≠ .Running then
    { nd with state := next, sim := (nd.sim.command .Stop).1 }
  else { nd with state := next }

/-- One turn of the control drain. -/
def take [Entity E F] (cfg : Config n m) (i : Fin n) (t : Take) (msg : ControlToNode n)
    (lanes : Lanes m F) (nd : Node m E F) :
    Option (Lanes m F × Node m E F × List Report) :=
  match nd.pc with
  | .drain =>
      let nd := (nd.note_startup msg).note_handled msg
      let (next, effect) := nd.state.on_message msg
      match apply_effect cfg i t lanes nd effect with
      | none => none
      | some (lanes, nd, out) => some (lanes, nd.follow_state next, nd.stamp out)
  | _ => none

/-! ### The rest of an iteration -/

/-- The steps of a node apart from its control drain. -/
inductive Act where
  | drained
  | inspect (cmd : InspectCommand)
  | service (requests : List ActionRequest)
  | pump_rx
  | poll (fuel : Nat)
  | pump_tx

/-- `service_actions`: requests queue, and run in order while the node runs. -/
def service_actions [Entity E F] (nd : Node m E F) (requests : List ActionRequest) :
    Node m E F :=
  if nd.has_actions then
    let nd := { nd with pending_actions := nd.pending_actions ++ requests }
    if nd.state = .Running then
      let entity := nd.pending_actions.foldl (fun e req => (Entity.apply_action e req).1)
        (Entity.poll_actions nd.sim.entity)
      { nd with pending_actions := [], sim := { nd.sim with entity := entity } }
    else nd
  else nd

/-- One turn of the loops of `pump_rx`: take a frame of the current lane, or
    go on to the next. -/
def pump_rx [Entity E F] (cfg : Config n m) (lanes : Lanes m F) (nd : Node m E F) :
    List (Fin m × Nat) → Lanes m F × Node m E F
  | [] => (lanes, { nd with pc := .poll })
  | (_, 0) :: rest => (lanes, { nd with pc := .rx rest })
  | (e, k + 1) :: rest =>
      match (lanes e).receive nd.now with
      | none => (lanes, { nd with pc := .rx rest })
      | some (frame, lane) =>
          (Function.update lanes e lane, { nd with
            pc := .rx ((e, k) :: rest)
            sim := { nd.sim with
              entity := Entity.receive nd.sim.entity (cfg.edge e).dst_port frame.value } })

/-- What the node publishes after a poll that answered `rsp`. Any answer but a
    stop is only logged. -/
def report_poll [Entity E F] (nd : Node m E F) : Option Response →
    Node m E F × List ControlToArbiter
  | some (.Stopped reason) =>
      let (nd, out) := nd.maybe_time_report
      (nd, out ++ host_stop reason)
  | some _ => (nd, [])
  | none => nd.maybe_time_report

/-- The start of `pump_tx`: `drain_pending` on every port with a lane. -/
def begin_tx [Entity E F] (cfg : Config n m) (i : Fin n) (nd : Node m E F) : Node m E F :=
  { nd with
    pc := .tx (cfg.tx_queue i (Entity.ports nd.sim.entity).pending)
    sim := { nd.sim with entity := Entity.drain_pending nd.sim.entity (cfg.tx_ports i) } }

/-- The guest part of an iteration. -/
def poll [Entity E F] (cfg : Config n m) (i : Fin n) (fuel : Nat) (nd : Node m E F) :
    Option (Node m E F × List ControlToArbiter) :=
  if nd.sim.waiting_on_allowed_ceiling then some ({ nd with pc := .drain }, [])
  else if nd.sim.state ≠ .Running then some ({ nd with pc := .drain }, [])
  else
    match nd.sim.poll fuel with
    | none => none
    | some (sim, rsp) =>
        let (nd, out) := report_poll { nd with sim := sim } rsp
        some (nd.begin_tx cfg i, out)

/-- One turn of the loops of `pump_tx`. -/
def pump_tx [Entity E F] (cfg : Config n m) (lanes : Lanes m F) (nd : Node m E F) :
    List (Fin m × Drive F) → Lanes m F × Node m E F
  | [] => (lanes, { nd with pc := .drain })
  | (e, d) :: rest =>
      (Function.update lanes e
        ((lanes e).send (cfg.edge e).capacity ⟨d.value, d.at_, nd.now⟩),
        { nd with pc := .tx rest })

def act [Entity E F] (cfg : Config n m) (i : Fin n) (lanes : Lanes m F) (nd : Node m E F) :
    Act → Option (Lanes m F × Node m E F × List Report)
  | .drained =>
      match nd.pc with
      | .drain => some (lanes, { nd with pc := .service }, [])
      | _ => none
  | .inspect cmd =>
      match nd.pc, nd.has_inspect with
      | .service, true =>
          some (lanes, { nd with sim := (nd.sim.command (.Inspect cmd)).1 }, [])
      | _, _ => none
  | .service requests =>
      match nd.pc with
      | .service =>
          let nd := nd.service_actions requests
          -- A stopped board goes back to its control queue without a poll.
          if nd.state = .Running then some (lanes, { nd with pc := .rx (cfg.rx_queue i) }, [])
          else some (lanes, { nd with pc := .drain }, [])
      | _ => none
  | .pump_rx =>
      match nd.pc with
      | .rx todo =>
          let (lanes, nd) := nd.pump_rx cfg lanes todo
          some (lanes, nd, [])
      | _ => none
  | .poll fuel =>
      match nd.pc with
      | .poll => (nd.poll cfg i fuel).map fun (nd, out) => (lanes, nd, nd.stamp out)
      | _ => none
  | .pump_tx =>
      match nd.pc with
      | .tx todo =>
          let (lanes, nd) := nd.pump_tx cfg lanes todo
          some (lanes, nd, [])
      | _ => none

end Node

end Rl78Sim
