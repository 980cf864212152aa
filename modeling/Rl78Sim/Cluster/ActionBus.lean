import Rl78Sim.Cluster.ServerSim
import Rl78Sim.Framework.Relay
import Rl78Sim.Hw.HoldSwitch

/-! # The Way of an Action Request

    The server numbers a request that it accepts and publishes it to the
    arbiter, which forwards every request to all nodes. A node empties its
    buffer once in a turn, keeps the requests for its board, and applies them
    one after the other while it runs. The buffers drop their oldest sample when
    they overflow, and a reset drops what the node has kept.
-/

namespace Rl78Sim

open Transition Relay

/-! ### The system -/

/-- Where a node is in its turn: at the control messages, in the loop over
    `try_request`, or in the one over the queue. -/
inductive TurnPc where
  | control
  | drain (taken : Nat)
  | apply
  deriving DecidableEq

/-- A node on the bus. -/
structure BusNode where
  node : ActionNode
  running : Bool
  pc : TurnPc

/-- The server, the arbiter between `s2a` and the buffers of the nodes, and the
    nodes. -/
structure ActionNet where
  server : ServerSim
  s2a : List HoldRequest
  a2n : HashedId → List HoldRequest
  node : HashedId → BusNode

structure ActionNetConfig where
  server : ServerConfig
  devices : HashedId → BoardDevices

/-- The hashes of the boards. -/
def ActionNetConfig.boards (cfg : ActionNetConfig) : List HashedId :=
  cfg.server.topo.boards.map fun board => cfg.server.board_id_hash board.id

/-- What the processes do. -/
inductive BusStep where
  | server (step : ServerStep F64)
  /-- Another job of the server takes a request id. -/
  | take_id
  /-- `forward_invokes`, for one request. A send that fails ends the arbiter. -/
  | forward (sent : Bool)
  | set_running (board : HashedId) (running : Bool)
  | reset (board : HashedId)
  | service (board : HashedId)
  | try_request (board : HashedId)
  | drained (board : HashedId) (now : Nat)
  | apply (board : HashedId)

/-- `ActionRequest::new`, of a request that has been accepted. -/
def HoldRequest.of_invoke (request_id : Nat) (request : InvokeActionRequest F64) : HoldRequest where
  request_id := request_id
  board_hash := request.board_id.toNat
  device_hash := request.device.toNat
  action_hash := request.action.toNat
  raw_params := request.params.map fun param => (param.1.toNat, param.2)

namespace BusNode

/-- One round of the loop over `try_request`, for a sample. -/
def receive (nd : BusNode) (taken : Nat) (req : HoldRequest) : BusNode :=
  { nd with
    node :=
      if req.board_hash == nd.node.board_hash then
        { nd.node with pending := nd.node.pending ++ [req] }
      else nd.node
    pc := .drain (taken + 1) }

/-- After the loop: a node that runs polls its devices. -/
def drained (nd : BusNode) (now : Nat) : BusNode :=
  if nd.running then
    { nd with
      node := { nd.node with devices := nd.node.devices.poll_actions now, now := now }
      pc := .apply }
  else { nd with node := { nd.node with now := now }, pc := .control }

/-- One round of the loop over the queue. -/
def apply (nd : BusNode) : BusNode :=
  match nd.node.pending with
  | [] => { nd with pc := .control }
  | req :: rest =>
    let result := nd.node.devices.apply_action nd.node.now req
    { nd with
      node := { nd.node with
        devices := result.1
        pending := rest
        replies := nd.node.replies ++ [(req.request_id, .of_result result.2)] } }

/-- `NodeEffect::Reset`. -/
def reset (nd : BusNode) : BusNode := { nd with node := nd.node.reset }

end BusNode

namespace ActionNet

variable (cfg : ActionNetConfig)

/-- Nothing has been asked for. -/
def new : ActionNet where
  server := .new cfg.server
  s2a := []
  a2n _ := []
  node board :=
    { node :=
        { board_hash := board.toNat
          devices := cfg.devices board
          pending := []
          replies := []
          now := 0 }
      running := false
      pc := .control }

/-- The sample that a step of the server publishes. -/
def invoked (s : ActionNet) : ServerStep F64 → Option HoldRequest
  | .invoke request sent =>
    match (s.server.queue_invoke request sent).2 with
    | .ok () => some (.of_invoke s.server.next_request_id request)
    | .error _ => none
  | _ => none

/-- The samples that a step queues. -/
def queues (s : ActionNet) : BusStep → List HoldRequest
  | .server l => (s.invoked l).toList
  | _ => []

/-- The requests that a step applies on a board. -/
def applies (s : ActionNet) (board : HashedId) : BusStep → List HoldRequest
  | .apply other => if other = board then (s.node board).node.pending.take 1 else []
  | _ => []

/-- Replace a node. -/
def set_node (s : ActionNet) (board : HashedId) (nd : BusNode) : ActionNet :=
  { s with node := Function.update s.node board nd }

def step (s : ActionNet) : BusStep → Option ActionNet
  | .server l =>
    (s.server.next cfg.server l).map fun server =>
      { s with
        server := server
        s2a := (s.invoked l).elim s.s2a (Ring.push action_recv_cap s.s2a) }
  | .take_id =>
    some { s with server := { s.server with
      next_request_id := saturating_add s.server.next_request_id 1 } }
  | .forward sent =>
    if s.server.gone then none
    else
      match s.s2a with
      | [] => none
      | req :: rest =>
        if sent then
          some { s with
            s2a := rest
            a2n := fun board => Ring.push action_recv_cap (s.a2n board) req }
        else some { s with s2a := rest, server := { s.server with gone := true } }
  | .set_running board running =>
    if board ∈ cfg.boards ∧ (s.node board).pc = .control then
      some (s.set_node board { s.node board with running := running })
    else none
  | .reset board =>
    if board ∈ cfg.boards ∧ (s.node board).pc = .control then
      some (s.set_node board (s.node board).reset)
    else none
  | .service board =>
    if board ∈ cfg.boards ∧ (s.node board).pc = .control then
      some (s.set_node board { s.node board with pc := .drain 0 })
    else none
  | .try_request board =>
    match (s.node board).pc, s.a2n board with
    | .drain taken, req :: rest =>
      if taken < action_recv_cap then
        some { s.set_node board ((s.node board).receive taken req) with
          a2n := Function.update s.a2n board rest }
      else none
    | _, _ => none
  | .drained board now =>
    match (s.node board).pc with
    | .drain taken =>
      if taken = action_recv_cap ∨ (s.a2n board).isEmpty then
        some (s.set_node board ((s.node board).drained now))
      else none
    | _ => none
  | .apply board =>
    if (s.node board).pc = .apply then some (s.set_node board (s.node board).apply) else none

end ActionNet

/-! ### The history of a run -/

/-- What the server has queued, what every node has applied, and for the turn
    that a node is in: the node at its start and the samples it has taken. -/
structure BusHistory where
  queued : List HoldRequest
  applied : HashedId → List HoldRequest
  before : HashedId → ActionNode
  received : HashedId → List HoldRequest

namespace BusHistory

/-- Nothing has happened. -/
def new (s : ActionNet) : BusHistory :=
  ⟨[], fun _ => [], fun board => (s.node board).node, fun _ => []⟩

/-- One more step. -/
def record (s : ActionNet) (l : BusStep) (_ : ActionNet) (h : BusHistory) : BusHistory where
  queued := h.queued ++ s.queues l
  applied board := h.applied board ++ s.applies board l
  before :=
    match l with
    | .service board => Function.update h.before board (s.node board).node
    | _ => h.before
  received :=
    match l with
    | .service board => Function.update h.received board []
    | .try_request board =>
      Function.update h.received board (h.received board ++ (s.a2n board).take 1)
    | _ => h.received

end BusHistory

/-- All runs, with their histories. -/
def action_net (cfg : ActionNetConfig) : System (ActionNet × BusHistory) BusStep :=
  System.logged ⟨fun s => s = .new cfg, fun s l => s.step cfg l⟩ (.new (.new cfg))
    BusHistory.record

end Rl78Sim
