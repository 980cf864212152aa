import Mathlib.Logic.Function.Basic
import Rl78Sim.Cluster.EdgeNames
import Rl78Sim.Framework.Transition
import Rl78Sim.Kernel.Clock

/-! # The Lock of the Viewer

    A simulation has one viewer at a time. The stream of a viewer attaches, gets
    a token, and detaches when it is dropped; every other request of the page
    shows the token and is checked before its job is sent. All of these are jobs
    in the one queue of the worker. A handler that has sent its job may give up
    before the reply comes. The release of a stream that has ended is a request
    of its own to the backend, which takes its time and may fail.
-/

namespace Rl78Sim

open Transition

/-! ### State -/

/-- What a request does once its check has passed. -/
inductive GatedKind where
  | delete
  /-- An action or an export: its job takes a request id. -/
  | numbered
  | other
  deriving DecidableEq

/-- The jobs of the worker. Every request has a channel of its own for the
    reply, which its number stands for. -/
inductive ViewerJob where
  | attach (conn : Nat)
  | check (request : Nat) (token : String)
  | detach (token : String)
  | run (kind : GatedKind)
  deriving DecidableEq

/-- Where `viewer_sse` is. -/
inductive ViewerConn where
  | idle
  | attaching
  /-- The reply is in the channel; `none` is an error. -/
  | replied (token : Option String)
  /-- The guard is alive. -/
  | holding (token : String)
  /-- The stream has ended, or was never begun. -/
  | closed (token : Option String)
  /-- `rpc` has run out of time, or the handler was dropped. -/
  | abandoned
  deriving DecidableEq

/-- Where a handler with `require_viewer` is. -/
inductive GatedRequest where
  | idle
  | checking (kind : GatedKind)
  | allowed (kind : GatedKind)
  | refused
  | sent
  deriving DecidableEq

/-- One simulation, the queue of the worker, and the handlers. `detaching` are
    the tokens whose release is on its way to the queue. -/
structure ViewerNet where
  live : Bool
  viewer : Option String
  next_request_id : Nat
  jobs : List ViewerJob
  detaching : List String
  conn : Nat → ViewerConn
  gated : Nat → GatedRequest

/-- What the handlers and the worker do. -/
inductive ViewerStep where
  | connect (conn : Nat)
  | receive (conn : Nat)
  | abandon (conn : Nat)
  /-- `ViewerGuard::drop`, which calls `viewer_detach`. -/
  | drop (conn : Nat)
  /-- A release comes to the queue. -/
  | deliver (token : String)
  /-- A release fails on its way, which `ViewerGuard::drop` ignores. -/
  | lose (token : String)
  /-- `require_viewer` sends its job. -/
  | ask (request : Nat) (token : String) (kind : GatedKind)
  /-- The handler goes on after `require_viewer`. -/
  | act (request : Nat)
  /-- One round of `worker_loop`. -/
  | work

namespace ViewerNet

/-- A new simulation. -/
def new : ViewerNet where
  live := true
  viewer := none
  next_request_id := 1
  jobs := []
  detaching := []
  conn _ := .idle
  gated _ := .idle

/-- The token of a request id. -/
def token (request_id : Nat) : String := HashedId.to_hex (UInt64.ofNat request_id)

/-- The next request id is taken. -/
def take_id (s : ViewerNet) : ViewerNet :=
  { s with next_request_id := saturating_add s.next_request_id 1 }

/-- Set the handler of a stream. -/
def set_conn (s : ViewerNet) (conn : Nat) (state : ViewerConn) : ViewerNet :=
  { s with conn := Function.update s.conn conn state }

/-- The reply is sent to a stream, which may have given up. -/
def reply (s : ViewerNet) (conn : Nat) (token : Option String) : ViewerNet :=
  if s.conn conn = .attaching then s.set_conn conn (.replied token) else s

/-- The reply is sent to a handler. -/
def answer (s : ViewerNet) (request : Nat) (passes : Bool) : ViewerNet :=
  match s.gated request with
  | .checking kind =>
    { s with gated :=
        Function.update s.gated request (if passes then .allowed kind else .refused) }
  | _ => s

/-- `dispatch_job`. -/
def dispatch (s : ViewerNet) : ViewerJob → ViewerNet
  | .attach conn =>
    if !s.live then s.reply conn none
    else if s.viewer.isSome then s.reply conn none
    else
      { s.take_id.reply conn (some (token s.next_request_id)) with
        viewer := some (token s.next_request_id) }
  | .check request text => s.answer request (s.live && s.viewer = some text)
  | .detach text => if s.live ∧ s.viewer = some text then { s with viewer := none } else s
  | .run .delete => { s with live := false }
  | .run .numbered => if s.live then s.take_id else s
  | .run .other => s

def step (s : ViewerNet) : ViewerStep → Option ViewerNet
  | .connect conn =>
    if s.conn conn = .idle then
      some { s.set_conn conn .attaching with jobs := s.jobs ++ [.attach conn] }
    else none
  | .receive conn =>
    match s.conn conn with
    | .replied (some text) => some (s.set_conn conn (.holding text))
    | .replied none => some (s.set_conn conn (.closed none))
    | _ => none
  | .abandon conn =>
    match s.conn conn with
    | .attaching | .replied _ => some (s.set_conn conn .abandoned)
    | _ => none
  | .drop conn =>
    match s.conn conn with
    | .holding text =>
      some { s.set_conn conn (.closed (some text)) with detaching := s.detaching ++ [text] }
    | _ => none
  | .deliver text =>
    if text ∈ s.detaching then
      some { s with detaching := s.detaching.erase text, jobs := s.jobs ++ [.detach text] }
    else none
  | .lose text =>
    if text ∈ s.detaching then some { s with detaching := s.detaching.erase text } else none
  | .ask request text kind =>
    if s.gated request = .idle then
      some { s with
        gated := Function.update s.gated request (.checking kind)
        jobs := s.jobs ++ [.check request text] }
    else none
  | .act request =>
    match s.gated request with
    | .allowed kind =>
      some { s with
        gated := Function.update s.gated request .sent
        jobs := s.jobs ++ [.run kind] }
    | _ => none
  | .work =>
    match s.jobs with
    | [] => none
    | job :: jobs => some ({ s with jobs := jobs }.dispatch job)

end ViewerNet

/-- All runs. -/
def viewer_net : System ViewerNet ViewerStep := ⟨fun s => s = .new, ViewerNet.step⟩

end Rl78Sim
