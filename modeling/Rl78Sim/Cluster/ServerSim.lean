import Rl78Sim.Cluster.StatusWire
import Rl78Sim.Framework.Ring
import Rl78Sim.Kernel.Action

/-! # A Simulation on the Server

    The worker of the server keeps what the arbiter last published. A poll reads
    the statuses until none is left, then the other inboxes, and only then looks
    whether the arbiter has exited. The arbiter may publish at any time before it
    exits, and what it has published can be read after that. -/

namespace Rl78Sim

open Transition

/-! ### Errors -/

/-- `ApiError`. -/
structure ApiError where
  status : Nat
  code : String
  message : String
  deriving DecidableEq

namespace ApiError

def bad_request (code message : String) : ApiError := ⟨400, code, message⟩

def not_found (message : String) : ApiError := ⟨404, "not_found", message⟩

def conflict (message : String) : ApiError := ⟨409, "conflict", message⟩

def internal (message : String) : ApiError := ⟨500, "internal", message⟩

end ApiError

/-! ### Requests -/

/-- `InvokeActionRequest`, with values of type `V`. -/
structure InvokeActionRequest (V : Type) where
  board_id : HashedId
  device : HashedId
  action : HashedId
  params : List (HashedId × V)

/-- What the server compares of an `AdvertisedAction`. -/
structure AdvertisedAction where
  board_id : HashedId
  device : HashedId
  action : HashedId
  deriving DecidableEq

/-- `catalog_invoke_error`. -/
def catalog_invoke_error {V : Type} (catalog : List AdvertisedAction)
    (request : InvokeActionRequest V) : Option ApiError :=
  let on_board := catalog.filter fun row => row.board_id = request.board_id
  if on_board.any fun row => row.device = request.device ∧ row.action = request.action then none
  else if on_board.any fun row => row.device = request.device then
    some (.not_found "unknown action")
  else some (.not_found "unknown device")

/-! ### State -/

/-- Where the worker is in `poll_simulation`. -/
inductive PollPc where
  | idle
  | statuses
  | inboxes
  | wait
  deriving DecidableEq

/-- The part of `Simulation` that follows the arbiter. `child` is set until the
    server has seen the exit; `unread` are the statuses in the buffer of its
    subscriber, and `gone` says that the arbiter has exited. -/
structure ServerSim where
  view : SessionStatus
  child : Bool
  boards : HashedId → Option String
  action_catalog_ready : Bool
  catalog : List AdvertisedAction
  next_request_id : Nat
  pc : PollPc
  unread : List HostStatusWire
  gone : Bool

/-- What is fixed of the simulation. -/
structure ServerConfig where
  board_id_hash : String → HashedId
  topo : LogicalTopology

/-- `subscriber_max_buffer_size` of the status service. -/
def status_buffer : Nat := 16

namespace ServerSim

/-- `create_simulation`. -/
def new (cfg : ServerConfig) : ServerSim where
  view :=
    { state := "stopped"
      virtual_time_ns := 0
      stop_reason := none
      nodes := cfg.topo.boards.map fun board =>
        { id := cfg.board_id_hash board.id, kind := board.kind, state := "starting" } }
  child := true
  boards hash :=
    (cfg.topo.boards.find? fun board => cfg.board_id_hash board.id = hash).map BoardSpec.id
  action_catalog_ready := false
  catalog := []
  next_request_id := 1
  pc := .idle
  unread := []
  gone := false

/-! ### Jobs -/

/-- `command_simulation`; `sent` is what `publish_cmd` returns. -/
def command_simulation (s : ServerSim) (sent : Except String Unit) : Except ApiError Unit :=
  if s.view.state = "exited" then .error (.conflict "arbiter has exited")
  else sent.mapError .internal

/-- `resolve_board_hex`. -/
def resolve_board_hex (s : ServerSim) (board_id : HashedId) : Except ApiError (HashedId × String) :=
  match s.boards board_id with
  | some label => .ok (board_id, label)
  | none => .error (.not_found "unknown board")

/-- `JobKind::Step`. -/
def step_board (s : ServerSim) (board_id : HashedId) (sent : Except String Unit) :
    Except ApiError Unit :=
  if s.view.state = "exited" then .error (.conflict "arbiter has exited")
  else (s.resolve_board_hex board_id).bind fun _ => sent.mapError .internal

/-- `queue_invoke`; `sent` is what `publish_request` returns. -/
def queue_invoke {V : Type} (s : ServerSim) (request : InvokeActionRequest V)
    (sent : Except String Unit) : ServerSim × Except ApiError Unit :=
  if s.view.state = "exited" then (s, .error (.conflict "arbiter has exited"))
  else
    match s.resolve_board_hex request.board_id with
    | .error err => (s, .error err)
    | .ok _ =>
      if !s.action_catalog_ready then (s, .error (.conflict "action catalog is not ready"))
      else
        match catalog_invoke_error s.catalog request with
        | some err => (s, .error err)
        | none =>
          let s := { s with next_request_id := saturating_add s.next_request_id 1 }
          if max_action_params < request.params.length then
            (s, .error (.bad_request "bad_param" "invalid action parameter"))
          else (s, sent.mapError .internal)

/-! ### Steps -/

end ServerSim

/-- What the arbiter and the worker do. A receive, a wait or a send may fail; the
    jobs come between the polls. -/
inductive ServerStep (V : Type) where
  /-- `write_status` of the arbiter. -/
  | publish (running : Bool) (virtual_time_ns : Nat) (stop_reason : Option HostStopReason)
      (peers : String → Option PeerState)
  /-- The arbiter exits. -/
  | exit
  | begin_poll
  /-- One round of the loop over `try_status`. -/
  | try_status (fails : Bool)
  /-- The logs, the actions, the probes and the export: what the action catalog
      is then, and whether its end has come. -/
  | inboxes (catalog : List AdvertisedAction) (ready : Bool)
  | try_wait (fails : Bool)
  | command (sent : Except String Unit)
  | step (board_id : HashedId) (sent : Except String Unit)
  | invoke (request : InvokeActionRequest V) (sent : Except String Unit)

namespace ServerSim

variable {V : Type}

def next (cfg : ServerConfig) (s : ServerSim) : ServerStep V → Option ServerSim
  | .publish running virtual_time_ns stop_reason peers =>
    if s.gone then none
    else
      let status :=
        write_status cfg.board_id_hash running virtual_time_ns stop_reason cfg.topo peers
      some { s with unread := Ring.push status_buffer s.unread (.from_status status) }
  | .exit => if s.gone then none else some { s with gone := true }
  | .begin_poll => if s.pc = .idle then some { s with pc := .statuses } else none
  | .try_status fails =>
    if s.pc = .statuses then
      match s.unread, fails with
      -- The loop of `try_status` goes on while there is one to read.
      | wire :: unread, false => some { s with view := wire.to_status, unread := unread }
      | _, _ => some { s with pc := .inboxes }
    else none
  | .inboxes catalog ready =>
    if s.pc = .inboxes then
      some { s with
        pc := .wait
        catalog := catalog
        action_catalog_ready := s.action_catalog_ready || ready }
    else none
  | .try_wait fails =>
    if s.pc = .wait then
      if s.child ∧ s.gone ∧ !fails then
        some { s with
          pc := .idle
          view := { s.view with state := "exited" }
          child := false }
      else some { s with pc := .idle }
    else none
  | .command _ => if s.pc = .idle then some s else none
  | .step _ _ => if s.pc = .idle then some s else none
  | .invoke request sent => if s.pc = .idle then some (s.queue_invoke request sent).1 else none

end ServerSim

/-- All runs of the arbiter and the worker. -/
def server_sim (cfg : ServerConfig) (V : Type) : System ServerSim (ServerStep V) where
  init s := s = .new cfg
  step s l := s.next cfg l

namespace ServerSim

variable {cfg : ServerConfig} {V : Type} {s s' t : ServerSim}

def AnyStep (_ : ServerSim) (_ : ServerStep V) : Prop := True

/-- The simulation has exited, and every request is refused for it. -/
structure Exited (V : Type) (s : ServerSim) : Prop where
  state : s.view.state = "exited"
  command (sent : Except String Unit) :
    s.command_simulation sent = .error (.conflict "arbiter has exited")
  step (board_id : HashedId) (sent : Except String Unit) :
    s.step_board board_id sent = .error (.conflict "arbiter has exited")
  invoke (request : InvokeActionRequest V) (sent : Except String Unit) :
    (s.queue_invoke request sent).2 = .error (.conflict "arbiter has exited")

theorem exited_of_state (h : s.view.state = "exited") : Exited V s where
  state := h
  command _ := if_pos h
  step _ _ := if_pos h
  invoke request sent := by
    unfold queue_invoke
    rw [if_pos h]

theorem queue_invoke_view (s : ServerSim) (request : InvokeActionRequest V)
    (sent : Except String Unit) :
    (s.queue_invoke request sent).1.view = s.view ∧
      (s.queue_invoke request sent).1.unread = s.unread ∧
      (s.queue_invoke request sent).1.gone = s.gone := by
  unfold queue_invoke
  split
  · exact ⟨rfl, rfl, rfl⟩
  · split
    · exact ⟨rfl, rfl, rfl⟩
    · split
      · exact ⟨rfl, rfl, rfl⟩
      · split
        · exact ⟨rfl, rfl, rfl⟩
        · dsimp only
          split <;> exact ⟨rfl, rfl, rfl⟩

/-! ### The exit is seen -/

/-- The simulation has exited and nothing is left that says otherwise. -/
structure Over (s : ServerSim) : Prop where
  state : s.view.state = "exited"
  unread : s.unread = []
  gone : s.gone = true

/-- Nothing can be published any more, so the worker reads nothing. -/
theorem over_inductive : Inductive (server_sim cfg V) AnyStep Over := by
  intro s l s' h _ hstep
  replace hstep : s.next cfg l = some s' := hstep
  obtain ⟨hstate, hunread, hgone⟩ := h
  cases l with
  | publish running virtual_time_ns stop_reason peers => simp [next, hgone] at hstep
  | exit => simp [next, hgone] at hstep
  | begin_poll =>
    simp only [next, Option.ite_none_right_eq_some, Option.some.injEq] at hstep
    obtain ⟨-, rfl⟩ := hstep
    exact ⟨hstate, hunread, hgone⟩
  -- The queue is empty, so the view stays as it is.
  | try_status fails =>
    simp only [next, hunread, Option.ite_none_right_eq_some, Option.some.injEq] at hstep
    obtain ⟨-, rfl⟩ := hstep
    exact ⟨hstate, rfl, hgone⟩
  | inboxes catalog ready =>
    simp only [next, Option.ite_none_right_eq_some, Option.some.injEq] at hstep
    obtain ⟨-, rfl⟩ := hstep
    exact ⟨hstate, hunread, hgone⟩
  | try_wait fails =>
    simp only [next, Option.ite_none_right_eq_some] at hstep
    obtain ⟨-, hstep⟩ := hstep
    -- Seeing the exit sets the view again, to what it is.
    split at hstep
    · cases hstep
      exact ⟨rfl, hunread, hgone⟩
    · cases hstep
      exact ⟨hstate, hunread, hgone⟩
  | command sent =>
    simp only [next, Option.ite_none_right_eq_some, Option.some.injEq] at hstep
    obtain ⟨-, rfl⟩ := hstep
    exact ⟨hstate, hunread, hgone⟩
  | step board_id sent =>
    simp only [next, Option.ite_none_right_eq_some, Option.some.injEq] at hstep
    obtain ⟨-, rfl⟩ := hstep
    exact ⟨hstate, hunread, hgone⟩
  | invoke request sent =>
    simp only [next, Option.ite_none_right_eq_some, Option.some.injEq] at hstep
    obtain ⟨-, rfl⟩ := hstep
    obtain ⟨hview, hleft, harbiter⟩ := s.queue_invoke_view request sent
    exact ⟨by rw [hview]; exact hstate, hleft.trans hunread, harbiter.trans hgone⟩

/-- The step in which the worker sees the exit. -/
structure SeesExit (cfg : ServerConfig) (V : Type) (s s' : ServerSim) : Prop where
  step : ∃ fails, (server_sim cfg V).step s (.try_wait fails) = some s'
  child : s.child = true
  seen : s'.child = false

theorem SeesExit.cases (h : SeesExit cfg V s s') : s.gone = true ∧
    s' = { s with
      pc := .idle
      view := { s.view with state := "exited" }
      child := false } := by
  obtain ⟨⟨fails, hstep⟩, hchild, hseen⟩ := h
  replace hstep : s.next cfg (ServerStep.try_wait fails : ServerStep V) = some s' := hstep
  simp only [next, Option.ite_none_right_eq_some] at hstep
  obtain ⟨-, hstep⟩ := hstep
  split at hstep
  · rename_i hexit
    cases hstep
    exact ⟨hexit.2.1, rfl⟩
  · cases hstep
    rw [hchild] at hseen
    cases hseen

/-- A worker that waits for an arbiter that has exited sees it. -/
theorem sees_exit (hpc : s.pc = .wait) (hchild : s.child = true) (hgone : s.gone = true) :
    SeesExit cfg V s { s with
      pc := .idle
      view := { s.view with state := "exited" }
      child := false } where
  step := by
    refine ⟨false, ?_⟩
    show s.next cfg (ServerStep.try_wait false : ServerStep V) = _
    simp [next, hpc, hchild, hgone]
  child := hchild
  seen := rfl

/-- A status never says that the arbiter has exited. -/
theorem to_status_ne_exited (wire : HostStatusWire) : wire.to_status.state ≠ "exited" := by
  unfold HostStatusWire.to_status
  dsimp only
  split <;> decide

/-- What is unread is read by the next poll. -/
theorem read_again {wire : HostStatusWire} {unread : List HostStatusWire} (hidle : s.pc = .idle)
    (hunread : s.unread = wire :: unread) :
    Path (server_sim cfg V) AnyStep s
      { s with
        pc := .statuses
        view := wire.to_status
        unread := unread } := by
  have hbegin : (server_sim cfg V).step s .begin_poll = some { s with pc := .statuses } :=
    if_pos hidle
  refine .tail (.try_status false) (.single (l := .begin_poll) trivial hbegin) trivial ?_
  show next cfg { s with pc := .statuses } (ServerStep.try_status false : ServerStep V) = _
  simp [next, hunread]

/-- Once the worker has seen the exit, the simulation stays exited exactly when no
    status was unread then. -/
theorem exited_stays (h : SeesExit cfg V s s') :
    (∀ t, Path (server_sim cfg V) AnyStep s' t → Exited V t) ↔ s.unread = [] := by
  obtain ⟨hgone, rfl⟩ := h.cases
  -- A status that is unread is read by the next poll, and it never says exited.
  constructor
  · intro hstays
    cases hunread : s.unread with
    | nil => rfl
    | cons wire unread =>
      have hread := hstays _ (read_again rfl hunread)
      exact absurd hread.state (to_status_ne_exited wire)
  · intro hunread t hpath
    exact exited_of_state (hpath.invariant over_inductive ⟨rfl, hunread, hgone⟩).state

/-! ### A status behind the drain -/

/-- One board, and no status published before the arbiter exits. -/
def lone_config : ServerConfig := ⟨fun _ => 0, plant_row 1⟩

/-- The steps of a poll that finds no status, with the exit before its end. -/
def exit_steps (late : List (ServerStep Empty)) : List (ServerStep Empty) :=
  [.begin_poll, .try_status false] ++ late ++ [.exit, .inboxes [] true]

instance (s : ServerSim) (l : ServerStep V) : Decidable (AnyStep s l) := .isTrue trivial

/-- The arbiter exits without a last status, and the simulation stays exited. -/
theorem exited_stays_quiet : ∃ s s', Reachable (server_sim lone_config Empty) AnyStep s ∧
    SeesExit lone_config Empty s s' ∧
    ∀ t, Path (server_sim lone_config Empty) AnyStep s' t → Exited Empty t := by
  obtain ⟨s, hreach, hpc, hchild, hgone, hunread⟩ : ∃ s,
      Reachable (server_sim lone_config Empty) AnyStep s ∧ s.pc = .wait ∧ s.child = true ∧
        s.gone = true ∧ s.unread.length = 0 :=
    Reachable.exists_of_exec (exit_steps []) rfl (by decide +kernel)
  have hsees : SeesExit lone_config Empty s _ := sees_exit hpc hchild hgone
  exact ⟨s, _, hreach, hsees, (exited_stays hsees).mpr (List.length_eq_zero_iff.mp hunread)⟩

/-- The arbiter publishes behind the drain of the statuses, and exits. The poll
    after the one that has seen the exit reads the status, and a command passes. -/
theorem exited_runs_again : ∃ s s' t, Reachable (server_sim lone_config Empty) AnyStep s ∧
    SeesExit lone_config Empty s s' ∧ s'.view.state = "exited" ∧
    Path (server_sim lone_config Empty) AnyStep s' t ∧ t.view.state = "running" ∧
    t.command_simulation (.ok ()) = .ok () := by
  obtain ⟨s, hreach, hpc, hchild, hgone, hunread⟩ : ∃ s,
      Reachable (server_sim lone_config Empty) AnyStep s ∧ s.pc = .wait ∧ s.child = true ∧
        s.gone = true ∧ s.unread.map (fun wire => wire.to_status.state) = ["running"] :=
    Reachable.exists_of_exec
      (exit_steps [.publish true 0 none fun _ => none]) rfl (by decide +kernel)
  obtain ⟨wire, unread, hwires, hstate, -⟩ := List.map_eq_cons_iff.mp hunread
  refine ⟨s, _, _, hreach, sees_exit hpc hchild hgone, rfl, read_again rfl hwires, hstate, ?_⟩
  unfold command_simulation
  rw [if_neg (to_status_ne_exited wire)]
  rfl

end ServerSim

end Rl78Sim
