import Rl78Sim.Cluster.ServerSim
import Rl78Sim.Gdb.Store

/-! # Attaching a Gdb Stub

    `attach_gdb_slot` registers a new slot in place of the one there was, and
    only then stops the simulation and clears the breakpoints of the board. The
    stop is a command on its way to the arbiter when the request to clear is
    written, and the simulator refuses that request while it runs. -/

namespace Rl78Sim

open Transition

variable {n m : Nat} {E F : Type}

/-! ### Texts -/

/-- `{:#x}`. -/
def hex (v : Nat) : String := "0x" ++ String.ofList (Nat.toDigits 16 v)

/-- `encode_hex`. -/
def encode_hex (bytes : List Nat) : String :=
  String.ofList (bytes.flatMap fun b => [Nat.digitChar (b / 16), Nat.digitChar (b % 16)])

def BusError.text : BusError → String
  | .Unmapped addr len => s!"unmapped access addr={hex addr} len={len}"
  | .OutOfRange addr offset len =>
    s!"out of range addr={hex addr} offset={hex offset} len={len}"
  | .ReadOnly addr => s!"write to read-only addr={hex addr}"
  | .NotLoadable addr => s!"image load not supported at addr={hex addr}"

def SimError.text : SimError → String
  | .Running => "simulation is running"
  | .UnknownRegister id => s!"unknown register {id}"
  | .UnknownBreakpoint addr => s!"unknown breakpoint {hex addr}"
  | .Bus err => err.text
  | .InstructionPeriodExceedsQuantum period max_quantum =>
    s!"instruction period {period}ns exceeds max quantum {max_quantum}ns"
  | .Unsupported => "command is not supported on this entity"

def StopReason.text : StopReason → String
  | .Halt => "halt"
  | .ExternalStop => "external"
  | .Step => "step"
  | .Breakpoint id => s!"breakpoint {id}"
  | .Unmapped addr write =>
    let kind := if write then "write" else "read"
    s!"unmapped {kind} @ {hex addr}"

/-- `InspectReply`. -/
inductive InspectReply where
  | Ok
  | Regs (data : String) (pc : Nat)
  | Mem (data : String)
  | Breakpoint (id : Nat)
  | Error (message : String)
  deriving DecidableEq

/-- `reply_from_response`. -/
def reply_from_response : Response → InspectReply
  | .Inspect .Ok => .Ok
  | .Inspect (.GdbRegs data pc) => .Regs (encode_hex data) pc
  | .Inspect (.Mem _ data) => .Mem (encode_hex data)
  | .Inspect (.Breakpoint id) => .Breakpoint id
  | .Inspect (.Reg id value) => .Error s!"unexpected reg {id} = {hex value}"
  | .Error err => .Error err.text
  | .Started => .Error "unexpected started"
  | .Stopped reason => .Error s!"unexpected stopped: {reason.text}"
  | .Quit => .Error "unexpected quit"

/-! ### Slots -/

/-- `GdbSessionInfo`. -/
structure GdbSessionInfo where
  board_id : HashedId
  host : String
  port : Nat
  user : String
  connected : Bool
  deriving DecidableEq

/-- `GdbSlot`. The serial tells slots apart. -/
structure GdbSlot where
  serial : Nat
  board_id : HashedId
  port : Nat
  host : String
  user : String
  connected : Bool
  deriving DecidableEq

/-- `GdbSlot::info`. -/
def GdbSlot.info (slot : GdbSlot) : GdbSessionInfo :=
  ⟨slot.board_id, slot.host, slot.port, slot.user, slot.connected⟩

/-- What a call of `attach_gdb_slot` is about: the topology of the simulation, the
    board asked for, and the node `b` that listens on the socket of that board.
    `board_id_hash` is the hash of a board's name. -/
structure Attachment (n : Nat) where
  topo : LogicalTopology
  board_id_hash : String → HashedId
  board_id : HashedId
  b : Fin n
  advertise_host : String
  kinds : ∀ board ∈ topo.boards, board.kind = "rl78" ∨ board.kind = "plant"

/-- Where the call stands. -/
inductive AttachPc where
  | called
  /-- No client is connected. -/
  | checked
  /-- The board is an `rl78` board. -/
  | found
  /-- The slot is registered. -/
  | installed (info : GdbSessionInfo)
  /-- The stop is on its way. -/
  | stopped (info : GdbSessionInfo)
  /-- The request to clear is written. -/
  | clearing (info : GdbSessionInfo) (ticket : Nat)
  | done (res : Except ApiError GdbSessionInfo)
  deriving DecidableEq

/-- A call and the simulation. `sim` is the state that the worker has of the
    simulation, if there is one. `before` and `busy` are history variables: the
    slot before the call, and that a client was connected to it. -/
structure AttachCall (n m : Nat) (E F : Type) where
  backend : Backend n m E F
  sim : Option SessionStatus
  slot : Option GdbSlot
  serials : Nat
  before : Option Nat
  busy : Bool
  pc : AttachPc

/-- A call of the backend may fail by itself, with the error given. -/
inductive AttachStep (n : Nat) where
  /-- A step of the simulation, or of other clients of the server. -/
  | other (l : BackendStep n)
  /-- The node serves the oldest request. -/
  | serve
  /-- The worker takes a status from the arbiter. -/
  | take_status (running : Bool) (virtual_time_ns : Nat) (stop_reason : Option HostStopReason)
      (peers : String → Option PeerState)
  /-- The worker finds that the arbiter has exited. -/
  | exit
  /-- A client connects to the slot, or goes. -/
  | client (connected : Bool)
  | gdb_connected
  | status (fail : Option ApiError)
  /-- `spawn_slot`, with the port that was bound and the user. -/
  | spawn_slot (bound : Except String (Nat × String))
  | stop (fail : Option ApiError)
  | clear (fail : Option ApiError)
  /-- The call waits no longer for the reply. -/
  | give_up (err : ApiError)

/-- The first node with that id. -/
def find_node (nodes : List SessionNode) (board_id : HashedId) : Option String :=
  (nodes.find? fun node => node.id = board_id).map SessionNode.kind

namespace AttachCall

/-- The arbiter of the simulation has not exited. -/
def live (s : AttachCall n m E F) : Bool := s.sim.any fun view => view.state ≠ "exited"

/-- The serial of the registered slot. -/
def registered (s : AttachCall n m E F) : Option Nat := s.slot.map GdbSlot.serial

/-- The nodes of a simulation that has just been created. -/
def created (t : Attachment n) : SessionStatus where
  state := "stopped"
  virtual_time_ns := 0
  stop_reason := none
  nodes := t.topo.boards.map fun board =>
    { id := t.board_id_hash board.id, kind := board.kind, state := "starting" }

/-- What the lookup in the status comes to. -/
def lookup (t : Attachment n) (s : AttachCall n m E F) : AttachPc :=
  match s.sim with
  | none => .done (.error (.not_found "unknown simulation"))
  | some view =>
    match find_node view.nodes t.board_id with
    | some kind =>
      if kind = "rl78" then .found
      else .done (.error (.bad_request "bad_param" "gdb target must be an rl78 board"))
    | none => .done (.error (.not_found "unknown board"))

/-- The new slot is registered. -/
def install (t : Attachment n) (s : AttachCall n m E F) (port : Nat) (user : String) :
    AttachCall n m E F :=
  let slot : GdbSlot := ⟨s.serials, t.board_id, port, t.advertise_host, user, false⟩
  { s with slot := some slot, serials := s.serials + 1, pc := .installed slot.info }

/-- `JobKind::Command` with a stop. -/
def request_stop (s : AttachCall n m E F) (info : GdbSessionInfo) : AttachCall n m E F :=
  match s.sim with
  | none => { s with pc := .done (.error (.not_found "unknown simulation")) }
  | some view =>
    if view.state = "exited" then
      { s with pc := .done (.error (.conflict "arbiter has exited")) }
    else { s with backend := s.backend.post .Stop, pc := .stopped info }

/-- `JobKind::Inspect`, up to the request. -/
def request_clear (t : Attachment n) (s : AttachCall n m E F) (info : GdbSessionInfo) :
    AttachCall n m E F :=
  match s.sim with
  | none => { s with pc := .done (.error (.not_found "unknown simulation")) }
  | some _ =>
    if t.topo.boards.any fun board => t.board_id_hash board.id = t.board_id then
      { s with
        backend := s.backend.ask .ClearBreakpoints
        pc := .clearing info s.backend.tickets }
    else { s with pc := .done (.error (.not_found "unknown board")) }

/-- The end of the call, when the reply has come. -/
def finish (info : GdbSessionInfo) : InspectReply → Except ApiError GdbSessionInfo
  | .Ok => .ok info
  | .Error message => .error (.internal message)
  | _ => .error (.internal "unexpected inspect reply")

variable [Entity E F]

def next (cfg : Config n m) (t : Attachment n) (s : AttachCall n m E F) :
    AttachStep n → Option (AttachCall n m E F)
  | .other l =>
    match l with
    | .serve => none
    | l => (s.backend.step cfg t.b l).map fun backend => { s with backend := backend }
  | .serve =>
    match s.backend.socket with
    | [] => none
    | r :: _ => (s.backend.step cfg t.b .serve).map fun backend =>
      let res := reply_from_response (s.backend.answer t.b r)
      let s := { s with backend := backend }
      match s.pc with
      | .clearing info ticket =>
        if r.ticket = ticket then { s with pc := .done (finish info res) } else s
      | _ => s
  | .take_status running virtual_time_ns stop_reason peers =>
    s.sim.map fun _ =>
      let status := write_status t.board_id_hash running virtual_time_ns stop_reason t.topo peers
      { s with sim := some (HostStatusWire.from_status status).to_status }
  | .exit => s.sim.map fun view => { s with sim := some { view with state := "exited" } }
  | .client connected =>
    s.slot.map fun slot => { s with slot := some { slot with connected := connected } }
  | .gdb_connected =>
    match s.pc with
    | .called =>
      if s.slot.any GdbSlot.connected then
        some { s with busy := true, pc := .done (.error (.conflict "gdb is connected")) }
      else some { s with pc := .checked }
    | _ => none
  | .status fail =>
    match s.pc, fail with
    | .checked, some err => some { s with pc := .done (.error err) }
    | .checked, none => some { s with pc := s.lookup t }
    | _, _ => none
  | .spawn_slot bound =>
    match s.pc, bound with
    | .found, .error message => some { s with pc := .done (.error (.internal message)) }
    | .found, .ok (port, user) => some (s.install t port user)
    | _, _ => none
  | .stop fail =>
    match s.pc, fail with
    | .installed _, some err => some { s with pc := .done (.error err) }
    | .installed info, none => some (s.request_stop info)
    | _, _ => none
  | .clear fail =>
    match s.pc, fail with
    | .stopped _, some err => some { s with pc := .done (.error err) }
    | .stopped info, none => some (s.request_clear t info)
    | _, _ => none
  | .give_up err =>
    match s.pc with
    | .clearing _ _ => some { s with pc := .done (.error err) }
    | _ => none

/-- The call has returned. -/
def returned (s : AttachCall n m E F) : Bool :=
  match s.pc with
  | .done _ => true
  | _ => false

/-- All a step can do. -/
inductive Moved (cfg : Config n m) (t : Attachment n) (s : AttachCall n m E F) :
    AttachStep n → AttachCall n m E F → Prop where
  | other (l : BackendStep n) (backend : Backend n m E F) : l ≠ .serve →
      Backend.Stepped cfg t.b s.backend l backend →
      Moved cfg t s (.other l) { s with backend := backend }
  | served (r : Inquiry) (rest : List Inquiry) (net : Cluster n m E F) :
      s.backend.socket = r :: rest →
      (protocol cfg).step s.backend.net (.spoke t.b (.inspect r.cmd)) = some net →
      (∀ info, s.pc ≠ .clearing info r.ticket) →
      Moved cfg t s .serve { s with backend := { s.backend with net := net, socket := rest } }
  | answered (info : GdbSessionInfo) (r : Inquiry) (rest : List Inquiry) (net : Cluster n m E F) :
      s.backend.socket = r :: rest →
      (protocol cfg).step s.backend.net (.spoke t.b (.inspect r.cmd)) = some net →
      s.pc = .clearing info r.ticket →
      Moved cfg t s .serve { s with
        backend := { s.backend with net := net, socket := rest }
        pc := .done (finish info (reply_from_response (s.backend.answer t.b r))) }
  | take_status (running : Bool) (virtual_time_ns : Nat) (stop_reason : Option HostStopReason)
      (peers : String → Option PeerState) : s.sim.isSome = true →
      Moved cfg t s (.take_status running virtual_time_ns stop_reason peers) { s with
        sim := some (HostStatusWire.from_status (write_status t.board_id_hash running
          virtual_time_ns stop_reason t.topo peers)).to_status }
  | exit (view : SessionStatus) : s.sim = some view →
      Moved cfg t s .exit { s with sim := some { view with state := "exited" } }
  | client (connected : Bool) (slot : GdbSlot) : s.slot = some slot →
      Moved cfg t s (.client connected) { s with slot := some { slot with connected := connected } }
  | busy : s.pc = .called → Moved cfg t s .gdb_connected
      { s with busy := true, pc := .done (.error (.conflict "gdb is connected")) }
  | checked : s.pc = .called → Moved cfg t s .gdb_connected { s with pc := .checked }
  | status (fail : Option ApiError) : s.pc = .checked → Moved cfg t s (.status fail)
      { s with pc := match fail with
          | some err => .done (.error err)
          | none => s.lookup t }
  | unbound (message : String) : s.pc = .found → Moved cfg t s (.spawn_slot (.error message))
      { s with pc := .done (.error (.internal message)) }
  | bound (port : Nat) (user : String) : s.pc = .found →
      Moved cfg t s (.spawn_slot (.ok (port, user))) (s.install t port user)
  | stop (info : GdbSessionInfo) (fail : Option ApiError) : s.pc = .installed info →
      Moved cfg t s (.stop fail) (match fail with
        | some err => { s with pc := .done (.error err) }
        | none => s.request_stop info)
  | clear (info : GdbSessionInfo) (fail : Option ApiError) : s.pc = .stopped info →
      Moved cfg t s (.clear fail) (match fail with
        | some err => { s with pc := .done (.error err) }
        | none => s.request_clear t info)
  | give_up (info : GdbSessionInfo) (ticket : Nat) (err : ApiError) :
      s.pc = .clearing info ticket →
      Moved cfg t s (.give_up err) { s with pc := .done (.error err) }

theorem next_cases {cfg : Config n m} {t : Attachment n} {s s' : AttachCall n m E F}
    {l : AttachStep n} (h : s.next cfg t l = some s') : Moved cfg t s l s' := by
  cases l with
  | other l =>
    simp only [next] at h
    split at h
    · cases h
    · rename_i hserve
      obtain ⟨backend, hstep, rfl⟩ := Option.map_eq_some_iff.mp h
      exact .other l backend hserve (Backend.step_cases hstep)
  | serve =>
    simp only [next] at h
    split at h
    · cases h
    · rename_i r rest hsocket
      obtain ⟨backend, hstep, heq⟩ := Option.map_eq_some_iff.mp h
      obtain ⟨net, hnet, rfl⟩ := Backend.serve_cases hsocket hstep
      split at heq
      -- The answer belongs to the attach if it carries its ticket.
      · rename_i info ticket hpc
        have hpc : s.pc = .clearing info ticket := hpc
        split at heq
        · rename_i hticket
          cases heq
          subst hticket
          exact .answered info r rest net hsocket hnet hpc
        · rename_i hticket
          cases heq
          refine .served r rest net hsocket hnet ?_
          intro info' hpc'
          rw [hpc] at hpc'
          cases hpc'
          exact hticket rfl
      · rename_i hpc
        cases heq
        exact .served r rest net hsocket hnet fun info => hpc info r.ticket
  | take_status running virtual_time_ns stop_reason peers =>
    obtain ⟨view, hview, rfl⟩ := Option.map_eq_some_iff.mp h
    exact .take_status _ _ _ _ (by rw [hview]; rfl)
  | exit =>
    obtain ⟨view, hview, rfl⟩ := Option.map_eq_some_iff.mp h
    exact .exit view hview
  | client connected =>
    obtain ⟨slot, hslot, rfl⟩ := Option.map_eq_some_iff.mp h
    exact .client connected slot hslot
  | gdb_connected =>
    simp only [next] at h
    split at h
    · rename_i hpc
      split at h <;> cases h
      · exact .busy hpc
      · exact .checked hpc
    · cases h
  | status fail =>
    simp only [next] at h
    split at h <;> cases h
    · rename_i err hpc
      exact .status (some err) hpc
    · rename_i hpc
      exact .status none hpc
  | spawn_slot bound =>
    simp only [next] at h
    split at h <;> cases h
    · rename_i message hpc
      exact .unbound message hpc
    · rename_i port user hpc
      exact .bound port user hpc
  | stop fail =>
    simp only [next] at h
    split at h <;> cases h
    · rename_i info err hpc
      exact .stop info (some err) hpc
    · rename_i info hpc
      exact .stop info none hpc
  | clear fail =>
    simp only [next] at h
    split at h <;> cases h
    · rename_i info err hpc
      exact .clear info (some err) hpc
    · rename_i info hpc
      exact .clear info none hpc
  | give_up err =>
    simp only [next] at h
    split at h <;> cases h
    rename_i info ticket hpc
    exact .give_up info ticket err hpc

end AttachCall

/-! ### What holds while the call runs -/

/-- The board asked for is an `rl78` board of the topology. -/
def Rl78 (t : Attachment n) : Prop :=
  ∃ board ∈ t.topo.boards, t.board_id_hash board.id = t.board_id ∧ board.kind = "rl78"

/-- A new slot is registered, for an `rl78` board of the simulation. -/
structure Installed (t : Attachment n) (s : AttachCall n m E F) : Prop where
  registered : s.registered ≠ s.before
  busy : s.busy = false
  rl78 : Rl78 t
  exists_ : s.sim.isSome = true

/-- What holds by the position of the call. -/
def Stage (t : Attachment n) (s : AttachCall n m E F) : AttachPc → Prop
  | .called | .checked => s.registered = s.before ∧ s.busy = false
  | .found => s.registered = s.before ∧ s.busy = false ∧ Rl78 t ∧ s.sim.isSome = true
  | .installed _ | .stopped _ => Installed t s
  | .clearing _ ticket => Installed t s ∧ ticket < s.backend.tickets ∧
      ∀ r ∈ s.backend.socket, r.ticket = ticket → r.cmd = .ClearBreakpoints
  | .done _ => True

/-- The view has boards of the topology only. -/
def Offers (t : Attachment n) (view : SessionStatus) : Prop :=
  ∀ node ∈ view.nodes, ∃ board ∈ t.topo.boards,
    t.board_id_hash board.id = node.id ∧ board.kind = node.kind

theorem Offers.rl78 {t : Attachment n} {view : SessionStatus} (h : Offers t view)
    (hfind : find_node view.nodes t.board_id = some "rl78") : Rl78 t := by
  obtain ⟨node, hnode, hkind⟩ := Option.map_eq_some_iff.mp hfind
  have hid : node.id = t.board_id := by simpa using List.find?_some hnode
  obtain ⟨board, hboard, hhash, hsame⟩ := h node (List.mem_of_find?_eq_some hnode)
  exact ⟨board, hboard, hhash.trans hid, hsame.trans hkind⟩

/-- The lookup finds an `rl78` board, or comes to an error. -/
theorem AttachCall.lookup_cases (t : Attachment n) (s : AttachCall n m E F) :
    (∃ view, s.sim = some view ∧ find_node view.nodes t.board_id = some "rl78" ∧
      s.lookup t = .found) ∨
    ∃ err, s.lookup t = .done (.error err) ∧
      (s.sim.bind fun view => find_node view.nodes t.board_id) ≠ some "rl78" := by
  unfold lookup
  cases hview : s.sim with
  | none => exact .inr ⟨_, rfl, nofun⟩
  | some view =>
    cases hfind : find_node view.nodes t.board_id with
    | none => exact .inr ⟨.not_found "unknown board", by simp [hfind], by simp [hfind]⟩
    | some kind =>
      by_cases hkind : kind = "rl78"
      · subst hkind
        exact .inl ⟨view, rfl, hfind, by simp [hfind]⟩
      · refine .inr ⟨.bad_request "bad_param" "gdb target must be an rl78 board", ?_, ?_⟩
        · simp only [hfind, if_neg hkind]
        · simp [hfind, hkind]

theorem offers_created (t : Attachment n) : Offers t (AttachCall.created t) := by
  intro node hnode
  obtain ⟨board, hboard, rfl⟩ := List.mem_map.mp hnode
  exact ⟨board, hboard, rfl, rfl⟩

/-- What the arbiter publishes comes through the sample, but for the boards that
    have no room in it. -/
theorem offers_written (t : Attachment n) (running : Bool) (virtual_time_ns : Nat)
    (stop_reason : Option HostStopReason) (peers : String → Option PeerState) :
    Offers t (HostStatusWire.from_status (write_status t.board_id_hash running virtual_time_ns
      stop_reason t.topo peers)).to_status := by
  intro node hnode
  rw [nodes_of_wire (packable_write_status t.kinds _ _ _ _)] at hnode
  obtain ⟨board, hboard, rfl⟩ := List.mem_map.mp (List.mem_of_mem_take hnode)
  exact ⟨board, hboard, rfl, rfl⟩

namespace Stage

variable {t : Attachment n} {s s' : AttachCall n m E F} {pc : AttachPc}

/-- The call waits, and others go on. -/
theorem keep (h : Stage t s pc) (hregistered : s'.registered = s.registered)
    (hbefore : s'.before = s.before) (hbusy : s'.busy = s.busy)
    (hsim : s.sim.isSome = true → s'.sim.isSome = true)
    (htickets : s.backend.tickets ≤ s'.backend.tickets)
    (hsocket : ∀ r ∈ s'.backend.socket, r ∈ s.backend.socket ∨ s.backend.tickets ≤ r.ticket) :
    Stage t s' pc := by
  have hinstalled (h : Installed t s) : Installed t s' := by
    refine ⟨?_, hbusy.trans h.busy, h.rl78, hsim h.exists_⟩
    rw [hregistered, hbefore]
    exact h.registered
  cases pc with
  | called | checked => exact ⟨hregistered.trans (h.1.trans hbefore.symm), hbusy.trans h.2⟩
  | found =>
    obtain ⟨hsame, hidle, hrl78, hexists⟩ := h
    exact ⟨hregistered.trans (hsame.trans hbefore.symm), hbusy.trans hidle, hrl78, hsim hexists⟩
  | installed | stopped => exact hinstalled h
  | clearing info ticket =>
    obtain ⟨hold, hlt, hclear⟩ := h
    refine ⟨hinstalled hold, Nat.lt_of_lt_of_le hlt htickets, ?_⟩
    intro r hr hticket
    rcases hsocket r hr with hmem | hnew
    · exact hclear r hmem hticket
    · omega
  | done => trivial

end Stage

section Runs

variable {C Ev M : Type} [Cpu C Ev F] [Model M F]

/-- What holds of every call. -/
structure Attaching (t : Attachment n) (s : AttachCall n m (Board C Ev M F) F) : Prop where
  ticketed : s.backend.Ticketed
  earlier : ∀ v, s.before = some v → v < s.serials
  offers : ∀ view, s.sim = some view → Offers t view
  machine : Rl78 t → (guest s.backend.net t.b).is_plant = false
  stage : Stage t s s.pc

namespace Attaching

variable {cfg : Config n m} {t : Attachment n} {s s' : AttachCall n m (Board C Ev M F) F}
  {l : AttachStep n}

omit [Cpu C Ev F] [Model M F] in
/-- The call goes on, and nothing else does. -/
theorem of_pc (h : Attaching t s) {pc : AttachPc} {busy : Bool}
    (hstage : Stage t { s with pc := pc, busy := busy } pc) :
    Attaching t { s with pc := pc, busy := busy } :=
  ⟨h.ticketed, h.earlier, h.offers, h.machine, hstage⟩

/-- The backend has moved. -/
theorem of_backend (h : Attaching t s) {l : BackendStep n}
    {backend : Backend n m (Board C Ev M F) F}
    (hstep : Backend.Stepped cfg t.b s.backend l backend) :
    Attaching t { s with backend := backend } := by
  refine ⟨hstep.ticketed h.ticketed, h.earlier, h.offers, ?_, ?_⟩
  · intro hrl78
    refine Eq.trans ?_ (h.machine hrl78)
    cases hstep with
    | net l net _ hnet => exact Board.is_plant_step hnet
    | command cmd rest net _ hnet => exact Board.is_plant_step hnet
    | post | ask => rfl
    | serve r rest net _ hnet => exact Board.is_plant_step hnet
  · cases hstep with
    | net | command | post =>
      exact h.stage.keep rfl rfl rfl id (Nat.le_refl _) fun r hr => .inl hr
    -- A new inquiry takes a ticket that nobody has.
    | ask cmd =>
      refine h.stage.keep rfl rfl rfl id (Nat.le_succ _) ?_
      intro r hr
      rcases List.mem_append.mp hr with hr | hr
      · exact .inl hr
      · rw [List.mem_singleton.mp hr]
        exact .inr (Nat.le_refl _)
    | serve r rest net hsocket =>
      refine h.stage.keep rfl rfl rfl id (Nat.le_refl _) ?_
      intro r' hr'
      rw [hsocket]
      exact .inl (List.mem_cons_of_mem _ hr')

omit [Cpu C Ev F] [Model M F] in
/-- The worker has another status. -/
theorem of_view (h : Attaching t s) {view : SessionStatus} (hview : Offers t view) :
    Attaching t { s with sim := some view } := by
  refine ⟨h.ticketed, h.earlier, ?_, h.machine, ?_⟩
  · rintro view' ⟨⟩
    exact hview
  · exact h.stage.keep rfl rfl rfl (fun _ => rfl) (Nat.le_refl _) fun r hr => .inl hr

theorem moved (h : Attaching t s) (hm : AttachCall.Moved cfg t s l s') : Attaching t s' := by
  have hstage := h.stage
  cases hm with
  | other l backend _ hstep => exact h.of_backend hstep
  | served r rest net hsocket hnet => exact h.of_backend (.serve r rest net hsocket hnet)
  | answered info r rest net hsocket hnet =>
    exact (h.of_backend (.serve r rest net hsocket hnet)).of_pc trivial
  | take_status => exact h.of_view (offers_written t _ _ _ _)
  | exit view hview => exact h.of_view (h.offers view hview)
  | client connected slot hslot =>
    refine ⟨h.ticketed, h.earlier, h.offers, h.machine, ?_⟩
    refine h.stage.keep ?_ rfl rfl id (Nat.le_refl _) fun r hr => .inl hr
    unfold AttachCall.registered
    rw [hslot]
    rfl
  | busy => exact h.of_pc trivial
  | checked hpc =>
    rw [hpc] at hstage
    exact h.of_pc hstage
  | status fail hpc =>
    rw [hpc] at hstage
    refine h.of_pc ?_
    cases fail with
    | some err => trivial
    | none =>
      dsimp only
      rcases s.lookup_cases t with ⟨view, hview, hfind, hfound⟩ | ⟨err, herr, -⟩
      · rw [hfound]
        exact ⟨hstage.1, hstage.2, (h.offers view hview).rl78 hfind, by simp [hview]⟩
      · rw [herr]
        trivial
  | unbound => exact h.of_pc trivial
  | bound port user hpc =>
    rw [hpc] at hstage
    obtain ⟨hsame, hidle, hrl78, hexists⟩ := hstage
    refine ⟨h.ticketed, ?_, h.offers, h.machine, ?_, hidle, hrl78, hexists⟩
    · intro v hv
      exact Nat.lt_succ_of_lt (h.earlier v hv)
    · -- Serials are handed out once.
      intro heq
      have hlt := h.earlier s.serials heq.symm
      omega
  | stop info fail hpc =>
    rw [hpc] at hstage
    obtain ⟨hregistered, hidle, hrl78, hexists⟩ := hstage
    cases fail with
    | some err => exact h.of_pc trivial
    | none =>
      dsimp only
      unfold AttachCall.request_stop
      split
      · exact h.of_pc trivial
      · split
        · exact h.of_pc trivial
        · have hposted : Backend.Stepped cfg t.b s.backend _ (s.backend.post .Stop) := .post .Stop
          exact (h.of_backend hposted).of_pc ⟨hregistered, hidle, hrl78, hexists⟩
  | clear info fail hpc =>
    rw [hpc] at hstage
    obtain ⟨hregistered, hidle, hrl78, hexists⟩ := hstage
    cases fail with
    | some err => exact h.of_pc trivial
    | none =>
      dsimp only
      unfold AttachCall.request_clear
      split
      · exact h.of_pc trivial
      · split
        · have hasked : Backend.Stepped cfg t.b s.backend _ (s.backend.ask .ClearBreakpoints) :=
            .ask .ClearBreakpoints
          refine (h.of_backend hasked).of_pc ⟨⟨hregistered, hidle, hrl78, hexists⟩, ?_, ?_⟩
          · exact Nat.lt_succ_self _
          -- Older inquiries have smaller tickets.
          · intro r hr hticket
            rcases List.mem_append.mp hr with hr | hr
            · have hlt := h.ticketed.2 r hr
              omega
            · rw [List.mem_singleton.mp hr]
        · exact h.of_pc trivial
  | give_up => exact h.of_pc trivial

end Attaching

/-! ### What the call promises -/

/-- A call that returns an error has changed nothing, and for an `rl78` board of a
    live simulation to which no client is connected it returns none. -/
def Promised (t : Attachment n) (s : AttachCall n m (Board C Ev M F) F) : Prop :=
  ∀ res, s.pc = .done res →
    ((∃ err, res = .error err) → s.registered = s.before) ∧
      (Rl78 t → s.live = true → s.busy = false → ∃ info, res = .ok info)

/-- The calls of the backend do not fail by themselves; the board is in the view
    of the worker, the arbiter has not exited when the stop is published, and the
    simulator of the board is stopped when its node serves the request to clear. -/
def Granted (t : Attachment n) (s : AttachCall n m (Board C Ev M F) F) : AttachStep n → Prop
  | .status fail => Rl78 t → s.live = true →
      fail = none ∧ (s.sim.bind fun view => find_node view.nodes t.board_id) = some "rl78"
  | .spawn_slot bound => s.live = true → ∃ port user, bound = .ok (port, user)
  | .stop fail => fail = none ∧ s.live = true
  | .clear fail => fail = none
  | .serve =>
    match s.pc, s.backend.socket with
    | .clearing _ ticket, r :: _ => r.ticket = ticket →
        (s.backend.net.spoke t.b).sim.state = .Stopped
    | _, _ => True
  | .give_up _ => False
  | _ => True

section Settled

variable {cfg : Config n m} {t : Attachment n} {s s' : AttachCall n m (Board C Ev M F) F}
  {l : AttachStep n}

omit [Cpu C Ev F] [Model M F] in
/-- The call has not returned yet. -/
theorem promised_of_pc (h : ∀ res, s.pc ≠ .done res) : Promised t s :=
  fun res hpc => absurd hpc (h res)

omit [Cpu C Ev F] [Model M F] in
theorem promised_ok {info : GdbSessionInfo} (h : s.pc = .done (.ok info)) : Promised t s := by
  intro res hpc
  rw [h] at hpc
  cases hpc
  refine ⟨?_, fun _ _ _ => ⟨info, rfl⟩⟩
  rintro ⟨err, herr⟩
  cases herr

omit [Cpu C Ev F] [Model M F] in
/-- An error before the new slot is registered. -/
theorem promised_early {err : ApiError} {busy : Bool} (hregistered : s.registered = s.before) :
    Promised t { s with pc := .done (.error err), busy := busy } ↔
      (Rl78 t → s.live = true → busy = true) := by
  constructor
  · intro hpromised hrl78 hlive
    by_contra hbusy
    obtain ⟨info, hok⟩ := (hpromised _ rfl).2 hrl78 hlive (by simpa using hbusy)
    cases hok
  · rintro hbusy res ⟨⟩
    refine ⟨fun _ => hregistered, ?_⟩
    intro hrl78 hlive hidle
    rw [hbusy hrl78 hlive] at hidle
    cases hidle

omit [Cpu C Ev F] [Model M F] in
/-- No error is harmless after that. -/
theorem not_promised_late {err : ApiError} (h : s.pc = .done (.error err))
    (hregistered : s.registered ≠ s.before) : ¬ Promised t s :=
  fun hpromised => hregistered ((hpromised _ h).1 ⟨err, rfl⟩)

/-- What the board of the call answers to the request to clear. -/
theorem answer_clear {r : Inquiry} (hcmd : r.cmd = .ClearBreakpoints)
    (hmachine : (guest s.backend.net t.b).is_plant = false) :
    reply_from_response (s.backend.answer t.b r) = .Ok ↔
      (s.backend.net.spoke t.b).sim.state = .Stopped := by
  unfold Backend.answer
  rw [hcmd]
  unfold Simulator.command
  cases hstate : (s.backend.net.spoke t.b).sim.state with
  | Quit => simp [reply_from_response]
  | Running => simp [reply_from_response]
  | Stopped =>
    cases hboard : (s.backend.net.spoke t.b).sim.entity with
    | plant p =>
      have hplant : (guest s.backend.net t.b).is_plant = true := by
        unfold guest
        rw [hboard]
        rfl
      rw [hplant] at hmachine
      cases hmachine
    | machine => simp [Entity.inspect, Machine.inspect_command, reply_from_response]

/-- Whether the call keeps its promise is decided by the step that ends it. -/
theorem Attaching.settled (h : Attaching t s) (hm : AttachCall.Moved cfg t s l s')
    (hopen : ∀ res, s.pc ≠ .done res) : Promised t s' ↔ Granted t s l := by
  have hstage := h.stage
  cases hm with
  | other | take_status | exit | client => exact iff_of_true (promised_of_pc hopen) trivial
  | served r rest net hsocket hnet hticket =>
    refine iff_of_true (promised_of_pc hopen) ?_
    unfold Granted
    dsimp only
    split
    · rename_i info ticket r' rest' hpc hsocket'
      intro heq
      rw [hsocket] at hsocket'
      cases hsocket'
      rw [← heq] at hpc
      exact absurd hpc (hticket info)
    · trivial
  | answered info r rest net hsocket hnet hpc =>
    rw [hpc] at hstage
    obtain ⟨hinstalled, -, hclears⟩ := hstage
    have hcmd := hclears r (by rw [hsocket]; exact List.mem_cons_self) rfl
    have hgranted : Granted t s .serve ↔ (s.backend.net.spoke t.b).sim.state = .Stopped := by
      simp [Granted, hpc, hsocket]
    -- The board answers `Ok` to the clearing exactly when it is stopped.
    rw [hgranted, ← answer_clear hcmd (h.machine hinstalled.rl78)]
    cases hreply : reply_from_response (s.backend.answer t.b r) with
    | Ok => exact iff_of_true (promised_ok rfl) rfl
    | _ => exact iff_of_false (not_promised_late rfl hinstalled.registered) nofun
  | busy hpc =>
    rw [hpc] at hstage
    exact iff_of_true ((promised_early hstage.1).mpr fun _ _ => rfl) trivial
  | checked => exact iff_of_true (promised_of_pc nofun) trivial
  | status fail hpc =>
    rw [hpc] at hstage
    have hearly (err : ApiError) :
        Promised t { s with pc := .done (.error err) } ↔ (Rl78 t → s.live = true → False) := by
      rw [promised_early hstage.1, hstage.2]
      simp
    cases fail with
    | some err =>
      dsimp only
      rw [hearly]
      simp [Granted]
    | none =>
      dsimp only
      rcases s.lookup_cases t with ⟨view, hview, hfind, hfound⟩ | ⟨err, herr, hfind⟩
      · rw [hfound]
        -- The board is found: nothing has been promised and nothing refused yet.
        refine iff_of_true (promised_of_pc nofun) ?_
        intro _ _
        rw [hview]
        exact ⟨rfl, hfind⟩
      · rw [herr, hearly]
        simp [Granted, hfind]
  | unbound message hpc =>
    rw [hpc] at hstage
    obtain ⟨hsame, hidle, hrl78, -⟩ := hstage
    rw [promised_early hsame, hidle]
    simp [Granted, hrl78]
  | bound port user => exact iff_of_true (promised_of_pc nofun) fun _ => ⟨port, user, rfl⟩
  | stop info fail hpc =>
    rw [hpc] at hstage
    cases fail with
    | some err => exact iff_of_false (not_promised_late rfl hstage.registered) nofun
    | none =>
      dsimp only
      unfold AttachCall.request_stop Granted AttachCall.live
      split
      · rename_i hview
        refine iff_of_false (not_promised_late rfl hstage.registered) ?_
        simp [hview]
      · rename_i view hview
        split
        · rename_i hexited
          refine iff_of_false (not_promised_late rfl hstage.registered) ?_
          simp [hview, hexited]
        · rename_i hexited
          refine iff_of_true (promised_of_pc nofun) ?_
          simp [hview, hexited]
  | clear info fail hpc =>
    rw [hpc] at hstage
    cases fail with
    | some err => exact iff_of_false (not_promised_late rfl hstage.registered) nofun
    | none =>
      refine iff_of_true ?_ rfl
      dsimp only
      unfold AttachCall.request_clear
      split
      · rename_i hview
        have hexists := hstage.exists_
        rw [hview] at hexists
        cases hexists
      · split
        · exact promised_of_pc nofun
        · rename_i hboard
          obtain ⟨board, hmem, hhash, -⟩ := hstage.rl78
          refine absurd (List.any_eq_true.mpr ⟨board, hmem, ?_⟩) hboard
          simpa using hhash
  | give_up info ticket err hpc =>
    rw [hpc] at hstage
    exact iff_of_false (not_promised_late rfl hstage.1.registered) id

end Settled

/-! ### Runs -/

/-- The call has just been made. The simulation and the slot are in any state,
    and so is the view that the worker has of the simulation. -/
structure Arrived (t : Attachment n) (s : AttachCall n m (Board C Ev M F) F) : Prop where
  ticketed : s.backend.Ticketed
  serials : ∀ v, s.registered = some v → v < s.serials
  before : s.before = s.registered
  busy : s.busy = false
  pc : s.pc = .called
  offers : ∀ view, s.sim = some view → Offers t view
  machine : Rl78 t → (guest s.backend.net t.b).is_plant = false

/-- All runs of a call. A run ends when the call returns. -/
def attach_runs (C Ev M : Type) {F : Type} [Cpu C Ev F] [Model M F] (cfg : Config n m)
    (t : Attachment n) : System (AttachCall n m (Board C Ev M F) F) (AttachStep n) where
  init := Arrived t
  step s l := if s.returned then none else s.next cfg t l

def AnyAttach (_ : AttachCall n m (Board C Ev M F) F) (_ : AttachStep n) : Prop := True

section AllRuns

variable {cfg : Config n m} {t : Attachment n} {s s' : AttachCall n m (Board C Ev M F) F}
  {l : AttachStep n} {ok : Guard (AttachCall n m (Board C Ev M F) F) (AttachStep n)}

theorem attach_step (h : (attach_runs C Ev M cfg t).step s l = some s') :
    (∀ res, s.pc ≠ .done res) ∧ AttachCall.Moved cfg t s l s' := by
  have h : (if s.returned = true then none else s.next cfg t l) = some s' := h
  split at h
  · cases h
  · rename_i hopen
    refine ⟨?_, AttachCall.next_cases h⟩
    intro res hpc
    apply hopen
    unfold AttachCall.returned
    rw [hpc]

theorem attaching_of_reachable (h : Reachable (attach_runs C Ev M cfg t) ok s) :
    Attaching t s := by
  induction h with
  | @init s hinit =>
    refine ⟨hinit.ticketed, ?_, hinit.offers, hinit.machine, ?_⟩
    · rw [hinit.before]
      exact hinit.serials
    · rw [hinit.pc]
      exact ⟨hinit.before.symm, hinit.busy⟩
  | step _ _ _ hstep ih => exact ih.moved (attach_step hstep).2

theorem promised_of_granted (h : Reachable (attach_runs C Ev M cfg t) (Granted t) s) :
    Promised t s := by
  cases h with
  | init hinit =>
    refine promised_of_pc ?_
    rw [hinit.pc]
    nofun
  | step l hreach hok hstep =>
    obtain ⟨hopen, hm⟩ := attach_step hstep
    exact ((attaching_of_reachable hreach).settled hm hopen).mpr hok

/-- A run takes only steps that are granted, or has broken the promise. -/
theorem granted_or_broken (h : Reachable (attach_runs C Ev M cfg t) ok s) :
    Reachable (attach_runs C Ev M cfg t) (Granted t) s ∨ ¬ Promised t s := by
  induction h with
  | init hinit => exact .inl (.init hinit)
  | @step s s' l hreach _ hstep ih =>
    obtain ⟨hopen, hm⟩ := attach_step hstep
    have hsettled := (attaching_of_reachable hreach).settled hm hopen
    rcases ih with hgranted | hbroken
    · by_cases hok : Granted t s l
      · exact .inl (.step l hgranted hok hstep)
      · exact .inr fun hpromised => hok (hsettled.mp hpromised)
    · -- The run would have ended there.
      exact absurd (promised_of_pc hopen) hbroken

/-- A call of `attach_gdb_slot` that fails has changed nothing, and one for an
    `rl78` board of a live simulation to which no client is connected succeeds,
    exactly in the runs in which every step is granted. -/
theorem failed_attach_changes_nothing (h : Reachable (attach_runs C Ev M cfg t) AnyAttach s) :
    Promised t s ↔ Reachable (attach_runs C Ev M cfg t) (Granted t) s := by
  constructor
  · intro hpromised
    rcases granted_or_broken h with hgranted | hbroken
    · exact hgranted
    · exact absurd hpromised hbroken
  · exact promised_of_granted

end AllRuns

end Runs

/-! ### Attaching to a running simulation -/

/-- Two boards. -/
def attachment : Attachment 2 where
  topo :=
    { boards := [⟨"a", "rl78", none, []⟩, ⟨"bb", "rl78", none, []⟩]
      edges := []
      margin_ns := 1000
      headroom_threshold_ns := 100
      ready_timeout_ms := 1000 }
  board_id_hash id := UInt64.ofNat id.length
  board_id := 1
  b := 0
  advertise_host := "sim"
  kinds := by decide

/-- The call is made to a simulation that has just been created. A slot is
    registered. -/
def attach_call : AttachCall 2 0 Guest Nat where
  backend := Backend.boot (guests (unwired 1000 100) fun _ => .chip [] [])
  sim := some (AttachCall.created attachment)
  slot := some ⟨0, 1, 4000, "sim", "gdb", false⟩
  serials := 1
  before := some 0
  busy := false
  pc := .called

theorem arrived_attach_call : Arrived attachment attach_call where
  ticketed := ⟨.nil, nofun⟩
  serials := by decide
  before := rfl
  busy := rfl
  pc := rfl
  offers := by
    rintro view ⟨⟩
    exact offers_created attachment
  machine _ := rfl

instance (s : AttachCall 2 0 Guest Nat) (l : AttachStep 2) : Decidable (AnyAttach s l) :=
  .isTrue trivial

/-- The simulation starts, and a client asks for a stub of the first board. -/
def asked : List (AttachStep 2) :=
  [.other (.net (.spoke 0 .drained)), .other (.post (.Start none)), .other .command,
    .other (.net (.spoke 0 (.service []))), .other (.net (.take 0 ⟨2, 0⟩)),
    .other (.net (.spoke 0 .drained)), .gdb_connected, .status none,
    .spawn_slot (.ok (4001, "gdb")), .stop none]

/-- The stop reaches the board. -/
def stopped : List (AttachStep 2) :=
  [.other .command, .other (.net (.spoke 0 (.service []))), .other (.net (.spoke 0 .pump_rx)),
    .other (.net (.spoke 0 (.poll 2))), .other (.net (.spoke 0 .pump_tx)),
    .other (.net (.take 0 ⟨2, 0⟩)), .other (.net (.spoke 0 .drained))]

/-- The call succeeds when the stop comes first. -/
theorem failed_attach_changes_nothing_stopped :
    ∃ s info, Reachable (attach_runs Script Empty Ticker (unwired 1000 100) attachment)
      (Granted attachment) s ∧ s.pc = .done (.ok info) ∧ s.registered = some 1 := by
  obtain ⟨s, hs, hpc, hregistered⟩ :
      ∃ s, Reachable (attach_runs Script Empty Ticker (unwired 1000 100) attachment) AnyAttach s ∧
        s.pc = .done (.ok ⟨1, "sim", 4001, "gdb", false⟩) ∧ s.registered = some 1 :=
    Reachable.exists_of_exec (asked ++ stopped ++ [.clear none, .serve]) arrived_attach_call
      (by decide +kernel)
  exact ⟨s, _, (failed_attach_changes_nothing hs).mp (promised_ok hpc), hpc, hregistered⟩

/-- The request to clear comes first: the call fails, and the slot that there was
    is gone. -/
theorem failed_attach_drops_slot :
    ∃ s, Reachable (attach_runs Script Empty Ticker (unwired 1000 100) attachment) AnyAttach s ∧
      s.pc = .done (.error (.internal "simulation is running")) ∧ s.live = true ∧
      s.busy = false ∧ s.before = some 0 ∧ s.registered = some 1 :=
  Reachable.exists_of_exec (asked ++ [.clear none, .serve]) arrived_attach_call
    (by decide +kernel)

end Rl78Sim
