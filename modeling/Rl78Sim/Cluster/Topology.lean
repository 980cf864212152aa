import Rl78Sim.Cluster.DataPlane
import Rl78Sim.Framework.Fallible

/-! # The Logical Topology

    The JSON contract of a simulation and its structural checks. The check of
    an `elf` string rests on URL and Base64 libraries and is a parameter; the
    JSON codec itself is left out.
-/

namespace Rl78Sim

/-- `EndpointDirection`. -/
inductive EndpointDirection where
  | In
  | Out
  deriving DecidableEq

/-- `EndpointSpec`. -/
structure EndpointSpec where
  name : String
  direction : EndpointDirection
  payload : PayloadKind
  deriving DecidableEq

/-- `BoardSpec`. -/
structure BoardSpec where
  id : String
  kind : String
  elf : Option String
  endpoints : List EndpointSpec

/-- `PortRef`. -/
structure PortRef where
  path : String
  port : String
  deriving DecidableEq

/-- `DirectedEdge`. -/
structure DirectedEdge where
  from_ : PortRef
  to_ : PortRef
  route : List PortRef
  payload : PayloadKind
  uart_ring_len : Option Nat

/-- `LogicalTopology`. -/
structure LogicalTopology where
  boards : List BoardSpec
  edges : List DirectedEdge
  margin_ns : Nat
  headroom_threshold_ns : Nat
  ready_timeout_ms : Nat

/-- `TopologyError`, without the errors of the JSON parser. -/
inductive TopologyError where
  | Invalid (message : String)
  deriving DecidableEq

/-- The `Debug` form of a payload kind. -/
def PayloadKind.debug : PayloadKind → String
  | .Uart => "Uart"
  | .Digital => "Digital"
  | .Analog => "Analog"

namespace LogicalTopology

/-- A check that fails with `message` unless `b`. -/
def require (b : Bool) (message : String) : Except TopologyError Unit :=
  if b then .ok () else .error (.Invalid message)

/-- The endpoints of a board: named, and each name once. `seen` are the names
    checked so far. -/
def check_endpoints (board : BoardSpec) :
    List String → List EndpointSpec → Except TopologyError Unit
  | _, [] => .ok ()
  | seen, ep :: eps => do
      require (!ep.name.isEmpty) s!"board '{board.id}': endpoint name must not be empty"
      require (ep.name ∉ seen) s!"board '{board.id}': duplicate endpoint '{ep.name}'"
      check_endpoints board (ep.name :: seen) eps

/-- The boards: named, each name once, with valid endpoints and firmware. -/
def check_boards (check_spec : String → Except String Unit) :
    List String → List BoardSpec → Except TopologyError Unit
  | _, [] => .ok ()
  | seen, board :: boards => do
      require (!board.id.isEmpty) "board id must not be empty"
      require (board.id ∉ seen) s!"duplicate board id '{board.id}'"
      check_endpoints board [] board.endpoints
      match board.elf.map check_spec with
      | some (.error err) => .error (.Invalid s!"board '{board.id}': {err}")
      | _ => check_boards check_spec (board.id :: seen) boards

/-- The board that an edge names. -/
def board_at (topo : LogicalTopology) (path : String) : Option (Fin topo.boards.length) :=
  (List.finRange topo.boards.length).find? fun i => topo.boards[i].id = path

/-- The endpoint `port` of a board. -/
def endpoint_at (board : BoardSpec) (port : String) : Option EndpointSpec :=
  board.endpoints.find? fun ep => ep.name = port

/-- `ok_or_else`. -/
def found {α : Type} (o : Option α) (message : String) : Except TopologyError α :=
  match o with
  | some a => .ok a
  | none => .error (.Invalid message)

/-- One edge: its route, its endpoints and their kinds. -/
def check_edge (topo : LogicalTopology) (seen : List (PortRef × PortRef))
    (edge : DirectedEdge) : Except TopologyError Unit := do
  require (!edge.route.isEmpty) "edge route must not be empty"
  require (edge.route.head? = some edge.from_) "edge route[0] must equal from"
  require (edge.route.getLast? = some edge.to_) "edge route[last] must equal to"
  require ((edge.from_, edge.to_) ∉ seen)
    s!"duplicate edge '{edge.from_.path}:{edge.from_.port}' -> '{edge.to_.path}:{edge.to_.port}'"
  let src ← found (topo.board_at edge.from_.path)
    s!"edge from unknown board '{edge.from_.path}'"
  let dst ← found (topo.board_at edge.to_.path) s!"edge to unknown board '{edge.to_.path}'"
  let from_ep ← found (endpoint_at topo.boards[src] edge.from_.port)
    s!"edge: board '{edge.from_.path}' has no endpoint '{edge.from_.port}'"
  let to_ep ← found (endpoint_at topo.boards[dst] edge.to_.port)
    s!"edge: board '{edge.to_.path}' has no endpoint '{edge.to_.port}'"
  require (from_ep.direction = .Out)
    s!"edge source '{edge.from_.path}:{edge.from_.port}' must be direction out"
  require (to_ep.direction = .In)
    s!"edge sink '{edge.to_.path}:{edge.to_.port}' must be direction in"
  require (from_ep.payload = edge.payload && to_ep.payload = edge.payload)
    s!"edge payload {edge.payload.debug} mismatches endpoint payloads"
  require (edge.from_.path ≠ edge.to_.path) "edge must connect two different boards"

def check_edges (topo : LogicalTopology) :
    List (PortRef × PortRef) → List DirectedEdge → Except TopologyError Unit
  | _, [] => .ok ()
  | seen, edge :: edges => do
      topo.check_edge seen edge
      check_edges topo ((edge.from_, edge.to_) :: seen) edges

/-- `LogicalTopology::validate`. -/
def validate (check_spec : String → Except String Unit) (topo : LogicalTopology) :
    Except TopologyError Unit := do
  require (!topo.boards.isEmpty) "topology must declare at least one board"
  check_boards check_spec [] topo.boards
  topo.check_edges [] topo.edges

/-! ### What an accepted topology guarantees -/

open Fallible

theorem require_ok {b : Bool} {message : String} (h : require b message = .ok ()) : b = true := by
  unfold require at h
  split at h
  · assumption
  · cases h

theorem found_ok {α : Type} {o : Option α} {message : String} {a : α}
    (h : found o message = .ok a) : o = some a := by
  cases o with
  | none => cases h
  | some b => exact congrArg some (Except.ok.inj h)

theorem board_at_id {topo : LogicalTopology} {path : String} {i : Fin topo.boards.length}
    (h : topo.board_at path = some i) : topo.boards[i].id = path := by
  simpa using List.find?_some h

/-- The boards of a checked edge exist and differ. -/
theorem check_edge_ok {topo : LogicalTopology} {seen : List (PortRef × PortRef)}
    {edge : DirectedEdge} (h : topo.check_edge seen edge = .ok ()) :
    ∃ src dst, topo.board_at edge.from_.path = some src ∧
      topo.board_at edge.to_.path = some dst ∧ src ≠ dst := by
  obtain ⟨_, -, h⟩ := bind_ok h
  obtain ⟨_, -, h⟩ := bind_ok h
  obtain ⟨_, -, h⟩ := bind_ok h
  obtain ⟨_, -, h⟩ := bind_ok h
  obtain ⟨src, hsrc, h⟩ := bind_ok h
  obtain ⟨dst, hdst, h⟩ := bind_ok h
  obtain ⟨_, -, h⟩ := bind_ok h
  obtain ⟨_, -, h⟩ := bind_ok h
  obtain ⟨_, -, h⟩ := bind_ok h
  obtain ⟨_, -, h⟩ := bind_ok h
  obtain ⟨_, -, hne⟩ := bind_ok h
  refine ⟨src, dst, found_ok hsrc, found_ok hdst, ?_⟩
  rintro rfl
  have hpaths := require_ok hne
  rw [← board_at_id (found_ok hsrc), ← board_at_id (found_ok hdst)] at hpaths
  simp at hpaths

theorem check_edges_ok {topo : LogicalTopology} {seen : List (PortRef × PortRef)}
    {edges : List DirectedEdge} (h : topo.check_edges seen edges = .ok ()) :
    ∀ edge ∈ edges, ∃ src dst, topo.board_at edge.from_.path = some src ∧
      topo.board_at edge.to_.path = some dst ∧ src ≠ dst := by
  induction edges generalizing seen with
  | nil => exact nofun
  | cons edge edges ih =>
    obtain ⟨_, hedge, hrest⟩ := bind_ok h
    intro e he
    rcases List.mem_cons.mp he with rfl | he
    · exact check_edge_ok hedge
    · exact ih hrest e he

variable {check_spec : String → Except String Unit} {topo : LogicalTopology}

theorem validate_boards (h : topo.validate check_spec = .ok ()) : 0 < topo.boards.length := by
  obtain ⟨_, hboards, -⟩ := bind_ok h
  have hne := require_ok hboards
  exact List.length_pos_iff.mpr (by simpa using hne)

theorem validate_edges (h : topo.validate check_spec = .ok ()) :
    ∀ edge ∈ topo.edges, ∃ src dst, topo.board_at edge.from_.path = some src ∧
      topo.board_at edge.to_.path = some dst ∧ src ≠ dst := by
  obtain ⟨_, -, h⟩ := bind_ok h
  obtain ⟨_, -, h⟩ := bind_ok h
  exact check_edges_ok h

/-! ### The cluster of an accepted topology -/

/-- An edge with its boards looked up. -/
def resolve (topo : LogicalTopology) (edge : DirectedEdge) : Option (Edge topo.boards.length) :=
  match topo.board_at edge.from_.path, topo.board_at edge.to_.path with
  | some src, some dst =>
      some ⟨src, edge.from_.port, dst, edge.to_.port, edge.payload, edge.uart_ring_len⟩
  | _, _ => none

theorem validate_resolve (h : topo.validate check_spec = .ok ()) {edge : DirectedEdge}
    (hmem : edge ∈ topo.edges) : ∃ e, topo.resolve edge = some e ∧ e.src ≠ e.dst := by
  obtain ⟨src, dst, hsrc, hdst, hne⟩ := validate_edges h edge hmem
  refine ⟨⟨src, edge.from_.port, dst, edge.to_.port, edge.payload, edge.uart_ring_len⟩, ?_, hne⟩
  simp only [resolve, hsrc, hdst]

/-- What the arbiter and the nodes run for an accepted topology. -/
def config (h : topo.validate check_spec = .ok ()) :
    Config topo.boards.length topo.edges.length where
  margin_ns := topo.margin_ns
  headroom_threshold_ns := topo.headroom_threshold_ns
  edge i := (topo.resolve topo.edges[i]).get (by
    obtain ⟨e, he, -⟩ := validate_resolve h (List.getElem_mem i.isLt)
    exact Option.isSome_of_eq_some he)
  boards_pos := validate_boards h
  edge_ne i := by
    obtain ⟨e, he, hne⟩ := validate_resolve h (List.getElem_mem i.isLt)
    have he : topo.resolve topo.edges[i] = some e := he
    rw [Option.get_of_eq_some _ he]
    exact hne

end LogicalTopology

end Rl78Sim
