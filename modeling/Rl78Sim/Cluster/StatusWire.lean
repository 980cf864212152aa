import Rl78Sim.Cluster.Session
import Rl78Sim.Cluster.EdgeNames

/-! # The Status Wire

    The status that the arbiter publishes to the server, and the sample of
    fixed size in which it travels. A sample has room for `node_cap` boards;
    `write_status` reports one row for each board of the topology, and the
    topology may have any number of them. -/

namespace Rl78Sim

/-! ### Labels -/

namespace HostStopReason

/-- `HostStopReason::as_str`. -/
def as_str : HostStopReason → String
  | .Breakpoint => "breakpoint"
  | .ExternalStop => "external_stop"
  | .Step => "step"
  | .Unmapped => "unmapped"
  | .Until => "until"

/-- `HostStopReason::from_label`. -/
def from_label : String → Option HostStopReason
  | "breakpoint" => some .Breakpoint
  | "external_stop" => some .ExternalStop
  | "external" => some .ExternalStop
  | "step" => some .Step
  | "unmapped" => some .Unmapped
  | "until" => some .Until
  | _ => none

/-- `HostStopReason::from_wire`. -/
def from_wire : Nat → Option HostStopReason
  | 1 => some .Breakpoint
  | 2 => some .ExternalStop
  | 3 => some .Step
  | 4 => some .Unmapped
  | 5 => some .Until
  | _ => none

/-- `HostStopReason::to_wire`. -/
def to_wire : HostStopReason → Nat
  | .Breakpoint => 1
  | .ExternalStop => 2
  | .Step => 3
  | .Unmapped => 4
  | .Until => 5

theorem from_label_as_str (reason : HostStopReason) : from_label reason.as_str = some reason := by
  cases reason <;> rfl

theorem from_wire_to_wire (reason : HostStopReason) : from_wire reason.to_wire = some reason := by
  cases reason <;> rfl

end HostStopReason

/-- `peer_state_name`. -/
def peer_state_name : PeerState → String
  | .AwaitingReady => "awaiting_ready"
  | .Ready => "ready"
  | .Running => "running"
  | .Stopped => "stopped"

/-- `HostPeerWire`. -/
inductive HostPeerWire where
  | Unknown
  | AwaitingReady
  | Ready
  | Running
  | Stopped
  deriving DecidableEq

namespace HostPeerWire

/-- `HostPeerWire::from_label`. -/
def from_label : String → HostPeerWire
  | "awaiting_ready" => .AwaitingReady
  | "ready" => .Ready
  | "running" => .Running
  | "stopped" => .Stopped
  | _ => .Unknown

/-- `HostPeerWire::label`. -/
def label : HostPeerWire → String
  | .Unknown => "unknown"
  | .AwaitingReady => "awaiting_ready"
  | .Ready => "ready"
  | .Running => "running"
  | .Stopped => "stopped"

theorem label_from_label (peer : Option PeerState) :
    (from_label ((peer.map peer_state_name).getD "unknown")).label =
      (peer.map peer_state_name).getD "unknown" := by
  rcases peer with _ | (_ | _ | _ | _) <;> rfl

end HostPeerWire

/-! ### Packed texts -/

/-- The loop of `fit_len`: back from `end_` to a character boundary. -/
def fit_from (text : String) : Nat → Nat
  | 0 => 0
  | n + 1 => if String.Pos.Raw.isValid text ⟨n + 1⟩ then n + 1 else fit_from text n

/-- `fit_len`. -/
def fit_len (text : String) (cap : Nat) : Nat := fit_from text (min text.utf8ByteSize cap)

/-- `u16::try_from(n).unwrap_or(u16::MAX)`. -/
def u16_or_max (n : Nat) : Nat := if n < 2 ^ 16 then n else 2 ^ 16 - 1

/-- `pack_into`: a buffer of zeroes with the text at its start, and its length. -/
def pack_into (text : String) (cap : Nat) : Vector UInt8 cap × Nat :=
  let n := fit_len text cap
  (Vector.ofFn fun i => if i < n then text.toByteArray.data.getD i 0 else 0, u16_or_max n)

/-- `Utf8Error::valid_up_to`, at most `n`: the longest prefix that is valid. -/
def valid_up_to (bytes : ByteArray) : Nat → Nat
  | 0 => 0
  | n + 1 => if (bytes.extract 0 (n + 1)).validateUTF8 then n + 1 else valid_up_to bytes n

/-- `unpack`. -/
def unpack {cap : Nat} (buf : Vector UInt8 cap) (len : Nat) : String :=
  let bytes : ByteArray := ⟨buf.toArray.extract 0 (min len cap)⟩
  match String.fromUTF8? bytes with
  | some text => text
  | none => (String.fromUTF8? (bytes.extract 0 (valid_up_to bytes bytes.size))).getD ""

theorem fit_len_of_le {text : String} {cap : Nat} (h : text.utf8ByteSize ≤ cap) :
    fit_len text cap = text.utf8ByteSize := by
  rw [fit_len, Nat.min_eq_left h]
  cases hsize : text.utf8ByteSize with
  | zero => rfl
  | succ n =>
    have hvalid : String.Pos.Raw.isValid text ⟨n + 1⟩ = true := by
      rw [← hsize, String.Pos.Raw.isValid_eq_true_iff]
      exact String.Pos.Raw.isValid_rawEndPos
    simp only [fit_from, hvalid, if_true]

/-- The bytes of a text are read as the text. -/
theorem unpack_of_bytes {text : String} {cap len : Nat} {buf : Vector UInt8 cap}
    (h : ByteArray.mk (buf.toArray.extract 0 (min len cap)) = text.toByteArray) :
    unpack buf len = text := by
  have hutf : String.fromUTF8? text.toByteArray = some text := by
    simp [String.fromUTF8?, String.fromUTF8, text.isValidUTF8]
  rw [unpack, h]
  simp only [hutf]

/-- A text that fits its buffer comes back. -/
theorem unpack_pack_into {text : String} {cap : Nat} (h : text.utf8ByteSize ≤ cap)
    (hcap : cap < 2 ^ 16) : unpack (pack_into text cap).1 (pack_into text cap).2 = text := by
  have hlen : (pack_into text cap).2 = text.utf8ByteSize := by
    have hlt : text.utf8ByteSize < 2 ^ 16 := by omega
    simp only [pack_into, u16_or_max, fit_len_of_le h, hlt, if_true]
  have hbytes : ByteArray.mk ((pack_into text cap).1.toArray.extract 0
      (min text.utf8ByteSize cap)) = text.toByteArray := by
    have hdata : text.toByteArray.data.size = text.utf8ByteSize := rfl
    apply ByteArray.ext
    apply Array.ext
    · simp [hdata, h]
    · intro i hi hi'
      have hi'' : i < text.utf8ByteSize := hdata ▸ hi'
      simp [pack_into, fit_len_of_le h, hi'']
  rw [hlen]
  exact unpack_of_bytes hbytes

/-! ### The status and its sample -/

/-- `SessionNode`. -/
structure SessionNode where
  id : HashedId
  kind : String
  state : String
  deriving DecidableEq

/-- `SessionStatus`. -/
structure SessionStatus where
  state : String
  virtual_time_ns : Nat
  stop_reason : Option String
  nodes : List SessionNode
  deriving DecidableEq

/-- `KIND_CAP`. -/
def kind_cap : Nat := 32

/-- `NODE_CAP`. -/
def node_cap : Nat := 32

/-- `HostNodeWire`. -/
structure HostNodeWire where
  id : HashedId
  kind : Vector UInt8 kind_cap
  kind_len : Nat
  peer : HostPeerWire

/-- `HostNodeWire::default`. -/
def HostNodeWire.default : HostNodeWire := ⟨0, Vector.replicate kind_cap 0, 0, .Unknown⟩

/-- The slot that `from_status` fills for a node. -/
def HostNodeWire.from_node (node : SessionNode) : HostNodeWire :=
  let (kind, kind_len) := pack_into node.kind kind_cap
  { id := node.id, kind, kind_len, peer := HostPeerWire.from_label node.state }

/-- The node that `to_status` reads from a slot. -/
def HostNodeWire.to_node (slot : HostNodeWire) : SessionNode :=
  { id := slot.id, kind := unpack slot.kind slot.kind_len, state := slot.peer.label }

/-- `HostStatusWire`. -/
structure HostStatusWire where
  running : Nat
  virtual_time_ns : Nat
  stop_reason : Nat
  node_count : Nat
  nodes : Vector HostNodeWire node_cap

namespace HostStatusWire

/-- `HostStatusWire::from_status`. -/
def from_status (status : SessionStatus) : HostStatusWire :=
  let count := min status.nodes.length node_cap
  { running := if status.state = "running" then 1 else 0
    virtual_time_ns := status.virtual_time_ns
    stop_reason :=
      ((status.stop_reason.bind HostStopReason.from_label).map HostStopReason.to_wire).getD 0
    node_count := u16_or_max count
    nodes := Vector.ofFn fun i =>
      if i < count then (status.nodes[i.val]?.map HostNodeWire.from_node).getD .default
      else .default }

/-- `HostStatusWire::to_status`. -/
def to_status (wire : HostStatusWire) : SessionStatus :=
  let count := min wire.node_count node_cap
  { state := if wire.running = 1 then "running" else "stopped"
    virtual_time_ns := wire.virtual_time_ns
    stop_reason := (HostStopReason.from_wire wire.stop_reason).map HostStopReason.as_str
    nodes := (wire.nodes.toList.take count).map HostNodeWire.to_node }

end HostStatusWire

/-- `write_status`: the status that it publishes. `board_id_hash` is the hash of
    a board's name. -/
def write_status (board_id_hash : String → HashedId) (running : Bool) (virtual_time_ns : Nat)
    (stop_reason : Option HostStopReason) (topo : LogicalTopology)
    (peers : String → Option PeerState) : SessionStatus where
  state := if running then "running" else "stopped"
  virtual_time_ns := virtual_time_ns
  stop_reason := if running then none else stop_reason.map HostStopReason.as_str
  nodes := topo.boards.map fun board =>
    { id := board_id_hash board.id, kind := board.kind,
      state := ((peers board.id).map peer_state_name).getD "unknown" }

/-! ### What comes back -/

/-- A status that `write_status` can build, for kinds that fit their buffer. -/
structure Packable (status : SessionStatus) : Prop where
  state : status.state = "running" ∨ status.state = "stopped"
  reason : ∀ label, status.stop_reason = some label →
    ∃ reason : HostStopReason, label = reason.as_str
  kind : ∀ node ∈ status.nodes, node.kind.utf8ByteSize ≤ kind_cap
  peer : ∀ node ∈ status.nodes, (HostPeerWire.from_label node.state).label = node.state

theorem to_node_from_node {node : SessionNode} (hkind : node.kind.utf8ByteSize ≤ kind_cap)
    (hpeer : (HostPeerWire.from_label node.state).label = node.state) :
    (HostNodeWire.from_node node).to_node = node := by
  have hunpack := unpack_pack_into hkind (by decide)
  simp only [HostNodeWire.from_node, HostNodeWire.to_node, hunpack, hpeer]

/-- The sample carries the first `node_cap` nodes. -/
theorem nodes_of_wire {status : SessionStatus} (h : Packable status) :
    (HostStatusWire.from_status status).to_status.nodes = status.nodes.take node_cap := by
  have hcount : u16_or_max (min status.nodes.length node_cap) =
      min status.nodes.length node_cap := by
    have hlt : min status.nodes.length node_cap < 2 ^ 16 := by
      unfold node_cap
      omega
    simp only [u16_or_max, hlt, if_true]
  simp only [HostStatusWire.from_status, HostStatusWire.to_status, hcount]
  apply List.ext_getElem
  · simp [Nat.min_comm]
  · intro i hi hi'
    have hlen : i < status.nodes.length := by
      simp only [List.length_take, Nat.lt_min] at hi'
      exact hi'.2
    have hnode := to_node_from_node (h.kind _ (List.getElem_mem hlen)) (h.peer _
      (List.getElem_mem hlen))
    simp [hlen, hnode]

/-- Everything but the nodes comes back, whatever their number. -/
theorem to_status_from_status {status : SessionStatus} (h : Packable status) :
    (HostStatusWire.from_status status).to_status =
      { status with nodes := status.nodes.take node_cap } := by
  have hnodes := nodes_of_wire h
  have hstate : (HostStatusWire.from_status status).to_status.state = status.state := by
    rcases h.state with hrun | hstop
    · simp [HostStatusWire.from_status, HostStatusWire.to_status, hrun]
    · simp [HostStatusWire.from_status, HostStatusWire.to_status, hstop]
  have hreason : (HostStatusWire.from_status status).to_status.stop_reason =
      status.stop_reason := by
    cases hlabel : status.stop_reason with
    | none => simp [HostStatusWire.from_status, HostStatusWire.to_status, hlabel,
        HostStopReason.from_wire]
    | some label =>
      obtain ⟨reason, rfl⟩ := h.reason label hlabel
      simp [HostStatusWire.from_status, HostStatusWire.to_status, hlabel,
        HostStopReason.from_label_as_str, HostStopReason.from_wire_to_wire]
  cases hwire : (HostStatusWire.from_status status).to_status with
  | mk state virtual_time_ns stop_reason nodes =>
    rw [hwire] at hnodes hstate hreason
    have htime : virtual_time_ns = status.virtual_time_ns :=
      (congrArg SessionStatus.virtual_time_ns hwire).symm
    simp only at hnodes hstate hreason
    rw [hnodes, hstate, hreason, htime]

theorem packable_write_status {board_id_hash : String → HashedId} {topo : LogicalTopology}
    (hkind : ∀ board ∈ topo.boards, board.kind = "rl78" ∨ board.kind = "plant")
    (running : Bool) (virtual_time_ns : Nat) (stop_reason : Option HostStopReason)
    (peers : String → Option PeerState) :
    Packable (write_status board_id_hash running virtual_time_ns stop_reason topo peers) where
  state := by cases running <;> simp [write_status]
  reason label h := by
    cases running with
    | true => cases h
    | false =>
      obtain ⟨reason, -, rfl⟩ := Option.map_eq_some_iff.mp h
      exact ⟨reason, rfl⟩
  kind node h := by
    obtain ⟨board, hboard, rfl⟩ := List.mem_map.mp h
    rcases hkind board hboard with hk | hk
    · simp only [hk]
      decide
    · simp only [hk]
      decide
  peer node h := by
    obtain ⟨board, -, rfl⟩ := List.mem_map.mp h
    exact HostPeerWire.label_from_label (peers board.id)

/-- The status of a cluster comes back from the wire exactly when its boards fit
    the sample. -/
theorem status_round_trip (board_id_hash : String → HashedId) (topo : LogicalTopology)
    (hkind : ∀ board ∈ topo.boards, board.kind = "rl78" ∨ board.kind = "plant")
    (running : Bool) (virtual_time_ns : Nat) (stop_reason : Option HostStopReason)
    (peers : String → Option PeerState) :
    (HostStatusWire.from_status
        (write_status board_id_hash running virtual_time_ns stop_reason topo peers)).to_status =
      write_status board_id_hash running virtual_time_ns stop_reason topo peers ↔
      topo.boards.length ≤ node_cap := by
  rw [to_status_from_status (packable_write_status hkind _ _ _ _)]
  generalize hstatus : write_status board_id_hash running virtual_time_ns stop_reason topo peers =
    status
  have hlen : status.nodes.length = topo.boards.length := by
    rw [← hstatus]
    simp [write_status]
  constructor
  · intro h
    have hcount := congrArg (fun s => s.nodes.length) h
    simp only [List.length_take] at hcount
    omega
  · intro h
    rw [List.take_of_length_le (by omega)]

/-- A topology of `n` plants without edges. -/
def plant_row (n : Nat) : LogicalTopology where
  boards := (List.range n).map fun i =>
    { id := String.ofList (List.replicate (i + 1) 'p'), kind := "plant", elf := none
      endpoints := [] }
  edges := []
  margin_ns := 1000
  headroom_threshold_ns := 100
  ready_timeout_ms := 10000

theorem plant_row_valid {check_spec : String → Except String Unit} {n : Nat} (hn : 0 < n) :
    (plant_row n).validate check_spec = .ok () := by
  refine LogicalTopology.validate_iff.mpr ⟨?_, ?_, ?_, List.nodup_nil, nofun⟩
  · intro h
    have hlen := congrArg List.length h
    simp [plant_row] at hlen
    omega
  · simp only [plant_row, List.map_map]
    refine List.Nodup.map ?_ List.nodup_range
    intro i j h
    have hlist : List.replicate (i + 1) 'p' = List.replicate (j + 1) 'p' :=
      String.ofList_injective h
    simpa using congrArg List.length hlist
  · intro board hboard
    obtain ⟨i, -, rfl⟩ := List.mem_map.mp hboard
    exact ⟨by simp [← String.toList_inj, List.replicate_succ], nofun, List.nodup_nil, nofun⟩

/-- The round trip of a pair of plants. -/
theorem status_round_trip_pair :
    (∀ board ∈ (plant_row 2).boards, board.kind = "rl78" ∨ board.kind = "plant") ∧
      ((HostStatusWire.from_status (write_status poly_hash false 42 (some .Until) (plant_row 2)
          fun _ => some .Stopped)).to_status =
        write_status poly_hash false 42 (some .Until) (plant_row 2) (fun _ => some .Stopped) ↔
        (plant_row 2).boards.length ≤ node_cap) := by
  have hkind : ∀ board ∈ (plant_row 2).boards, board.kind = "rl78" ∨ board.kind = "plant" := by
    intro board hboard
    obtain ⟨i, -, rfl⟩ := List.mem_map.mp hboard
    exact .inr rfl
  exact ⟨hkind, status_round_trip poly_hash (plant_row 2) hkind false 42 (some .Until) _⟩

/-- The status of an accepted topology of 33 plants loses its last node. -/
theorem status_drops_nodes :
    (plant_row 33).validate (fun _ => .ok ()) = .ok () ∧
      (∀ board ∈ (plant_row 33).boards, board.kind = "rl78" ∨ board.kind = "plant") ∧
      (HostStatusWire.from_status (write_status poly_hash false 42 (some .Until) (plant_row 33)
          fun _ => some .Stopped)).to_status ≠
        write_status poly_hash false 42 (some .Until) (plant_row 33) fun _ => some .Stopped := by
  have hkind : ∀ board ∈ (plant_row 33).boards, board.kind = "rl78" ∨ board.kind = "plant" := by
    intro board hboard
    obtain ⟨i, -, rfl⟩ := List.mem_map.mp hboard
    exact .inr rfl
  refine ⟨plant_row_valid (by decide), hkind, fun h => ?_⟩
  rw [to_status_from_status (packable_write_status hkind _ _ _ _)] at h
  have hcount := congrArg (fun s => s.nodes.length) h
  simp [write_status, plant_row, node_cap] at hcount

end Rl78Sim
