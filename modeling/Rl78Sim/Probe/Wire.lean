import Rl78Sim.Framework.Ring
import Rl78Sim.Probe.Log

/-! # Probe Messages

    The messages of the probe channels, and the sizes of their buffers. Boards
    are numbered as in the rest of the cluster. The arrays of the wire types
    are lists of at most their length, and a record keeps its kind on the
    wire (`ProbeKind.from_wire_to_wire`).
-/

namespace Rl78Sim

/-- `MAX_PROBES_PER_BOARD`. -/
def max_probes_per_board : Nat := 32

/-- `QUERY_CHUNK`. -/
def query_chunk : Nat := 32

/-- `QUERY_BUFFER`. -/
def query_buffer : Nat := 1024

/-- `WATCH_BUFFER`. -/
def watch_buffer : Nat := 32

/-- `PROBE_BUFFER`. -/
def probe_buffer : Nat := 64

/-- `PROBE_A2S_BUFFER`. -/
def probe_a2s_buffer : Nat := 8192

/-- The subscriber buffers of the reply channels of `n` boards. -/
def reply_buffer (n : Nat) : Nat := query_buffer * max n 1

theorem reply_buffer_pos (n : Nat) : 0 < reply_buffer n := by
  unfold reply_buffer query_buffer
  have hmax : 1 ≤ max n 1 := Nat.le_max_right n 1
  omega

/-- `ProbeWatchWire`. -/
structure ProbeWatchWire (n : Nat) where
  board_hash : Fin n
  count : Nat
  probe_ids : List Nat
  deriving DecidableEq

/-- `ProbeWatchWire::new`. -/
def ProbeWatchWire.new {n : Nat} (board_hash : Fin n) (ids : List Nat) : ProbeWatchWire n :=
  ⟨board_hash, min ids.length max_probes_per_board, ids.take max_probes_per_board⟩

/-- The kinds of a query. -/
inductive QueryKind where
  | Latest
  | Range
  deriving DecidableEq

/-- `ProbeQueryWire`. No board hash means the zero hash, which addresses every
    board. -/
structure ProbeQueryWire (n : Nat) where
  request_id : Nat
  board_hash : Option (Fin n)
  range : ProbeRange
  kind : QueryKind
  probe_ids : List Nat
  deriving DecidableEq

namespace ProbeQueryWire

variable {n : Nat}

/-- `ProbeQueryWire::latest`. -/
def latest (request_id : Nat) (board_hash : Fin n) (ids : List Nat) : ProbeQueryWire n :=
  ⟨request_id, some board_hash, ⟨none, none⟩, .Latest, ids.take max_probes_per_board⟩

/-- `ProbeQueryWire::csv`. -/
def csv (request_id : Nat) (board_hash : Fin n) (ids : List Nat) (range : ProbeRange) :
    ProbeQueryWire n :=
  ⟨request_id, some board_hash, range, .Range, ids.take max_probes_per_board⟩

/-- `ProbeQueryWire::range`. -/
def range_ (request_id : Nat) (board_hash : Fin n) (ids : List Nat) (range : ProbeRange) :
    ProbeQueryWire n :=
  csv request_id board_hash ids range

/-- The query is for board `i`. -/
def addresses (query : ProbeQueryWire n) (i : Fin n) : Bool :=
  query.board_hash.all fun board => board = i

end ProbeQueryWire

/-- `ProbeQueryReplyWire`. -/
structure ProbeQueryReplyWire (n : Nat) where
  request_id : Nat
  from_ : Fin n
  records : List ProbeRecord
  last : Bool
  truncated : Bool
  deriving DecidableEq

/-- `ProbeQueryReplyWire::chunk`. -/
def ProbeQueryReplyWire.chunk {n : Nat} (request_id : Nat) (from_ : Fin n)
    (records : List ProbeRecord) (last truncated : Bool) : ProbeQueryReplyWire n :=
  ⟨request_id, from_, records.take query_chunk, last, truncated⟩

end Rl78Sim
