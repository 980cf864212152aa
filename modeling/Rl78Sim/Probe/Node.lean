import Rl78Sim.Cluster.Control
import Rl78Sim.Hw.Analog
import Rl78Sim.Probe.Wire

/-! # The Probe Runtime of a Node

    The log of the board, the probes that the server watches, and what is left
    of the answer and of the export that the node is sending. A query reply is
    sent one record a message and waits for room in its channel; a CSV chunk
    never waits.
-/

namespace Rl78Sim

/-- The value of a sample that a wiring tap has accepted. -/
inductive TapValue where
  | level (level : DigitalLevel)
  | frame (data : Fin (256 ^ 2))
  | voltage (uv : Int)
  deriving DecidableEq

namespace TapValue

/-- `analog_millivolts`. -/
def analog_millivolts (uv : Int) : Nat := min (uv.tdiv 1000).toNat (256 ^ 2 - 1)

def kind : TapValue → ProbeKind
  | .level _ => .Digital
  | .frame _ => .Uart
  | .voltage _ => .Analog

/-- The `value` of the record that `ProbePublishers::ingest` makes of it. -/
def raw : TapValue → Nat
  | .level .HiZ => 0
  | .level .High => 1
  | .level .Low => 2
  | .frame data => data
  | .voltage uv => analog_millivolts uv

theorem raw_lt (v : TapValue) : v.raw < 256 ^ 2 := by
  cases v with
  | level l => cases l <;> decide
  | frame data => exact data.isLt
  | voltage uv =>
    show min _ (256 ^ 2 - 1) < 256 ^ 2
    omega

end TapValue

/-- An accepted sample that `take_pending` hands over. -/
@[ext]
structure TapSample where
  virtual_time_ns : Nat
  value : TapValue
  time_lt : virtual_time_ns < 256 ^ 8

instance : DecidableEq TapSample := fun _ _ => decidable_of_iff _ TapSample.ext_iff.symm

/-- The record of a sample of `point`. -/
def ProbePoint.record (point : ProbePoint) (sample : TapSample) : ProbeRecord where
  probe_id := point.probe_id
  virtual_time_ns := sample.virtual_time_ns
  kind := sample.value.kind
  value := sample.value.raw
  probe_lt := point.probe_lt
  time_lt := sample.time_lt
  value_lt := sample.value.raw_lt

/-- `CsvSend`. -/
structure CsvSend where
  request_id : Nat
  records : List ProbeRecord
  offset : Nat
  truncated : Bool
  deriving DecidableEq

/-- What the log had accepted when the node read it for a request. -/
structure Snapshot where
  request_id : Nat
  history : List ProbeRecord
  deriving DecidableEq

/-- `NodeProbeRuntime`, with the node's lifecycle state. `sending` is what is
    left of the answer in progress. `answered` and `begun` are history
    variables: the queries answered and the exports begun. -/
structure NodeProbes (n : Nat) where
  log : ProbeLog
  watch : List Nat
  csv_out : Option CsvSend
  sending : List (ProbeQueryReplyWire n)
  state : NodeState
  answered : List Snapshot
  begun : List Snapshot

namespace NodeProbes

variable {n : Nat}

/-! ### Queries -/

/-- The replies of `send_query_reply`: one record a message, and one empty
    message when there are none. -/
def query_reply (i : Fin n) (request_id : Nat) (truncated : Bool) :
    List ProbeRecord → List (ProbeQueryReplyWire n)
  | [] => [.chunk request_id i [] true truncated]
  | [record] => [.chunk request_id i [record] true truncated]
  | record :: next :: rest =>
      .chunk request_id i [record] false truncated ::
        query_reply i request_id truncated (next :: rest)

/-- `NodeProbeRuntime::range_records`; without `io_ok` the log cannot be read. -/
def range_records (nd : NodeProbes n) (io_ok : Bool) (query : ProbeQueryWire n) :
    List ProbeRecord × Bool :=
  if io_ok then
    let e := nd.log.export_
    ((nd.log.load_export e).filter fun rec =>
      query.range.contains rec.virtual_time_ns &&
        (query.probe_ids.isEmpty || query.probe_ids.contains rec.probe_id), e.truncated)
  else ([], true)

/-- `NodeProbeRuntime::answer_query`. -/
def answer_query (i : Fin n) (io_ok : Bool) (query : ProbeQueryWire n) (nd : NodeProbes n) :
    NodeProbes n :=
  if query.addresses i then
    let (records, truncated) :=
      match query.kind with
      | .Latest => (nd.log.latest_of query.probe_ids, nd.log.truncated)
      | .Range => nd.range_records io_ok query
    { nd with
      sending := query_reply i query.request_id truncated records
      answered := nd.answered ++ [⟨query.request_id, nd.log.history⟩] }
  else nd

/-! ### CSV exports -/

/-- One query of `NodeProbeRuntime::service_csv`; a busy node ignores it. -/
def take_csv (i : Fin n) (io_ok : Bool) (query : ProbeQueryWire n) (nd : NodeProbes n) :
    NodeProbes n :=
  if nd.csv_out.isSome then nd
  else if query.addresses i then
    let (records, truncated) := nd.range_records io_ok query
    { nd with
      csv_out := some ⟨query.request_id, records, 0, truncated⟩
      begun := nd.begun ++ [⟨query.request_id, nd.log.history⟩] }
  else nd

/-- One chunk of `NodeProbeRuntime::send_csv_tick`. -/
def next_chunk (i : Fin n) (out : CsvSend) : ProbeQueryReplyWire n × Option CsvSend :=
  let end_ := min (out.offset + query_chunk) out.records.length
  let last := end_ == out.records.length
  (.chunk out.request_id i ((out.records.take end_).drop out.offset) last out.truncated,
    if last then none else some { out with offset := end_ })

/-! ### The coarse stream -/

/-- `ProbePublishers::ingest`. `written` are the bytes that appends to the
    spill file write. -/
def ingest (pending : Nat → Option TapSample) (written : Nat → Nat) (log : ProbeLog) : ProbeLog :=
  log.catalog.foldl (fun log point =>
    match pending point.probe_id with
    | some sample =>
        if sample.value.kind = point.kind then
          log.push (written point.probe_id) (point.record sample)
        else log
    | none => log) log

/-- What arrives at the server of a record that is published: a level is sent
    as a level, and an analog value as microvolts. -/
def published (record : ProbeRecord) : ProbeRecord :=
  match record.kind with
  | .Digital =>
      if record.value = 1 ∨ record.value = 2 then record
      else { record with value := 0, value_lt := by decide }
  | .Uart => record
  | .Analog => record

/-- `NodeProbeRuntime::publish_watched`. -/
def publish_watched (nd : NodeProbes n) (records : List ProbeRecord) : List ProbeRecord :=
  (records.filter fun record => nd.watch.contains record.probe_id).map published

/-- `NodeProbeRuntime::ingest_and_emit`, with what it publishes. -/
def ingest_and_emit (pending : Nat → Option TapSample) (written : Nat → Nat) (due : Bool)
    (nd : NodeProbes n) : NodeProbes n × List ProbeRecord :=
  let (log, records) := (ingest pending written nd.log).poll_coarse due
  ({ nd with log := log }, nd.publish_watched records)

/-! ### Control messages -/

/-- `NodeProbeRuntime::set_running`, with what it publishes. -/
def set_running (running : Bool) (nd : NodeProbes n) : NodeProbes n × List ProbeRecord :=
  let (log, flushed) := nd.log.set_running running
  ({ nd with log := log }, nd.publish_watched flushed)

/-- `NodeProbeRuntime::set_watch`. -/
def set_watch (i : Fin n) (board_hash : Fin n) (probe_ids : List Nat) (nd : NodeProbes n) :
    NodeProbes n :=
  if board_hash = i then { nd with watch := probe_ids } else nd

/-- What an effect has watched is not part of the log. -/
theorem watched_log (i : Fin n) (effect : Option (NodeEffect n)) (nd : NodeProbes n) :
    (match effect with
      | some (.ProbeWatch board_hash probe_ids) => nd.set_watch i board_hash probe_ids
      | _ => nd).log = nd.log := by
  split
  · unfold set_watch
    split <;> rfl
  · rfl

/-- One control message: the probes watched, and the lifecycle. -/
def take_control (i : Fin n) (msg : ControlToNode n) (nd : NodeProbes n) :
    NodeProbes n × List ProbeRecord :=
  let (next, effect) := nd.state.on_message msg
  let watched :=
    match effect with
    | some (.ProbeWatch board_hash probe_ids) => nd.set_watch i board_hash probe_ids
    | _ => nd
  let moved := { watched with state := next }
  if nd.state ≠ .Running ∧ next = .Running then moved.set_running true
  else if nd.state = .Running ∧ next ≠ .Running then moved.set_running false
  else (moved, [])

end NodeProbes

end Rl78Sim
