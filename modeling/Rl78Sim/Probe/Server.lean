import Rl78Sim.Probe.Wire

/-! # The Server Side of the Probes

    The worker thread runs one call after the other: the jobs of HTTP clients,
    and between them a poll of the inboxes. A call that waits for replies, or
    reads a channel until it is empty, is a state of the server (`call`); what
    the calls publish is returned to the channels.

    The catalog is the one that the arbiter has dumped; an error of a job
    leaves the server as it was and is not modelled further.
-/

namespace Rl78Sim

/-- `ProbePointName`. `name_hash` is the hash of the name. -/
@[ext]
structure ProbePointName (n : Nat) where
  probe_id : Nat
  board_hash : Fin n
  name_hash : Nat
  kind : ProbeKind
  probe_lt : probe_id < 256 ^ 8

instance {n : Nat} : DecidableEq (ProbePointName n) :=
  fun _ _ => decidable_of_iff _ ProbePointName.ext_iff.symm

/-- The catalog: an id names one probe, and no board has more probes than fit
    into one message. -/
structure ProbeCatalog (n : Nat) where
  points : List (ProbePointName n)
  nodup : (points.map ProbePointName.probe_id).Nodup
  boards : ∀ i, (points.filter fun point => point.board_hash = i).length ≤ max_probes_per_board

namespace ProbeCatalog

variable {n : Nat} (catalog : ProbeCatalog n)

/-- `probe_catalog.get`, for the board. -/
def board_of (probe_id : Nat) : Option (Fin n) :=
  (catalog.points.find? fun point => point.probe_id = probe_id).map ProbePointName.board_hash

/-- `by_board` of the queries: the boards that own one of the probes, each with
    its probes. -/
def by_board (probe_ids : List Nat) : List (Fin n × List Nat) :=
  (List.finRange n).filterMap fun i =>
    match probe_ids.filter fun id => catalog.board_of id = some i with
    | [] => none
    | ids => some (i, ids)

/-- The points of one board, as its node knows them. -/
def of_board (i : Fin n) : List ProbePoint :=
  (catalog.points.filter fun point => point.board_hash = i).map fun point =>
    ⟨point.probe_id, point.kind, point.probe_lt⟩

end ProbeCatalog

/-- `ProbeRef`. -/
structure ProbeRef (n : Nat) where
  board : Fin n
  name : Nat
  deriving DecidableEq

/-- `resolve_probes`: the ids, unless a probe is unknown. -/
def ProbeCatalog.resolve_probes {n : Nat} (catalog : ProbeCatalog n)
    (probes : List (ProbeRef n)) : Option (List Nat) :=
  probes.mapM fun probe =>
    (catalog.points.find? fun point =>
      point.board_hash = probe.board ∧ point.name_hash = probe.name).map ProbePointName.probe_id

/-! ### State -/

/-- `WATCH_PENDING_KEEP`. -/
def watch_pending_keep : Nat := 64

/-- `CoarseBatch`, before the records are put into words. -/
structure CoarseBatch where
  seq : Nat
  samples : List ProbeRecord
  deriving DecidableEq

/-- `ProbeWatch`. -/
structure ProbeWatch where
  probe_ids : List Nat
  next_seq : Nat
  pending : List CoarseBatch

/-- `ProbeWatch::push_batch`. -/
def ProbeWatch.push_batch (watch : ProbeWatch) (batch : CoarseBatch) : ProbeWatch :=
  { watch with pending := Ring.push watch_pending_keep watch.pending batch }

/-- `CsvJob`. `handed` is a history variable: the records that polls have
    handed out. -/
structure CsvJob (n : Nat) where
  request_id : Nat
  range : ProbeRange
  expected : List (Fin n)
  pending : List ProbeRecord
  truncated : Bool
  failed : Bool
  done : Bool
  handed : List ProbeRecord
  deriving DecidableEq

/-- What `collect_query` collects for. -/
inductive QueryPurpose where
  /-- `snapshot_watch`, with the sequence number taken. -/
  | Snapshot (seq : Nat)
  /-- `query_samples` of one probe. -/
  | Samples (probe_id : Nat) (range : ProbeRange)
  deriving DecidableEq

/-- The locals of `collect_query`. -/
structure Collect (n : Nat) where
  request_id : Nat
  expected : List (Fin n)
  records : List ProbeRecord
  truncated : Bool
  purpose : QueryPurpose
  deriving DecidableEq

/-- The call that the worker thread is in. -/
inductive ServerCall (n : Nat) where
  | none
  /-- `collect_query`. -/
  | query (collect : Collect n)
  /-- The sample loop of `poll_probes`, with what it has read. -/
  | samples (live : List ProbeRecord)

/-- The probe part of `Simulation`. `handed` is a history variable: the batches
    that `live_watch` has handed out. -/
structure ProbeServer (n : Nat) where
  watch : ProbeWatch
  next_request_id : Nat
  csv_job : Option (CsvJob n)
  call : ServerCall n
  handed : List CoarseBatch

namespace ProbeServer

variable {n : Nat}

/-- The probe part of `create_simulation`. -/
def new : ProbeServer n where
  watch := ⟨[], 1, []⟩
  next_request_id := 1
  csv_job := none
  call := .none
  handed := []

/-! ### Watching -/

/-- `refresh_watch`: one message for every board. -/
def refresh_watch (catalog : ProbeCatalog n) (probe_ids : List Nat) : List (ProbeWatchWire n) :=
  (List.finRange n).map fun i =>
    .new i (probe_ids.filter fun id => catalog.board_of id = some i).dedup

/-- `query_latest` up to its wait. -/
def query_latest (catalog : ProbeCatalog n) (purpose : QueryPurpose) (probe_ids : List Nat)
    (sv : ProbeServer n) : ProbeServer n × List (ProbeQueryWire n) :=
  let by_board := catalog.by_board probe_ids
  ({ sv with
      next_request_id := sv.next_request_id + 1
      call := .query ⟨sv.next_request_id, by_board.map Prod.fst, [], false, purpose⟩ },
    by_board.map fun (i, ids) => .latest sv.next_request_id i ids)

/-- `put_watch` up to the wait of its snapshot. -/
def put_watch (catalog : ProbeCatalog n) (probe_ids : List Nat) (sv : ProbeServer n) :
    ProbeServer n × List (ProbeWatchWire n) × List (ProbeQueryWire n) :=
  let seq := sv.watch.next_seq
  let sv := { sv with
    watch := { sv.watch with probe_ids := probe_ids, next_seq := sv.watch.next_seq + 1 } }
  if (catalog.by_board probe_ids).isEmpty then (sv, refresh_watch catalog probe_ids, [])
  else
    let (sv, queries) := sv.query_latest catalog (.Snapshot seq) probe_ids
    (sv, refresh_watch catalog probe_ids, queries)

/-- `clear_watch`. -/
def clear_watch (catalog : ProbeCatalog n) (sv : ProbeServer n) :
    ProbeServer n × List (ProbeWatchWire n) :=
  ({ sv with watch := { sv.watch with probe_ids := [], pending := [] } },
    refresh_watch catalog [])

/-- `live_watch`. -/
def live_watch (after : Nat) (sv : ProbeServer n) : ProbeServer n :=
  { sv with
    watch := { sv.watch with pending := [] }
    handed := sv.handed ++ sv.watch.pending.filter fun batch => after < batch.seq }

/-- `fanout_live`. -/
def fanout_live (records : List ProbeRecord) (sv : ProbeServer n) : ProbeServer n :=
  let samples := records.filter fun record => sv.watch.probe_ids.contains record.probe_id
  if samples.isEmpty then sv
  else
    { sv with
      watch := ({ sv.watch with next_seq := sv.watch.next_seq + 1 } : ProbeWatch).push_batch
        ⟨sv.watch.next_seq, samples⟩ }

/-! ### Queries -/

/-- `query_samples` up to its wait, for a probe that has been resolved. -/
def query_samples (catalog : ProbeCatalog n) (probe_id : Nat) (range : ProbeRange)
    (sv : ProbeServer n) : ProbeServer n × List (ProbeQueryWire n) :=
  let by_board := catalog.by_board [probe_id]
  if by_board.isEmpty then (sv, [])
  else if range.from_ns.isNone ∧ range.to_ns.isNone then
    sv.query_latest catalog (.Samples probe_id range) [probe_id]
  else
    ({ sv with
        next_request_id := sv.next_request_id + 1
        call := .query ⟨sv.next_request_id, by_board.map Prod.fst, [], false,
          .Samples probe_id range⟩ },
      by_board.map fun (i, ids) => .range_ sv.next_request_id i ids range)

/-- One reply in the loop of `collect_query`. -/
def read_reply (reply : ProbeQueryReplyWire n) (c : Collect n) : Collect n :=
  if reply.request_id = c.request_id then
    { c with
      records := c.records ++ reply.records
      truncated := c.truncated || reply.truncated
      expected := if reply.last then c.expected.filter fun i => i ≠ reply.from_ else c.expected }
  else c

/-- `Ok` of `collect_query`. -/
def collected (c : Collect n) : Option (List ProbeRecord × Bool) :=
  if c.expected.isEmpty then some (ProbeRecord.sort_by_key c.records, c.truncated) else none

/-- The end of the call that has collected: a snapshot is queued for the
    client, unless it is empty. -/
def finish_query (c : Collect n) (sv : ProbeServer n) : ProbeServer n :=
  let sv := { sv with call := .none }
  match c.purpose with
  | .Snapshot seq =>
      let samples := ProbeRecord.sort_by_key c.records
      if samples.isEmpty then sv
      else { sv with watch := sv.watch.push_batch ⟨seq, samples⟩ }
  | .Samples _ _ => sv

/-! ### CSV exports -/

/-- `start_csv`. A job that is not done is only replaced once it has `expired`;
    `none` is the conflict. -/
def start_csv (catalog : ProbeCatalog n) (range : ProbeRange) (expired : Bool)
    (sv : ProbeServer n) : Option (ProbeServer n × List (ProbeQueryWire n)) :=
  if sv.csv_job.any fun job => !job.done && !expired then none
  else
    let by_board := catalog.by_board (catalog.points.map ProbePointName.probe_id)
    some
      ({ sv with
          next_request_id := sv.next_request_id + 1
          csv_job := some
            { request_id := sv.next_request_id
              range := range
              expected := by_board.map Prod.fst
              pending := []
              truncated := false
              failed := false
              done := by_board.isEmpty
              handed := [] } },
        by_board.map fun (i, ids) => .csv sv.next_request_id i ids range)

/-- One reply in the loop of `ingest_csv_replies`. -/
def read_csv (reply : ProbeQueryReplyWire n) (job : CsvJob n) : CsvJob n :=
  if reply.request_id = job.request_id then
    { job with
      pending := job.pending ++ reply.records
      truncated := job.truncated || reply.truncated
      expected :=
        if reply.last then job.expected.filter fun i => i ≠ reply.from_ else job.expected }
  else job

/-- The end of `ingest_csv_replies`. -/
def settle_csv (expired : Bool) (job : CsvJob n) : CsvJob n :=
  if job.expected.isEmpty then { job with done := true }
  else if expired then { job with failed := true, done := true }
  else job

/-- `poll_csv_job`. -/
def poll_csv_job (job : CsvJob n) : CsvJob n :=
  { job with pending := [], handed := job.handed ++ job.pending }

end ProbeServer

end Rl78Sim
