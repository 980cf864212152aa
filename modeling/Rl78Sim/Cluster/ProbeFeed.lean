import Rl78Sim.Cluster.CatalogFeed
import Rl78Sim.Cluster.ProbeHub
import Rl78Sim.Framework.Utf8

/-! # The Probe Catalog of the Server

    Before it runs the boards, the arbiter sends a message for every probe of its
    hub, in no particular order, and then the end of the catalog. A message that
    cannot be sent is only warned of, and the arbiter goes on. The samples that
    follow come through a buffer of their own, so that a burst of them drops
    nothing of the catalog.
-/

namespace Rl78Sim

open Transition

/-! ### Messages -/

/-- `MSG_CATALOG`. -/
def msg_catalog : UInt8 := 1

/-- `MSG_SAMPLE`. -/
def msg_sample : UInt8 := 2

/-- `MSG_CATALOG_END`. -/
def msg_catalog_end : UInt8 := 3

/-- `PROBE_CATALOG_A2S_BUFFER`. -/
def probe_catalog_a2s_buffer : Nat := 256

/-- `ProbeToServer`. -/
structure ProbeToServer where
  probe_id : HashedId
  board_hash : HashedId
  virtual_time_ns : UInt64
  value : UInt16
  msg : UInt8
  wire_kind : UInt8
  name_len : UInt8
  name : List UInt8
  deriving DecidableEq

/-- What `publish_catalog` sends. -/
def publish_catalog (entry : ProbeCatalogEntry) : ProbeToServer :=
  let n := min entry.name.utf8ByteSize probe_name_cap
  { probe_id := entry.probe_id
    board_hash := entry.board_hash
    virtual_time_ns := 0
    value := 0
    msg := msg_catalog
    wire_kind := entry.kind.to_wire
    -- `try_from` of a length that does not fit.
    name_len := if n < 256 then .ofNat n else 255
    name := (Utf8.as_bytes entry.name).take n ++ List.replicate (probe_name_cap - n) 0 }

/-- What `publish_catalog_done` sends. -/
def publish_catalog_done : ProbeToServer where
  probe_id := 0
  board_hash := 0
  virtual_time_ns := 0
  value := 0
  msg := msg_catalog_end
  wire_kind := 0
  name_len := 0
  name := List.replicate probe_name_cap 0

/-- What `publish_sample` sends. -/
def publish_sample (record : ProbeRecord) : ProbeToServer where
  probe_id := .ofNat record.probe_id
  board_hash := 0
  virtual_time_ns := .ofNat record.virtual_time_ns
  value := .ofNat record.value
  msg := msg_sample
  wire_kind := record.kind.to_wire
  name_len := 0
  name := List.replicate probe_name_cap 0

/-! ### The server -/

/-- `ProbePointName`, as the server keeps it. -/
structure CatalogPoint where
  probe_id : HashedId
  board_hash : HashedId
  board_label : String
  name : String
  kind : ProbeKind
  deriving DecidableEq

/-- `probe_catalog` and `catalog_ready` of `Simulation`. -/
structure ServerProbes where
  probe_catalog : List CatalogPoint
  catalog_ready : Bool
  deriving DecidableEq

theorem toNat_lt_u64 (x : UInt64) : x.toNat < 256 ^ 8 := x.toNat_lt

theorem toNat_lt_u16 (x : UInt16) : x.toNat < 256 ^ 2 := x.toNat_lt

/-- The record of a sample. -/
def ProbeToServer.record (sample : ProbeToServer) (kind : ProbeKind) : ProbeRecord where
  probe_id := sample.probe_id.toNat
  virtual_time_ns := sample.virtual_time_ns.toNat
  kind := kind
  value := sample.value.toNat
  probe_lt := toNat_lt_u64 _
  time_lt := toNat_lt_u64 _
  value_lt := toNat_lt_u16 _

/-- The point of a message. -/
def ProbeToServer.point (boards : HashedId → Option String) (sample : ProbeToServer)
    (kind : ProbeKind) : CatalogPoint where
  probe_id := sample.probe_id
  board_hash := sample.board_hash
  board_label := (boards sample.board_hash).getD ""
  name := Utf8.from_utf8_lossy (sample.name.take (min sample.name_len.toNat sample.name.length))
  kind := kind

/-- `ingest_probe`. -/
def ingest_probe (boards : HashedId → Option String) (sim : ServerProbes)
    (sample : ProbeToServer) : ServerProbes × Option ProbeRecord :=
  if sample.msg = msg_catalog_end then ({ sim with catalog_ready := true }, none)
  else
    match ProbeKind.from_wire sample.wire_kind with
    -- A kind that is not known drops the message, the catalog's as well.
    | none => (sim, none)
    | some kind =>
      if sample.msg = msg_catalog then
        ({ sim with
            probe_catalog :=
              Table.put CatalogPoint.probe_id sim.probe_catalog (sample.point boards kind) },
          none)
      else if sample.msg = msg_sample then (sim, some (sample.record kind))
      else (sim, none)

/-! ### The system -/

/-- What is fixed: the topology, and the probes that `--list-catalog` printed
    for each board. -/
structure ProbeFeedConfig where
  server : ServerConfig
  hashes : ProbeHashes
  dump : BoardSpec → List CatalogProbe
  /-- `validate` refuses two boards with one id, and `board_hash_table` two with
      one hash. -/
  distinct : (server.topo.boards.map fun board => server.board_id_hash board.id).Nodup

namespace ProbeFeedConfig

variable (cfg : ProbeFeedConfig)

/-- What `collect_board_catalogs` collects of a board. -/
def collect (board : BoardSpec) : BoardProbes :=
  ⟨board.id, cfg.server.board_id_hash board.id, cfg.dump board⟩

/-- `collect_board_catalogs`. -/
def catalogs : List BoardProbes := cfg.server.topo.boards.map cfg.collect

/-- `Simulation::boards`. -/
def boards : HashedId → Option String := (ServerSim.new cfg.server).boards

end ProbeFeedConfig

/-- The arbiter with the rows that it still has to send, the messages on their
    way, and the server. -/
structure ProbeFeed where
  todo : List ProbeCatalogEntry
  ended : Bool
  catalog_a2s : List ProbeToServer
  samples_a2s : List ProbeToServer
  sim : ServerProbes
  deriving DecidableEq

/-- What the processes do. -/
inductive ProbeFeedStep where
  /-- The arbiter forwards a row of its hub, or the end of the catalog. -/
  | forward (sent : Bool)
  /-- `forward_probes` has a sample. An error is only warned of: it loses the
      sample, and those that were drained behind it in the same call. -/
  | sample (record : ProbeRecord) (sent : Bool)
  /-- One round of the first loop of `poll_probes`. -/
  | poll_catalog
  /-- One round of the second. -/
  | poll_sample
  deriving DecidableEq

namespace ProbeFeed

variable (cfg : ProbeFeedConfig)

/-- The arbiter has read the dumps, and goes through its hub in the order
    `todo`. -/
def new (todo : List ProbeCatalogEntry) : ProbeFeed := ⟨todo, false, [], [], ⟨[], false⟩⟩

/-- The next message of the arbiter. -/
def next (s : ProbeFeed) : ProbeToServer := s.todo.head?.elim publish_catalog_done publish_catalog

def step (s : ProbeFeed) : ProbeFeedStep → Option ProbeFeed
  | .forward sent =>
    if s.ended then none
    else
      some { s with
        catalog_a2s :=
          if sent then Ring.push probe_catalog_a2s_buffer s.catalog_a2s s.next else s.catalog_a2s
        todo := s.todo.tail
        ended := s.todo.isEmpty }
  | .sample record sent =>
    if !s.ended then none
    else
      some { s with
        samples_a2s :=
          if sent then Ring.push probe_a2s_buffer s.samples_a2s (publish_sample record)
          else s.samples_a2s }
  | .poll_catalog =>
    match s.catalog_a2s with
    | [] => none
    | sample :: rest =>
      some { s with catalog_a2s := rest, sim := (ingest_probe cfg.boards s.sim sample).1 }
  | .poll_sample =>
    match s.samples_a2s with
    | [] => none
    | sample :: rest =>
      some { s with samples_a2s := rest, sim := (ingest_probe cfg.boards s.sim sample).1 }

end ProbeFeed

/-! ### The history of a run -/

/-- What has been sent to the catalog and read from it, the samples that have
    been sent, and the records that the server has made of them. -/
structure ProbeFeedHistory where
  sent : List ProbeToServer
  received : List ProbeToServer
  sampled : List ProbeRecord
  records : List ProbeRecord

namespace ProbeFeedHistory

/-- Nothing has happened. -/
def new : ProbeFeedHistory := ⟨[], [], [], []⟩

/-- One more step. -/
def log (cfg : ProbeFeedConfig) (s : ProbeFeed) (l : ProbeFeedStep) (_ : ProbeFeed)
    (h : ProbeFeedHistory) : ProbeFeedHistory :=
  match l with
  | .forward true => { h with sent := h.sent ++ [s.next] }
  | .sample record true => { h with sampled := h.sampled ++ [record] }
  | .poll_catalog => { h with received := h.received ++ s.catalog_a2s.take 1 }
  | .poll_sample =>
    { h with
      records := h.records ++
        (s.samples_a2s.take 1).filterMap fun sample => (ingest_probe cfg.boards s.sim sample).2 }
  | _ => h

end ProbeFeedHistory

/-- All runs, with their histories. The hub is gone through in any order. -/
def probe_feed (cfg : ProbeFeedConfig) : System (ProbeFeed × ProbeFeedHistory) ProbeFeedStep :=
  System.logged
    ⟨fun s => ∃ hub, apply_probe_catalogs cfg.hashes .new cfg.catalogs = .ok hub ∧
        ∃ todo, todo.Perm hub.catalog ∧ s = .new todo,
      fun s l => s.step cfg l⟩
    .new (ProbeFeedHistory.log cfg)

end Rl78Sim
