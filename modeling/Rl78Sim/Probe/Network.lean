import Rl78Sim.Framework.Transition
import Rl78Sim.Probe.Node
import Rl78Sim.Probe.Server

/-! # The Probe Network

    The server, the arbiter and the nodes with the channels between them.
    Every send and every receive is a step of its own, except that all messages
    of one `put_watch`, `clear_watch` or `start_csv` of the server leave in one
    step. The calls of one party may come in any order, but a party that is
    inside a call goes on with it: the server while it collects replies or reads
    samples, the arbiter while it holds a reply for which its channel has no
    room, and a node while it is sending an answer.

    Query replies wait for room; all other channels overwrite the oldest
    message when they are full.
-/

namespace Rl78Sim

open Transition

/-- The arbiter's part: the reply it is about to pass on, and the samples
    drained from the probe services that it has not passed on yet. -/
structure ProbeHub (n : Nat) where
  held : Option (ProbeQueryReplyWire n)
  carried : List ProbeRecord

/-- The state of the network. `taps` are the sample services of the probes. -/
structure ProbeNet (n : Nat) where
  server : ProbeServer n
  hub : ProbeHub n
  node : Fin n → NodeProbes n
  watch_s2a : List (ProbeWatchWire n)
  ctrl_a2n : Fin n → List (ControlToNode n)
  query_s2a : List (ProbeQueryWire n)
  query_a2n : Fin n → List (ProbeQueryWire n)
  query_n2a : List (ProbeQueryReplyWire n)
  query_a2s : List (ProbeQueryReplyWire n)
  csv_s2a : List (ProbeQueryWire n)
  csv_a2n : Fin n → List (ProbeQueryWire n)
  csv_n2a : List (ProbeQueryReplyWire n)
  csv_a2s : List (ProbeQueryReplyWire n)
  taps : Nat → List ProbeRecord
  probe_a2s : List ProbeRecord

/-! ### Steps -/

/-- What the server does. `take_id` is a request id used for something else;
    `expired` says that the deadline of the job has passed. -/
inductive ServerAct (n : Nat) where
  | put_watch (probes : List (ProbeRef n))
  | clear_watch
  | live_watch (after : Nat)
  | query_samples (probe : ProbeRef n) (range : ProbeRange)
  | start_csv (range : ProbeRange) (expired : Bool)
  | poll_csv
  | take_id
  | read_reply
  | timeout
  | finish
  | begin_samples
  | read_sample
  | fanout
  | read_csv
  | settle_csv (expired : Bool)

/-- What the arbiter does. `control` publishes a control message of its own. -/
inductive HubAct (n : Nat) where
  | forward_watch
  | control (msg : ControlToNode n)
  | forward_query
  | take_reply
  | publish_reply
  | forward_csv
  | forward_chunk
  | take_sample (probe_id : Nat)
  | publish_sample

/-- What a node does. -/
inductive NodeProbeAct where
  | take_control
  | take_query (io_ok : Bool)
  | send_reply
  | take_csv (io_ok : Bool)
  | send_chunk
  | ingest_and_emit (pending : Nat → Option TapSample) (written : Nat → Nat) (due : Bool)

inductive ProbeStep (n : Nat) where
  | server (act : ServerAct n)
  | hub (act : HubAct n)
  | node (i : Fin n) (act : NodeProbeAct)

namespace ProbeNet

variable {n : Nat}

/-- The arbiter broadcasts to the nodes. -/
def broadcast {α : Type} (cap : Nat) (inbox : Fin n → List α) (msg : α) : Fin n → List α := fun i =>
  Ring.push cap (inbox i) msg

/-- `a2n` subscriber buffer. -/
def a2n_buffer : Nat := 32

def server_step (catalog : ProbeCatalog n) (s : ProbeNet n) : ServerAct n → Option (ProbeNet n)
  | .put_watch probes =>
      match s.server.call, catalog.resolve_probes probes with
      | .none, some ids =>
          let (sv, watches, queries) := s.server.put_watch catalog ids
          some { s with
            server := sv
            watch_s2a := Ring.push_all watch_buffer s.watch_s2a watches
            query_s2a := Ring.push_all watch_buffer s.query_s2a queries }
      | _, _ => none
  | .clear_watch =>
      match s.server.call with
      | .none =>
          let (sv, watches) := s.server.clear_watch catalog
          some { s with
            server := sv
            watch_s2a := Ring.push_all watch_buffer s.watch_s2a watches }
      | _ => none
  | .live_watch after =>
      match s.server.call with
      | .none => some { s with server := s.server.live_watch after }
      | _ => none
  | .query_samples probe range =>
      match s.server.call, catalog.resolve_probes [probe] with
      | .none, some [id] =>
          let (sv, queries) := s.server.query_samples catalog id range
          some { s with
            server := sv
            query_s2a := Ring.push_all watch_buffer s.query_s2a queries }
      | _, _ => none
  | .start_csv range expired =>
      match s.server.call, s.server.start_csv catalog range expired with
      | .none, some (sv, queries) =>
          some { s with
            server := sv
            csv_s2a := Ring.push_all watch_buffer s.csv_s2a queries }
      | _, _ => none
  | .poll_csv =>
      match s.server.call, s.server.csv_job with
      | .none, some job =>
          some { s with server := { s.server with csv_job := some (ProbeServer.poll_csv_job job) } }
      | _, _ => none
  | .take_id =>
      match s.server.call with
      | .none =>
          some { s with server := { s.server with
            next_request_id := s.server.next_request_id + 1 } }
      | _ => none
  | .read_reply =>
      match s.server.call, s.query_a2s with
      | .query c, reply :: rest =>
          if c.expected.isEmpty then none
          else
            some { s with
              server := { s.server with call := .query (ProbeServer.read_reply reply c) }
              query_a2s := rest }
      | _, _ => none
  | .timeout =>
      match s.server.call with
      | .query c =>
          if c.expected.isEmpty then none
          else some { s with server := { s.server with call := .none } }
      | _ => none
  | .finish =>
      match s.server.call with
      | .query c =>
          if c.expected.isEmpty then some { s with server := s.server.finish_query c } else none
      | _ => none
  | .begin_samples =>
      match s.server.call with
      | .none => some { s with server := { s.server with call := .samples [] } }
      | _ => none
  | .read_sample =>
      match s.server.call, s.probe_a2s with
      | .samples live, record :: rest =>
          if live.length < 1024 then
            some { s with
              server := { s.server with call := .samples (live ++ [record]) }
              probe_a2s := rest }
          else none
      | _, _ => none
  | .fanout =>
      match s.server.call with
      | .samples live =>
          some { s with
            server := ({ s.server with call := .none } : ProbeServer n).fanout_live live }
      | _ => none
  | .read_csv =>
      match s.server.call, s.server.csv_job, s.csv_a2s with
      | .none, some job, reply :: rest =>
          if job.done then none
          else
            some { s with
              server := { s.server with csv_job := some (ProbeServer.read_csv reply job) }
              csv_a2s := rest }
      | _, _, _ => none
  | .settle_csv expired =>
      match s.server.call, s.server.csv_job with
      | .none, some job =>
          if job.done then none
          else
            some { s with server := { s.server with
              csv_job := some (ProbeServer.settle_csv expired job) } }
      | _, _ => none

/-- The steps of the arbiter that hold no reply. -/
def hub_step (s : ProbeNet n) : HubAct n → Option (ProbeNet n)
  | .forward_watch =>
      match s.hub.held, s.watch_s2a with
      | none, watch :: rest =>
          some { s with
            watch_s2a := rest
            ctrl_a2n := broadcast a2n_buffer s.ctrl_a2n
              (.ProbeWatch watch.board_hash watch.count watch.probe_ids) }
      | _, _ => none
  | .control msg =>
      match s.hub.held with
      | none => some { s with ctrl_a2n := broadcast a2n_buffer s.ctrl_a2n msg }
      | _ => none
  | .forward_query =>
      match s.hub.held, s.query_s2a with
      | none, query :: rest =>
          some { s with
            query_s2a := rest
            query_a2n := broadcast watch_buffer s.query_a2n query }
      | _, _ => none
  | .take_reply =>
      match s.hub.held, s.query_n2a with
      | none, reply :: rest =>
          some { s with hub := { s.hub with held := some reply }, query_n2a := rest }
      | _, _ => none
  | .publish_reply =>
      match s.hub.held with
      | some reply =>
          if s.query_a2s.length < reply_buffer n then
            some { s with
              hub := { s.hub with held := none }
              query_a2s := s.query_a2s ++ [reply] }
          else none
      | none => none
  | .forward_csv =>
      match s.hub.held, s.csv_s2a with
      | none, query :: rest =>
          some { s with csv_s2a := rest, csv_a2n := broadcast watch_buffer s.csv_a2n query }
      | _, _ => none
  | .forward_chunk =>
      match s.hub.held, s.csv_n2a with
      | none, chunk :: rest =>
          some { s with
            csv_n2a := rest
            csv_a2s := Ring.push (reply_buffer n) s.csv_a2s chunk }
      | _, _ => none
  | .take_sample probe_id =>
      match s.hub.held, s.taps probe_id with
      | none, record :: rest =>
          some { s with
            hub := { s.hub with carried := s.hub.carried ++ [record] }
            taps := Function.update s.taps probe_id rest }
      | _, _ => none
  | .publish_sample =>
      match s.hub.held, s.hub.carried with
      | none, record :: rest =>
          some { s with
            hub := { s.hub with carried := rest }
            probe_a2s := Ring.push probe_a2s_buffer s.probe_a2s record }
      | _, _ => none

/-- A node publishes samples. -/
def publish (taps : Nat → List ProbeRecord) (records : List ProbeRecord) :
    Nat → List ProbeRecord :=
  records.foldl (fun taps record =>
    Function.update taps record.probe_id
      (Ring.push probe_buffer (taps record.probe_id) record)) taps

def node_step (s : ProbeNet n) (i : Fin n) : NodeProbeAct → Option (ProbeNet n)
  | .take_control =>
      match (s.node i).sending, s.ctrl_a2n i with
      | [], msg :: rest =>
          let (nd, records) := (s.node i).take_control i msg
          some { s with
            node := Function.update s.node i nd
            ctrl_a2n := Function.update s.ctrl_a2n i rest
            taps := publish s.taps records }
      | _, _ => none
  | .take_query io_ok =>
      match (s.node i).sending, s.query_a2n i with
      | [], query :: rest =>
          some { s with
            node := Function.update s.node i ((s.node i).answer_query i io_ok query)
            query_a2n := Function.update s.query_a2n i rest }
      | _, _ => none
  | .send_reply =>
      match (s.node i).sending with
      | reply :: rest =>
          if s.query_n2a.length < reply_buffer n then
            some { s with
              node := Function.update s.node i { s.node i with sending := rest }
              query_n2a := s.query_n2a ++ [reply] }
          else none
      | [] => none
  | .take_csv io_ok =>
      match (s.node i).sending, s.csv_a2n i with
      | [], query :: rest =>
          some { s with
            node := Function.update s.node i ((s.node i).take_csv i io_ok query)
            csv_a2n := Function.update s.csv_a2n i rest }
      | _, _ => none
  | .send_chunk =>
      match (s.node i).sending, (s.node i).csv_out with
      | [], some out =>
          let (chunk, csv_out) := NodeProbes.next_chunk i out
          some { s with
            node := Function.update s.node i { s.node i with csv_out := csv_out }
            csv_n2a := Ring.push (reply_buffer n) s.csv_n2a chunk }
      | _, _ => none
  | .ingest_and_emit pending written due =>
      match (s.node i).sending with
      | [] =>
          let (nd, records) := (s.node i).ingest_and_emit pending written due
          some { s with
            node := Function.update s.node i nd
            taps := publish s.taps records }
      | _ => none

def step (catalog : ProbeCatalog n) (s : ProbeNet n) : ProbeStep n → Option (ProbeNet n)
  | .server act => s.server_step catalog act
  | .hub act => s.hub_step act
  | .node i act => s.node_step i act

/-! ### Runs -/

/-- The probe runtime of board `i` before its first query, with a log of any
    size: samples have been pushed and nothing else has happened. -/
structure NodeReady (catalog : ProbeCatalog n) (i : Fin n) (nd : NodeProbes n) : Prop where
  log : nd.log.Wf
  catalog_eq : nd.log.catalog = catalog.of_board i
  window : nd.log.window = []
  watch_eq : nd.watch = []
  csv_eq : nd.csv_out = none
  sending_eq : nd.sending = []
  answered_eq : nd.answered = []
  begun_eq : nd.begun = []

/-- No client has asked for anything yet. -/
structure Ready (catalog : ProbeCatalog n) (s : ProbeNet n) : Prop where
  server_eq : s.server = ProbeServer.new
  held_eq : s.hub.held = none
  carried_eq : s.hub.carried = []
  node (i : Fin n) : NodeReady catalog i (s.node i)
  watch_eq : s.watch_s2a = []
  query_s2a_eq : s.query_s2a = []
  query_a2n_eq (i : Fin n) : s.query_a2n i = []
  query_n2a_eq : s.query_n2a = []
  query_a2s_eq : s.query_a2s = []
  csv_s2a_eq : s.csv_s2a = []
  csv_a2n_eq (i : Fin n) : s.csv_a2n i = []
  csv_n2a_eq : s.csv_n2a = []
  csv_a2s_eq : s.csv_a2s = []
  taps_eq (p : Nat) : s.taps p = []
  probe_a2s_eq : s.probe_a2s = []

/-- The network with the given logs, before the first control message. -/
def start (logs : Fin n → ProbeLog) : ProbeNet n where
  server := .new
  hub := ⟨none, []⟩
  node i := ⟨logs i, [], none, [], .AwaitingStartup, [], []⟩
  watch_s2a := []
  ctrl_a2n _ := []
  query_s2a := []
  query_a2n _ := []
  query_n2a := []
  query_a2s := []
  csv_s2a := []
  csv_a2n _ := []
  csv_n2a := []
  csv_a2s := []
  taps _ := []
  probe_a2s := []

theorem ready_start {catalog : ProbeCatalog n} {logs : Fin n → ProbeLog}
    (h : ∀ i, (logs i).Quiet) (hcatalog : ∀ i, (logs i).catalog = catalog.of_board i) :
    Ready catalog (start logs) := by
  refine ⟨rfl, rfl, rfl, ?_, rfl, rfl, fun _ => rfl, rfl, rfl, rfl, fun _ => rfl, rfl, rfl,
    fun _ => rfl, rfl⟩
  intro i
  exact ⟨(h i).wf, hcatalog i, (h i).window_eq, rfl, rfl, rfl, rfl, rfl⟩

/-- The network as a transition system. -/
def system (catalog : ProbeCatalog n) : System (ProbeNet n) (ProbeStep n) where
  init := Ready catalog
  step := step catalog

/-! ### One board with one probe -/

def uart_catalog : ProbeCatalog 1 where
  points := [⟨1, 0, 7, .Uart, one_lt_u64⟩]
  nodup := by decide
  boards := by decide

/-- A word on the probe. -/
def uart_word (virtual_time_ns value : Nat) : ProbeRecord where
  probe_id := 1
  virtual_time_ns := virtual_time_ns % 256 ^ 8
  kind := .Uart
  value := value % 256 ^ 2
  probe_lt := one_lt_u64
  time_lt := mod_lt_u64 _
  value_lt := mod_lt_u16 _

/-- The network before the first request, with a log of the words. -/
def uart_net (words : List (Nat × Nat)) : ProbeNet 1 :=
  start fun i => .filled (uart_catalog.of_board i) (words.map fun w => uart_word w.1 w.2)

theorem uart_log (words : List (Nat × Nat)) (i : Fin 1) :
    (ProbeLog.filled (uart_catalog.of_board i) (words.map fun w => uart_word w.1 w.2)).Quiet ∧
      (ProbeLog.filled (uart_catalog.of_board i)
        (words.map fun w => uart_word w.1 w.2)).history = words.map (fun w => uart_word w.1 w.2) ∧
      (ProbeLog.filled (uart_catalog.of_board i)
        (words.map fun w => uart_word w.1 w.2)).catalog = uart_catalog.of_board i := by
  obtain rfl : i = 0 := Subsingleton.elim i 0
  apply ProbeLog.quiet_filled
  · decide
  · intro r hr
    obtain ⟨w, -, rfl⟩ := List.mem_map.mp hr
    exact ⟨⟨1, .Uart, by decide⟩, by decide, rfl, rfl⟩

theorem ready_uart_net (words : List (Nat × Nat)) : Ready uart_catalog (uart_net words) :=
  ready_start (fun i => (uart_log words i).1) fun i => (uart_log words i).2.2

/-- The query in progress. -/
def collecting (s : ProbeNet n) : Option (Collect n) :=
  match s.server.call with
  | .query c => some c
  | _ => none

theorem call_of_collecting {s : ProbeNet n} {c : Collect n} (h : s.collecting = some c) :
    s.server.call = .query c := by
  unfold collecting at h
  split at h
  · rename_i hcall
    rw [hcall, Option.some.inj h]
  · cases h

end ProbeNet

end Rl78Sim
