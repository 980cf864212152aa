import Rl78Sim.Cluster.TextFields
import Rl78Sim.Framework.Relay

/-! # The Log

    A line that a process logs goes into a queue of that process. A thread of
    its own takes the whole queue at a time and publishes it: that of a node to
    the arbiter, that of the arbiter to the server, after it has forwarded what
    the nodes have published. The server numbers the lines and keeps the newest
    ones, and a stream for a page asks for those with a higher number than it
    has seen.
-/

namespace Rl78Sim

open Transition

/-! ### Records -/

/-- `LogLevel::as_str`. -/
def LogLevel.as_str : LogLevel → String
  | Error => "error"
  | Warn => "warn"
  | Info => "info"
  | Debug => "debug"
  | Trace => "trace"

/-- `LogOrigin::as_str`. -/
def LogOrigin.as_str : LogOrigin → String
  | Arbiter => "arbiter"
  | Node => "node"

/-- The process that logs. -/
inductive LogSource where
  | arbiter
  | node (board_hash : HashedId)
  deriving DecidableEq

/-- The process that a record names. -/
def ClusterLog.source {cap : Nat} (record : ClusterLog cap) : LogSource :=
  match record.origin with
  | .Arbiter => .arbiter
  | .Node => .node record.board_hash

/-! ### The queue of a process -/

/-- `LOG_QUEUE_CAP`. -/
def log_queue_cap : Nat := 256

/-- `LogQueue`. -/
structure LogQueue (cap : Nat) where
  records : List (ClusterLog cap)
  shutdown : Bool
  origin : LogOrigin
  board_hash : HashedId

namespace LogQueue

variable {cap : Nat}

/-- `LogQueue::new`. -/
def new (origin : LogOrigin) (board_hash : HashedId) : LogQueue cap :=
  ⟨[], false, origin, board_hash⟩

/-- `LogQueue::push`. -/
def push (queue : LogQueue cap) (record : ClusterLog cap) : LogQueue cap :=
  { queue with records := Ring.push log_queue_cap queue.records record }

/-- `LogQueue::push_text`; `none` is a panic of a slice. -/
def push_text (queue : LogQueue cap) (level : LogLevel) (text : String) : Option (LogQueue cap) :=
  (ClusterLog.record level queue.origin queue.board_hash text).map queue.push

end LogQueue

/-! ### The threads -/

/-- Where a log thread is. Only the forwarder receives; `unseen` are the
    connections that `receive` has still to look at, and `last` is set once the
    thread has seen the shutdown. -/
inductive LogPc (cap : Nat) where
  | receive (unseen : List HashedId) (last : Bool)
  | forward (record : ClusterLog cap) (last : Bool)
  | take (last : Bool)
  | publish (batch : List (ClusterLog cap)) (last : Bool)
  | check
  | done

/-- A log thread, with the queue that it publishes. -/
structure LogThread (cap : Nat) where
  queue : LogQueue cap
  pc : LogPc cap

namespace LogThread

variable {cap : Nat}

/-- `queue.take_all`, at the head of the loop over the batch. -/
def take_all (thread : LogThread cap) : Option (LogThread cap) :=
  match thread.pc with
  | .take last => some ⟨{ thread.queue with records := [] }, .publish thread.queue.records last⟩
  | _ => none

/-- The next record of the batch. -/
def next_record (thread : LogThread cap) : Option (ClusterLog cap × LogThread cap) :=
  match thread.pc with
  | .publish (record :: batch) last => some (record, { thread with pc := .publish batch last })
  | _ => none

/-- After the batch: the thread ends, or looks whether it has to; `start` is the
    head of its loop. -/
def round (start : Bool → LogPc cap) (thread : LogThread cap) : Option (LogThread cap) :=
  match thread.pc with
  | .publish [] last => some { thread with pc := if last then .done else .check }
  | .check => some { thread with pc := start thread.queue.shutdown }
  | _ => none

end LogThread

/-! ### The server -/

/-- `LOG_CAP`. -/
def log_cap : Nat := 100

/-- `StoredLog`. -/
structure StoredLog where
  seq : Nat
  level : String
  origin : String
  board : Option HashedId
  text : String
  deriving DecidableEq

/-- Where the worker is in `poll_simulation`. -/
inductive LogPoll where
  | idle
  | inbox
  | wait
  deriving DecidableEq

/-- The part of `Simulation` that keeps the log. -/
structure LogServer where
  logs : List StoredLog
  next_seq : Nat
  boards : HashedId → Option String
  child : Bool
  pc : LogPoll

namespace LogServer

/-- The line that `append_log` stores. -/
def entry (s : LogServer) (level origin : String) (board : Option HashedId) (text : String) :
    StoredLog :=
  ⟨s.next_seq, level, origin, board, text⟩

/-- `append_log`. -/
def append_log (s : LogServer) (level origin : String) (board : Option HashedId)
    (text : String) : LogServer :=
  { s with
    next_seq := saturating_add s.next_seq 1
    logs := Ring.push log_cap s.logs (s.entry level origin board text) }

/-- The board of a record, if the server knows it. -/
def board_of {cap : Nat} (s : LogServer) (record : ClusterLog cap) : Option HashedId :=
  match record.origin with
  | .Node => (s.boards record.board_hash).map fun _ => record.board_hash
  | .Arbiter => none

/-- `push_log`. -/
def push_log {cap : Nat} (s : LogServer) (record : ClusterLog cap) : LogServer :=
  s.append_log record.level.as_str record.origin.as_str (s.board_of record) record.text

/-- The line that the server adds when it sees the exit of the arbiter. -/
def exit_text (code : Option Int) : String := "arbiter exited (" ++ toString (code.getD (-1)) ++ ")"

/-- `JobKind::GetLogs`. -/
def logs_after (s : LogServer) (after : Nat) : List StoredLog :=
  s.logs.filter fun log => after < log.seq

/-- `JobKind::LogHighWater`. -/
def log_high_water (s : LogServer) : Nat := s.next_seq - 1

end LogServer

/-! ### The stream of a page -/

/-- The state of `log_event_stream`; `pending` is in the order in which it is
    popped from its end, and `sent` is what the stream has yielded. -/
structure LogStream where
  after : Nat
  pending : List StoredLog
  sent : List StoredLog
  deriving DecidableEq

namespace LogStream

/-- `log_sse`. -/
def start (after : Nat) : LogStream := ⟨after, [], []⟩

/-- The next event that is pending. -/
def yield (stream : LogStream) : Option LogStream :=
  stream.pending.getLast?.map fun event =>
    { stream with pending := stream.pending.dropLast, sent := stream.sent ++ [event] }

/-- What a reply to `logs_after` does when nothing is pending. -/
def receive (stream : LogStream) (logs : List StoredLog) : Option LogStream :=
  if stream.pending = [] then
    if logs = [] then some stream
    else some { stream with
      after := logs.foldl (fun after log => max after log.seq) stream.after
      pending := logs.reverse }
  else none

end LogStream

/-! ### The system -/

/-- `subscriber_max_buffer_size` of the log services. -/
def log_buffer : Nat := 64

/-- All processes. `n2a` has a buffer for each node; `gone` says that a process
    has ended. -/
structure LogNet (cap : Nat) where
  thread : LogSource → LogThread cap
  gone : LogSource → Bool
  n2a : HashedId → List (ClusterLog cap)
  a2s : List (ClusterLog cap)
  server : LogServer
  stream : Nat → Option LogStream

/-- What the processes do. A send may fail; the pages are numbered. -/
inductive LogStep where
  | log (source : LogSource) (level : LogLevel) (text : String)
  /-- `shutdown` of the guard. -/
  | shutdown (source : LogSource)
  /-- The process ends. -/
  | exit (source : LogSource)
  | take_all (source : LogSource)
  | publish (source : LogSource) (sent : Bool)
  | round (source : LogSource)
  /-- `receive` looks at the connection of a board. -/
  | look (board : HashedId)
  /-- `receive` has found nothing. -/
  | nothing
  /-- `receive` fails, and the forwarder goes on to its own queue. -/
  | receive_fails
  | forward (sent : Bool)
  | begin_poll
  | try_recv
  /-- `try_recv` fails, and the server goes on. -/
  | inbox_fails
  | try_wait (code : Option (Option Int))
  | connect (page : Nat)
  | poll (page : Nat)
  | yield (page : Nat)
  deriving DecidableEq

/-- The boards of the topology, with their labels. -/
structure LogConfig where
  boards : List (HashedId × String)

namespace LogConfig

variable (cfg : LogConfig)

/-- The hashes of the boards. -/
def hashes : List HashedId := cfg.boards.map Prod.fst

/-- `boards.get`. -/
def label (board_hash : HashedId) : Option String := cfg.boards.lookup board_hash

/-- The arbiter and the nodes of the boards. -/
def runs : LogSource → Bool
  | .arbiter => true
  | .node board_hash => cfg.hashes.contains board_hash

/-- The head of the loop of a log thread. -/
def loop_head {cap : Nat} : LogSource → Bool → LogPc cap
  | .arbiter, last => .receive cfg.hashes last
  | .node _, last => .take last

end LogConfig

namespace LogNet

variable {cap : Nat} (cfg : LogConfig)

/-- Every log thread has opened its ports, and nothing is logged yet. -/
def new : LogNet cap where
  thread
    | .arbiter => ⟨.new .Arbiter 0, cfg.loop_head .arbiter false⟩
    | .node board_hash => ⟨.new .Node board_hash, cfg.loop_head (.node board_hash) false⟩
  gone _ := false
  n2a _ := []
  a2s := []
  server :=
    { logs := []
      next_seq := 1
      boards := cfg.label
      child := true
      pc := .idle }
  stream _ := none

/-- Replace the thread of a process. -/
def set_thread (s : LogNet cap) (source : LogSource) (thread : LogThread cap) : LogNet cap :=
  { s with thread := Function.update s.thread source thread }

/-- `send_copy` of a log thread. -/
def send (s : LogNet cap) (source : LogSource) (record : ClusterLog cap) : LogNet cap :=
  match source with
  | .arbiter => { s with a2s := Ring.push log_buffer s.a2s record }
  | .node board_hash =>
    { s with
      n2a := Function.update s.n2a board_hash (Ring.push log_buffer (s.n2a board_hash) record) }

/-- `forward_node_logs`, when `receive` looks at the connection of a board. -/
def receive (s : LogNet cap) (board : HashedId) (unseen : List HashedId) (last : Bool) :
    LogNet cap :=
  match s.n2a board with
  | [] => s.set_thread .arbiter { s.thread .arbiter with pc := .receive (unseen.erase board) last }
  | record :: rest =>
    let s := { s with n2a := Function.update s.n2a board rest }
    if record.origin = .Node ∧ cfg.label record.board_hash = none then
      s.set_thread .arbiter { s.thread .arbiter with pc := .receive cfg.hashes last }
    else s.set_thread .arbiter { s.thread .arbiter with pc := .forward record last }

/-- `receive` looks at a connection that it has not looked at. -/
def look (s : LogNet cap) (board : HashedId) : Option (LogNet cap) :=
  match (s.thread .arbiter).pc with
  | .receive unseen last =>
    if board ∈ unseen then some (s.receive cfg board unseen last) else none
  | _ => none

/-- Replace the stream of a page. -/
def set_stream (s : LogNet cap) (page : Nat) (stream : LogStream) : LogNet cap :=
  { s with stream := Function.update s.stream page (some stream) }

def step (s : LogNet cap) : LogStep → Option (LogNet cap)
  | .log source level text =>
    if cfg.runs source ∧ !s.gone source then
      ((s.thread source).queue.push_text level text).map fun queue =>
        s.set_thread source { s.thread source with queue := queue }
    else none
  | .shutdown source =>
    if cfg.runs source ∧ !s.gone source then
      some (s.set_thread source
        { s.thread source with queue := { (s.thread source).queue with shutdown := true } })
    else none
  | .exit source =>
    if cfg.runs source ∧ !s.gone source then
      some { s.set_thread source ⟨{ (s.thread source).queue with records := [] }, .done⟩ with
        gone := Function.update s.gone source true }
    else none
  | .take_all source =>
    if cfg.runs source then (s.thread source).take_all.map (s.set_thread source) else none
  | .publish source sent =>
    if cfg.runs source then
      (s.thread source).next_record.map fun (record, thread) =>
        let s := s.set_thread source thread
        if sent then s.send source record else s
    else none
  | .round source =>
    if cfg.runs source then
      ((s.thread source).round (cfg.loop_head source)).map (s.set_thread source)
    else none
  | .look board => s.look cfg board
  | .nothing =>
    match (s.thread .arbiter).pc with
    | .receive [] last => some (s.set_thread .arbiter { s.thread .arbiter with pc := .take last })
    | _ => none
  | .receive_fails =>
    match (s.thread .arbiter).pc with
    | .receive _ last => some (s.set_thread .arbiter { s.thread .arbiter with pc := .take last })
    | _ => none
  | .forward sent =>
    match (s.thread .arbiter).pc with
    | .forward record last =>
      let s := s.set_thread .arbiter
        { s.thread .arbiter with pc := .receive cfg.hashes last }
      some (if sent then s.send .arbiter record else s)
    | _ => none
  | .begin_poll =>
    if s.server.pc = .idle then some { s with server := { s.server with pc := .inbox } } else none
  | .try_recv =>
    if s.server.pc = .inbox then
      match s.a2s with
      | [] => some { s with server := { s.server with pc := .wait } }
      | record :: rest => some { s with a2s := rest, server := s.server.push_log record }
    else none
  | .inbox_fails =>
    if s.server.pc = .inbox then some { s with server := { s.server with pc := .wait } } else none
  | .try_wait exited =>
    if s.server.pc = .wait then
      match exited with
      | some code =>
        if s.server.child ∧ s.gone .arbiter then
          some { s with server :=
            { s.server.append_log "info" "server" none (LogServer.exit_text code) with
              child := false
              pc := .idle } }
        else none
      | none => some { s with server := { s.server with pc := .idle } }
    else none
  | .connect page =>
    if s.server.pc = .idle ∧ s.stream page = none then
      some (s.set_stream page (.start s.server.log_high_water))
    else none
  | .poll page =>
    if s.server.pc = .idle then
      (s.stream page).bind fun stream =>
        (stream.receive (s.server.logs_after stream.after)).map (s.set_stream page)
    else none
  | .yield page => (s.stream page).bind fun stream => stream.yield.map (s.set_stream page)

end LogNet

/-- All runs of the log. -/
def log_net (cap : Nat) (cfg : LogConfig) : System (LogNet cap) LogStep where
  init s := s = .new cfg
  step s l := s.step cfg l

end Rl78Sim
