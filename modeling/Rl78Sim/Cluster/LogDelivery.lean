import Rl78Sim.Cluster.LogBus

/-! # What Becomes of a Log Line

    The lines of one process keep their order on the way to the server. A line
    is lost in a full queue, by a send that fails, or with its process; as long
    as none of this happens every line is stored or on its way. Once the
    arbiter has been told to shut its log down and its forwarder has ended,
    everything that was logged by the arbiter, or had reached it, before that
    has been published to the server.
-/

namespace Rl78Sim

open Transition Relay

variable {cap : Nat} {cfg : LogConfig}

/-! ### Lines of one process -/

/-- What a page shows of a record. -/
def ClusterLog.entry (record : ClusterLog cap) : String × String :=
  (record.level.as_str, record.text)

/-- What a page shows of a stored line. -/
def StoredLog.entry (log : StoredLog) : String × String := (log.level, log.text)

/-- A stored line names the process. -/
def StoredLog.is_of (source : LogSource) (log : StoredLog) : Bool :=
  match source with
  | .arbiter => log.origin = "arbiter"
  | .node board_hash => log.origin = "node" ∧ log.board = some board_hash

/-- The records that a thread has taken and not sent. -/
def LogPc.hand : LogPc cap → List (ClusterLog cap)
  | .forward record _ => [record]
  | .publish batch _ => batch
  | _ => []

namespace LogNet

/-- The lines of a process between the arbiter and the server. -/
def under_way (s : LogNet cap) (source : LogSource) : List (ClusterLog cap) :=
  (s.a2s ++ (s.thread .arbiter).pc.hand).filter fun record => record.source = source

/-- The lines of a process that a round of the forwarder can reach. -/
def ready (s : LogNet cap) : LogSource → List (ClusterLog cap)
  | .arbiter => (s.thread .arbiter).queue.records
  | .node board_hash => s.n2a board_hash

/-- The lines of a process that its own thread has still to send. -/
def unsent (s : LogNet cap) : LogSource → List (ClusterLog cap)
  | .arbiter => []
  | .node board_hash =>
    (s.thread (.node board_hash)).pc.hand ++ (s.thread (.node board_hash)).queue.records

/-- The lines of a process that are not stored yet. -/
def rest (s : LogNet cap) (source : LogSource) : List (ClusterLog cap) :=
  s.under_way source ++ s.ready source ++ s.unsent source

/-- What a step stores. -/
def stores (s : LogNet cap) : LogStep → List StoredLog
  | .try_recv =>
    match s.a2s with
    | [] => []
    | record :: _ =>
      [s.server.entry record.level.as_str record.origin.as_str (s.server.board_of record)
        record.text]
  | .try_wait (some code) => [s.server.entry "info" "server" none (LogServer.exit_text code)]
  | _ => []

/-- What a step logs for a process. -/
def logs (s : LogNet cap) (source : LogSource) : LogStep → List (ClusterLog cap)
  | .log from_source level text =>
    if from_source = source then
      (ClusterLog.record level (s.thread source).queue.origin (s.thread source).queue.board_hash
        text).toList
    else []
  | _ => []

/-- No step of this kind loses a line: the queue has room, the send succeeds,
    and a process that ends has nothing left to publish. -/
def NoLoss (s : LogNet cap) : LogStep → Prop
  | .log source _ _ => (s.thread source).queue.records.length < log_queue_cap
  | .exit source => (s.thread source).pc.hand = [] ∧ (s.thread source).queue.records = []
  | .publish .arbiter sent => sent = true ∧ s.a2s.length < log_buffer
  | .publish (.node board_hash) sent => sent = true ∧ (s.n2a board_hash).length < log_buffer
  | .forward sent => sent = true ∧ s.a2s.length < log_buffer
  | _ => True

end LogNet

/-! ### Whose records a queue holds -/

/-- The process whose queue it is. -/
def LogQueue.source (queue : LogQueue cap) : LogSource :=
  match queue.origin with
  | .Arbiter => .arbiter
  | .Node => .node queue.board_hash

theorem ClusterLog.record_source {queue : LogQueue cap} {level : LogLevel} {text : String}
    {record : ClusterLog cap}
    (h : ClusterLog.record level queue.origin queue.board_hash text = some record) :
    record.source = queue.source := by
  unfold ClusterLog.record at h
  obtain ⟨fitted, -, h⟩ := Option.bind_eq_some_iff.mp h
  dsimp only at h
  split at h
  · cases h
    unfold ClusterLog.source LogQueue.source
    cases queue.origin <;> rfl
  · cases h

namespace LogNet

theorem filter_own {source : LogSource} {records : List (ClusterLog cap)}
    (h : ∀ record ∈ records, record.source = source) :
    (records.filter fun record => record.source = source) = records :=
  List.filter_eq_self.mpr fun record hmem => decide_eq_true (h record hmem)

theorem filter_other {source other : LogSource} {records : List (ClusterLog cap)}
    (h : ∀ record ∈ records, record.source = source) (hne : source ≠ other) :
    (records.filter fun record => record.source = other) = [] :=
  List.filter_eq_nil_iff.mpr fun record hmem => by simp [h record hmem, hne]

/-- A thread holds records of processes that run, and that of a node its own. -/
def Held (cfg : LogConfig) (source : LogSource) (record : ClusterLog cap) : Prop :=
  cfg.runs record.source = true ∧ (source ≠ .arbiter → record.source = source)

/-- Every queue holds the records of one process, and whatever is forwarded is
    of a process that runs. -/
structure Owned (cfg : LogConfig) (s : LogNet cap) : Prop where
  queue (source : LogSource) : (s.thread source).queue.source = source
  records (source : LogSource) :
    ∀ record ∈ (s.thread source).queue.records, record.source = source
  hand (source : LogSource) : ∀ record ∈ (s.thread source).pc.hand, Held cfg source record
  n2a (board_hash : HashedId) : ∀ record ∈ s.n2a board_hash, record.source = .node board_hash
  nodes (board_hash : HashedId) : s.n2a board_hash ≠ [] → cfg.runs (.node board_hash) = true
  a2s : ∀ record ∈ s.a2s, cfg.runs record.source = true
  boards : s.server.boards = cfg.label

@[simp] theorem set_thread_self (s : LogNet cap) (source : LogSource) (thread : LogThread cap) :
    (s.set_thread source thread).thread source = thread := Function.update_self ..

theorem set_thread_ne (s : LogNet cap) {source other : LogSource} (thread : LogThread cap)
    (h : other ≠ source) : (s.set_thread source thread).thread other = s.thread other :=
  Function.update_of_ne h ..

@[simp] theorem set_thread_n2a (s : LogNet cap) (source : LogSource) (thread : LogThread cap) :
    (s.set_thread source thread).n2a = s.n2a := rfl

@[simp] theorem set_thread_a2s (s : LogNet cap) (source : LogSource) (thread : LogThread cap) :
    (s.set_thread source thread).a2s = s.a2s := rfl

@[simp] theorem set_thread_server (s : LogNet cap) (source : LogSource) (thread : LogThread cap) :
    (s.set_thread source thread).server = s.server := rfl

/-! ### One thread -/

section thread

variable {s : LogNet cap} {source : LogSource} {thread : LogThread cap}

/-- What a step of one thread does to the lines of every process: those of the
    process itself are its taken records and its queue, and the arbiter also
    holds one of somebody else. -/
theorem rest_set_node (board_hash : HashedId) (other : LogSource)
    (h : other ≠ .node board_hash) :
    (s.set_thread (.node board_hash) thread).rest other = s.rest other := by
  have harbiter : (s.set_thread (.node board_hash) thread).thread .arbiter = s.thread .arbiter :=
    s.set_thread_ne thread (by simp)
  cases other with
  | arbiter => simp only [rest, under_way, ready, unsent, harbiter, set_thread_a2s]
  | node b =>
    have hnode : (s.set_thread (.node board_hash) thread).thread (.node b) = s.thread (.node b) :=
      s.set_thread_ne thread h
    simp only [rest, under_way, ready, unsent, harbiter, hnode, set_thread_a2s, set_thread_n2a]

theorem rest_set_node_self (board_hash : HashedId) :
    (s.set_thread (.node board_hash) thread).rest (.node board_hash) =
      s.under_way (.node board_hash) ++ s.n2a board_hash ++
        (thread.pc.hand ++ thread.queue.records) := by
  have harbiter : (s.set_thread (.node board_hash) thread).thread .arbiter = s.thread .arbiter :=
    s.set_thread_ne thread (by simp)
  simp only [rest, under_way, ready, unsent, harbiter, set_thread_self, set_thread_a2s,
    set_thread_n2a]

theorem rest_set_arbiter (board_hash : HashedId) :
    (s.set_thread .arbiter thread).rest (.node board_hash) =
      ((s.a2s ++ thread.pc.hand).filter fun record => record.source = .node board_hash) ++
        s.n2a board_hash ++ s.unsent (.node board_hash) := by
  have hnode : (s.set_thread .arbiter thread).thread (.node board_hash) =
      s.thread (.node board_hash) := s.set_thread_ne thread (by simp)
  simp only [rest, under_way, ready, unsent, hnode, set_thread_self, set_thread_a2s,
    set_thread_n2a]

theorem rest_set_arbiter_self :
    (s.set_thread .arbiter thread).rest .arbiter =
      ((s.a2s ++ thread.pc.hand).filter fun record => record.source = .arbiter) ++
        thread.queue.records := by
  simp only [rest, under_way, ready, unsent, set_thread_self, set_thread_a2s, List.append_nil]

/-- A step that leaves the records of the thread where they are. -/
theorem rest_set_thread (hhand : thread.pc.hand = (s.thread source).pc.hand)
    (hrecords : thread.queue.records = (s.thread source).queue.records) (other : LogSource) :
    (s.set_thread source thread).rest other = s.rest other := by
  cases source with
  | node board_hash =>
    by_cases h : other = .node board_hash
    · rw [h, rest_set_node_self, hhand, hrecords]
      rfl
    · exact s.rest_set_node board_hash other h
  | arbiter =>
    cases other with
    | node b =>
      rw [rest_set_arbiter, hhand]
      rfl
    | arbiter =>
      rw [rest_set_arbiter_self, hhand, hrecords]
      unfold rest unsent
      rw [List.append_nil]
      rfl

/-- A step that leaves the queue of the arbiter alone. -/
theorem rest_set_hand (hrecords : thread.queue.records = (s.thread .arbiter).queue.records)
    (other : LogSource) :
    (s.set_thread .arbiter thread).rest other =
      ((s.a2s ++ thread.pc.hand).filter fun record => record.source = other) ++
        (s.ready other ++ s.unsent other) := by
  cases other with
  | node b =>
    rw [rest_set_arbiter, List.append_assoc]
    rfl
  | arbiter =>
    rw [rest_set_arbiter_self, hrecords]
    show _ = _ ++ ((s.thread .arbiter).queue.records ++ [])
    rw [List.append_nil]

theorem rest_eq (s : LogNet cap) (source : LogSource) :
    s.rest source =
      ((s.a2s ++ (s.thread .arbiter).pc.hand).filter fun record => record.source = source) ++
        (s.ready source ++ s.unsent source) := List.append_assoc ..

end thread

/-! ### The loop of a thread -/

theorem take_all_pc {thread thread' : LogThread cap} (h : thread.take_all = some thread') :
    ∃ last, thread.pc = .take last ∧
      thread' = ⟨{ thread.queue with records := [] }, .publish thread.queue.records last⟩ := by
  unfold LogThread.take_all at h
  split at h
  · rename_i last hpc
    cases h
    exact ⟨last, hpc, rfl⟩
  · cases h

theorem next_record_pc {thread thread' : LogThread cap} {record : ClusterLog cap}
    (h : thread.next_record = some (record, thread')) :
    ∃ batch last, thread.pc = .publish (record :: batch) last ∧
      thread' = { thread with pc := .publish batch last } := by
  unfold LogThread.next_record at h
  split at h
  · rename_i head batch last hpc
    cases h
    exact ⟨batch, last, hpc, rfl⟩
  · cases h

theorem round_pc {start : Bool → LogPc cap} {thread thread' : LogThread cap}
    (h : thread.round start = some thread') :
    (∃ last, thread.pc = .publish [] last ∧
      thread' = { thread with pc := if last then .done else .check }) ∨
    thread.pc = .check ∧ thread' = { thread with pc := start thread.queue.shutdown } := by
  unfold LogThread.round at h
  split at h
  · rename_i last hpc
    cases h
    exact .inl ⟨last, hpc, rfl⟩
  · rename_i hpc
    cases h
    exact .inr ⟨hpc, rfl⟩
  · cases h

theorem take_all_cases {thread thread' : LogThread cap} (h : thread.take_all = some thread') :
    thread.pc.hand = [] ∧ thread'.pc.hand = thread.queue.records ∧ thread'.queue.records = [] := by
  obtain ⟨last, hpc, rfl⟩ := take_all_pc h
  rw [hpc]
  exact ⟨rfl, rfl, rfl⟩

theorem next_record_cases {thread thread' : LogThread cap} {record : ClusterLog cap}
    (h : thread.next_record = some (record, thread')) :
    thread.pc.hand = record :: thread'.pc.hand ∧ thread'.queue = thread.queue := by
  obtain ⟨batch, last, hpc, rfl⟩ := next_record_pc h
  rw [hpc]
  exact ⟨rfl, rfl⟩

theorem loop_head_hand (source : LogSource) (last : Bool) :
    (cfg.loop_head source last : LogPc cap).hand = [] := by
  cases source <;> rfl

/-- The thread holds nothing at the end of a round. -/
theorem round_cases {source : LogSource} {thread thread' : LogThread cap}
    (h : thread.round (cfg.loop_head source) = some thread') :
    thread.pc.hand = [] ∧ thread'.pc.hand = [] ∧ thread'.queue = thread.queue := by
  rcases round_pc h with ⟨last, hpc, rfl⟩ | ⟨hpc, rfl⟩
  · rw [hpc]
    refine ⟨rfl, ?_, rfl⟩
    cases last <;> rfl
  · rw [hpc]
    exact ⟨rfl, loop_head_hand source _, rfl⟩

/-! ### The forwarder -/

theorem look_receive {s s' : LogNet cap} {board : HashedId} (h : s.look cfg board = some s') :
    ∃ unseen last, (s.thread .arbiter).pc = .receive unseen last ∧ board ∈ unseen ∧
      s' = s.receive cfg board unseen last := by
  unfold look at h
  split at h
  · rename_i unseen last hpc
    split at h
    · rename_i hmem
      cases h
      exact ⟨unseen, last, hpc, hmem, rfl⟩
    · cases h
  · cases h

theorem receive_nil {s : LogNet cap} {board : HashedId} {unseen : List HashedId} {last : Bool}
    (hring : s.n2a board = []) :
    s.receive cfg board unseen last = s.set_thread .arbiter
      { s.thread .arbiter with pc := .receive (unseen.erase board) last } := by
  unfold receive
  rw [hring]

theorem LogConfig.label_ne_none {board_hash : HashedId}
    (h : cfg.runs (.node board_hash) = true) : cfg.label board_hash ≠ none := by
  intro hnone
  have hmem : board_hash ∈ cfg.boards.map Prod.fst := List.contains_iff_mem.mp h
  obtain ⟨entry, hentry, rfl⟩ := List.mem_map.mp hmem
  have hne := List.lookup_eq_none_iff.mp hnone entry hentry
  exact absurd rfl (bne_iff_ne.mp hne)

/-- What a board has sent is not of an unknown one. -/
theorem Owned.receive_cons {s : LogNet cap} (hown : Owned cfg s) {board : HashedId}
    {record : ClusterLog cap} {rest : List (ClusterLog cap)} {unseen : List HashedId}
    {last : Bool} (hring : s.n2a board = record :: rest) :
    record.source = .node board ∧ cfg.runs (.node board) = true ∧
      s.receive cfg board unseen last =
        { s with n2a := Function.update s.n2a board rest }.set_thread .arbiter
          { s.thread .arbiter with pc := .forward record last } := by
  have hsource := hown.n2a board record (hring ▸ List.mem_cons_self)
  have hruns := hown.nodes board (by simp [hring])
  have hknown : ¬ (record.origin = .Node ∧ cfg.label record.board_hash = none) := by
    rintro ⟨horigin, hnone⟩
    have hboard : record.board_hash = board := by
      unfold ClusterLog.source at hsource
      rw [horigin] at hsource
      exact LogSource.node.inj hsource
    rw [hboard] at hnone
    exact LogConfig.label_ne_none hruns hnone
  refine ⟨hsource, hruns, ?_⟩
  unfold receive
  rw [hring]
  dsimp only
  rw [if_neg hknown]

/-! ### One step -/

/-- A step adds to the lines of a process what it logs, and loses some of them
    only if it is not safe. -/
def Moves (s : LogNet cap) (l : LogStep) (s' : LogNet cap) (source : LogSource) : Prop :=
  (s'.rest source).Sublist (s.rest source ++ s.logs source l) ∧
    (s.NoLoss l → s'.rest source = s.rest source ++ s.logs source l)

section moves

variable {s s' : LogNet cap} {l : LogStep} {source : LogSource}

theorem Moves.of_eq (hlogs : s.logs source l = []) (h : s'.rest source = s.rest source) :
    Moves s l s' source := by
  rw [Moves, hlogs, List.append_nil, h]
  exact ⟨List.Sublist.refl _, fun _ => rfl⟩

theorem Moves.of_sublist (hlogs : s.logs source l = [])
    (hsub : (s'.rest source).Sublist (s.rest source))
    (hsafe : s.NoLoss l → s'.rest source = s.rest source) : Moves s l s' source := by
  rw [Moves, hlogs, List.append_nil]
  exact ⟨hsub, hsafe⟩

/-- A record that is logged is the last of the lines of its process. -/
theorem log_moves {level : LogLevel} {text : String} {queue : LogQueue cap}
    (hpush : (s.thread source).queue.push_text level text = some queue) (other : LogSource) :
    Moves s (.log source level text)
      (s.set_thread source { s.thread source with queue := queue }) other := by
  obtain ⟨record, hrecord, rfl⟩ := Option.map_eq_some_iff.mp hpush
  by_cases hother : source = other
  · subst hother
    have hlogs : s.logs source (.log source level text) = [record] := by
      simp only [logs, if_pos, hrecord, Option.toList_some]
    rw [Moves, hlogs]
    cases source with
    | arbiter =>
      have hrest : s.rest .arbiter =
          s.under_way .arbiter ++ (s.thread .arbiter).queue.records := List.append_nil _
      rw [rest_set_arbiter_self, hrest, List.append_assoc]
      refine ⟨(Ring.push_sublist ..).append_left _, fun hroom => ?_⟩
      exact congrArg (_ ++ ·) (Ring.push_of_lt hroom)
    | node board_hash =>
      have hrest : s.rest (.node board_hash) =
          s.under_way (.node board_hash) ++ s.n2a board_hash ++
            ((s.thread (.node board_hash)).pc.hand ++
              (s.thread (.node board_hash)).queue.records) := rfl
      rw [rest_set_node_self, hrest, List.append_assoc (_ ++ _), List.append_assoc _ _ [record]]
      refine ⟨((Ring.push_sublist ..).append_left _).append_left _, fun hroom => ?_⟩
      exact congrArg (fun lines => _ ++ (_ ++ lines)) (Ring.push_of_lt hroom)
  · have hlogs : s.logs other (.log source level text) = [] := if_neg hother
    refine Moves.of_eq hlogs ?_
    cases source with
    | node board_hash => exact rest_set_node board_hash other (Ne.symm hother)
    | arbiter =>
      cases other with
      | arbiter => exact absurd rfl hother
      | node b => exact rest_set_arbiter b

/-- A process that ends takes its records with it. -/
theorem exit_moves (gone : LogSource → Bool) (other : LogSource) :
    Moves s (.exit source)
      { s.set_thread source ⟨{ (s.thread source).queue with records := [] }, .done⟩ with
        gone := gone } other := by
  refine Moves.of_sublist rfl ?_ fun ⟨hhand, hrecords⟩ => ?_
  · show ((s.set_thread source _).rest other).Sublist _
    cases source with
    | node board_hash =>
      by_cases h : other = .node board_hash
      · rw [h, rest_set_node_self]
        exact (List.nil_sublist _).append_left _
      · rw [rest_set_node board_hash other h]
    | arbiter =>
      have hgone : ((s.a2s ++ []).filter fun record : ClusterLog cap =>
          record.source = other).Sublist
          (s.under_way other) :=
        ((List.nil_sublist _).append_left s.a2s).filter _
      cases other with
      | node b =>
        rw [rest_set_arbiter]
        exact (hgone.append_right _).append_right _
      | arbiter =>
        rw [rest_set_arbiter_self]
        have hrest : s.rest .arbiter =
          s.under_way .arbiter ++ (s.thread .arbiter).queue.records := List.append_nil _
        rw [hrest]
        exact hgone.append (List.nil_sublist _)
  · show (s.set_thread source _).rest other = _
    refine rest_set_thread ?_ ?_ other
    · exact hhand.symm
    · exact hrecords.symm

/-- A whole queue goes into the hand of its thread. -/
theorem take_all_moves (hown : Owned cfg s) {thread : LogThread cap}
    (htake : (s.thread source).take_all = some thread) (other : LogSource) :
    Moves s (.take_all source) (s.set_thread source thread) other := by
  obtain ⟨hbefore, hhand, hrecords⟩ := take_all_cases htake
  refine Moves.of_eq rfl ?_
  cases source with
  | node board_hash =>
    by_cases h : other = .node board_hash
    · rw [h, rest_set_node_self, hhand, hrecords, List.append_nil]
      show _ = s.under_way _ ++ s.n2a board_hash ++ (_ ++ _)
      rw [hbefore, List.nil_append]
    · exact rest_set_node board_hash other h
  | arbiter =>
    have hmine := hown.records .arbiter
    cases other with
    | node b =>
      rw [rest_set_arbiter, hhand, List.filter_append, filter_other hmine (by simp),
        List.append_nil]
      show _ = ((s.a2s ++ (s.thread .arbiter).pc.hand).filter _) ++ _ ++ _
      rw [hbefore, List.append_nil]
      rfl
    | arbiter =>
      rw [rest_set_arbiter_self, hhand, hrecords, List.append_nil, List.filter_append,
        filter_own hmine]
      show _ = ((s.a2s ++ (s.thread .arbiter).pc.hand).filter _) ++ _ ++ []
      rw [hbefore, List.append_nil, List.append_nil]
      rfl

/-- The arbiter sends what its thread holds first. -/
theorem arbiter_sends {record : ClusterLog cap} {thread : LogThread cap} {sent : Bool}
    {other : LogSource} (hlogs : s.logs other l = [])
    (hhand : (s.thread .arbiter).pc.hand = record :: thread.pc.hand)
    (hrecords : thread.queue.records = (s.thread .arbiter).queue.records)
    (hsafe : s.NoLoss l → sent = true ∧ s.a2s.length < log_buffer) :
    Moves s l
      (if sent then (s.set_thread .arbiter thread).send .arbiter record
        else s.set_thread .arbiter thread) other := by
  have hrest : s.rest other =
      ((s.a2s ++ record :: thread.pc.hand).filter fun record => record.source = other) ++
        (s.ready other ++ s.unsent other) := by
    rw [rest_eq, hhand]
  cases sent with
  | false =>
    refine Moves.of_sublist hlogs ?_ fun h => by cases (hsafe h).1
    simp only [Bool.false_eq_true, if_false]
    rw [rest_set_hand hrecords, hrest]
    exact (((List.sublist_cons_self ..).append_left _).filter _).append_right _
  | true =>
    have hsent : ((s.set_thread .arbiter thread).send .arbiter record).rest other =
        ((Ring.push log_buffer s.a2s record ++ thread.pc.hand).filter fun record =>
          record.source = other) ++ (s.ready other ++ s.unsent other) :=
      rest_set_hand (s := { s with a2s := Ring.push log_buffer s.a2s record }) hrecords other
    refine Moves.of_sublist hlogs ?_ fun h => ?_
    · simp only [if_true]
      rw [hsent, hrest]
      exact ((push_sublist_append ..).filter _).append_right _
    · simp only [if_true]
      rw [hsent, hrest, push_eq_append (hsafe h).2]

/-- A node sends what its thread has taken first. -/
theorem node_sends {board_hash : HashedId} {record : ClusterLog cap} {thread : LogThread cap}
    {sent : Bool} {other : LogSource} (hlogs : s.logs other l = [])
    (hhand : (s.thread (.node board_hash)).pc.hand = record :: thread.pc.hand)
    (hrecords : thread.queue.records = (s.thread (.node board_hash)).queue.records)
    (hsafe : s.NoLoss l → sent = true ∧ (s.n2a board_hash).length < log_buffer) :
    Moves s l
      (if sent then (s.set_thread (.node board_hash) thread).send (.node board_hash) record
        else s.set_thread (.node board_hash) thread) other := by
  by_cases hother : other = .node board_hash
  · subst hother
    have hrest : s.rest (.node board_hash) =
        s.under_way (.node board_hash) ++ s.n2a board_hash ++
          (record :: thread.pc.hand ++ thread.queue.records) := by
      rw [hrecords, ← hhand]
      rfl
    cases sent with
    | false =>
      refine Moves.of_sublist hlogs ?_ fun h => by cases (hsafe h).1
      simp only [Bool.false_eq_true, if_false]
      rw [rest_set_node_self, hrest]
      exact (List.sublist_cons_self ..).append_left _
    | true =>
      have hsent : ((s.set_thread (.node board_hash) thread).send (.node board_hash) record).rest
          (.node board_hash) = s.under_way (.node board_hash) ++
            Ring.push log_buffer (s.n2a board_hash) record ++
              (thread.pc.hand ++ thread.queue.records) := by
        refine (rest_set_node_self (s := { s with
          n2a := Function.update s.n2a board_hash
            (Ring.push log_buffer (s.n2a board_hash) record) }) board_hash).trans ?_
        exact congrArg (fun ring => s.under_way (.node board_hash) ++ ring ++ _)
          (Function.update_self ..)
      refine Moves.of_sublist hlogs ?_ fun h => ?_
      · simp only [if_true]
        rw [hsent, hrest, List.append_assoc, List.append_assoc, List.cons_append]
        exact (push_sublist_append ..).append_left _
      · simp only [if_true]
        rw [hsent, hrest, List.append_assoc, List.append_assoc, List.cons_append,
          push_eq_append (hsafe h).2]
  · have hset : (s.set_thread (.node board_hash) thread).rest other = s.rest other :=
      rest_set_node board_hash other hother
    refine Moves.of_eq hlogs ?_
    cases sent with
    | false => exact hset
    | true =>
      refine Eq.trans ?_ hset
      cases other with
      | arbiter => rfl
      | node b =>
        have hb : b ≠ board_hash := fun h => hother (by rw [h])
        show _ ++ Function.update s.n2a board_hash _ b ++ _ = _ ++ s.n2a b ++ _
        rw [Function.update_of_ne hb]
        rfl

theorem round_moves {thread : LogThread cap}
    (hround : (s.thread source).round (cfg.loop_head source) = some thread) (other : LogSource) :
    Moves s (.round source) (s.set_thread source thread) other := by
  obtain ⟨hbefore, hafter, hqueue⟩ := round_cases hround
  refine Moves.of_eq rfl (rest_set_thread ?_ ?_ other)
  · rw [hbefore, hafter]
  · rw [hqueue]

/-- A record goes from the buffer of its board into the hand of the forwarder. -/
theorem look_moves (hown : Owned cfg s) {board : HashedId} (hlook : s.look cfg board = some s')
    (other : LogSource) : Moves s (.look board) s' other := by
  obtain ⟨unseen, last, hpc, -, rfl⟩ := look_receive hlook
  have hhand : (s.thread .arbiter).pc.hand = [] := by rw [hpc]; rfl
  refine Moves.of_eq rfl ?_
  cases hring : s.n2a board with
  | nil =>
    rw [receive_nil hring]
    refine rest_set_thread ?_ ?_ other
    · exact hhand.symm
    · rfl
  | cons record rest =>
    obtain ⟨hsource, -, hreceive⟩ := hown.receive_cons hring
    have hone : ∀ r ∈ [record], r.source = .node board := fun r hr => by
      rw [List.mem_singleton.mp hr, hsource]
    rw [hreceive, rest_set_hand, rest_eq, hhand, List.append_nil]
    · show ((s.a2s ++ [record]).filter _) ++ (_ ++ s.unsent other) = _
      by_cases h : other = .node board
      · subst h
        show _ ++ (Function.update s.n2a board rest board ++ _) = _ ++ (s.n2a board ++ _)
        rw [Function.update_self, hring, List.filter_append, filter_own hone, List.append_assoc]
        rfl
      · rw [List.filter_append, filter_other hone (Ne.symm h), List.append_nil]
        cases other with
        | arbiter => rfl
        | node b =>
          have hb : b ≠ board := fun hb => h (by rw [hb])
          show _ ++ (Function.update s.n2a board rest b ++ _) = _ ++ (s.n2a b ++ _)
          rw [Function.update_of_ne hb]
    · rfl

end moves

/-! ### The server -/

/-- A stored line is of the process that its record names. -/
theorem Owned.stored_is_of {s : LogNet cap} (hown : Owned cfg s) {record : ClusterLog cap}
    (hmem : record ∈ s.a2s) (source : LogSource) :
    (s.server.entry record.level.as_str record.origin.as_str (s.server.board_of record)
      record.text).is_of source = decide (record.source = source) := by
  have hruns := hown.a2s record hmem
  unfold LogServer.entry LogServer.board_of
  rw [hown.boards]
  cases horigin : record.origin with
  | Arbiter =>
    have hsource : record.source = .arbiter := by
      unfold ClusterLog.source
      rw [horigin]
    rw [hsource]
    cases source <;> simp [StoredLog.is_of, LogOrigin.as_str]
  | Node =>
    have hsource : record.source = .node record.board_hash := by
      unfold ClusterLog.source
      rw [horigin]
    rw [hsource] at hruns ⊢
    obtain ⟨label, hlabel⟩ := Option.ne_none_iff_exists'.mp (LogConfig.label_ne_none hruns)
    cases source <;> simp [StoredLog.is_of, LogOrigin.as_str, hlabel]

theorem exit_is_of (s : LogNet cap) (code : Option Int) (source : LogSource) :
    (s.server.entry "info" "server" none (LogServer.exit_text code)).is_of source = false := by
  cases source <;> simp [StoredLog.is_of, LogServer.entry]

/-! ### What the steps of the arbiter and the server do -/

section cases

variable {s s' : LogNet cap}

theorem nothing_cases (h : s.step cfg .nothing = some s') :
    ∃ last, (s.thread .arbiter).pc = .receive [] last ∧
      s' = s.set_thread .arbiter { s.thread .arbiter with pc := .take last } := by
  simp only [step] at h
  split at h
  · rename_i last hpc
    cases h
    exact ⟨last, hpc, rfl⟩
  · cases h

theorem receive_fails_cases (h : s.step cfg .receive_fails = some s') :
    ∃ unseen last, (s.thread .arbiter).pc = .receive unseen last ∧
      s' = s.set_thread .arbiter { s.thread .arbiter with pc := .take last } := by
  simp only [step] at h
  split at h
  · rename_i unseen last hpc
    cases h
    exact ⟨unseen, last, hpc, rfl⟩
  · cases h

theorem forward_cases {sent : Bool} (h : s.step cfg (.forward sent) = some s') :
    ∃ record last, (s.thread .arbiter).pc = .forward record last ∧
      s' = (if sent then
          (s.set_thread .arbiter
            { s.thread .arbiter with pc := .receive cfg.hashes last }).send .arbiter record
        else s.set_thread .arbiter
            { s.thread .arbiter with pc := .receive cfg.hashes last }) := by
  simp only [step] at h
  split at h
  · rename_i record last hpc
    cases h
    exact ⟨record, last, hpc, rfl⟩
  · cases h

/-- Nothing of a process is stored when the server looks for the exit. -/
theorem try_wait_cases {exited : Option (Option Int)}
    (h : s.step cfg (.try_wait exited) = some s') (source : LogSource) :
    s'.rest source = s.rest source ∧
      (s.stores (.try_wait exited)).filter (StoredLog.is_of source) = [] := by
  simp only [step, Option.ite_none_right_eq_some] at h
  obtain ⟨-, h⟩ := h
  cases exited with
  | none =>
    cases h
    exact ⟨rfl, rfl⟩
  | some code =>
    simp only [Option.ite_none_right_eq_some, Option.some.injEq] at h
    obtain ⟨-, rfl⟩ := h
    exact ⟨rfl, List.filter_cons_of_neg (by simp [exit_is_of])⟩

end cases

section passed

variable {s s' : LogNet cap} {l : LogStep} {source : LogSource} {fed : List (String × String)}

/-- What a step does to the lines of one process: what is stored in it, and
    what then is left. -/
def StepPasses (s : LogNet cap) (l : LogStep) (s' : LogNet cap) (source : LogSource)
    (fed : List (String × String)) : Prop :=
  Passed (s.NoLoss l) fed ((s.rest source).map ClusterLog.entry)
    (fed ++ (s.logs source l).map ClusterLog.entry)
    (((s.stores l).filter (StoredLog.is_of source)).map StoredLog.entry ++
      (s'.rest source).map ClusterLog.entry)

theorem Moves.passes (h : Moves s l s' source) (hstores : s.stores l = []) :
    StepPasses s l s' source fed := by
  obtain ⟨hsub, hsafe⟩ := h
  rw [StepPasses, hstores]
  refine Passed.put ?_ fun hs => ?_
  · rw [← List.map_append]
    exact hsub.map _
  · rw [← List.map_append, ← hsafe hs]
    rfl

/-- The first record on its way to the server is stored. -/
theorem try_recv_passes (hown : Owned cfg s) {record : ClusterLog cap}
    {tail : List (ClusterLog cap)} (ha2s : s.a2s = record :: tail) (hrest : ∀ source,
      s'.rest source = ((tail ++ (s.thread .arbiter).pc.hand).filter fun record =>
        record.source = source) ++ (s.ready source ++ s.unsent source)) :
    StepPasses s .try_recv s' source fed := by
  have hmem : record ∈ s.a2s := ha2s ▸ List.mem_cons_self
  have hstores : s.stores .try_recv = [s.server.entry record.level.as_str
      record.origin.as_str (s.server.board_of record) record.text] := by
    unfold stores
    rw [ha2s]
  have hline : s.rest source =
      ([record].filter fun record => record.source = source) ++ s'.rest source := by
    have hfirst : ((record :: (tail ++ (s.thread .arbiter).pc.hand)).filter fun record =>
        record.source = source) = _ := List.filter_append [record] _
    rw [rest_eq, hrest, ha2s, List.cons_append, hfirst, List.append_assoc]
    rfl
  have hstored : (([s.server.entry record.level.as_str record.origin.as_str
      (s.server.board_of record) record.text].filter (StoredLog.is_of source)).map
        StoredLog.entry) =
      ([record].filter fun record => record.source = source).map ClusterLog.entry := by
    have hof := hown.stored_is_of hmem source
    by_cases h : record.source = source
    · have hin : ([record].filter fun record => record.source = source) = [record] :=
        List.filter_cons_of_pos (decide_eq_true h)
      rw [List.filter_cons_of_pos (hof.trans (decide_eq_true h)), hin]
      rfl
    · rw [List.filter_cons_of_neg (by simp [hof, h]), List.filter_cons_of_neg (by simp [h])]
      rfl
  have heq : ((s.stores .try_recv).filter (StoredLog.is_of source)).map StoredLog.entry ++
      (s'.rest source).map ClusterLog.entry = (s.rest source).map ClusterLog.entry := by
    rw [hstores, hstored, hline, List.map_append]
  refine Passed.put ?_ fun _ => ?_
  · rw [heq]
    exact List.sublist_append_left _ _
  · rw [heq]
    exact (List.append_nil _).symm

theorem Owned.set_thread (hown : Owned cfg s) {thread : LogThread cap}
    (hqueue : thread.queue.source = source)
    (hrecords : ∀ record ∈ thread.queue.records, record.source = source)
    (hhand : ∀ record ∈ thread.pc.hand, Held cfg source record) :
    Owned cfg (s.set_thread source thread) where
  queue other := by
    by_cases h : other = source
    · rw [h, set_thread_self, hqueue]
    · rw [s.set_thread_ne thread h]
      exact hown.queue other
  records other := by
    by_cases h : other = source
    · rw [h, set_thread_self]
      exact hrecords
    · rw [s.set_thread_ne thread h]
      exact hown.records other
  hand other := by
    by_cases h : other = source
    · rw [h, set_thread_self]
      exact hhand
    · rw [s.set_thread_ne thread h]
      exact hown.hand other
  n2a := hown.n2a
  nodes := hown.nodes
  a2s := hown.a2s
  boards := hown.boards

/-- A thread that keeps its queue and holds less. -/
theorem Owned.set_pc (hown : Owned cfg s) {pc : LogPc cap}
    (hhand : ∀ record ∈ pc.hand, Held cfg source record) :
    Owned cfg (s.set_thread source { s.thread source with pc := pc }) :=
  hown.set_thread (hown.queue source) (hown.records source) hhand

theorem Owned.send (hown : Owned cfg s) (hruns : cfg.runs source = true) {record : ClusterLog cap}
    (hrecord : Held cfg source record) : Owned cfg (s.send source record) := by
  cases source with
  | arbiter =>
    refine { hown with a2s := fun r hr => ?_ }
    rcases Ring.mem_push hr with hold | rfl
    · exact hown.a2s r hold
    · exact hrecord.1
  | node board_hash =>
    refine { hown with n2a := fun b r hr => ?_, nodes := fun b hne => ?_ }
    · by_cases hb : b = board_hash
      · subst hb
        replace hr : r ∈ Function.update s.n2a b _ b := hr
        rw [Function.update_self] at hr
        rcases Ring.mem_push hr with hold | rfl
        · exact hown.n2a b r hold
        · exact hrecord.2 (by simp)
      · replace hr : r ∈ Function.update s.n2a board_hash _ b := hr
        rw [Function.update_of_ne hb] at hr
        exact hown.n2a b r hr
    · by_cases hb : b = board_hash
      · rw [hb, hruns]
      · replace hne : Function.update s.n2a board_hash _ b ≠ [] := hne
        rw [Function.update_of_ne hb] at hne
        exact hown.nodes b hne

/-- A sample leaves the buffer of its board. -/
theorem Owned.receive (hown : Owned cfg s) (board : HashedId) (unseen : List HashedId)
    (last : Bool) : Owned cfg (s.receive cfg board unseen last) := by
  cases hring : s.n2a board with
  | nil =>
    rw [receive_nil hring]
    exact hown.set_pc (List.forall_mem_nil _)
  | cons record rest =>
    obtain ⟨hsource, hruns, hreceive⟩ := hown.receive_cons hring
    have hsub (b : HashedId) : (Function.update s.n2a board rest b).Sublist (s.n2a b) := by
      by_cases hb : b = board
      · rw [hb, Function.update_self, hring]
        exact List.sublist_cons_self ..
      · rw [Function.update_of_ne hb]
    have hrest : Owned cfg { s with n2a := Function.update s.n2a board rest } :=
      { hown with
        n2a := fun b r hr => hown.n2a b r ((hsub b).subset hr)
        nodes := fun b hne => hown.nodes b fun hnil => hne (by
          have h := hsub b
          rw [hnil] at h
          exact List.sublist_nil.mp h) }
    rw [hreceive]
    refine hrest.set_pc fun r hr => ?_
    rw [List.mem_singleton.mp hr]
    exact ⟨hsource ▸ hruns, fun h => absurd rfl h⟩

theorem owned_inductive : Inductive (log_net cap cfg) (fun _ _ => True) (Owned cfg) := by
  intro s l s' hown _ hstep
  replace hstep : s.step cfg l = some s' := hstep
  cases l with
  | log source level text =>
    simp only [step, Option.ite_none_right_eq_some, Option.map_eq_some_iff] at hstep
    obtain ⟨-, queue, hpush, rfl⟩ := hstep
    obtain ⟨record, hrecord, rfl⟩ := Option.map_eq_some_iff.mp hpush
    refine hown.set_thread (hown.queue source) (fun r hr => ?_) (hown.hand source)
    rcases Ring.mem_push hr with hold | rfl
    · exact hown.records source r hold
    · rw [ClusterLog.record_source hrecord, hown.queue]
  | shutdown source =>
    simp only [step, Option.ite_none_right_eq_some, Option.some.injEq] at hstep
    obtain ⟨-, rfl⟩ := hstep
    exact hown.set_thread (hown.queue source) (hown.records source) (hown.hand source)
  | exit source =>
    simp only [step, Option.ite_none_right_eq_some, Option.some.injEq] at hstep
    obtain ⟨-, rfl⟩ := hstep
    have hset : Owned cfg
        (s.set_thread source ⟨{ (s.thread source).queue with records := [] }, .done⟩) :=
      hown.set_thread (hown.queue source) (List.forall_mem_nil _) (List.forall_mem_nil _)
    exact { hset with }
  | take_all source =>
    simp only [step, Option.ite_none_right_eq_some, Option.map_eq_some_iff] at hstep
    obtain ⟨hruns, thread, htake, rfl⟩ := hstep
    unfold LogThread.take_all at htake
    split at htake
    · cases htake
      refine hown.set_thread (hown.queue source) (List.forall_mem_nil _) fun r hr => ?_
      have hmine := hown.records source r hr
      exact ⟨hmine ▸ hruns, fun _ => hmine⟩
    · cases htake
  | publish source sent =>
    simp only [step, Option.ite_none_right_eq_some, Option.map_eq_some_iff] at hstep
    obtain ⟨hruns, ⟨record, thread⟩, hnext, rfl⟩ := hstep
    obtain ⟨hhand, hqueue⟩ := next_record_cases hnext
    have hheld := hown.hand source
    rw [hhand] at hheld
    have hset : Owned cfg (s.set_thread source thread) :=
      hown.set_thread (hqueue ▸ hown.queue source) (hqueue ▸ hown.records source)
        fun r hr => hheld r (List.mem_cons_of_mem _ hr)
    cases sent with
    | false => exact hset
    | true => exact hset.send hruns (hheld record List.mem_cons_self)
  | round source =>
    simp only [step, Option.ite_none_right_eq_some, Option.map_eq_some_iff] at hstep
    obtain ⟨-, thread, hround, rfl⟩ := hstep
    obtain ⟨-, hhand, hqueue⟩ := round_cases hround
    refine hown.set_thread (hqueue ▸ hown.queue source) (hqueue ▸ hown.records source) ?_
    rw [hhand]
    exact List.forall_mem_nil _
  | look board =>
    obtain ⟨unseen, last, -, -, rfl⟩ := look_receive hstep
    exact hown.receive board unseen last
  | nothing =>
    obtain ⟨last, -, rfl⟩ := nothing_cases hstep
    exact hown.set_pc (List.forall_mem_nil _)
  | receive_fails =>
    obtain ⟨unseen, last, -, rfl⟩ := receive_fails_cases hstep
    exact hown.set_pc (List.forall_mem_nil _)
  | forward sent =>
    obtain ⟨record, last, hpc, rfl⟩ := forward_cases hstep
    have hheld := hown.hand .arbiter
    rw [hpc] at hheld
    have hset : Owned cfg (s.set_thread .arbiter
        { s.thread .arbiter with pc := .receive cfg.hashes last }) :=
      hown.set_pc (List.forall_mem_nil _)
    cases sent with
    | false => exact hset
    | true => exact hset.send rfl (hheld record List.mem_cons_self)
  | begin_poll | inbox_fails =>
    simp only [step, Option.ite_none_right_eq_some, Option.some.injEq] at hstep
    obtain ⟨-, rfl⟩ := hstep
    exact { hown with }
  | try_recv =>
    simp only [step, Option.ite_none_right_eq_some] at hstep
    obtain ⟨-, hstep⟩ := hstep
    cases ha2s : s.a2s with
    | nil =>
      rw [ha2s] at hstep
      cases hstep
      exact { hown with a2s := List.forall_mem_nil _ }
    | cons record tail =>
      rw [ha2s] at hstep
      cases hstep
      refine { hown with a2s := fun r hr => hown.a2s r ?_ }
      rw [ha2s]
      exact List.mem_cons_of_mem _ hr
  | try_wait exited =>
    simp only [step, Option.ite_none_right_eq_some] at hstep
    obtain ⟨-, hstep⟩ := hstep
    cases exited with
    | none =>
      cases hstep
      exact { hown with }
    | some code =>
      simp only [Option.ite_none_right_eq_some, Option.some.injEq] at hstep
      obtain ⟨-, rfl⟩ := hstep
      exact { hown with }
  | connect page =>
    simp only [step, Option.ite_none_right_eq_some, Option.some.injEq] at hstep
    obtain ⟨-, rfl⟩ := hstep
    exact { hown with }
  | poll page =>
    simp only [step, Option.ite_none_right_eq_some, Option.bind_eq_some_iff,
      Option.map_eq_some_iff] at hstep
    obtain ⟨-, stream, -, stream', -, rfl⟩ := hstep
    exact { hown with }
  | yield page =>
    simp only [step, Option.bind_eq_some_iff, Option.map_eq_some_iff] at hstep
    obtain ⟨stream, -, stream', -, rfl⟩ := hstep
    exact { hown with }

/-- Every step passes the lines of every process on. -/
theorem step_passes (hown : Owned cfg s) (hstep : s.step cfg l = some s') :
    StepPasses s l s' source fed := by
  cases l with
  | log from_source level text =>
    simp only [step, Option.ite_none_right_eq_some, Option.map_eq_some_iff] at hstep
    obtain ⟨-, queue, hpush, rfl⟩ := hstep
    exact (log_moves hpush source).passes rfl
  | shutdown from_source =>
    simp only [step, Option.ite_none_right_eq_some, Option.some.injEq] at hstep
    obtain ⟨-, rfl⟩ := hstep
    refine (Moves.of_eq rfl (rest_set_thread ?_ ?_ source)).passes rfl
    · rfl
    · rfl
  | exit from_source =>
    simp only [step, Option.ite_none_right_eq_some, Option.some.injEq] at hstep
    obtain ⟨-, rfl⟩ := hstep
    exact (exit_moves _ source).passes rfl
  | take_all from_source =>
    simp only [step, Option.ite_none_right_eq_some, Option.map_eq_some_iff] at hstep
    obtain ⟨-, thread, htake, rfl⟩ := hstep
    exact (take_all_moves hown htake source).passes rfl
  | publish from_source sent =>
    simp only [step, Option.ite_none_right_eq_some, Option.map_eq_some_iff] at hstep
    obtain ⟨-, ⟨record, thread⟩, hnext, rfl⟩ := hstep
    obtain ⟨hhand, hqueue⟩ := next_record_cases hnext
    have hrecords := congrArg LogQueue.records hqueue
    cases from_source with
    | arbiter => exact (arbiter_sends rfl hhand hrecords id).passes rfl
    | node board_hash => exact (node_sends rfl hhand hrecords id).passes rfl
  | round from_source =>
    simp only [step, Option.ite_none_right_eq_some, Option.map_eq_some_iff] at hstep
    obtain ⟨-, thread, hround, rfl⟩ := hstep
    exact (round_moves hround source).passes rfl
  | look board => exact (look_moves hown hstep source).passes rfl
  | nothing =>
    obtain ⟨last, hpc, rfl⟩ := nothing_cases hstep
    refine (Moves.of_eq rfl (rest_set_thread ?_ ?_ source)).passes rfl
    · rw [hpc]
      rfl
    · rfl
  | receive_fails =>
    obtain ⟨unseen, last, hpc, rfl⟩ := receive_fails_cases hstep
    refine (Moves.of_eq rfl (rest_set_thread ?_ ?_ source)).passes rfl
    · rw [hpc]
      rfl
    · rfl
  | forward sent =>
    obtain ⟨record, last, hpc, rfl⟩ := forward_cases hstep
    refine (arbiter_sends rfl ?_ ?_ id).passes rfl
    · rw [hpc]
      rfl
    · rfl
  | begin_poll | inbox_fails =>
    simp only [step, Option.ite_none_right_eq_some, Option.some.injEq] at hstep
    obtain ⟨-, rfl⟩ := hstep
    exact (Moves.of_eq rfl rfl).passes rfl
  | try_recv =>
    simp only [step, Option.ite_none_right_eq_some] at hstep
    obtain ⟨-, hstep⟩ := hstep
    cases ha2s : s.a2s with
    | nil =>
      rw [ha2s] at hstep
      cases hstep
      refine (Moves.of_eq rfl ?_).passes (by rw [stores, ha2s])
      rw [rest_eq, rest_eq, ha2s]
      rfl
    | cons record tail =>
      rw [ha2s] at hstep
      cases hstep
      exact try_recv_passes hown ha2s fun source => rest_eq _ source
  | try_wait exited =>
    obtain ⟨hrest, hstores⟩ := try_wait_cases hstep source
    rw [StepPasses, hstores, hrest]
    exact Passed.put (by simp [logs]) fun _ => by simp [logs]
  | connect page =>
    simp only [step, Option.ite_none_right_eq_some, Option.some.injEq] at hstep
    obtain ⟨-, rfl⟩ := hstep
    exact (Moves.of_eq rfl rfl).passes rfl
  | poll page =>
    simp only [step, Option.ite_none_right_eq_some, Option.bind_eq_some_iff,
      Option.map_eq_some_iff] at hstep
    obtain ⟨-, stream, -, stream', -, rfl⟩ := hstep
    exact (Moves.of_eq rfl rfl).passes rfl
  | yield page =>
    simp only [step, Option.bind_eq_some_iff, Option.map_eq_some_iff] at hstep
    obtain ⟨stream, -, stream', -, rfl⟩ := hstep
    exact (Moves.of_eq rfl rfl).passes rfl

end passed

end LogNet

end Rl78Sim
