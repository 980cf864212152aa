import Rl78Sim.Cluster.ServerSim
import Rl78Sim.Probe.Network

/-! # Putting a Watch

    `put_watch` as the worker runs it, with its errors. It checks the whole
    request first, then keeps the new watch, tells the nodes, and asks them for
    the latest records. Whatever the call meets is given beforehand, so a
    statement about every `WatchEnv` is one about every order of replies and
    timeouts.
-/

namespace Rl78Sim

/-! ### The request -/

/-- `ProbeRef`, with the board as the client names it. -/
structure WatchRef where
  board : HashedId
  name : HashedId
  deriving DecidableEq

/-- What `resolve_probes` reads of the simulation. -/
structure WatchTable (n : Nat) where
  catalog_ready : Bool
  boards : HashedId → Option (Fin n)
  probe_catalog : ProbeCatalog n

namespace WatchTable

variable {n : Nat} (table : WatchTable n)

/-- `require_catalog`. -/
def require_catalog : Except ApiError Unit :=
  if table.catalog_ready then .ok ()
  else .error ⟨503, "not_ready", "probe catalog is not ready"⟩

/-- One probe in the loop of `resolve_probes`. -/
def resolve_probe (probe : WatchRef) : Except ApiError Nat :=
  match table.boards probe.board with
  | none => .error (.not_found "unknown board")
  | some i =>
    match table.probe_catalog.points.find? fun point =>
        point.board_hash = i ∧ point.name_hash = probe.name.toNat with
    | none =>
      .error (.not_found
        s!"unknown probe {HashedId.to_hex probe.board}/{HashedId.to_hex probe.name}")
    | some point => .ok point.probe_id

/-- `resolve_probes`. -/
def resolve_probes (probes : List WatchRef) : Except ApiError (List WatchRef × List Nat) := do
  table.require_catalog
  let ids ← probes.mapM table.resolve_probe
  return (probes, ids)

theorem resolve_probes_fst {probes : List WatchRef} {resolved : List WatchRef × List Nat}
    (h : table.resolve_probes probes = .ok resolved) : resolved.1 = probes := by
  unfold resolve_probes at h
  cases hready : table.require_catalog with
  | error err => simp [hready, bind, Except.bind] at h
  | ok _ =>
    cases hids : probes.mapM table.resolve_probe with
    | error err => simp [hready, hids, bind, Except.bind] at h
    | ok ids =>
      simp [hready, hids, bind, Except.bind, pure, Except.pure] at h
      rw [← h]

end WatchTable

/-! ### The call -/

/-- What a call of `put_watch` meets. The boards are told in some `order`; a
    send may fail, at its place and with its error; `polls` are the reads of the
    reply channel before the deadline; `taken` is how many of the messages of
    the call a node has taken when the call returns. -/
structure WatchEnv (n : Nat) where
  order : List (Fin n)
  perm : order.Perm (List.finRange n)
  watch_fails : Option (Nat × String)
  query_fails : Option (Nat × String)
  polls : List (Except String (Option (ProbeQueryReplyWire n)))
  taken : Fin n → Nat

/-- What the call reads and writes: the probe part of the server, with the
    probes of its watch, and the nodes. -/
structure WatchState (n : Nat) where
  probes : List WatchRef
  server : ProbeServer n
  nodes : Fin n → NodeProbes n

/-- A loop that publishes: what it has sent, and how it ends. -/
def publish_each {α : Type} (fails : Option (Nat × String)) (msgs : List α) :
    List α × Except ApiError Unit :=
  match fails with
  | some (k, err) =>
    if k < msgs.length then (msgs.take k, .error (.internal err)) else (msgs, .ok ())
  | none => (msgs, .ok ())

/-- The message of `refresh_watch` for one board. -/
def watch_message {n : Nat} (catalog : ProbeCatalog n) (probe_ids : List Nat) (i : Fin n) :
    ProbeWatchWire n :=
  .new i (probe_ids.filter fun id => catalog.board_of id = some i).dedup

/-- `collect_query`, from the reads that are left before the deadline. -/
def collect_query {n : Nat} :
    List (Except String (Option (ProbeQueryReplyWire n))) → Collect n →
      Except ApiError (List ProbeRecord × Bool)
  | [], c =>
    match ProbeServer.collected c with
    | some found => .ok found
    | none => .error ⟨504, "timeout", "probe query was not answered before the deadline"⟩
  | poll :: polls, c =>
    match ProbeServer.collected c with
    | some found => .ok found
    | none =>
      match poll with
      | .error err => .error (.internal err)
      | .ok none => collect_query polls c
      | .ok (some reply) => collect_query polls (ProbeServer.read_reply reply c)

namespace WatchState

variable {n : Nat}

/-- The arbiter passes a watch message on to every node. -/
def take_watch (i : Fin n) (nd : NodeProbes n) (msg : ProbeWatchWire n) : NodeProbes n :=
  (nd.take_control i (.ProbeWatch msg.board_hash msg.count msg.probe_ids)).1

/-- `refresh_watch`, with what the nodes take of it. -/
def refresh_watch (catalog : ProbeCatalog n) (env : WatchEnv n) (s : WatchState n) :
    WatchState n × Except ApiError Unit :=
  let (sent, result) := publish_each env.watch_fails
    (env.order.map (watch_message catalog s.server.watch.probe_ids))
  ({ s with nodes := fun i => (sent.take (env.taken i)).foldl (take_watch i) (s.nodes i) }, result)

/-- `query_latest`. -/
def query_latest (catalog : ProbeCatalog n) (env : WatchEnv n) (purpose : QueryPurpose)
    (probe_ids : List Nat) (s : WatchState n) :
    WatchState n × Except ApiError (List ProbeRecord × Bool) :=
  let by_board := catalog.by_board probe_ids
  if by_board.isEmpty then (s, .ok ([], false))
  else
    let request_id := s.server.next_request_id
    let s := { s with server := { s.server with next_request_id := request_id + 1 } }
    let queries := by_board.map fun (i, ids) => ProbeQueryWire.latest request_id i ids
    match (publish_each env.query_fails queries).2 with
    | .error err => (s, .error err)
    | .ok () =>
      (s, collect_query env.polls
        ⟨request_id, by_board.map Prod.fst, [], false, purpose⟩)

/-- The number of a batch is used up, whether or not the batch comes about. -/
def take_seq (s : WatchState n) : WatchState n :=
  { s with server := { s.server with
    watch := { s.server.watch with next_seq := s.server.watch.next_seq + 1 } } }

@[simp] theorem take_seq_next_request_id (s : WatchState n) :
    s.take_seq.server.next_request_id = s.server.next_request_id := rfl

/-- `snapshot_watch`. -/
def snapshot_watch (catalog : ProbeCatalog n) (env : WatchEnv n) (s : WatchState n) :
    WatchState n × Except ApiError CoarseBatch :=
  let probe_ids := s.server.watch.probe_ids
  let seq := s.server.watch.next_seq
  let s := s.take_seq
  if probe_ids.isEmpty then (s, .ok ⟨seq, []⟩)
  else
    let (s, found) := s.query_latest catalog env (.Snapshot seq) probe_ids
    (s, found.map fun found => ⟨seq, found.1⟩)

/-- The first two assignments of `put_watch`. -/
def set_watch (resolved : List WatchRef) (ids : List Nat) (s : WatchState n) : WatchState n :=
  { s with
    probes := resolved
    server := { s.server with watch := { s.server.watch with probe_ids := ids } } }

/-- The last step of `put_watch`. -/
def push_snapshot (snapshot : CoarseBatch) (s : WatchState n) : WatchState n :=
  if snapshot.samples.isEmpty then s
  else { s with server := { s.server with watch := s.server.watch.push_batch snapshot } }

/-- `put_watch`. -/
def put_watch (table : WatchTable n) (env : WatchEnv n) (probes : List WatchRef)
    (s : WatchState n) : WatchState n × Except ApiError (List WatchRef) :=
  match table.resolve_probes probes with
  | .error err => (s, .error err)
  | .ok (resolved, ids) =>
    let s := s.set_watch resolved ids
    let view := s.probes
    match s.refresh_watch table.probe_catalog env with
    | (s, .error err) => (s, .error err)
    | (s, .ok ()) =>
      match s.snapshot_watch table.probe_catalog env with
      | (s, .error err) => (s, .error err)
      | (s, .ok snapshot) => (s.push_snapshot snapshot, .ok view)

end WatchState

/-! ### When nothing is refused -/

/-- The loop sends all messages. -/
def Publishes (fails : Option (Nat × String)) (count : Nat) : Prop :=
  ∀ k err, fails = some (k, err) → count ≤ k

/-- Before the deadline, and before a read fails, every expected board has sent
    a last reply to the request. -/
def AllAnswer {n : Nat} (polls : List (Except String (Option (ProbeQueryReplyWire n))))
    (request_id : Nat) (expected : List (Fin n)) : Prop :=
  ∃ k, (∀ err, .error err ∉ polls.take k) ∧
    ∀ i ∈ expected, ∃ reply : ProbeQueryReplyWire n, .ok (some reply) ∈ polls.take k ∧
      reply.request_id = request_id ∧ reply.from_ = i ∧ reply.last = true

/-- The boards that are told before a send fails. -/
def WatchEnv.told {n : Nat} (env : WatchEnv n) : List (Fin n) :=
  match env.watch_fails with
  | some (k, _) => env.order.take k
  | none => env.order

theorem publish_each_map {α β : Type} (fails : Option (Nat × String)) (f : α → β) (l : List α) :
    (publish_each fails (l.map f)).1 =
      (match fails with | some (k, _) => l.take k | none => l).map f := by
  unfold publish_each
  rcases fails with _ | ⟨k, err⟩
  · rfl
  · by_cases hk : k < l.length
    · simp [hk, List.map_take]
    · have hlen : l.length ≤ k := by omega
      simp [hk, List.take_of_length_le hlen]

theorem publish_each_ok {α : Type} (fails : Option (Nat × String)) (msgs : List α) :
    (publish_each fails msgs).2 = .ok () ↔ Publishes fails msgs.length := by
  unfold publish_each Publishes
  rcases fails with _ | ⟨k, err⟩
  · simp
  · by_cases hk : k < msgs.length
    · have hle : ¬ msgs.length ≤ k := by omega
      simp [hk]
    · have hle : msgs.length ≤ k := by omega
      simp only [if_neg hk, true_iff]
      intro k' err' h
      cases h
      exact hle

section collecting

variable {n : Nat} {polls : List (Except String (Option (ProbeQueryReplyWire n)))}
  {request_id : Nat} {expected left : List (Fin n)}

/-- The read is a last reply of board `i`. -/
def Closes (request_id : Nat) (read : Option (ProbeQueryReplyWire n)) (i : Fin n) : Prop :=
  ∃ reply, read = some reply ∧ reply.request_id = request_id ∧ reply.from_ = i ∧ reply.last = true

theorem not_all_answer (polls : List (Except String (Option (ProbeQueryReplyWire n))))
    (request_id : Nat) (err : String) (h : expected ≠ []) :
    ¬ AllAnswer (.error err :: polls) request_id expected := by
  rintro ⟨k, hok, hall⟩
  cases k with
  | zero =>
    obtain ⟨i, hi⟩ := List.exists_mem_of_ne_nil expected h
    obtain ⟨reply, hmem, -⟩ := hall i hi
    simp at hmem
  | succ k => exact hok err (by simp)

/-- One read closes some boards, and the others are left for the later ones. -/
theorem all_answer_read {read : Option (ProbeQueryReplyWire n)}
    (hleft : ∀ i, i ∈ left ↔ i ∈ expected ∧ ¬ Closes request_id read i) :
    AllAnswer (.ok read :: polls) request_id expected ↔ AllAnswer polls request_id left := by
  constructor
  · rintro ⟨k, hok, hall⟩
    -- Without a read nobody answers, so `expected` and `left` are empty.
    cases k with
    | zero =>
      refine ⟨0, by simp, ?_⟩
      intro i hi
      obtain ⟨reply, hmem, -⟩ := hall i ((hleft i).mp hi).1
      simp at hmem
    | succ k =>
      refine ⟨k, ?_, ?_⟩
      · intro err hmem
        exact hok err (List.mem_cons_of_mem _ hmem)
      · intro i hi
        obtain ⟨hexp, hopen⟩ := (hleft i).mp hi
        obtain ⟨reply, hmem, hreply⟩ := hall i hexp
        rcases List.mem_cons.mp hmem with hhead | htail
        · exact absurd ⟨reply, (Except.ok.inj hhead).symm, hreply⟩ hopen
        · exact ⟨reply, htail, hreply⟩
  · rintro ⟨k, hok, hall⟩
    refine ⟨k + 1, ?_, ?_⟩
    · intro err hmem
      rcases List.mem_cons.mp hmem with hhead | htail
      · exact absurd hhead (by simp)
      · exact hok err htail
    · intro i hi
      by_cases hclose : Closes request_id read i
      · obtain ⟨reply, hread, hreply⟩ := hclose
        exact ⟨reply, by simp [hread], hreply⟩
      · obtain ⟨reply, hmem, hreply⟩ := hall i ((hleft i).mpr ⟨hi, hclose⟩)
        exact ⟨reply, List.mem_cons_of_mem _ hmem, hreply⟩

theorem collect_query_ok (polls : List (Except String (Option (ProbeQueryReplyWire n))))
    (c : Collect n) :
    (∃ found, collect_query polls c = .ok found) ↔ AllAnswer polls c.request_id c.expected := by
  induction polls generalizing c with
  | nil =>
    cases hexp : c.expected with
    | nil => simp [collect_query, ProbeServer.collected, hexp, AllAnswer]
    | cons i is =>
      have hnone : ¬ AllAnswer (n := n) [] c.request_id (i :: is) := by
        rintro ⟨k, -, hall⟩
        obtain ⟨reply, hmem, -⟩ := hall i (by simp)
        simp at hmem
      simp [collect_query, ProbeServer.collected, hexp, hnone]
  | cons poll polls ih =>
    by_cases hexp : c.expected = []
    · have hright : AllAnswer (poll :: polls) c.request_id c.expected :=
        ⟨0, by simp, by simp [hexp]⟩
      simp [collect_query, ProbeServer.collected, hexp] at hright ⊢
      exact hright
    · have hgo : ProbeServer.collected c = none := by simp [ProbeServer.collected, hexp]
      -- The loop goes on: the three results of a read.
      match poll with
      | .error err =>
        have hno := not_all_answer polls c.request_id err hexp
        simp [collect_query, hgo, hno]
      | .ok none =>
        simp only [collect_query, hgo]
        rw [ih, all_answer_read]
        intro i
        simp [Closes]
      | .ok (some reply) =>
        simp only [collect_query, hgo]
        rw [ih]
        -- A reply closes its board if it is the last one for this request.
        have hid : (ProbeServer.read_reply reply c).request_id = c.request_id := by
          unfold ProbeServer.read_reply
          split <;> rfl
        rw [hid, all_answer_read]
        intro i
        unfold ProbeServer.read_reply Closes
        by_cases hreq : reply.request_id = c.request_id
        · by_cases hlast : reply.last = true
          · have hne : (i ≠ reply.from_) ↔ ¬ reply.from_ = i := ne_comm
            simp [hreq, hlast, hne]
          · simp [hreq, hlast]
        · simp [hreq]

end collecting

/-! ### What the nodes take -/

namespace WatchState

variable {n : Nat} {catalog : ProbeCatalog n} {env : WatchEnv n} {s : WatchState n}

theorem take_watch_message (probe_ids : List Nat) (i j : Fin n) (nd : NodeProbes n) :
    (take_watch i nd (watch_message catalog probe_ids j)).watch =
      if j = i then (watch_message catalog probe_ids i).probe_ids else nd.watch := by
  have hsame : nd.state.on_message (.ProbeWatch j (watch_message catalog probe_ids j).count
      (watch_message catalog probe_ids j).probe_ids) =
      (nd.state, some (.ProbeWatch j (watch_message catalog probe_ids j).probe_ids)) := by
    have hall : (watch_message catalog probe_ids j).probe_ids.take
        (watch_message catalog probe_ids j).count =
        (watch_message catalog probe_ids j).probe_ids := by
      simp [watch_message, ProbeWatchWire.new, List.take_take, Nat.min_comm]
    cases hstate : nd.state <;> simp [NodeState.on_message, hall]
  have hboard : (watch_message catalog probe_ids j).board_hash = j := rfl
  unfold take_watch NodeProbes.take_control
  rw [hboard, hsame]
  by_cases hj : j = i
  · subst hj
    simp [NodeProbes.set_watch]
  · simp [NodeProbes.set_watch, hj]

/-- A board has no more probes than fit into one message. -/
theorem mem_watch_message (probe_ids : List Nat) (i : Fin n) (id : Nat) :
    id ∈ (watch_message catalog probe_ids i).probe_ids ↔
      id ∈ probe_ids ∧ catalog.board_of id = some i := by
  have hfits : (probe_ids.filter fun id => catalog.board_of id = some i).dedup.length ≤
      max_probes_per_board := by
    have hsub : (probe_ids.filter fun id => catalog.board_of id = some i).dedup ⊆
        (catalog.points.filter fun point => point.board_hash = i).map ProbePointName.probe_id := by
      intro id hid
      have hboard : catalog.board_of id = some i := by
        simpa using (List.mem_filter.mp (List.mem_dedup.mp hid)).2
      obtain ⟨point, hpoint, hi⟩ := Option.map_eq_some_iff.mp hboard
      have hmem := List.mem_of_find?_eq_some hpoint
      have hfound := List.find?_some hpoint
      refine List.mem_map.mpr ⟨point, List.mem_filter.mpr ⟨hmem, by simpa using hi⟩, ?_⟩
      simpa using hfound
    have hlen := (List.subperm_of_subset (List.nodup_dedup _) hsub).length_le
    rw [List.length_map] at hlen
    exact Nat.le_trans hlen (catalog.boards i)
  unfold watch_message ProbeWatchWire.new
  rw [List.take_of_length_le hfits]
  simp

theorem foldl_take_watch (probe_ids : List Nat) (i : Fin n) (l : List (Fin n))
    (nd : NodeProbes n) :
    ((l.map (watch_message catalog probe_ids)).foldl (take_watch i) nd).watch =
      if i ∈ l then (watch_message catalog probe_ids i).probe_ids else nd.watch := by
  induction l generalizing nd with
  | nil => simp
  | cons j l ih =>
    rw [List.map_cons, List.foldl_cons, ih, take_watch_message]
    by_cases hl : i ∈ l
    · simp [hl]
    · by_cases hj : j = i
      · simp [hj]
      · simp [hl, hj, Ne.symm hj]

/-- The emit sets after the nodes have taken what was sent. -/
theorem watch_refresh_watch (i : Fin n) :
    (((s.refresh_watch catalog env).1).nodes i).watch =
      if i ∈ env.told.take (env.taken i) then
        (watch_message catalog s.server.watch.probe_ids i).probe_ids
      else (s.nodes i).watch := by
  unfold refresh_watch
  show NodeProbes.watch (((publish_each env.watch_fails
    (env.order.map (watch_message catalog s.server.watch.probe_ids))).1.take
      (env.taken i)).foldl (take_watch i) (s.nodes i)) = _
  rw [publish_each_map, ← List.map_take]
  exact foldl_take_watch _ i _ _

/-! ### What a refused call leaves behind -/

/-- The watch set, its pending batches and the emit sets are as before. -/
structure Untouched (s s' : WatchState n) : Prop where
  probes : s'.probes = s.probes
  probe_ids : s'.server.watch.probe_ids = s.server.watch.probe_ids
  pending : s'.server.watch.pending = s.server.watch.pending
  emits : ∀ i id, id ∈ (s'.nodes i).watch ↔ id ∈ (s.nodes i).watch

/-- No send of the call fails, and every board that is asked answers in time. -/
structure Served (catalog : ProbeCatalog n) (env : WatchEnv n) (s : WatchState n)
    (ids : List Nat) : Prop where
  tells : Publishes env.watch_fails n
  asks : Publishes env.query_fails (catalog.by_board ids).length
  answers : AllAnswer env.polls s.server.next_request_id ((catalog.by_board ids).map Prod.fst)

/-- The request asks for the watch that the server has, and a node that has
    taken its message emits the same as before. -/
structure Same (catalog : ProbeCatalog n) (env : WatchEnv n) (s : WatchState n)
    (probes : List WatchRef) (ids : List Nat) : Prop where
  probes_eq : probes = s.probes
  ids_eq : ids = s.server.watch.probe_ids
  emits : ∀ i, i ∈ env.told.take (env.taken i) →
    ∀ id, id ∈ (s.nodes i).watch ↔ id ∈ ids ∧ catalog.board_of id = some i

/-- The steps after the nodes are told touch neither the watch nor the nodes. -/
structure Frame (s s' : WatchState n) : Prop where
  probes : s'.probes = s.probes
  probe_ids : s'.server.watch.probe_ids = s.server.watch.probe_ids
  pending : s'.server.watch.pending = s.server.watch.pending
  nodes : s'.nodes = s.nodes

theorem frame_query_latest (catalog : ProbeCatalog n) (env : WatchEnv n) (s : WatchState n)
    (purpose : QueryPurpose) (probe_ids : List Nat) :
    s.Frame (s.query_latest catalog env purpose probe_ids).1 := by
  unfold query_latest
  dsimp only
  split
  · exact ⟨rfl, rfl, rfl, rfl⟩
  · split <;> exact ⟨rfl, rfl, rfl, rfl⟩

theorem frame_snapshot_watch : s.Frame (s.snapshot_watch catalog env).1 := by
  unfold snapshot_watch
  dsimp only
  split
  · exact ⟨rfl, rfl, rfl, rfl⟩
  · have hq := frame_query_latest catalog env s.take_seq
      (.Snapshot s.server.watch.next_seq) s.server.watch.probe_ids
    exact ⟨hq.probes, hq.probe_ids, hq.pending, hq.nodes⟩

theorem refresh_watch_ok (catalog : ProbeCatalog n) (env : WatchEnv n) (s : WatchState n) :
    (s.refresh_watch catalog env).2 = .ok () ↔ Publishes env.watch_fails n := by
  have hlen : (env.order.map (watch_message catalog s.server.watch.probe_ids)).length = n := by
    rw [List.length_map, env.perm.length_eq, List.length_finRange]
  have hiff := publish_each_ok env.watch_fails
    (env.order.map (watch_message catalog s.server.watch.probe_ids))
  rw [hlen] at hiff
  exact hiff

theorem query_latest_ok (catalog : ProbeCatalog n) (env : WatchEnv n) (s : WatchState n)
    (purpose : QueryPurpose) (ids : List Nat) :
    (∃ found, (s.query_latest catalog env purpose ids).2 = .ok found) ↔
      Publishes env.query_fails (catalog.by_board ids).length ∧
        AllAnswer env.polls s.server.next_request_id ((catalog.by_board ids).map Prod.fst) := by
  unfold query_latest
  dsimp only
  by_cases hnone : (catalog.by_board ids).isEmpty = true
  -- No board is asked, so nothing is published and no answer is missing.
  · have hnil : catalog.by_board ids = [] := List.isEmpty_iff.mp hnone
    have hright : Publishes env.query_fails (catalog.by_board ids).length ∧
        AllAnswer env.polls s.server.next_request_id ((catalog.by_board ids).map Prod.fst) := by
      rw [hnil]
      exact ⟨fun k _ _ => Nat.zero_le k, 0, by simp, by simp⟩
    rw [if_pos hnone]
    exact iff_of_true ⟨_, rfl⟩ hright
  · rw [if_neg hnone]
    have hsends := publish_each_ok env.query_fails ((catalog.by_board ids).map fun (i, ids) =>
      ProbeQueryWire.latest s.server.next_request_id i ids)
    rw [List.length_map] at hsends
    split
    · rename_i err herr
      rw [herr] at hsends
      simp only [reduceCtorEq, false_iff] at hsends
      simp [hsends]
    · rename_i hok
      have hpub := hsends.mp hok
      rw [collect_query_ok]
      simp [hpub]

theorem by_board_nil : catalog.by_board [] = [] := by
  simp [ProbeCatalog.by_board]

theorem snapshot_watch_ok (catalog : ProbeCatalog n) (env : WatchEnv n) (s : WatchState n) :
    (∃ batch, (s.snapshot_watch catalog env).2 = .ok batch) ↔
      Publishes env.query_fails (catalog.by_board s.server.watch.probe_ids).length ∧
        AllAnswer env.polls s.server.next_request_id
          ((catalog.by_board s.server.watch.probe_ids).map Prod.fst) := by
  have hq := query_latest_ok catalog env s.take_seq
    (.Snapshot s.server.watch.next_seq) s.server.watch.probe_ids
  rw [take_seq_next_request_id] at hq
  rw [← hq]
  unfold snapshot_watch
  dsimp only
  by_cases hids : s.server.watch.probe_ids.isEmpty = true
  · have hnil : s.server.watch.probe_ids = [] := List.isEmpty_iff.mp hids
    simp [hnil, query_latest, by_board_nil]
  · rw [if_neg hids]
    cases (s.take_seq.query_latest catalog env (.Snapshot s.server.watch.next_seq)
        s.server.watch.probe_ids).2 with
    | error err => simp [Except.map]
    | ok found => simp [Except.map]

variable {table : WatchTable n} {probes : List WatchRef} {ids : List Nat}

/-- A request that resolves to `ids`, from what its two steps give. -/
theorem put_watch_resolved (env : WatchEnv n) (s : WatchState n)
    (h : table.resolve_probes probes = .ok (probes, ids)) :
    let told := (s.set_watch probes ids).refresh_watch table.probe_catalog env
    let snapped := told.1.snapshot_watch table.probe_catalog env
    ((∃ err, told.2 = .error err ∧ s.put_watch table env probes = (told.1, .error err)) ∨
      told.2 = .ok () ∧
        ((∃ err, snapped.2 = .error err ∧
          s.put_watch table env probes = (snapped.1, .error err)) ∨
        ∃ batch, snapped.2 = .ok batch ∧
          s.put_watch table env probes = (snapped.1.push_snapshot batch, .ok probes))) := by
  intro told snapped
  unfold put_watch
  rw [h]
  dsimp only
  rcases htold : (s.set_watch probes ids).refresh_watch table.probe_catalog env with ⟨s₁, res₁⟩
  cases res₁ with
  | error err => exact .inl ⟨err, by simp [told, htold], by simp [told, htold]⟩
  | ok _ =>
    refine .inr ⟨by simp [told, htold], ?_⟩
    dsimp only
    -- The boards know the watch; the snapshot may still fail.
    rcases hsnap : s₁.snapshot_watch table.probe_catalog env with ⟨s₂, res₂⟩
    cases res₂ with
    | error err => exact .inl ⟨err, by simp [snapped, told, htold, hsnap], by
        simp [snapped, told, htold, hsnap]⟩
    | ok batch =>
      exact .inr ⟨batch, by simp [snapped, told, htold, hsnap], by
        simp [snapped, told, htold, hsnap, set_watch]⟩

/-- The call succeeds when it is served. -/
theorem put_watch_ok (h : table.resolve_probes probes = .ok (probes, ids)) :
    (∃ view, (s.put_watch table env probes).2 = .ok view) ↔
      Served table.probe_catalog env s ids := by
  have htells := refresh_watch_ok table.probe_catalog env (s.set_watch probes ids)
  have hasks := snapshot_watch_ok table.probe_catalog env
    ((s.set_watch probes ids).refresh_watch table.probe_catalog env).1
  constructor
  · rintro ⟨view, hview⟩
    rcases put_watch_resolved env s h with
      ⟨err, -, hput⟩ | ⟨htold, ⟨err, -, hput⟩ | ⟨batch, hsnap, hput⟩⟩
    · simp [hput] at hview
    · simp [hput] at hview
    · obtain ⟨hpub, hans⟩ := hasks.mp ⟨batch, hsnap⟩
      exact ⟨htells.mp htold, hpub, hans⟩
  · intro hserved
    have htold := htells.mpr hserved.tells
    obtain ⟨found, hfound⟩ := hasks.mpr ⟨hserved.asks, hserved.answers⟩
    rcases put_watch_resolved env s h with
      ⟨err, herr, -⟩ | ⟨-, ⟨err, herr, -⟩ | ⟨batch, -, hput⟩⟩
    · simp [htold] at herr
    · simp [hfound] at herr
    · exact ⟨probes, by rw [hput]⟩

/-- A call that fails after it has resolved keeps what it has set and sent. -/
theorem put_watch_frame (h : table.resolve_probes probes = .ok (probes, ids)) {err : ApiError}
    (herr : (s.put_watch table env probes).2 = .error err) :
    ((s.set_watch probes ids).refresh_watch table.probe_catalog env).1.Frame
      (s.put_watch table env probes).1 := by
  rcases put_watch_resolved env s h with
    ⟨err, -, hput⟩ | ⟨-, ⟨err, -, hput⟩ | ⟨batch, -, hput⟩⟩
  · rw [hput]
    exact ⟨rfl, rfl, rfl, rfl⟩
  · rw [hput]
    exact frame_snapshot_watch
  · simp [hput] at herr

theorem untouched_of_error (h : table.resolve_probes probes = .ok (probes, ids)) {err : ApiError}
    (herr : (s.put_watch table env probes).2 = .error err) :
    s.Untouched (s.put_watch table env probes).1 ↔ Same table.probe_catalog env s probes ids := by
  have hframe := put_watch_frame h herr
  have hprobes : (s.put_watch table env probes).1.probes = probes := hframe.probes
  have hids : (s.put_watch table env probes).1.server.watch.probe_ids = ids := hframe.probe_ids
  have hwatch (i : Fin n) (id : Nat) : id ∈ ((s.put_watch table env probes).1.nodes i).watch ↔
      if i ∈ env.told.take (env.taken i) then
        id ∈ ids ∧ table.probe_catalog.board_of id = some i
      else id ∈ (s.nodes i).watch := by
    rw [hframe.nodes, watch_refresh_watch]
    split
    · exact mem_watch_message ids i id
    · exact Iff.rfl
  -- A node emits what the message says if it took it, and what it did before
  -- otherwise; so only the nodes that took it can differ.
  constructor
  · intro hun
    refine ⟨hprobes.symm.trans hun.probes, hids.symm.trans hun.probe_ids, ?_⟩
    intro i hi id
    have hemit := hun.emits i id
    rw [hwatch, if_pos hi] at hemit
    exact hemit.symm
  · intro hsame
    refine ⟨hprobes.trans hsame.probes_eq, hids.trans hsame.ids_eq, hframe.pending, ?_⟩
    intro i id
    rw [hwatch]
    split
    · rename_i hi
      exact (hsame.emits i hi id).symm
    · exact Iff.rfl

/-- A refused request changes nothing if and only if it is refused before
    anything is set, or asks for the watch that is already there. -/
theorem put_watch_refused (table : WatchTable n) (env : WatchEnv n) (probes : List WatchRef)
    (s : WatchState n) :
    (∀ err, (s.put_watch table env probes).2 = .error err →
        s.Untouched (s.put_watch table env probes).1) ↔
      ∀ ids, table.resolve_probes probes = .ok (probes, ids) →
        Served table.probe_catalog env s ids ∨ Same table.probe_catalog env s probes ids := by
  constructor
  · intro hkeeps ids h
    cases hres : (s.put_watch table env probes).2 with
    | error err => exact .inr ((untouched_of_error h hres).mp (hkeeps err hres))
    | ok view => exact .inl ((put_watch_ok h).mp ⟨view, hres⟩)
  · intro hcond err herr
    cases hresolve : table.resolve_probes probes with
    -- Refused before anything is set.
    | error refusal =>
      have hput : s.put_watch table env probes = (s, .error refusal) := by
        unfold put_watch
        rw [hresolve]
      rw [hput]
      exact ⟨rfl, rfl, rfl, fun _ _ => Iff.rfl⟩
    | ok resolved =>
      have hsame : resolved.1 = probes := table.resolve_probes_fst hresolve
      have h : table.resolve_probes probes = .ok (probes, resolved.2) := by
        rw [hresolve, ← hsame]
      rcases hcond resolved.2 h with hserved | hsame
      · obtain ⟨view, hview⟩ := (put_watch_ok h).mpr hserved
        rw [hview] at herr
        cases herr
      · exact (untouched_of_error h herr).mpr hsame

/-! ### One board that does not answer -/

def uart_table : WatchTable 1 where
  catalog_ready := true
  boards hash := if hash = 5 then some 0 else none
  probe_catalog := ProbeNet.uart_catalog

/-- The node takes its message; no reply arrives before the deadline. -/
def no_reply : WatchEnv 1 where
  order := [0]
  perm := by decide
  watch_fails := none
  query_fails := none
  polls := [.ok none, .ok none]
  taken _ := 1

def unwatched : WatchState 1 where
  probes := []
  server := .new
  nodes := (ProbeNet.uart_net []).node

/-- The client is told that its request has failed, and the new watch stays. -/
theorem put_watch_times_out :
    (put_watch uart_table no_reply [⟨5, 7⟩] unwatched).2 =
        .error ⟨504, "timeout", "probe query was not answered before the deadline"⟩ ∧
      unwatched.probes = [] ∧
      (put_watch uart_table no_reply [⟨5, 7⟩] unwatched).1.probes = [⟨5, 7⟩] ∧
      (put_watch uart_table no_reply [⟨5, 7⟩] unwatched).1.server.watch.probe_ids = [1] ∧
      (unwatched.nodes 0).watch = [] ∧
      ((put_watch uart_table no_reply [⟨5, 7⟩] unwatched).1.nodes 0).watch = [1] ∧
      ¬ unwatched.Untouched (put_watch uart_table no_reply [⟨5, 7⟩] unwatched).1 := by
  have hprobes : (put_watch uart_table no_reply [⟨5, 7⟩] unwatched).1.probes = [⟨5, 7⟩] := by
    decide +kernel
  refine ⟨by rfl, rfl, hprobes, by decide +kernel, by decide +kernel, by decide +kernel, ?_⟩
  intro hun
  have hsame := hun.probes
  rw [hprobes] at hsame
  cases hsame

/-! ### The server's machine -/

/-- The replies, one after the other. -/
def read_replies (replies : List (ProbeQueryReplyWire n)) (c : Collect n) : Collect n :=
  replies.foldl (fun c reply => ProbeServer.read_reply reply c) c

/-- What `collect_query` returns is what the machine has collected after the
    replies that were read. -/
theorem collect_query_reads {polls : List (Except String (Option (ProbeQueryReplyWire n)))}
    {c : Collect n} {found : List ProbeRecord × Bool} (h : collect_query polls c = .ok found) :
    ∃ replies : List (ProbeQueryReplyWire n),
      (∀ reply ∈ replies, .ok (some reply) ∈ polls) ∧
        ProbeServer.collected (read_replies replies c) = some found := by
  induction polls generalizing c with
  | nil =>
    unfold collect_query at h
    split at h
    · rename_i hfound
      cases h
      exact ⟨[], by simp, hfound⟩
    · cases h
  | cons poll polls ih =>
    unfold collect_query at h
    split at h
    · rename_i hfound
      cases h
      exact ⟨[], by simp, hfound⟩
    · split at h
      · cases h
      · obtain ⟨replies, hread, hfound⟩ := ih h
        exact ⟨replies, fun reply hr => List.mem_cons_of_mem _ (hread reply hr), hfound⟩
      · rename_i reply
        obtain ⟨replies, hread, hfound⟩ := ih h
        refine ⟨reply :: replies, ?_, hfound⟩
        intro other hother
        rcases List.mem_cons.mp hother with rfl | hother
        · simp
        · exact List.mem_cons_of_mem _ (hread other hother)

@[simp] theorem purpose_read_replies (replies : List (ProbeQueryReplyWire n)) (c : Collect n) :
    (read_replies replies c).purpose = c.purpose := by
  unfold read_replies
  induction replies generalizing c with
  | nil => rfl
  | cons reply replies ih =>
    rw [List.foldl_cons, ih]
    unfold ProbeServer.read_reply
    split <;> rfl

theorem collected_eq_some {c : Collect n} {found : List ProbeRecord × Bool}
    (h : ProbeServer.collected c = some found) :
    c.expected = [] ∧ found.1 = ProbeRecord.sort_by_key c.records := by
  unfold ProbeServer.collected at h
  split at h
  · rename_i hexp
    cases h
    exact ⟨List.isEmpty_iff.mp hexp, rfl⟩
  · cases h

theorem finish_query_collected {sv : ProbeServer n} {c : Collect n} {seq : Nat}
    {found : List ProbeRecord × Bool} (h : ProbeServer.collected c = some found)
    (hpurpose : c.purpose = .Snapshot seq) :
    sv.finish_query c =
      if found.1.isEmpty then { sv with call := .none }
      else { sv with call := .none, watch := sv.watch.push_batch ⟨seq, found.1⟩ } := by
  unfold ProbeServer.finish_query
  rw [hpurpose, (collected_eq_some h).2]

/-- The snapshot of a watch that asks no board. -/
theorem snapshot_watch_unasked (catalog : ProbeCatalog n) (env : WatchEnv n) (s : WatchState n)
    (h : catalog.by_board s.server.watch.probe_ids = []) :
    s.snapshot_watch catalog env = (s.take_seq, .ok ⟨s.server.watch.next_seq, []⟩) := by
  unfold snapshot_watch query_latest
  dsimp only
  split
  · rfl
  · simp [h, Except.map]

/-- The snapshot of a watch that asks some board, when it succeeds. -/
theorem snapshot_watch_asked {batch : CoarseBatch}
    (h : catalog.by_board s.server.watch.probe_ids ≠ [])
    (hbatch : (s.snapshot_watch catalog env).2 = .ok batch) :
    ∃ found,
      collect_query env.polls
          ⟨s.server.next_request_id, (catalog.by_board s.server.watch.probe_ids).map Prod.fst, [],
            false, .Snapshot s.server.watch.next_seq⟩ = .ok found ∧
        batch = ⟨s.server.watch.next_seq, found.1⟩ ∧
        (s.snapshot_watch catalog env).1.server = { s.server with
          watch := { s.server.watch with next_seq := s.server.watch.next_seq + 1 }
          next_request_id := s.server.next_request_id + 1 } := by
  have hids : ¬ s.server.watch.probe_ids.isEmpty = true := by
    intro hnil
    rw [List.isEmpty_iff.mp hnil, by_board_nil] at h
    exact h rfl
  have hasked : ¬ (catalog.by_board s.server.watch.probe_ids).isEmpty = true := by simpa using h
  unfold snapshot_watch query_latest at hbatch ⊢
  simp only [if_neg hids, if_neg hasked, take_seq_next_request_id] at hbatch ⊢
  split at hbatch
  · cases hbatch
  · dsimp only at hbatch ⊢
    cases hfound : collect_query env.polls ⟨s.server.next_request_id,
        (catalog.by_board s.server.watch.probe_ids).map Prod.fst, [], false,
        .Snapshot s.server.watch.next_seq⟩ with
    | error err =>
      rw [hfound] at hbatch
      cases hbatch
    | ok found =>
      rw [hfound] at hbatch
      cases hbatch
      exact ⟨found, rfl, rfl, rfl⟩

/-- A call that succeeds does to the server what the machine does: it puts the
    watch, reads replies until it has collected, and finishes the query. -/
theorem put_watch_server (h : table.resolve_probes probes = .ok (probes, ids))
    (hcall : s.server.call = .none) {view : List WatchRef}
    (hview : (s.put_watch table env probes).2 = .ok view) :
    let begun := (s.server.put_watch table.probe_catalog ids).1
    ((s.put_watch table env probes).1.server = begun ∧ begun.call = .none) ∨
      ∃ c replies, begun.call = .query c ∧ (read_replies replies c).expected = [] ∧
        (s.put_watch table env probes).1.server =
          begun.finish_query (read_replies replies c) := by
  intro begun
  rcases put_watch_resolved env s h with
    ⟨err, -, hput⟩ | ⟨-, ⟨err, -, hput⟩ | ⟨batch, hsnap, hput⟩⟩
  -- The first two branches fail, and the call does not.
  · simp [hput] at hview
  · simp [hput] at hview
  · rw [hput]
    by_cases hasked : table.probe_catalog.by_board ids = []
    · have hquiet := snapshot_watch_unasked table.probe_catalog env
        ((s.set_watch probes ids).refresh_watch table.probe_catalog env).1 hasked
      rw [hquiet] at hsnap ⊢
      cases hsnap
      have hbegun : begun = { s.server with watch :=
          { s.server.watch with probe_ids := ids, next_seq := s.server.watch.next_seq + 1 } } := by
        simp [begun, ProbeServer.put_watch, hasked]
      rw [hbegun]
      exact .inl ⟨rfl, hcall⟩
    · obtain ⟨found, hfound, hbatch, hserver⟩ := snapshot_watch_asked
        (s := ((s.set_watch probes ids).refresh_watch table.probe_catalog env).1) hasked hsnap
      have hcollect : collect_query env.polls ⟨s.server.next_request_id,
          (table.probe_catalog.by_board ids).map Prod.fst, [], false,
          .Snapshot s.server.watch.next_seq⟩ = .ok found := hfound
      obtain ⟨replies, -, hcollected⟩ := collect_query_reads hcollect
      have hbegun : begun = { s.server with
          watch := { s.server.watch with
            probe_ids := ids, next_seq := s.server.watch.next_seq + 1 }
          next_request_id := s.server.next_request_id + 1
          call := .query ⟨s.server.next_request_id,
            (table.probe_catalog.by_board ids).map Prod.fst, [], false,
            .Snapshot s.server.watch.next_seq⟩ } := by
        simp [begun, ProbeServer.put_watch, hasked, ProbeServer.query_latest]
      refine .inr ⟨_, replies, congrArg ProbeServer.call hbegun, ?_, ?_⟩
      · exact (collected_eq_some hcollected).1
      · rw [finish_query_collected hcollected (purpose_read_replies replies _), hbegun, hbatch]
        -- The machine has left the query; in between it has only the watch and the
        -- request id of its own.
        have hafter := hserver.trans (congrArg (fun call : ServerCall n => { s.server with
          watch := { s.server.watch with
            probe_ids := ids, next_seq := s.server.watch.next_seq + 1 }
          next_request_id := s.server.next_request_id + 1
          call := call }) hcall)
        unfold push_snapshot
        dsimp only
        split
        · simp only [hafter]
        · simp only [hafter]
          rfl

end WatchState

end Rl78Sim
