import Rl78Sim.Probe.Answers
import Rl78Sim.Probe.Moves

/-! # Query Replies

    All queries share the reply channels, and a query that the server has given
    up leaves its replies there. A reply is told by its request id and its
    board: between the query in progress and each board there is a dialogue,
    and no message of another query takes part in it.
-/

namespace Rl78Sim

open Transition NodeProbes

namespace ProbeNet

variable {n : Nat} {catalog : ProbeCatalog n} {s s' : ProbeNet n} {l : ProbeStep n}

/-! ### Moves of the query channels -/

/-- The query channels, and the state of the nodes that answers queries, are
    left alone. -/
structure SameQueries (catalog : ProbeCatalog n) (s s' : ProbeNet n) : Prop where
  next_le : s.server.next_request_id ≤ s'.server.next_request_id
  query_s2a_eq : s'.query_s2a = s.query_s2a
  query_a2n_eq : s'.query_a2n = s.query_a2n
  query_n2a_eq : s'.query_n2a = s.query_n2a
  query_a2s_eq : s'.query_a2s = s.query_a2s
  held_eq : s'.hub.held = s.hub.held
  sending_eq (i : Fin n) : (s'.node i).sending = (s.node i).sending
  answered_eq (i : Fin n) : (s'.node i).answered = (s.node i).answered
  wf (i : Fin n) : (s.node i).Wf catalog i → (s'.node i).Wf catalog i

/-- How a query is put: the probes asked for, and the message of each board. -/
inductive Asks (r : Nat) : QueryPurpose → List Nat → (Fin n → List Nat → ProbeQueryWire n) → Prop
    where
  | snapshot (seq : Nat) (ids : List Nat) : Asks r (.Snapshot seq) ids (.latest r)
  | latest (p : Nat) (range : ProbeRange) : range.from_ns = none → range.to_ns = none →
      Asks r (.Samples p range) [p] (.latest r)
  | range_ (p : Nat) (range : ProbeRange) : ¬(range.from_ns = none ∧ range.to_ns = none) →
      Asks r (.Samples p range) [p] (fun i ids => .range_ r i ids range)

theorem Asks.request_eq {r : Nat} {purpose : QueryPurpose} {ids : List Nat}
    {wire : Fin n → List Nat → ProbeQueryWire n} (h : Asks r purpose ids wire) (i : Fin n)
    (is : List Nat) :
    (wire i is).request_id = r ∧ ∀ b, (wire i is).addresses b = decide (i = b) := by
  cases h <;> exact ⟨rfl, fun b => rfl⟩

/-- What the steps do to the queries and their replies. -/
inductive QueryMove (catalog : ProbeCatalog n) (s : ProbeNet n) :
    ProbeStep n → ProbeNet n → Prop where
  | other (l : ProbeStep n) (s' : ProbeNet n) : SameQueries catalog s s' →
      (s'.server.call = s.server.call ∨
        (∀ c, s.server.call ≠ .query c) ∧ ∀ c, s'.server.call ≠ .query c) →
      QueryMove catalog s l s'
  | asked (l : ProbeStep n) (s' : ProbeNet n) (purpose : QueryPurpose) (ids : List Nat)
      (wire : Fin n → List Nat → ProbeQueryWire n) : s.server.call = .none →
      Asks s.server.next_request_id purpose ids wire → catalog.by_board ids ≠ [] →
      s'.server.call = .query
        ⟨s.server.next_request_id, (catalog.by_board ids).map Prod.fst, [], false, purpose⟩ →
      s'.server.next_request_id = s.server.next_request_id + 1 →
      s'.query_s2a = Ring.push_all watch_buffer s.query_s2a
        ((catalog.by_board ids).map fun p => wire p.1 p.2) →
      s'.query_a2n = s.query_a2n → s'.query_n2a = s.query_n2a → s'.query_a2s = s.query_a2s →
      s'.hub = s.hub → s'.node = s.node → QueryMove catalog s l s'
  | gave_up (c : Collect n) : s.server.call = .query c → c.expected ≠ [] →
      QueryMove catalog s (.server .timeout)
        { s with server := { s.server with call := .none } }
  | finished (c : Collect n) : s.server.call = .query c → c.expected = [] →
      QueryMove catalog s (.server .finish) { s with server := s.server.finish_query c }
  | read (c : Collect n) (reply : ProbeQueryReplyWire n) (rest : List (ProbeQueryReplyWire n)) :
      s.server.call = .query c → s.query_a2s = reply :: rest →
      QueryMove catalog s (.server .read_reply) { s with
        server := { s.server with call := .query (ProbeServer.read_reply reply c) }
        query_a2s := rest }
  | forwarded (query : ProbeQueryWire n) (rest : List (ProbeQueryWire n)) :
      s.query_s2a = query :: rest →
      QueryMove catalog s (.hub .forward_query) { s with
        query_s2a := rest, query_a2n := broadcast watch_buffer s.query_a2n query }
  | taken (reply : ProbeQueryReplyWire n) (rest : List (ProbeQueryReplyWire n)) :
      s.hub.held = none → s.query_n2a = reply :: rest →
      QueryMove catalog s (.hub .take_reply) { s with
        hub := { s.hub with held := some reply }, query_n2a := rest }
  | published (reply : ProbeQueryReplyWire n) : s.hub.held = some reply →
      s.query_a2s.length < reply_buffer n →
      QueryMove catalog s (.hub .publish_reply) { s with
        hub := { s.hub with held := none }, query_a2s := s.query_a2s ++ [reply] }
  | answered (i : Fin n) (io_ok : Bool) (query : ProbeQueryWire n)
      (rest : List (ProbeQueryWire n)) : (s.node i).sending = [] →
      s.query_a2n i = query :: rest →
      QueryMove catalog s (.node i (.take_query io_ok)) { s with
        node := Function.update s.node i ((s.node i).answer_query i io_ok query)
        query_a2n := Function.update s.query_a2n i rest }
  | sent (i : Fin n) (reply : ProbeQueryReplyWire n) (rest : List (ProbeQueryReplyWire n)) :
      (s.node i).sending = reply :: rest →
      QueryMove catalog s (.node i .send_reply) { s with
        node := Function.update s.node i { s.node i with sending := rest }
        query_n2a := s.query_n2a ++ [reply] }

/-- A step of the server that is not about queries. -/
theorem same_queries_server {sv : ProbeServer n}
    (hnext : s.server.next_request_id ≤ sv.next_request_id)
    {watch_s2a : List (ProbeWatchWire n)} {csv_s2a : List (ProbeQueryWire n)}
    {csv_a2s : List (ProbeQueryReplyWire n)} {probe_a2s : List ProbeRecord} :
    SameQueries catalog s { s with
      server := sv, watch_s2a := watch_s2a, csv_s2a := csv_s2a, csv_a2s := csv_a2s
      probe_a2s := probe_a2s } :=
  ⟨hnext, rfl, rfl, rfl, rfl, rfl, fun _ => rfl, fun _ => rfl, fun _ h => h⟩

/-- A step of a node that is not about queries. -/
theorem same_queries_node {i : Fin n} {nd : NodeProbes n}
    (hsending : nd.sending = (s.node i).sending) (hanswered : nd.answered = (s.node i).answered)
    (hwf : (s.node i).Wf catalog i → nd.Wf catalog i)
    {ctrl_a2n : Fin n → List (ControlToNode n)} {csv_a2n : Fin n → List (ProbeQueryWire n)}
    {csv_n2a : List (ProbeQueryReplyWire n)} {taps : Nat → List ProbeRecord} :
    SameQueries catalog s { s with
      node := Function.update s.node i nd, ctrl_a2n := ctrl_a2n, csv_a2n := csv_a2n
      csv_n2a := csv_n2a, taps := taps } := by
  refine ⟨Nat.le_refl _, rfl, rfl, rfl, rfl, rfl, ?_, ?_, ?_⟩
  · intro j
    by_cases hj : j = i
    · subst hj
      simpa using hsending
    · simp [hj]
  · intro j
    by_cases hj : j = i
    · subst hj
      simpa using hanswered
    · simp [hj]
  · intro j
    by_cases hj : j = i
    · subst hj
      simpa using hwf
    · simp [hj]

theorem wf_take_csv {i : Fin n} {nd : NodeProbes n} (h : nd.Wf catalog i) (io_ok : Bool)
    (query : ProbeQueryWire n) : (nd.take_csv i io_ok query).Wf catalog i := by
  unfold NodeProbes.take_csv
  split
  · exact h
  · split <;> exact ⟨h.log, h.catalog_eq⟩

theorem same_take_csv (i : Fin n) (nd : NodeProbes n) (io_ok : Bool) (query : ProbeQueryWire n) :
    (nd.take_csv i io_ok query).sending = nd.sending ∧
      (nd.take_csv i io_ok query).answered = nd.answered := by
  unfold NodeProbes.take_csv
  split
  · exact ⟨rfl, rfl⟩
  · split <;> exact ⟨rfl, rfl⟩

theorem start_csv_eq {range : ProbeRange} {expired : Bool} {sv sv' : ProbeServer n}
    {queries : List (ProbeQueryWire n)}
    (h : sv.start_csv catalog range expired = some (sv', queries)) :
    sv'.call = sv.call ∧ sv'.next_request_id = sv.next_request_id + 1 := by
  unfold ProbeServer.start_csv at h
  split at h
  · cases h
  · cases h
    exact ⟨rfl, rfl⟩

theorem query_move_server {act : ServerAct n} (h : ServerMove catalog s act s') :
    QueryMove catalog s (.server act) s' := by
  cases h with
  | watched | clear_watch | live_watch | no_samples | poll_csv | read_csv | settle_csv =>
    refine .other _ _ (same_queries_server ?_) (.inl rfl)
    exact Nat.le_refl s.server.next_request_id
  | take_id =>
    refine .other _ _ (same_queries_server ?_) (.inl rfl)
    exact Nat.le_succ s.server.next_request_id
  | put_watch probes ids hcall _ hboards =>
    exact .asked _ _ _ ids _ hcall (.snapshot _ ids) hboards rfl rfl rfl rfl rfl rfl rfl rfl
  | query_latest probe range id hcall _ hboards hfrom hto =>
    exact .asked _ _ _ [id] _ hcall (.latest id range hfrom hto) hboards
      rfl rfl rfl rfl rfl rfl rfl rfl
  | query_range probe range id hcall _ hboards hrange =>
    exact .asked _ _ _ [id] _ hcall (.range_ id range hrange) hboards
      rfl rfl rfl rfl rfl rfl rfl rfl
  | start_csv range expired sv queries hcall hstart =>
    obtain ⟨hcall', hnext⟩ := start_csv_eq hstart
    refine .other _ _ (same_queries_server ?_) (.inl hcall')
    rw [hnext]
    exact Nat.le_succ s.server.next_request_id
  | read_reply c reply rest hcall hqueue => exact .read c reply rest hcall hqueue
  | timeout c hcall hexpected => exact .gave_up c hcall hexpected
  | finish c hcall hexpected => exact .finished c hcall hexpected
  | begin_samples hcall =>
    refine .other _ _ (same_queries_server ?_) (.inr ⟨?_, nofun⟩)
    · exact Nat.le_refl s.server.next_request_id
    · rw [hcall]
      nofun
  | read_sample live record rest hcall =>
    refine .other _ _ (same_queries_server ?_) (.inr ⟨?_, nofun⟩)
    · exact Nat.le_refl s.server.next_request_id
    · rw [hcall]
      nofun
  -- The batch goes to the watch; the ids and the channels are left alone.
  | fanout live hcall =>
    have hcall' : (({ s.server with call := .none } : ProbeServer n).fanout_live live).call =
          .none ∧
        (({ s.server with call := .none } : ProbeServer n).fanout_live live).next_request_id =
          s.server.next_request_id := by
      unfold ProbeServer.fanout_live
      dsimp only
      split <;> exact ⟨rfl, rfl⟩
    refine .other _ _ (same_queries_server ?_) (.inr ⟨?_, ?_⟩)
    · exact Nat.le_of_eq hcall'.2.symm
    · rw [hcall]
      nofun
    · dsimp only
      rw [hcall'.1]
      nofun

theorem query_move_hub {act : HubAct n} (h : HubMove s act s') :
    QueryMove catalog s (.hub act) s' := by
  cases h with
  | forward_watch | control | forward_csv | forward_chunk | take_sample | publish_sample =>
    exact .other _ _ ⟨Nat.le_refl _, rfl, rfl, rfl, rfl, rfl, fun _ => rfl, fun _ => rfl,
      fun _ h => h⟩ (.inl rfl)
  | forward_query query rest _ hqueue => exact .forwarded query rest hqueue
  | take_reply reply rest hheld hqueue => exact .taken reply rest hheld hqueue
  | publish_reply reply hheld hroom => exact .published reply hheld hroom

theorem query_move_node {i : Fin n} {act : NodeProbeAct} (h : NodeMove s i act s') :
    QueryMove catalog s (.node i act) s' := by
  cases h with
  | take_control msg rest nd records _ _ htake =>
    have hkept : Kept catalog i (s.node i) ((s.node i).take_control i msg).1 :=
      kept_take_control (s.node i) msg
    rw [htake] at hkept
    exact .other _ _ (same_queries_node hkept.sending_eq hkept.answered_eq hkept.wf) (.inl rfl)
  | ingest_and_emit pending written due nd records _ hemit =>
    have hkept : Kept catalog i (s.node i) ((s.node i).ingest_and_emit pending written due).1 :=
      kept_ingest_and_emit (s.node i) pending written due
    rw [hemit] at hkept
    exact .other _ _ (same_queries_node hkept.sending_eq hkept.answered_eq hkept.wf) (.inl rfl)
  | take_query io_ok query rest hsending hqueue =>
    exact .answered i io_ok query rest hsending hqueue
  | send_reply reply rest hsending => exact .sent i reply rest hsending
  | take_csv io_ok query rest =>
    obtain ⟨hsending, hanswered⟩ := same_take_csv i (s.node i) io_ok query
    exact .other _ _ (same_queries_node hsending hanswered (wf_take_csv · io_ok query)) (.inl rfl)
  | send_chunk out =>
    refine .other _ _ (same_queries_node ?_ ?_ ?_) (.inl rfl)
    · rfl
    · rfl
    · intro hwf
      exact ⟨hwf.log, hwf.catalog_eq⟩

theorem query_move (h : step catalog s l = some s') : QueryMove catalog s l s' := by
  cases l with
  | server act => exact query_move_server (server_move h)
  | hub act => exact query_move_hub (hub_move h)
  | node i act => exact query_move_node (node_move h)

/-! ### Messages under way -/

/-- All queries on their way to a node are `P`. -/
structure Wires (s : ProbeNet n) (P : ProbeQueryWire n → Prop) : Prop where
  s2a : ∀ q ∈ s.query_s2a, P q
  a2n (i : Fin n) : ∀ q ∈ s.query_a2n i, P q

/-- All query replies on their way to the server are `P`. -/
structure Replies (s : ProbeNet n) (P : ProbeQueryReplyWire n → Prop) : Prop where
  a2s : ∀ x ∈ s.query_a2s, P x
  held : ∀ x ∈ s.hub.held, P x
  n2a : ∀ x ∈ s.query_n2a, P x
  sending (i : Fin n) : ∀ x ∈ (s.node i).sending, P x

theorem Wires.mono {P Q : ProbeQueryWire n → Prop} (h : Wires s P) (hle : ∀ q, P q → Q q) :
    Wires s Q :=
  ⟨fun q hq => hle q (h.s2a q hq), fun i q hq => hle q (h.a2n i q hq)⟩

theorem Replies.mono {P Q : ProbeQueryReplyWire n → Prop} (h : Replies s P)
    (hle : ∀ x, P x → Q x) : Replies s Q :=
  ⟨fun x hx => hle x (h.a2s x hx), fun x hx => hle x (h.held x hx),
    fun x hx => hle x (h.n2a x hx), fun i x hx => hle x (h.sending i x hx)⟩

/-- Queries only come from the server. -/
theorem Wires.moved {P : ProbeQueryWire n → Prop} (h : Wires s P)
    (hm : QueryMove catalog s l s')
    (hasked : ∀ purpose ids wire, Asks s.server.next_request_id purpose ids wire →
      s'.server.call = .query
        ⟨s.server.next_request_id, (catalog.by_board ids).map Prod.fst, [], false, purpose⟩ →
      ∀ p ∈ catalog.by_board ids, P (wire p.1 p.2)) : Wires s' P := by
  cases hm with
  | other _ _ hsame _ =>
    refine ⟨?_, ?_⟩
    · rw [hsame.query_s2a_eq]
      exact h.s2a
    · rw [hsame.query_a2n_eq]
      exact h.a2n
  | asked _ _ purpose ids wire _ hasks _ hcall _ hs2a ha2n =>
    refine ⟨?_, ?_⟩
    · intro q hq
      rw [hs2a] at hq
      rcases List.mem_append.mp ((Ring.push_all_sublist _ _ _).subset hq) with hold | hnew
      · exact h.s2a q hold
      · obtain ⟨p, hp, rfl⟩ := List.mem_map.mp hnew
        exact hasked purpose ids wire hasks hcall p hp
    · rw [ha2n]
      exact h.a2n
  | gave_up | read | taken | published | sent => exact ⟨h.s2a, h.a2n⟩
  | finished c =>
    exact ⟨h.s2a, h.a2n⟩
  | forwarded query rest hqueue =>
    refine ⟨?_, ?_⟩
    · intro q hq
      exact h.s2a q (hqueue ▸ List.mem_cons_of_mem _ hq)
    -- The arbiter passes the query on as it is.
    · intro i q hq
      rcases Ring.mem_push hq with hold | rfl
      · exact h.a2n i q hold
      · exact h.s2a _ (hqueue ▸ List.mem_cons_self)
  | answered i io_ok query rest _ hqueue =>
    refine ⟨h.s2a, ?_⟩
    intro j q hq
    by_cases hj : j = i
    · subst hj
      simp only [Function.update_self] at hq
      exact h.a2n j q (hqueue ▸ List.mem_cons_of_mem _ hq)
    · simp only [Function.update_of_ne hj] at hq
      exact h.a2n j q hq

/-- Replies only come from the nodes. -/
theorem Replies.moved {P : ProbeQueryReplyWire n → Prop} (h : Replies s P)
    (hm : QueryMove catalog s l s')
    (hnode : ∀ i, (s.node i).Wf catalog i)
    (hanswer : ∀ i io_ok query records truncated, l = .node i (.take_query io_ok) →
      query ∈ s.query_a2n i → query.addresses i = true →
      Answer catalog i query ⟨query.request_id, (s.node i).log.history⟩ records truncated →
      ∀ x ∈ query_reply i query.request_id truncated records, P x) : Replies s' P := by
  cases hm with
  | other _ _ hsame _ =>
    refine ⟨?_, ?_, ?_, ?_⟩
    · rw [hsame.query_a2s_eq]
      exact h.a2s
    · rw [hsame.held_eq]
      exact h.held
    · rw [hsame.query_n2a_eq]
      exact h.n2a
    · intro i
      rw [hsame.sending_eq i]
      exact h.sending i
  | asked _ _ _ _ _ _ _ _ _ _ _ _ hn2a ha2s hhub hnode' =>
    refine ⟨?_, ?_, ?_, ?_⟩
    · rw [ha2s]
      exact h.a2s
    · rw [hhub]
      exact h.held
    · rw [hn2a]
      exact h.n2a
    · rw [hnode']
      exact h.sending
  | gave_up | finished | forwarded => exact ⟨h.a2s, h.held, h.n2a, h.sending⟩
  | read c reply rest _ hqueue =>
    refine ⟨?_, h.held, h.n2a, h.sending⟩
    intro x hx
    exact h.a2s x (hqueue ▸ List.mem_cons_of_mem _ hx)
  | taken reply rest hheld hqueue =>
    refine ⟨h.a2s, ?_, ?_, h.sending⟩
    · intro x hx
      obtain rfl : reply = x := Option.some.inj hx
      exact h.n2a _ (hqueue ▸ List.mem_cons_self)
    · intro x hx
      exact h.n2a x (hqueue ▸ List.mem_cons_of_mem _ hx)
  | published reply hheld =>
    refine ⟨?_, nofun, h.n2a, h.sending⟩
    intro x hx
    rcases List.mem_append.mp hx with hold | hnew
    · exact h.a2s x hold
    · rw [List.mem_singleton.mp hnew]
      exact h.held _ hheld
  | answered i io_ok query rest hsending hqueue =>
    refine ⟨h.a2s, h.held, h.n2a, ?_⟩
    intro j x hx
    by_cases hj : j = i
    · subst hj
      simp only [Function.update_self] at hx
      rcases (hnode j).answer_query io_ok query with ⟨-, heq⟩ | ⟨haddr, records, truncated, ha, heq⟩
      · rw [heq] at hx
        exact h.sending j x hx
      -- Only an answer makes new replies; all other moves carry them along.
      · rw [heq] at hx
        exact hanswer j io_ok query records truncated rfl (hqueue ▸ List.mem_cons_self) haddr ha
          x hx
    · simp only [Function.update_of_ne hj] at hx
      exact h.sending j x hx
  | sent i reply rest hsending =>
    refine ⟨h.a2s, h.held, ?_, ?_⟩
    · intro x hx
      rcases List.mem_append.mp hx with hold | hnew
      · exact h.n2a x hold
      · rw [List.mem_singleton.mp hnew]
        exact h.sending i _ (hsending ▸ List.mem_cons_self)
    · intro j x hx
      by_cases hj : j = i
      · subst hj
        simp only [Function.update_self] at hx
        exact h.sending j x (hsending ▸ List.mem_cons_of_mem _ hx)
      · simp only [Function.update_of_ne hj] at hx
        exact h.sending j x hx

/-! ### Request ids -/

/-- A request id that is not taken has never been used, and a reply carries
    records of the board that it is from. -/
structure Tidy (catalog : ProbeCatalog n) (s : ProbeNet n) : Prop where
  node (i : Fin n) : (s.node i).Wf catalog i
  wires : Wires s fun q => q.request_id < s.server.next_request_id
  replies : Replies s fun x =>
    x.request_id < s.server.next_request_id ∧ Owned catalog x.from_ x.records
  sender (i : Fin n) : ∀ x ∈ (s.node i).sending, x.from_ = i
  answered (i : Fin n) : ∀ snap ∈ (s.node i).answered, snap.request_id < s.server.next_request_id
  call (c : Collect n) : s.server.call = .query c → c.request_id < s.server.next_request_id

theorem Ready.tidy (h : Ready catalog s) : Tidy catalog s := by
  refine ⟨?_, ?_, ?_, ?_, ?_, ?_⟩
  · intro i
    exact ⟨(h.node i).log, (h.node i).catalog_eq⟩
  · refine ⟨?_, ?_⟩
    · rw [h.query_s2a_eq]
      nofun
    · intro i
      rw [h.query_a2n_eq i]
      nofun
  · refine ⟨?_, ?_, ?_, ?_⟩
    · rw [h.query_a2s_eq]
      nofun
    · rw [h.held_eq]
      nofun
    · rw [h.query_n2a_eq]
      nofun
    · intro i
      rw [(h.node i).sending_eq]
      nofun
  · intro i
    rw [(h.node i).sending_eq]
    nofun
  · intro i
    rw [(h.node i).answered_eq]
    nofun
  · intro c hcall
    rw [h.server_eq] at hcall
    cases hcall

theorem QueryMove.next_le (hm : QueryMove catalog s l s') :
    s.server.next_request_id ≤ s'.server.next_request_id := by
  cases hm with
  | other _ _ hsame _ => exact hsame.next_le
  | asked _ _ _ _ _ _ _ _ _ hnext =>
    rw [hnext]
    exact Nat.le_succ _
  | finished c =>
    show _ ≤ (s.server.finish_query c).next_request_id
    unfold ProbeServer.finish_query
    split
    · dsimp only
      split <;> exact Nat.le_refl _
    · exact Nat.le_refl _
  | _ => exact Nat.le_refl _

theorem finish_query_call (sv : ProbeServer n) (c : Collect n) :
    (sv.finish_query c).call = .none := by
  unfold ProbeServer.finish_query
  split
  · dsimp only
    split <;> rfl
  · rfl

/-- How a step changes what a node has answered. -/
theorem QueryMove.node_cases (hm : QueryMove catalog s l s') (h : ∀ i, (s.node i).Wf catalog i)
    (b : Fin n) :
    ((s'.node b).Wf catalog b) ∧
    ((s'.node b).answered = (s.node b).answered ∨ ∃ io_ok query rest records truncated,
      l = .node b (.take_query io_ok) ∧ s.query_a2n b = query :: rest ∧
      query.addresses b = true ∧
      Answer catalog b query ⟨query.request_id, (s.node b).log.history⟩ records truncated ∧
      (s'.node b).answered = (s.node b).answered ++ [⟨query.request_id, (s.node b).log.history⟩] ∧
      (s'.node b).sending = query_reply b query.request_id truncated records) := by
  cases hm with
  | other _ _ hsame _ => exact ⟨hsame.wf b (h b), .inl (hsame.answered_eq b)⟩
  | asked _ _ _ _ _ _ _ _ _ _ _ _ _ _ _ hnode =>
    rw [hnode]
    exact ⟨h b, .inl rfl⟩
  | gave_up | finished | forwarded | read | taken | published => exact ⟨h b, .inl rfl⟩
  | answered i io_ok query rest hsending hqueue =>
    by_cases hb : b = i
    · subst hb
      dsimp only
      rw [Function.update_self]
      -- A query that does not address the board changes nothing.
      rcases (h b).answer_query io_ok query with ⟨-, heq⟩ | ⟨haddr, records, truncated, ha, heq⟩
      · rw [heq]
        exact ⟨h b, .inl rfl⟩
      · rw [heq]
        exact ⟨⟨(h b).log, (h b).catalog_eq⟩,
          .inr ⟨io_ok, query, rest, records, truncated, rfl, hqueue, haddr, ha, rfl, rfl⟩⟩
    · dsimp only
      rw [Function.update_of_ne hb]
      exact ⟨h b, .inl rfl⟩
  | sent i reply rest =>
    by_cases hb : b = i
    · subst hb
      dsimp only
      rw [Function.update_self]
      exact ⟨⟨(h b).log, (h b).catalog_eq⟩, .inl rfl⟩
    · dsimp only
      rw [Function.update_of_ne hb]
      exact ⟨h b, .inl rfl⟩

/-- A query in progress has just been put, or was in progress before. -/
theorem QueryMove.call_cases (hm : QueryMove catalog s l s') {c' : Collect n}
    (hcall : s'.server.call = .query c') :
    (c'.request_id = s.server.next_request_id ∧
      s'.server.next_request_id = s.server.next_request_id + 1) ∨
    ∃ c, s.server.call = .query c ∧ c'.request_id = c.request_id := by
  cases hm with
  | other _ _ _ hcall' =>
    rcases hcall' with hsame | ⟨-, hnone⟩
    · exact .inr ⟨c', hsame ▸ hcall, rfl⟩
    · exact absurd hcall (hnone _)
  | asked _ _ _ _ _ _ _ _ hc hnext =>
    left
    rw [hc] at hcall
    injection hcall with heq
    subst heq
    exact ⟨rfl, hnext⟩
  | gave_up c => cases hcall
  | finished c =>
    have hnone := finish_query_call s.server c
    rw [hcall] at hnone
    cases hnone
  | read c reply rest hc =>
    right
    injection hcall with heq
    subst heq
    refine ⟨c, hc, ?_⟩
    unfold ProbeServer.read_reply
    split <;> rfl
  | forwarded | taken | published | answered | sent => exact .inr ⟨c', hcall, rfl⟩

theorem Tidy.sender_moved (h : Tidy catalog s) (hm : QueryMove catalog s l s') (i : Fin n) :
    ∀ x ∈ (s'.node i).sending, x.from_ = i := by
  cases hm with
  | other _ _ hsame _ =>
    rw [hsame.sending_eq i]
    exact h.sender i
  | asked _ _ _ _ _ _ _ _ _ _ _ _ _ _ _ hnode =>
    rw [hnode]
    exact h.sender i
  | gave_up | finished | forwarded | read | taken | published => exact h.sender i
  | answered j io_ok query rest hsending hqueue =>
    by_cases hi : i = j
    · subst hi
      dsimp only
      rw [Function.update_self]
      rcases (h.node i).answer_query io_ok query with
        ⟨-, heq⟩ | ⟨haddr, records, truncated, ha, heq⟩
      · rw [heq]
        exact h.sender i
      · rw [heq]
        intro x hx
        exact (ha.reply hx).2.1
    · dsimp only
      rw [Function.update_of_ne hi]
      exact h.sender i
  | sent j reply rest hsending =>
    by_cases hi : i = j
    · subst hi
      dsimp only
      rw [Function.update_self]
      intro x hx
      exact h.sender i x (hsending ▸ List.mem_cons_of_mem _ hx)
    · dsimp only
      rw [Function.update_of_ne hi]
      exact h.sender i

theorem Tidy.moved (h : Tidy catalog s) (hm : QueryMove catalog s l s') : Tidy catalog s' := by
  have hnext := hm.next_le
  -- Queries, replies, answers and the call in progress: each has an id that was
  -- given out before.
  refine ⟨fun i => (hm.node_cases h.node i).1, ?_, ?_, h.sender_moved hm, ?_, ?_⟩
  · refine (h.wires.mono ?_).moved hm ?_
    · intro q hq
      exact Nat.lt_of_lt_of_le hq hnext
    · intro purpose ids wire hasks hcall p _
      rw [(hasks.request_eq p.1 p.2).1]
      rcases hm.call_cases hcall with ⟨-, hsucc⟩ | ⟨c, hc, heq⟩
      · rw [hsucc]
        exact Nat.lt_succ_self _
      · have hlt := h.call c hc
        rw [← heq] at hlt
        exact Nat.lt_of_lt_of_le hlt hnext
  · refine (h.replies.mono ?_).moved hm h.node ?_
    · rintro x ⟨hlt, howned⟩
      exact ⟨Nat.lt_of_lt_of_le hlt hnext, howned⟩
    · intro i io_ok query records truncated _ hquery _ ha x hx
      obtain ⟨hid, -, howned⟩ := ha.reply hx
      rw [hid]
      exact ⟨Nat.lt_of_lt_of_le (h.wires.a2n i query hquery) hnext, howned⟩
  · intro i snap hsnap
    rcases (hm.node_cases h.node i).2 with
      heq | ⟨io_ok, query, rest, records, truncated, -, hqueue, -, -, heq, -⟩
    · rw [heq] at hsnap
      exact Nat.lt_of_lt_of_le (h.answered i snap hsnap) hnext
    · rw [heq] at hsnap
      rcases List.mem_append.mp hsnap with hold | hnew
      · exact Nat.lt_of_lt_of_le (h.answered i snap hold) hnext
      · rw [List.mem_singleton.mp hnew]
        have hlt := h.wires.a2n i query (hqueue ▸ List.mem_cons_self)
        exact Nat.lt_of_lt_of_le hlt hnext
  · intro c' hcall
    rcases hm.call_cases hcall with ⟨hid, hsucc⟩ | ⟨c, hc, heq⟩
    · omega
    · rw [heq]
      exact Nat.lt_of_lt_of_le (h.call c hc) hnext

end ProbeNet

end Rl78Sim
