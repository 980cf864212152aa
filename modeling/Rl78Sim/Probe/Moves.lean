import Rl78Sim.Probe.Network

/-! # What a Step of the Probe Network Does

    One case for every way in which a step can go, with its guards and the
    state it leads to. The invariants of the network look at the steps
    through these cases only.
-/

namespace Rl78Sim

namespace ProbeNet

variable {n : Nat} {catalog : ProbeCatalog n} {s s' : ProbeNet n}

/-! ### The server -/

inductive ServerMove (catalog : ProbeCatalog n) (s : ProbeNet n) :
    ServerAct n → ProbeNet n → Prop where
  /-- No board owns one of the probes: there is no snapshot to fetch. -/
  | watched (probes : List (ProbeRef n)) (ids : List Nat) : s.server.call = .none →
      catalog.resolve_probes probes = some ids → catalog.by_board ids = [] →
      ServerMove catalog s (.put_watch probes) { s with
        server := { s.server with
          watch := { s.server.watch with
            probe_ids := ids, next_seq := s.server.watch.next_seq + 1 } }
        watch_s2a := Ring.push_all watch_buffer s.watch_s2a
          (ProbeServer.refresh_watch catalog ids) }
  | put_watch (probes : List (ProbeRef n)) (ids : List Nat) : s.server.call = .none →
      catalog.resolve_probes probes = some ids → catalog.by_board ids ≠ [] →
      ServerMove catalog s (.put_watch probes) { s with
        server := { s.server with
          watch := { s.server.watch with
            probe_ids := ids, next_seq := s.server.watch.next_seq + 1 }
          next_request_id := s.server.next_request_id + 1
          call := .query ⟨s.server.next_request_id, (catalog.by_board ids).map Prod.fst, [], false,
            .Snapshot s.server.watch.next_seq⟩ }
        watch_s2a := Ring.push_all watch_buffer s.watch_s2a
          (ProbeServer.refresh_watch catalog ids)
        query_s2a := Ring.push_all watch_buffer s.query_s2a
          ((catalog.by_board ids).map fun p => .latest s.server.next_request_id p.1 p.2) }
  | clear_watch : s.server.call = .none →
      ServerMove catalog s .clear_watch { s with
        server := { s.server with watch := { s.server.watch with probe_ids := [], pending := [] } }
        watch_s2a := Ring.push_all watch_buffer s.watch_s2a
          (ProbeServer.refresh_watch catalog []) }
  | live_watch (after : Nat) : s.server.call = .none →
      ServerMove catalog s (.live_watch after) { s with server := s.server.live_watch after }
  /-- No board owns the probe: the answer is empty. -/
  | no_samples (probe : ProbeRef n) (range : ProbeRange) (id : Nat) : s.server.call = .none →
      catalog.resolve_probes [probe] = some [id] → catalog.by_board [id] = [] →
      ServerMove catalog s (.query_samples probe range) s
  | query_latest (probe : ProbeRef n) (range : ProbeRange) (id : Nat) : s.server.call = .none →
      catalog.resolve_probes [probe] = some [id] → catalog.by_board [id] ≠ [] →
      range.from_ns = none → range.to_ns = none →
      ServerMove catalog s (.query_samples probe range) { s with
        server := { s.server with
          next_request_id := s.server.next_request_id + 1
          call := .query ⟨s.server.next_request_id, (catalog.by_board [id]).map Prod.fst, [],
            false, .Samples id range⟩ }
        query_s2a := Ring.push_all watch_buffer s.query_s2a
          ((catalog.by_board [id]).map fun p => .latest s.server.next_request_id p.1 p.2) }
  | query_range (probe : ProbeRef n) (range : ProbeRange) (id : Nat) : s.server.call = .none →
      catalog.resolve_probes [probe] = some [id] → catalog.by_board [id] ≠ [] →
      ¬(range.from_ns = none ∧ range.to_ns = none) →
      ServerMove catalog s (.query_samples probe range) { s with
        server := { s.server with
          next_request_id := s.server.next_request_id + 1
          call := .query ⟨s.server.next_request_id, (catalog.by_board [id]).map Prod.fst, [],
            false, .Samples id range⟩ }
        query_s2a := Ring.push_all watch_buffer s.query_s2a
          ((catalog.by_board [id]).map fun p => .range_ s.server.next_request_id p.1 p.2 range) }
  | start_csv (range : ProbeRange) (expired : Bool) (sv : ProbeServer n)
      (queries : List (ProbeQueryWire n)) : s.server.call = .none →
      s.server.start_csv catalog range expired = some (sv, queries) →
      ServerMove catalog s (.start_csv range expired) { s with
        server := sv, csv_s2a := Ring.push_all watch_buffer s.csv_s2a queries }
  | poll_csv (job : CsvJob n) : s.server.call = .none → s.server.csv_job = some job →
      ServerMove catalog s .poll_csv { s with
        server := { s.server with csv_job := some (ProbeServer.poll_csv_job job) } }
  | take_id : s.server.call = .none →
      ServerMove catalog s .take_id { s with
        server := { s.server with next_request_id := s.server.next_request_id + 1 } }
  | read_reply (c : Collect n) (reply : ProbeQueryReplyWire n)
      (rest : List (ProbeQueryReplyWire n)) : s.server.call = .query c →
      s.query_a2s = reply :: rest → c.expected ≠ [] →
      ServerMove catalog s .read_reply { s with
        server := { s.server with call := .query (ProbeServer.read_reply reply c) }
        query_a2s := rest }
  | timeout (c : Collect n) : s.server.call = .query c → c.expected ≠ [] →
      ServerMove catalog s .timeout { s with server := { s.server with call := .none } }
  | finish (c : Collect n) : s.server.call = .query c → c.expected = [] →
      ServerMove catalog s .finish { s with server := s.server.finish_query c }
  | begin_samples : s.server.call = .none →
      ServerMove catalog s .begin_samples { s with
        server := { s.server with call := .samples [] } }
  | read_sample (live : List ProbeRecord) (record : ProbeRecord) (rest : List ProbeRecord) :
      s.server.call = .samples live → s.probe_a2s = record :: rest →
      ServerMove catalog s .read_sample { s with
        server := { s.server with call := .samples (live ++ [record]) }, probe_a2s := rest }
  | fanout (live : List ProbeRecord) : s.server.call = .samples live →
      ServerMove catalog s .fanout { s with
        server := ({ s.server with call := .none } : ProbeServer n).fanout_live live }
  | read_csv (job : CsvJob n) (reply : ProbeQueryReplyWire n)
      (rest : List (ProbeQueryReplyWire n)) : s.server.call = .none →
      s.server.csv_job = some job → s.csv_a2s = reply :: rest → job.done = false →
      ServerMove catalog s .read_csv { s with
        server := { s.server with csv_job := some (ProbeServer.read_csv reply job) }
        csv_a2s := rest }
  | settle_csv (expired : Bool) (job : CsvJob n) : s.server.call = .none →
      s.server.csv_job = some job → job.done = false →
      ServerMove catalog s (.settle_csv expired) { s with
        server := { s.server with csv_job := some (ProbeServer.settle_csv expired job) } }

theorem server_move {act : ServerAct n} (h : s.server_step catalog act = some s') :
    ServerMove catalog s act s' := by
  cases act with
  | put_watch probes =>
    simp only [server_step] at h
    split at h
    · rename_i ids hcall hids
      cases h
      unfold ProbeServer.put_watch
      by_cases hboards : catalog.by_board ids = []
      · rw [hboards]
        exact .watched probes ids hcall hids hboards
      · have hsome : (catalog.by_board ids).isEmpty = false := by
          rw [List.isEmpty_eq_false_iff]
          exact hboards
        simp only [hsome]
        exact .put_watch probes ids hcall hids hboards
    · cases h
  | clear_watch =>
    simp only [server_step] at h
    split at h
    · rename_i hcall
      cases h
      exact .clear_watch hcall
    · cases h
  | live_watch after =>
    simp only [server_step] at h
    split at h
    · rename_i hcall
      cases h
      exact .live_watch after hcall
    · cases h
  | query_samples probe range =>
    simp only [server_step] at h
    split at h
    · rename_i id hcall hid
      cases h
      unfold ProbeServer.query_samples
      by_cases hboards : catalog.by_board [id] = []
      · rw [hboards]
        exact .no_samples probe range id hcall hid hboards
      · have hsome : (catalog.by_board [id]).isEmpty = false := by
          rw [List.isEmpty_eq_false_iff]
          exact hboards
        simp only [hsome]
        -- Without bounds the query asks for the latest records.
        by_cases hrange : range.from_ns.isNone ∧ range.to_ns.isNone
        · rw [if_neg nofun, if_pos hrange]
          exact .query_latest probe range id hcall hid hboards
            (Option.isNone_iff_eq_none.mp hrange.1) (Option.isNone_iff_eq_none.mp hrange.2)
        · rw [if_neg nofun, if_neg hrange]
          refine .query_range probe range id hcall hid hboards ?_
          rintro ⟨hfrom, hto⟩
          exact hrange ⟨Option.isNone_iff_eq_none.mpr hfrom, Option.isNone_iff_eq_none.mpr hto⟩
    · cases h
  | start_csv range expired =>
    simp only [server_step] at h
    split at h
    · rename_i sv queries hcall hstart
      cases h
      exact .start_csv range expired sv queries hcall hstart
    · cases h
  | poll_csv =>
    simp only [server_step] at h
    split at h
    · rename_i job hcall hjob
      cases h
      exact .poll_csv job hcall hjob
    · cases h
  | take_id =>
    simp only [server_step] at h
    split at h
    · rename_i hcall
      cases h
      exact .take_id hcall
    · cases h
  | read_reply =>
    simp only [server_step] at h
    split at h
    · rename_i c reply rest hcall hqueue
      split at h
      · cases h
      · rename_i hexpected
        cases h
        refine .read_reply c reply rest hcall hqueue ?_
        intro hnil
        exact hexpected (List.isEmpty_iff.mpr hnil)
    · cases h
  | timeout =>
    simp only [server_step] at h
    split at h
    · rename_i c hcall
      split at h
      · cases h
      · rename_i hexpected
        cases h
        refine .timeout c hcall ?_
        intro hnil
        exact hexpected (List.isEmpty_iff.mpr hnil)
    · cases h
  | finish =>
    simp only [server_step] at h
    split at h
    · rename_i c hcall
      split at h
      · rename_i hexpected
        cases h
        exact .finish c hcall (List.isEmpty_iff.mp hexpected)
      · cases h
    · cases h
  | begin_samples =>
    simp only [server_step] at h
    split at h
    · rename_i hcall
      cases h
      exact .begin_samples hcall
    · cases h
  | read_sample =>
    simp only [server_step] at h
    split at h
    · rename_i live record rest hcall hqueue
      split at h
      · cases h
        exact .read_sample live record rest hcall hqueue
      · cases h
    · cases h
  | fanout =>
    simp only [server_step] at h
    split at h
    · rename_i live hcall
      cases h
      exact .fanout live hcall
    · cases h
  | read_csv =>
    simp only [server_step] at h
    split at h
    · rename_i job reply rest hcall hjob hqueue
      split at h
      · cases h
      · rename_i hdone
        cases h
        exact .read_csv job reply rest hcall hjob hqueue (Bool.not_eq_true _ ▸ hdone)
    · cases h
  | settle_csv expired =>
    simp only [server_step] at h
    split at h
    · rename_i job hcall hjob
      split at h
      · cases h
      · rename_i hdone
        cases h
        exact .settle_csv expired job hcall hjob (Bool.not_eq_true _ ▸ hdone)
    · cases h

/-! ### The arbiter -/

inductive HubMove (s : ProbeNet n) : HubAct n → ProbeNet n → Prop where
  | forward_watch (watch : ProbeWatchWire n) (rest : List (ProbeWatchWire n)) :
      s.hub.held = none → s.watch_s2a = watch :: rest →
      HubMove s .forward_watch { s with
        watch_s2a := rest
        ctrl_a2n := broadcast a2n_buffer s.ctrl_a2n
          (.ProbeWatch watch.board_hash watch.count watch.probe_ids) }
  | control (msg : ControlToNode n) : s.hub.held = none →
      HubMove s (.control msg) { s with ctrl_a2n := broadcast a2n_buffer s.ctrl_a2n msg }
  | forward_query (query : ProbeQueryWire n) (rest : List (ProbeQueryWire n)) :
      s.hub.held = none → s.query_s2a = query :: rest →
      HubMove s .forward_query { s with
        query_s2a := rest, query_a2n := broadcast watch_buffer s.query_a2n query }
  | take_reply (reply : ProbeQueryReplyWire n) (rest : List (ProbeQueryReplyWire n)) :
      s.hub.held = none → s.query_n2a = reply :: rest →
      HubMove s .take_reply { s with
        hub := { s.hub with held := some reply }, query_n2a := rest }
  | publish_reply (reply : ProbeQueryReplyWire n) : s.hub.held = some reply →
      s.query_a2s.length < reply_buffer n →
      HubMove s .publish_reply { s with
        hub := { s.hub with held := none }, query_a2s := s.query_a2s ++ [reply] }
  | forward_csv (query : ProbeQueryWire n) (rest : List (ProbeQueryWire n)) :
      s.hub.held = none → s.csv_s2a = query :: rest →
      HubMove s .forward_csv { s with
        csv_s2a := rest, csv_a2n := broadcast watch_buffer s.csv_a2n query }
  | forward_chunk (chunk : ProbeQueryReplyWire n) (rest : List (ProbeQueryReplyWire n)) :
      s.hub.held = none → s.csv_n2a = chunk :: rest →
      HubMove s .forward_chunk { s with
        csv_n2a := rest, csv_a2s := Ring.push (reply_buffer n) s.csv_a2s chunk }
  | take_sample (probe_id : Nat) (record : ProbeRecord) (rest : List ProbeRecord) :
      s.hub.held = none → s.taps probe_id = record :: rest →
      HubMove s (.take_sample probe_id) { s with
        hub := { s.hub with carried := s.hub.carried ++ [record] }
        taps := Function.update s.taps probe_id rest }
  | publish_sample (record : ProbeRecord) (rest : List ProbeRecord) :
      s.hub.held = none → s.hub.carried = record :: rest →
      HubMove s .publish_sample { s with
        hub := { s.hub with carried := rest }
        probe_a2s := Ring.push probe_a2s_buffer s.probe_a2s record }

theorem hub_move {act : HubAct n} (h : s.hub_step act = some s') : HubMove s act s' := by
  cases act with
  | forward_watch =>
    simp only [hub_step] at h
    split at h
    · rename_i watch rest hheld hqueue
      cases h
      exact .forward_watch watch rest hheld hqueue
    · cases h
  | control msg =>
    simp only [hub_step] at h
    split at h
    · rename_i hheld
      cases h
      exact .control msg hheld
    · cases h
  | forward_query =>
    simp only [hub_step] at h
    split at h
    · rename_i query rest hheld hqueue
      cases h
      exact .forward_query query rest hheld hqueue
    · cases h
  | take_reply =>
    simp only [hub_step] at h
    split at h
    · rename_i reply rest hheld hqueue
      cases h
      exact .take_reply reply rest hheld hqueue
    · cases h
  | publish_reply =>
    simp only [hub_step] at h
    split at h
    · rename_i reply hheld
      split at h
      · rename_i hroom
        cases h
        exact .publish_reply reply hheld hroom
      · cases h
    · cases h
  | forward_csv =>
    simp only [hub_step] at h
    split at h
    · rename_i query rest hheld hqueue
      cases h
      exact .forward_csv query rest hheld hqueue
    · cases h
  | forward_chunk =>
    simp only [hub_step] at h
    split at h
    · rename_i chunk rest hheld hqueue
      cases h
      exact .forward_chunk chunk rest hheld hqueue
    · cases h
  | take_sample probe_id =>
    simp only [hub_step] at h
    split at h
    · rename_i record rest hheld hqueue
      cases h
      exact .take_sample probe_id record rest hheld hqueue
    · cases h
  | publish_sample =>
    simp only [hub_step] at h
    split at h
    · rename_i record rest hheld hqueue
      cases h
      exact .publish_sample record rest hheld hqueue
    · cases h

/-! ### The nodes -/

inductive NodeMove (s : ProbeNet n) (i : Fin n) : NodeProbeAct → ProbeNet n → Prop where
  | take_control (msg : ControlToNode n) (rest : List (ControlToNode n)) (nd : NodeProbes n)
      (records : List ProbeRecord) : (s.node i).sending = [] → s.ctrl_a2n i = msg :: rest →
      (s.node i).take_control i msg = (nd, records) →
      NodeMove s i .take_control { s with
        node := Function.update s.node i nd
        ctrl_a2n := Function.update s.ctrl_a2n i rest
        taps := publish s.taps records }
  | take_query (io_ok : Bool) (query : ProbeQueryWire n) (rest : List (ProbeQueryWire n)) :
      (s.node i).sending = [] → s.query_a2n i = query :: rest →
      NodeMove s i (.take_query io_ok) { s with
        node := Function.update s.node i ((s.node i).answer_query i io_ok query)
        query_a2n := Function.update s.query_a2n i rest }
  | send_reply (reply : ProbeQueryReplyWire n) (rest : List (ProbeQueryReplyWire n)) :
      (s.node i).sending = reply :: rest → s.query_n2a.length < reply_buffer n →
      NodeMove s i .send_reply { s with
        node := Function.update s.node i { s.node i with sending := rest }
        query_n2a := s.query_n2a ++ [reply] }
  | take_csv (io_ok : Bool) (query : ProbeQueryWire n) (rest : List (ProbeQueryWire n)) :
      (s.node i).sending = [] → s.csv_a2n i = query :: rest →
      NodeMove s i (.take_csv io_ok) { s with
        node := Function.update s.node i ((s.node i).take_csv i io_ok query)
        csv_a2n := Function.update s.csv_a2n i rest }
  | send_chunk (out : CsvSend) : (s.node i).sending = [] → (s.node i).csv_out = some out →
      NodeMove s i .send_chunk { s with
        node := Function.update s.node i
          { s.node i with csv_out := (NodeProbes.next_chunk i out).2 }
        csv_n2a := Ring.push (reply_buffer n) s.csv_n2a (NodeProbes.next_chunk i out).1 }
  | ingest_and_emit (pending : Nat → Option TapSample) (written : Nat → Nat) (due : Bool)
      (nd : NodeProbes n) (records : List ProbeRecord) : (s.node i).sending = [] →
      (s.node i).ingest_and_emit pending written due = (nd, records) →
      NodeMove s i (.ingest_and_emit pending written due) { s with
        node := Function.update s.node i nd
        taps := publish s.taps records }

theorem node_move {i : Fin n} {act : NodeProbeAct} (h : s.node_step i act = some s') :
    NodeMove s i act s' := by
  cases act with
  | take_control =>
    simp only [node_step] at h
    split at h
    · rename_i msg rest hsending hqueue
      cases h
      exact .take_control msg rest _ _ hsending hqueue rfl
    · cases h
  | take_query io_ok =>
    simp only [node_step] at h
    split at h
    · rename_i query rest hsending hqueue
      cases h
      exact .take_query io_ok query rest hsending hqueue
    · cases h
  | send_reply =>
    simp only [node_step] at h
    split at h
    · rename_i reply rest hsending
      split at h
      · rename_i hroom
        cases h
        exact .send_reply reply rest hsending hroom
      · cases h
    · cases h
  | take_csv io_ok =>
    simp only [node_step] at h
    split at h
    · rename_i query rest hsending hqueue
      cases h
      exact .take_csv io_ok query rest hsending hqueue
    · cases h
  | send_chunk =>
    simp only [node_step] at h
    split at h
    · rename_i out hsending hout
      cases h
      exact .send_chunk out hsending hout
    · cases h
  | ingest_and_emit pending written due =>
    simp only [node_step] at h
    split at h
    · rename_i hsending
      cases h
      exact .ingest_and_emit pending written due _ _ hsending rfl
    · cases h

end ProbeNet

end Rl78Sim
