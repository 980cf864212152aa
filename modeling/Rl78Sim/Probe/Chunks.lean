import Rl78Sim.Probe.Talk

/-! # CSV Chunks

    An export is one question to every board, and its chunks are the replies.
    Their channels lose the oldest chunk when they are full. What is said here
    holds as long as they lose no chunk but last ones of the export in
    progress, and chunks of exports that are over.
-/

namespace Rl78Sim

open Transition NodeProbes Dialogue ProbeRecord

variable {n : Nat} {catalog : ProbeCatalog n}

/-! ### The chunks of an export -/

namespace NodeProbes

/-- All chunks that are still to be sent. -/
def chunks (i : Fin n) (out : CsvSend) : List (ProbeQueryReplyWire n) :=
  if min (out.offset + query_chunk) out.records.length = out.records.length then
    [(next_chunk i out).1]
  else
    (next_chunk i out).1 :: chunks i { out with offset := out.offset + query_chunk }
termination_by out.records.length - out.offset
decreasing_by
  unfold query_chunk at *
  omega

theorem next_chunk_last (i : Fin n) {out : CsvSend}
    (h : min (out.offset + query_chunk) out.records.length = out.records.length) :
    (next_chunk i out).2 = none := by
  simp only [next_chunk, h, beq_self_eq_true, if_true]

theorem next_chunk_more (i : Fin n) {out : CsvSend}
    (h : ¬min (out.offset + query_chunk) out.records.length = out.records.length) :
    (next_chunk i out).2 = some { out with offset := out.offset + query_chunk } := by
  have hmin : min (out.offset + query_chunk) out.records.length = out.offset + query_chunk := by
    omega
  have hne : ((out.offset + query_chunk) == out.records.length) = false := by
    rw [beq_eq_false_iff_ne]
    omega
  simp only [next_chunk, hmin, hne]
  rfl

/-- The next chunk is the first of them. -/
theorem chunks_eq (i : Fin n) (out : CsvSend) :
    chunks i out = (next_chunk i out).1 :: ((next_chunk i out).2.elim [] (chunks i)) := by
  rw [chunks]
  split
  · rename_i hlast
    rw [next_chunk_last i hlast]
    rfl
  · rename_i hmore
    rw [next_chunk_more i hmore]
    rfl

/-- A chunk carries the next records, and says whether they are the last. -/
theorem next_chunk_eq (i : Fin n) (out : CsvSend) :
    (next_chunk i out).1.records = (out.records.drop out.offset).take query_chunk ∧
      (next_chunk i out).1.last = (next_chunk i out).2.isNone ∧
      (next_chunk i out).1.request_id = out.request_id ∧ (next_chunk i out).1.from_ = i ∧
      (next_chunk i out).1.truncated = out.truncated := by
  refine ⟨?_, ?_, rfl, rfl, rfl⟩
  · show ((out.records.take (min (out.offset + query_chunk) out.records.length)).drop
      out.offset).take query_chunk = _
    rw [List.drop_take, List.take_take]
    by_cases hlong : out.offset + query_chunk ≤ out.records.length
    · congr 1
      omega
    · rw [List.take_of_length_le (by rw [List.length_drop]; omega),
        List.take_of_length_le (by rw [List.length_drop]; omega)]
  · unfold next_chunk
    dsimp only [ProbeQueryReplyWire.chunk]
    cases min (out.offset + query_chunk) out.records.length == out.records.length <;> rfl

theorem chunks_ends (i : Fin n) (out : CsvSend) : ∃ init x, chunks i out = init ++ [x] ∧
    x.last = true ∧ ∀ y ∈ init, y.last = false := by
  induction out using chunks.induct with
  | case1 out hlast =>
    refine ⟨[], _, by rw [chunks, if_pos hlast]; rfl, ?_, nofun⟩
    rw [(next_chunk_eq i out).2.1, next_chunk_last i hlast]
    rfl
  | case2 out hmore ih =>
    obtain ⟨init, x, heq, hlast, hnot⟩ := ih
    refine ⟨(next_chunk i out).1 :: init, x, ?_, hlast, ?_⟩
    · rw [chunks, if_neg hmore, heq]
      rfl
    · intro y hy
      rcases List.mem_cons.mp hy with rfl | htail
      · show (min (out.offset + query_chunk) out.records.length == out.records.length) = false
        rw [beq_eq_false_iff_ne]
        exact hmore
      · exact hnot y htail

/-- The chunks carry the records, in order, each with the mark of truncation. -/
theorem chunks_records (i : Fin n) (out : CsvSend) :
    (chunks i out).flatMap ProbeQueryReplyWire.records = out.records.drop out.offset ∧
      ∀ x ∈ chunks i out,
        x.request_id = out.request_id ∧ x.from_ = i ∧ x.truncated = out.truncated := by
  induction out using chunks.induct with
  | case1 out hlast =>
    rw [chunks, if_pos hlast]
    refine ⟨?_, ?_⟩
    · rw [List.flatMap_singleton, (next_chunk_eq i out).1]
      apply List.take_of_length_le
      rw [List.length_drop]
      omega
    · intro x hx
      rw [List.mem_singleton.mp hx]
      exact (next_chunk_eq i out).2.2
  | case2 out hmore ih =>
    rw [chunks, if_neg hmore]
    refine ⟨?_, ?_⟩
    · rw [List.flatMap_cons, ih.1, (next_chunk_eq i out).1]
      show _ ++ out.records.drop (out.offset + query_chunk) = _
      rw [← List.drop_drop, List.take_append_drop]
    · intro x hx
      rcases List.mem_cons.mp hx with rfl | htail
      · exact (next_chunk_eq i out).2.2
      · exact ih.2 x htail

/-- What a node does with an export query. -/
theorem Wf.take_csv {i : Fin n} {nd : NodeProbes n} (h : nd.Wf catalog i) (io_ok : Bool)
    (query : ProbeQueryWire n) :
    nd.take_csv i io_ok query = nd ∨
    (nd.csv_out = none ∧ query.addresses i = true ∧ ∃ records truncated,
      (truncated = false → ∀ p, of p records = selects query p nd.log.history) ∧
      Owned catalog i records ∧
      nd.take_csv i io_ok query = { nd with
        csv_out := some ⟨query.request_id, records, 0, truncated⟩
        begun := nd.begun ++ [⟨query.request_id, nd.log.history⟩] }) := by
  unfold NodeProbes.take_csv
  cases hout : nd.csv_out with
  | some out => exact .inl rfl
  | none =>
    cases haddr : query.addresses i with
    | false => exact .inl rfl
    | true =>
      obtain ⟨hdrawn, howned⟩ := h.range_records io_ok query
      exact .inr ⟨rfl, rfl, _, _, hdrawn, howned, rfl⟩

end NodeProbes

namespace ProbeNet

variable {s s' : ProbeNet n} {l : ProbeStep n}

/-! ### Moves of the CSV channels -/

/-- The CSV channels, and what the nodes and the job keep of the exports, are
    left alone. -/
structure SameCsv (s s' : ProbeNet n) : Prop where
  next_le : s.server.next_request_id ≤ s'.server.next_request_id
  job_eq : s'.server.csv_job = s.server.csv_job
  s2a_eq : s'.csv_s2a = s.csv_s2a
  a2n_eq : s'.csv_a2n = s.csv_a2n
  n2a_eq : s'.csv_n2a = s.csv_n2a
  a2s_eq : s'.csv_a2s = s.csv_a2s
  out_eq (i : Fin n) : (s'.node i).csv_out = (s.node i).csv_out
  begun_eq (i : Fin n) : (s'.node i).begun = (s.node i).begun

/-- What the steps do to the exports. -/
inductive CsvMove (catalog : ProbeCatalog n) (s : ProbeNet n) :
    ProbeStep n → ProbeNet n → Prop where
  | other (l : ProbeStep n) (s' : ProbeNet n) : SameCsv s s' → CsvMove catalog s l s'
  | started (range : ProbeRange) (expired : Bool) (sv : ProbeServer n) :
      sv.next_request_id = s.server.next_request_id + 1 →
      sv.csv_job = some
        { request_id := s.server.next_request_id
          range := range
          expected := (catalog.by_board (catalog.points.map ProbePointName.probe_id)).map Prod.fst
          pending := []
          truncated := false
          failed := false
          done :=
            (catalog.by_board (catalog.points.map ProbePointName.probe_id)).isEmpty
          handed := [] } →
      CsvMove catalog s (.server (.start_csv range expired)) { s with
        server := sv
        csv_s2a := Ring.push_all watch_buffer s.csv_s2a
          ((catalog.by_board (catalog.points.map ProbePointName.probe_id)).map fun p =>
            .csv s.server.next_request_id p.1 p.2 range) }
  | polled (job : CsvJob n) : s.server.csv_job = some job →
      CsvMove catalog s (.server .poll_csv) { s with
        server := { s.server with csv_job := some (ProbeServer.poll_csv_job job) } }
  | read (job : CsvJob n) (reply : ProbeQueryReplyWire n)
      (rest : List (ProbeQueryReplyWire n)) : s.server.csv_job = some job →
      s.csv_a2s = reply :: rest → job.done = false →
      CsvMove catalog s (.server .read_csv) { s with
        server := { s.server with csv_job := some (ProbeServer.read_csv reply job) }
        csv_a2s := rest }
  | settled (expired : Bool) (job : CsvJob n) : s.server.csv_job = some job → job.done = false →
      CsvMove catalog s (.server (.settle_csv expired)) { s with
        server := { s.server with csv_job := some (ProbeServer.settle_csv expired job) } }
  | forwarded (query : ProbeQueryWire n) (rest : List (ProbeQueryWire n)) :
      s.csv_s2a = query :: rest →
      CsvMove catalog s (.hub .forward_csv) { s with
        csv_s2a := rest, csv_a2n := broadcast watch_buffer s.csv_a2n query }
  | passed (chunk : ProbeQueryReplyWire n) (rest : List (ProbeQueryReplyWire n)) :
      s.csv_n2a = chunk :: rest →
      CsvMove catalog s (.hub .forward_chunk) { s with
        csv_n2a := rest, csv_a2s := Ring.push (reply_buffer n) s.csv_a2s chunk }
  | begun (i : Fin n) (io_ok : Bool) (query : ProbeQueryWire n)
      (rest : List (ProbeQueryWire n)) : s.csv_a2n i = query :: rest →
      CsvMove catalog s (.node i (.take_csv io_ok)) { s with
        node := Function.update s.node i ((s.node i).take_csv i io_ok query)
        csv_a2n := Function.update s.csv_a2n i rest }
  | sent (i : Fin n) (out : CsvSend) : (s.node i).csv_out = some out →
      CsvMove catalog s (.node i .send_chunk) { s with
        node := Function.update s.node i
          { s.node i with csv_out := (NodeProbes.next_chunk i out).2 }
        csv_n2a := Ring.push (reply_buffer n) s.csv_n2a (NodeProbes.next_chunk i out).1 }

theorem same_csv_node {i : Fin n} {nd : NodeProbes n} (hout : nd.csv_out = (s.node i).csv_out)
    (hbegun : nd.begun = (s.node i).begun) {ctrl_a2n : Fin n → List (ControlToNode n)}
    {query_a2n : Fin n → List (ProbeQueryWire n)} {query_n2a : List (ProbeQueryReplyWire n)}
    {taps : Nat → List ProbeRecord} :
    SameCsv s { s with
      node := Function.update s.node i nd, ctrl_a2n := ctrl_a2n, query_a2n := query_a2n
      query_n2a := query_n2a, taps := taps } := by
  refine ⟨Nat.le_refl _, rfl, rfl, rfl, rfl, rfl, ?_, ?_⟩
  · intro j
    by_cases hj : j = i
    · subst hj
      simpa using hout
    · simp [hj]
  · intro j
    by_cases hj : j = i
    · subst hj
      simpa using hbegun
    · simp [hj]

theorem csv_move_server {act : ServerAct n} (h : ServerMove catalog s act s') :
    CsvMove catalog s (.server act) s' := by
  cases h with
  | watched | clear_watch | live_watch | no_samples | read_reply | timeout | begin_samples
  | read_sample =>
    exact .other _ _ ⟨Nat.le_refl _, rfl, rfl, rfl, rfl, rfl, fun _ => rfl, fun _ => rfl⟩
  | take_id | put_watch | query_latest | query_range =>
    exact .other _ _ ⟨Nat.le_succ _, rfl, rfl, rfl, rfl, rfl, fun _ => rfl, fun _ => rfl⟩
  -- What ends a query or feeds the live batch touches no job.
  | finish c =>
    have hsame : (s.server.finish_query c).csv_job = s.server.csv_job ∧
        (s.server.finish_query c).next_request_id = s.server.next_request_id := by
      unfold ProbeServer.finish_query
      split
      · dsimp only
        split <;> exact ⟨rfl, rfl⟩
      · exact ⟨rfl, rfl⟩
    exact .other _ _ ⟨Nat.le_of_eq hsame.2.symm, hsame.1, rfl, rfl, rfl, rfl, fun _ => rfl,
      fun _ => rfl⟩
  | fanout live =>
    have hsame : (({ s.server with call := .none } : ProbeServer n).fanout_live live).csv_job =
          s.server.csv_job ∧
        (({ s.server with call := .none } : ProbeServer n).fanout_live live).next_request_id =
          s.server.next_request_id := by
      unfold ProbeServer.fanout_live
      dsimp only
      split <;> exact ⟨rfl, rfl⟩
    exact .other _ _ ⟨Nat.le_of_eq hsame.2.symm, hsame.1, rfl, rfl, rfl, rfl, fun _ => rfl,
      fun _ => rfl⟩
  | start_csv range expired sv queries _ hstart =>
    unfold ProbeServer.start_csv at hstart
    split at hstart
    · cases hstart
    · cases hstart
      exact .started range expired _ rfl rfl
  | poll_csv job _ hjob => exact .polled job hjob
  | read_csv job reply rest _ hjob hqueue hdone => exact .read job reply rest hjob hqueue hdone
  | settle_csv expired job _ hjob hdone => exact .settled expired job hjob hdone

theorem csv_move_hub {act : HubAct n} (h : HubMove s act s') : CsvMove catalog s (.hub act) s' := by
  cases h with
  | forward_watch | control | forward_query | take_reply | publish_reply | take_sample
  | publish_sample =>
    exact .other _ _ ⟨Nat.le_refl _, rfl, rfl, rfl, rfl, rfl, fun _ => rfl, fun _ => rfl⟩
  | forward_csv query rest _ hqueue => exact .forwarded query rest hqueue
  | forward_chunk chunk rest _ hqueue => exact .passed chunk rest hqueue

theorem csv_move_node {i : Fin n} {act : NodeProbeAct} (h : NodeMove s i act s') :
    CsvMove catalog s (.node i act) s' := by
  cases h with
  | take_control msg rest nd records _ _ htake =>
    have hkept : Kept catalog i (s.node i) ((s.node i).take_control i msg).1 :=
      kept_take_control (s.node i) msg
    rw [htake] at hkept
    exact .other _ _ (same_csv_node hkept.csv_eq hkept.begun_eq)
  | ingest_and_emit pending written due nd records _ hemit =>
    have hkept : Kept catalog i (s.node i) ((s.node i).ingest_and_emit pending written due).1 :=
      kept_ingest_and_emit (s.node i) pending written due
    rw [hemit] at hkept
    exact .other _ _ (same_csv_node hkept.csv_eq hkept.begun_eq)
  | take_query io_ok query rest =>
    have hsame : ((s.node i).answer_query i io_ok query).csv_out = (s.node i).csv_out ∧
        ((s.node i).answer_query i io_ok query).begun = (s.node i).begun := by
      unfold NodeProbes.answer_query
      split <;> exact ⟨rfl, rfl⟩
    exact .other _ _ (same_csv_node hsame.1 hsame.2)
  | send_reply reply rest =>
    refine .other _ _ (same_csv_node ?_ ?_)
    · rfl
    · rfl
  | take_csv io_ok query rest _ hqueue => exact .begun i io_ok query rest hqueue
  | send_chunk out _ hout => exact .sent i out hout

theorem csv_move (h : step catalog s l = some s') : CsvMove catalog s l s' := by
  cases l with
  | server act => exact csv_move_server (server_move h)
  | hub act => exact csv_move_hub (hub_move h)
  | node i act => exact csv_move_node (node_move h)

end ProbeNet

end Rl78Sim
