import Rl78Sim.Probe.Export

/-! # Exports That Lose Chunks

    A node sends the chunks of an export as fast as it runs. When the arbiter
    does not keep up, the channel holds only the newest of them: the last
    chunk arrives, and the export reports success without the oldest records.
-/

namespace Rl78Sim

open Transition NodeProbes ProbeRecord

namespace ProbeNet

variable {n : Nat} {catalog : ProbeCatalog n} {s : ProbeNet n}

/-! ### Each party at its own pace -/

/-- A node sends all of its chunks before the arbiter takes one. -/
theorem send_all {i : Fin n} {out : CsvSend} (hsending : (s.node i).sending = [])
    (hout : (s.node i).csv_out = some out) :
    Path (system catalog) (fun _ _ => True) s { s with
      node := Function.update s.node i { s.node i with csv_out := none }
      csv_n2a := Ring.push_all (reply_buffer n) s.csv_n2a (chunks i out) } := by
  induction out using chunks.induct generalizing s with
  | case1 out hlast =>
    have hstep : (system catalog).step s (.node i .send_chunk) = some { s with
        node := Function.update s.node i { s.node i with csv_out := none }
        csv_n2a := Ring.push (reply_buffer n) s.csv_n2a (next_chunk i out).1 } := by
      show s.node_step i .send_chunk = _
      simp only [node_step, hsending, hout, next_chunk_last i hlast]
    have hall : chunks i out = [(next_chunk i out).1] := by rw [chunks, if_pos hlast]
    rw [hall]
    exact Path.single trivial hstep
  -- One chunk is sent, and the rest by induction from the advanced offset.
  | case2 out hmore ih =>
    let s₁ : ProbeNet n := { s with
      node := Function.update s.node i
        { s.node i with csv_out := some { out with offset := out.offset + query_chunk } }
      csv_n2a := Ring.push (reply_buffer n) s.csv_n2a (next_chunk i out).1 }
    have hstep : (system catalog).step s (.node i .send_chunk) = some s₁ := by
      show s.node_step i .send_chunk = _
      simp only [node_step, hsending, hout, next_chunk_more i hmore, s₁]
    have hsending' : (s₁.node i).sending = [] := by
      show (Function.update s.node i _ i).sending = []
      rw [Function.update_self]
      exact hsending
    have hout' : (s₁.node i).csv_out = some { out with offset := out.offset + query_chunk } := by
      show (Function.update s.node i _ i).csv_out = _
      rw [Function.update_self]
    have hrest := ih hsending' hout'
    have hnode : Function.update s₁.node i { s₁.node i with csv_out := none } =
        Function.update s.node i { s.node i with csv_out := none } := by
      show Function.update (Function.update s.node i _) i
        { Function.update s.node i _ i with csv_out := none } = _
      rw [Function.update_idem, Function.update_self]
    have hall : chunks i out = (next_chunk i out).1 ::
        chunks i { out with offset := out.offset + query_chunk } := by
      rw [chunks, if_neg hmore]
    rw [hnode] at hrest
    rw [hall]
    exact (Path.single trivial hstep).trans hrest

/-- The arbiter passes all chunks on before the server reads one. -/
theorem pass_all (hheld : s.hub.held = none)
    (hroom : s.csv_a2s.length + s.csv_n2a.length ≤ reply_buffer n) :
    Path (system catalog) (fun _ _ => True) s
      { s with csv_n2a := [], csv_a2s := s.csv_a2s ++ s.csv_n2a } := by
  induction hqueue : s.csv_n2a generalizing s with
  | nil =>
    rw [List.append_nil, ← hqueue]
    exact .refl s
  | cons chunk rest ih =>
    rw [hqueue, List.length_cons] at hroom
    have hstep : (system catalog).step s (.hub .forward_chunk) =
        some { s with csv_n2a := rest, csv_a2s := s.csv_a2s ++ [chunk] } := by
      show s.hub_step .forward_chunk = _
      simp only [hub_step, hheld, hqueue]
      rw [Ring.push_of_lt (by omega)]
    have hroom' : (s.csv_a2s ++ [chunk]).length + rest.length ≤ reply_buffer n := by
      rw [List.length_append, List.length_singleton]
      omega
    have hrest := ih (s := { s with csv_n2a := rest, csv_a2s := s.csv_a2s ++ [chunk] }) hheld
      hroom' rfl
    dsimp only at hrest
    rw [List.append_assoc] at hrest
    exact (Path.single trivial hstep).trans hrest

/-- The server reads all chunks. -/
theorem read_all {job : CsvJob n} (hcall : s.server.call = .none)
    (hjob : s.server.csv_job = some job) (hdone : job.done = false) :
    Path (system catalog) (fun _ _ => True) s { s with
      server := { s.server with
        csv_job := some (s.csv_a2s.foldl (fun job reply => ProbeServer.read_csv reply job) job) }
      csv_a2s := [] } := by
  induction hqueue : s.csv_a2s generalizing s job with
  | nil =>
    have hsame : s = { s with
        server := { s.server with csv_job := some job }, csv_a2s := [] } := by
      rw [← hjob, ← hqueue]
    exact hsame ▸ .refl s
  | cons reply rest ih =>
    have hstep : (system catalog).step s (.server .read_csv) = some { s with
        server := { s.server with csv_job := some (ProbeServer.read_csv reply job) }
        csv_a2s := rest } := by
      show s.server_step catalog .read_csv = _
      simp only [server_step, hcall, hjob, hqueue, hdone]
      rfl
    have hdone' : (ProbeServer.read_csv reply job).done = false := by
      unfold ProbeServer.read_csv
      split <;> exact hdone
    have hrest := ih (s := { s with
      server := { s.server with csv_job := some (ProbeServer.read_csv reply job) }
      csv_a2s := rest }) hcall rfl hdone' rfl
    exact (Path.single trivial hstep).trans hrest

/-- What reading chunks of the job makes of it. -/
theorem read_chunks (replies : List (ProbeQueryReplyWire n)) (job : CsvJob n)
    (hreplies : ∀ x ∈ replies, x.request_id = job.request_id ∧ x.truncated = false) :
    replies.foldl (fun job reply => ProbeServer.read_csv reply job) job = { job with
      pending := job.pending ++ replies.flatMap ProbeQueryReplyWire.records
      expected := job.expected.filter fun i => !replies.any fun x => x.last && x.from_ == i } := by
  induction replies generalizing job with
  | nil =>
    simp
  | cons reply rest ih =>
    obtain ⟨hid, htruncated⟩ := hreplies reply List.mem_cons_self
    have hread : ProbeServer.read_csv reply job = { job with
        pending := job.pending ++ reply.records
        expected := if reply.last then job.expected.filter fun i => i ≠ reply.from_
          else job.expected } := by
      unfold ProbeServer.read_csv
      rw [if_pos hid, htruncated, Bool.or_false]
    rw [List.foldl_cons, hread, ih]
    · congr 1
      · show List.filter _ (if reply.last then _ else _) = job.expected.filter fun i =>
          !((reply.last && reply.from_ == i) || rest.any fun x => x.last && x.from_ == i)
        -- The last chunk of a board takes it off those expected.
        cases reply.last with
        | false =>
          simp only [Bool.false_and, Bool.false_or]
          rfl
        | true =>
          rw [if_pos rfl, List.filter_filter]
          apply List.filter_congr
          intro i _
          by_cases hi : reply.from_ = i
          · subst hi
            simp
          · simp [hi, Ne.symm hi]
      · rw [List.flatMap_cons, List.append_assoc]
    · intro x hx
      exact hreplies x (List.mem_cons_of_mem _ hx)

/-! ### One board with a long log -/

/-- The export query for the one probe. -/
def all_words : ProbeQueryWire 1 := .csv 1 0 [1] ⟨none, none⟩

/-- The job of an export of everything. -/
def export_job : CsvJob 1 := ⟨1, ⟨none, none⟩, [0], [], false, false, false, []⟩

/-- The node has begun an export of everything. -/
def begun_uart (words : List (Nat × Nat)) : ProbeNet 1 :=
  { uart_net words with
    server := { (ProbeServer.new : ProbeServer 1) with
      next_request_id := 2, csv_job := some export_job }
    csv_a2n := Function.update (fun _ => [all_words]) 0 []
    node := Function.update (uart_net words).node 0 { (uart_net words).node 0 with
      csv_out := some ⟨1, words.map fun w => uart_word w.1 w.2, 0, false⟩
      begun := [⟨1, words.map fun w => uart_word w.1 w.2⟩] } }

theorem begin_uart (words : List (Nat × Nat)) :
    ((uart_net words).node 0).take_csv 0 true all_words = { (uart_net words).node 0 with
      csv_out := some ⟨1, words.map fun w => uart_word w.1 w.2, 0, false⟩
      begun := [⟨1, words.map fun w => uart_word w.1 w.2⟩] } := by
  have hhistory : ((uart_net words).node 0).log.history = words.map fun w => uart_word w.1 w.2 :=
    (uart_log words 0).2.1
  have hrecords : ((uart_net words).node 0).range_records true all_words = _ :=
    range_records_uart words rfl rfl
  have hall : ((words.map fun w => uart_word w.1 w.2).filter fun rec =>
      all_words.range.contains rec.virtual_time_ns) = words.map fun w => uart_word w.1 w.2 := by
    apply List.filter_eq_self.mpr
    intro rec _
    rfl
  rw [hall] at hrecords
  have haddr : all_words.addresses 0 = true := rfl
  unfold NodeProbes.take_csv
  rw [if_neg nofun, if_pos haddr, hrecords, hhistory]
  rfl

theorem reachable_begun_uart (words : List (Nat × Nat)) :
    Reachable (system uart_catalog) KeepsChunks (begun_uart words) := by
  have hinit : Reachable (system uart_catalog) KeepsChunks (uart_net words) :=
    .init (ready_uart_net words)
  have hstarted := hinit.step (ProbeStep.server (.start_csv ⟨none, none⟩ false)) trivial rfl
  have hforwarded := hstarted.step (ProbeStep.hub .forward_csv) trivial rfl
  refine hforwarded.step (ProbeStep.node 0 (.take_csv true)) trivial ?_
  show some { uart_net words with
      server := { (ProbeServer.new : ProbeServer 1) with
        next_request_id := 2, csv_job := some export_job }
      csv_a2n := Function.update (fun _ => [all_words]) 0 []
      node := Function.update (uart_net words).node 0
        (((uart_net words).node 0).take_csv 0 true all_words) } = some (begun_uart words)
  rw [begin_uart]
  rfl

/-- The node has sent all chunks, and the channels hold these. -/
def sent_uart (words : List (Nat × Nat)) (csv_n2a csv_a2s : List (ProbeQueryReplyWire 1)) :
    ProbeNet 1 :=
  { begun_uart words with
    node := Function.update (begun_uart words).node 0
      { (begun_uart words).node 0 with csv_out := none }
    csv_n2a := csv_n2a
    csv_a2s := csv_a2s }

/-- Every chunk holds at most `query_chunk` records. -/
theorem length_chunks (i : Fin n) (out : CsvSend) :
    out.records.length - out.offset ≤ (chunks i out).length * query_chunk := by
  induction out using chunks.induct with
  | case1 out hlast =>
    rw [chunks, if_pos hlast, List.length_singleton]
    omega
  | case2 out hmore ih =>
    rw [chunks, if_neg hmore, List.length_cons, Nat.succ_mul]
    dsimp only at ih
    omega

/-- Without its first chunks an answer is shorter. -/
theorem dropped_chunks (i : Fin n) (out : CsvSend) (hsome : out.offset < out.records.length)
    {k : Nat} (hk : 0 < k) :
    (((chunks i out).drop k).flatMap ProbeQueryReplyWire.records).length <
      out.records.length - out.offset := by
  obtain ⟨hflat, -⟩ := chunks_records i out
  have hsplit := congrArg List.length hflat
  rw [← List.take_append_drop k (chunks i out), List.flatMap_append, List.length_append,
    List.length_drop] at hsplit
  have hfirst : 0 < (((chunks i out).take k).flatMap ProbeQueryReplyWire.records).length := by
    obtain ⟨k, rfl⟩ := Nat.exists_eq_succ_of_ne_zero (Nat.pos_iff_ne_zero.mp hk)
    rw [chunks_eq, List.take_succ_cons, List.flatMap_cons, List.length_append,
      (next_chunk_eq i out).1, List.length_take, List.length_drop]
    unfold query_chunk
    omega
  omega

/-- An export of more than the channel holds reports success without the oldest
    records. -/
theorem long_export_loses {words : List (Nat × Nat)}
    (hlong : reply_buffer 1 * query_chunk < words.length) :
    ∃ s job, Reachable (system uart_catalog) (fun _ _ => True) s ∧
      s.server.csv_job = some job ∧ job.done = true ∧ job.failed = false ∧
      job.truncated = false ∧ job.range = ⟨none, none⟩ ∧
      (∀ snap ∈ (s.node 0).begun, snap.history = words.map fun w => uart_word w.1 w.2) ∧
      (job.handed ++ job.pending).length < words.length := by
  have hout : ((begun_uart words).node 0).csv_out =
      some ⟨1, words.map fun w => uart_word w.1 w.2, 0, false⟩ := rfl
  have hsent : Path (system uart_catalog) (fun _ _ => True) (begun_uart words)
      (sent_uart words (Ring.push_all (reply_buffer 1) (begun_uart words).csv_n2a
        (chunks 0 ⟨1, words.map fun w => uart_word w.1 w.2, 0, false⟩)) []) := send_all rfl hout
  generalize hcs : chunks (0 : Fin 1) ⟨1, words.map fun w => uart_word w.1 w.2, 0, false⟩ = cs
    at hsent
  have hmany : reply_buffer 1 < cs.length := by
    have hle := length_chunks (0 : Fin 1) ⟨1, words.map fun w => uart_word w.1 w.2, 0, false⟩
    rw [hcs] at hle
    dsimp only at hle
    rw [List.length_map, Nat.sub_zero] at hle
    exact Nat.lt_of_mul_lt_mul_right (Nat.lt_of_lt_of_le hlong hle)
  -- The channel holds the newest chunks.
  have hkept : Ring.push_all (reply_buffer 1) (begun_uart words).csv_n2a cs =
      cs.drop (cs.length - reply_buffer 1) :=
    Ring.push_all_eq_drop (reply_buffer_pos 1) (Nat.zero_le _) cs
  rw [hkept] at hsent
  generalize hk : cs.length - reply_buffer 1 = k at hsent
  have hfits : (cs.drop k).length ≤ reply_buffer 1 := by
    rw [List.length_drop]
    omega
  have hpassed : Path (system uart_catalog) (fun _ _ => True) (sent_uart words (cs.drop k) [])
      (sent_uart words [] (cs.drop k)) := by
    apply pass_all rfl
    show 0 + (cs.drop k).length ≤ _
    rw [Nat.zero_add]
    exact hfits
  have hread : Path (system uart_catalog) (fun _ _ => True) (sent_uart words [] (cs.drop k))
      { sent_uart words [] [] with
        server := { (begun_uart words).server with
          csv_job := some ((cs.drop k).foldl (fun job reply => ProbeServer.read_csv reply job)
            export_job) } } := read_all rfl rfl rfl
  obtain ⟨hflat, hmarks⟩ := chunks_records (0 : Fin 1)
    ⟨1, words.map fun w => uart_word w.1 w.2, 0, false⟩
  obtain ⟨init, x, hends, hlast, -⟩ := chunks_ends (0 : Fin 1)
    ⟨1, words.map fun w => uart_word w.1 w.2, 0, false⟩
  rw [hcs] at hmarks hends
  have hjob := read_chunks (cs.drop k) export_job (by
    intro y hy
    obtain ⟨hid, -, htruncated⟩ := hmarks y (List.mem_of_mem_drop hy)
    exact ⟨hid, htruncated⟩)
  -- The last chunk is among them.
  have hheard : (export_job.expected.filter fun i =>
      !(cs.drop k).any fun x => x.last && x.from_ == i) = [] := by
    apply List.filter_eq_nil_iff.mpr
    intro i hi
    obtain rfl : i = 0 := Subsingleton.elim i 0
    have hmem : x ∈ cs.drop k := by
      rw [hends] at hmany ⊢
      rw [List.length_append, List.length_singleton] at hmany
      rw [hends, List.length_append, List.length_singleton] at hk
      have hpos := reply_buffer_pos 1
      rw [List.drop_append_of_le_length (by omega)]
      exact List.mem_append_right _ List.mem_cons_self
    have hfrom : x.from_ = 0 := Subsingleton.elim _ _
    have hany : ((cs.drop k).any fun x => x.last && x.from_ == 0) = true := by
      apply List.any_eq_true.mpr
      refine ⟨x, hmem, ?_⟩
      rw [hlast, hfrom]
      rfl
    rw [hany]
    nofun
  rw [hheard] at hjob
  rw [hjob] at hread
  have hpath := (hsent.trans hpassed).trans hread
  have hbegun : Reachable (system uart_catalog) (fun _ _ => True) (begun_uart words) :=
    (reachable_begun_uart words).mono fun _ _ _ => trivial
  have hreach := hbegun.of_path hpath
  have hsettled := hreach.step (ProbeStep.server (.settle_csv false)) trivial rfl
  have hwords : 0 < words.length := by omega
  have hsome : 0 < k := by omega
  have hfewer := dropped_chunks (0 : Fin 1)
    ⟨1, words.map fun w => uart_word w.1 w.2, 0, false⟩
    (by rw [List.length_map]; exact hwords) hsome
  rw [hcs] at hfewer
  dsimp only at hfewer
  rw [List.length_map, Nat.sub_zero] at hfewer
  refine ⟨_, _, hsettled, rfl, rfl, rfl, rfl, rfl, ?_, ?_⟩
  · intro snap hsnap
    have hmem : snap ∈ [(⟨1, words.map fun w => uart_word w.1 w.2⟩ : Snapshot)] := hsnap
    rw [List.mem_singleton.mp hmem]
  · exact hfewer

/-- One more word than the chunks of a channel hold. -/
def long_history : List (Nat × Nat) := (List.range 32769).map fun k => (1000 * k, 65)

/-- An export that reports success may lack the oldest records. -/
theorem export_incomplete : ∃ s job, Reachable (system uart_catalog) (fun _ _ => True) s ∧
    s.server.csv_job = some job ∧ job.done = true ∧ job.failed = false ∧
    job.truncated = false ∧ ¬∀ point ∈ uart_catalog.points,
      ∃ snap, ((s.node point.board_hash).begun.filter fun snap =>
          snap.request_id = job.request_id) = [snap] ∧
        of point.probe_id (job.handed ++ job.pending) = (of point.probe_id snap.history).filter
          fun rec => job.range.contains rec.virtual_time_ns := by
  have hlong : reply_buffer 1 * query_chunk < long_history.length := by
    unfold long_history
    rw [List.length_map, List.length_range]
    decide
  obtain ⟨s, job, hreach, hjob, hdone, hfailed, htruncated, hrange, hbegun, hfewer⟩ :=
    long_export_loses hlong
  refine ⟨s, job, hreach, hjob, hdone, hfailed, htruncated, ?_⟩
  intro hall
  obtain ⟨snap, hsnap, heq⟩ := hall ⟨1, 0, 7, .Uart, by decide⟩ List.mem_cons_self
  have hmem : snap ∈ (s.node 0).begun := by
    have hmem' : snap ∈ ((s.node 0).begun.filter fun snap => snap.request_id = job.request_id) := by
      rw [hsnap]
      exact List.mem_cons_self
    exact (List.mem_filter.mp hmem').1
  dsimp only at heq
  rw [hbegun snap hmem, hrange] at heq
  have hwhole : ((of 1 (long_history.map fun w => uart_word w.1 w.2)).filter fun rec =>
      ProbeRange.contains ⟨none, none⟩ rec.virtual_time_ns) =
        long_history.map fun w => uart_word w.1 w.2 := by
    unfold ProbeRecord.of
    rw [List.filter_filter]
    apply List.filter_eq_self.mpr
    intro rec hrec
    obtain ⟨w, -, rfl⟩ := List.mem_map.mp hrec
    rfl
  rw [hwhole] at heq
  -- The export would have to be as long as the history.
  have hlen := congrArg List.length heq
  rw [List.length_map] at hlen
  have hle : (of 1 (job.handed ++ job.pending)).length ≤ (job.handed ++ job.pending).length :=
    List.length_filter_le _ _
  omega

/-- An export that keeps up is complete. -/
theorem export_complete_uart : ∃ s job, Reachable (system uart_catalog) KeepsChunks s ∧
    s.server.csv_job = some job ∧ job.done = true ∧ job.failed = false ∧
    job.truncated = false ∧ job.pending = [uart_word 10 65, uart_word 20 66] ∧
    (∀ point ∈ uart_catalog.points,
      ∃ snap, ((s.node point.board_hash).begun.filter fun snap =>
          snap.request_id = job.request_id) = [snap] ∧
        of point.probe_id (job.handed ++ job.pending) = (of point.probe_id snap.history).filter
          fun rec => job.range.contains rec.virtual_time_ns) ∧
    ∀ i q, (s.node i).log.held q = of q (s.node i).log.history := by
  have hbegun := reachable_begun_uart [(10, 65), (20, 66)]
  have hsent := hbegun.step (ProbeStep.node 0 .send_chunk) (keeps_sent 0 (by decide)) rfl
  have hpassed := hsent.step (ProbeStep.hub .forward_chunk) (keeps_passed (by decide)) rfl
  have hread := hpassed.step (ProbeStep.server .read_csv) trivial rfl
  have hsettled := hread.step (ProbeStep.server (.settle_csv false)) trivial rfl
  have hjob : _ = some
    (⟨1, ⟨none, none⟩, [], [uart_word 10 65, uart_word 20 66], false, false, true,
      []⟩ : CsvJob 1) := rfl
  exact ⟨_, _, hsettled, hjob, rfl, rfl, rfl, rfl, export_complete hsettled hjob rfl rfl rfl⟩

end ProbeNet

end Rl78Sim
