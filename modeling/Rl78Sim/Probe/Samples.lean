import Rl78Sim.Probe.Talk

/-! # What a Sample Query Returns

    A sample query asks the one board that owns the probe. Once its last reply
    has arrived, the server has received the answer of that board, whole and in
    order, and nothing else.
-/

namespace Rl78Sim

open Transition NodeProbes Dialogue ProbeRecord

variable {n : Nat} {catalog : ProbeCatalog n}

/-- The records of a probe that the log holds, on disk and in memory. -/
def ProbeLog.held (log : ProbeLog) (p : Nat) : List ProbeRecord :=
  of p (read_spill log.spill log.spill.length) ++ log.memory p

/-- No record that was accepted is gone. -/
theorem ProbeLog.Wf.held_eq {log : ProbeLog} (h : log.Wf) (p : Nat) :
    log.held p = of p log.history := by
  obtain ⟨records, part, hfile, hpart, -, hstored⟩ := h.stored
  unfold ProbeLog.held
  rw [hfile, read_spill_append records hpart]
  exact hstored p

namespace NodeProbes

/-- What a range query for probe `p` alone selects. -/
theorem selects_of_one {query : ProbeQueryWire n} {p : Nat} (hids : query.probe_ids = [p])
    (history : List ProbeRecord) (q : Nat) :
    selects query q history =
      if q = p then (of p history).filter fun rec => query.range.contains rec.virtual_time_ns
      else [] := by
  unfold selects
  rw [hids]
  split
  · rename_i hq
    subst hq
    apply List.filter_congr
    intro rec hrec
    have hid : rec.probe_id = q := of_decide_eq_true (List.mem_filter.mp hrec).2
    simp [hid]
  · rename_i hq
    apply List.filter_eq_nil_iff.mpr
    intro rec hrec
    have hid : rec.probe_id = q := of_decide_eq_true (List.mem_filter.mp hrec).2
    simp [hid, hq]

/-- The answer to such a query, if nothing of the log is missing. -/
theorem Answer.range_of_one {i : Fin n} {query : ProbeQueryWire n} {snapshot : Snapshot}
    {records : List ProbeRecord} (h : Answer catalog i query snapshot records false)
    (hkind : query.kind = .Range) {p : Nat} (hids : query.probe_ids = [p]) :
    records = (of p snapshot.history).filter fun rec =>
      query.range.contains rec.virtual_time_ns := by
  have hof : ∀ q, of q records = selects query q snapshot.history := by
    have hdrawn := h.drawn
    unfold Drawn at hdrawn
    rw [hkind] at hdrawn
    exact hdrawn rfl
  have hmine : of p records = records := by
    apply List.filter_eq_self.mpr
    intro rec hrec
    have hself : rec ∈ of rec.probe_id records :=
      List.mem_filter.mpr ⟨hrec, decide_eq_true rfl⟩
    rw [hof, selects_of_one hids] at hself
    split at hself
    · rename_i hid
      exact decide_eq_true hid
    · cases hself
  rw [← hmine, hof p, selects_of_one hids, if_pos rfl]

end NodeProbes

namespace ProbeRecord

/-- Records of one probe in the order of their times are sorted. -/
theorem sort_by_key_eq {p : Nat} {records : List ProbeRecord} (hmine : of p records = records)
    (h : records.Pairwise fun a b => a.virtual_time_ns ≤ b.virtual_time_ns) :
    sort_by_key records = records := by
  have hsorted : (of p records).Pairwise key_le := pairwise_key_le (by rw [hmine]; exact h)
  rw [hmine] at hsorted
  exact hsorted.insertionSort_eq

end ProbeRecord

namespace ProbeNet

variable {s : ProbeNet n} {ok : Guard (ProbeNet n) (ProbeStep n)} {c : Collect n}

/-- The boards that are not asked have said nothing. -/
theorem Hears.unasked {b : Fin n} {got : List (ProbeQueryReplyWire n)}
    (h : Hears catalog s c b none got) (hexpected : c.expected = []) : got = [] := by
  cases h.phase with
  | waiting _ _ _ hgot => exact hgot
  | answered _ _ hq => cases hq
  | broken _ hawaited =>
    have hmem : b ∈ c.expected := of_decide_eq_true hawaited
    rw [hexpected] at hmem
    cases hmem

/-- All that the server has received is the answer of the board. -/
theorem Asking.collected (h : Asking catalog s c) (hexpected : c.expected = []) {p : Nat}
    {range : ProbeRange} (hpurpose : c.purpose = .Samples p range)
    (hrange : ¬(range.from_ns = none ∧ range.to_ns = none)) :
    ∃ b snap, catalog.board_of p = some b ∧
      ((s.node b).answered.filter fun snap => snap.request_id = c.request_id) = [snap] ∧
      (c.truncated = false → c.records = (of p snap.history).filter fun rec =>
        range.contains rec.virtual_time_ns) := by
  obtain ⟨⟨ids, wire, hasks, hsome, hboard⟩, hknown⟩ := h
  rw [hpurpose] at hasks
  cases hasks with
  | latest _ _ hfrom hto => exact absurd ⟨hfrom, hto⟩ hrange
  | range_ =>
    -- One board owns the probe.
    obtain ⟨b, hb⟩ : ∃ b, catalog.board_of p = some b := by
      cases hfind : catalog.board_of p with
      | some b => exact ⟨b, rfl⟩
      | none =>
        exfalso
        apply hsome
        unfold ProbeCatalog.by_board
        apply List.filterMap_eq_nil_iff.mpr
        intro i _
        simp [hfind]
    have hids (i : Fin n) : catalog.ids_of [p] i = if i = b then [p] else [] := by
      unfold ProbeCatalog.ids_of
      rw [List.filter_singleton, hb]
      by_cases hi : i = b
      · simp [hi]
      · simp [hi, Ne.symm hi]
    obtain ⟨got, hgot⟩ := hboard b
    have hq : catalog.question [p] (fun i ids => ProbeQueryWire.range_ c.request_id i ids range) b =
        some (.range_ c.request_id b [p] range) := by
      unfold ProbeCatalog.question
      rw [hids b, if_pos rfl]
    have hawaited : (s.talk c b got).awaited = false := by
      show decide (b ∈ c.expected) = false
      rw [hexpected]
      rfl
    obtain ⟨snap, hanswers, records, truncated, ha, hreplies⟩ :=
      hgot.phase.finished hawaited hq
    refine ⟨b, snap, hb, hanswers, ?_⟩
    intro htruncated
    change got = _ at hreplies
    obtain ⟨hflat, hmarks⟩ := query_reply_records b c.request_id truncated records
    have hmark : truncated = false := by
      cases hcase : truncated with
      | false => rfl
      | true =>
        obtain ⟨init, x, heq, -, -⟩ := query_reply_ends b c.request_id truncated records
        have hx : x ∈ query_reply b c.request_id truncated records := by
          rw [heq]
          exact List.mem_append_right _ List.mem_cons_self
        have hxt : x.truncated = true := (hmarks x hx).2.2.trans hcase
        have htrue := hgot.truncated x (hreplies ▸ hx) hxt
        rw [htruncated] at htrue
        cases htrue
    have hall : c.records.filter (fun rec => catalog.board_of rec.probe_id = some b) =
        c.records := by
      apply List.filter_eq_self.mpr
      intro rec hrec
      obtain ⟨b', hb'⟩ := hknown rec hrec
      by_cases heq : b' = b
      · exact decide_eq_true (heq ▸ hb')
      · -- No other board has been asked.
        obtain ⟨got', hgot'⟩ := hboard b'
        have hnone : catalog.question [p]
            (fun i ids => ProbeQueryWire.range_ c.request_id i ids range) b' = none := by
          unfold ProbeCatalog.question
          rw [hids b', if_neg heq]
        rw [hnone] at hgot'
        have hrecords := hgot'.records_eq
        rw [hgot'.unasked hexpected] at hrecords
        have hmem : rec ∈ c.records.filter fun rec => catalog.board_of rec.probe_id = some b' :=
          List.mem_filter.mpr ⟨hrec, decide_eq_true hb'⟩
        rw [hrecords] at hmem
        cases hmem
    rw [← hall, hgot.records_eq, hreplies]
    subst hmark
    show (query_reply b c.request_id false records).flatMap _ = _
    rw [hflat]
    exact ha.range_of_one rfl rfl

/-- A sample query that ends without a mark of truncation returns the records
    of the probe in its range that the log of its board held when the node
    answered, which it did once. What a log holds are all the records that it
    has accepted. -/
theorem query_samples_exact (h : Reachable (system catalog) ok s)
    (hcall : s.server.call = .query c) {p from_ns : Nat} {range : ProbeRange}
    (hpurpose : c.purpose = .Samples p range) (hfrom : range.from_ns = some from_ns)
    {records : List ProbeRecord} (hrecords : ProbeServer.collected c = some (records, false)) :
    (∃ b snap, catalog.board_of p = some b ∧
      ((s.node b).answered.filter fun snap => snap.request_id = c.request_id) = [snap] ∧
      (((of p snap.history).Pairwise fun a b => a.virtual_time_ns ≤ b.virtual_time_ns) →
        records = (of p snap.history).filter fun rec => range.contains rec.virtual_time_ns)) ∧
    ∀ i q, (s.node i).log.held q = of q (s.node i).log.history := by
  have hinv := Queries.reachable h
  refine ⟨?_, fun i => (hinv.tidy.node i).log.held_eq⟩
  unfold ProbeServer.collected at hrecords
  split at hrecords
  · rename_i hexpected
    obtain ⟨hsorted, htruncated⟩ := Prod.mk.inj (Option.some.inj hrecords)
    obtain ⟨b, snap, hb, hanswers, hall⟩ := (hinv.asking c hcall).collected
      (List.isEmpty_iff.mp hexpected) hpurpose (by rw [hfrom]; nofun)
    refine ⟨b, snap, hb, hanswers, ?_⟩
    intro htimes
    rw [← hsorted, hall htruncated]
    refine sort_by_key_eq (p := p) ?_ (htimes.sublist List.filter_sublist)
    apply List.filter_eq_self.mpr
    intro rec hrec
    exact (List.mem_filter.mp (List.mem_filter.mp hrec).1).2
  · cases hrecords

/-- What the node of the one probe answers with. -/
theorem range_records_uart (words : List (Nat × Nat)) {query : ProbeQueryWire 1}
    (hkind : query.kind = .Range) (hids : query.probe_ids = [1]) :
    ((uart_net words).node 0).range_records true query =
      ((words.map fun w => uart_word w.1 w.2).filter fun rec =>
        query.range.contains rec.virtual_time_ns, false) := by
  obtain ⟨hquiet, hhistory, hcatalog⟩ := uart_log words 0
  have hwf : ((uart_net words).node 0).Wf uart_catalog 0 := ⟨hquiet.wf, hcatalog⟩
  have hwhole : (((uart_net words).node 0).range_records true query).2 = false :=
    hquiet.truncated_eq
  obtain ⟨hdrawn, howned⟩ := hwf.range_records true query
  have hanswer : Answer uart_catalog 0 query
      ⟨query.request_id, ((uart_net words).node 0).log.history⟩
      (((uart_net words).node 0).range_records true query).1 false := by
    refine ⟨rfl, ?_, howned⟩
    unfold Drawn
    rw [hkind]
    exact fun _ => hdrawn hwhole
  -- Every record of the log is of probe 1.
  have hmine : of 1 ((uart_net words).node 0).log.history =
      words.map fun w => uart_word w.1 w.2 := by
    have heq : ((uart_net words).node 0).log.history = words.map fun w => uart_word w.1 w.2 :=
      hhistory
    rw [heq]
    apply List.filter_eq_self.mpr
    intro rec hrec
    obtain ⟨w, -, rfl⟩ := List.mem_map.mp hrec
    rfl
  have hrecords := hanswer.range_of_one hkind hids
  rw [hmine] at hrecords
  exact Prod.ext hrecords hwhole

/-- A query that is given up before its answer is under way, and another one. -/
def samples_run : List (ProbeStep 1) :=
  [.server (.query_samples ⟨0, 7⟩ ⟨some 5, none⟩), .hub .forward_query,
    .node 0 (.take_query true), .server .timeout,
    .server (.query_samples ⟨0, 7⟩ ⟨some 15, none⟩), .hub .forward_query,
    .node 0 .send_reply, .hub .take_reply, .hub .publish_reply,
    .node 0 .send_reply, .hub .take_reply, .hub .publish_reply,
    .node 0 (.take_query true), .node 0 .send_reply, .hub .take_reply, .hub .publish_reply,
    .server .read_reply, .server .read_reply, .server .read_reply]

/-- The second query returns the word that is in its range. -/
theorem query_samples_exact_uart : ∃ s c, Reachable (system uart_catalog) (fun _ _ => True) s ∧
    s.server.call = .query c ∧
    ProbeServer.collected c = some ([uart_word 20 66], false) ∧
    (∃ b snap, uart_catalog.board_of 1 = some b ∧
      ((s.node b).answered.filter fun snap => snap.request_id = c.request_id) = [snap] ∧
      (((of 1 snap.history).Pairwise fun a b => a.virtual_time_ns ≤ b.virtual_time_ns) →
        [uart_word 20 66] = (of 1 snap.history).filter fun rec =>
          ProbeRange.contains ⟨some 15, none⟩ rec.virtual_time_ns)) ∧
    ∀ i q, (s.node i).log.held q = of q (s.node i).log.history := by
  have hrun : (((system uart_catalog).exec (fun _ _ => True) (uart_net [(10, 65), (20, 66)])
      samples_run).any fun s => s.collecting =
        some ⟨2, [], [uart_word 20 66], false, .Samples 1 ⟨some 15, none⟩⟩) = true := by
    decide +kernel
  obtain ⟨s, hreach, hs⟩ := Reachable.exists_of_exec samples_run (ready_uart_net _) hrun
  have hcollected : ProbeServer.collected (n := 1)
      ⟨2, [], [uart_word 20 66], false, .Samples 1 ⟨some 15, none⟩⟩ =
        some ([uart_word 20 66], false) := rfl
  exact ⟨s, _, hreach, call_of_collecting hs, hcollected,
    query_samples_exact hreach (call_of_collecting hs) rfl rfl hcollected⟩

end ProbeNet

end Rl78Sim
