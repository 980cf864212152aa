import Rl78Sim.Probe.Chunks
import Rl78Sim.Probe.Samples

/-! # What a CSV Export Hands Out

    An export ends well when the last chunk of every board has arrived. Nothing
    tells the server whether a chunk before it was overwritten, so the export
    is complete only as long as none is.
-/

namespace Rl78Sim

open Transition NodeProbes Dialogue ProbeRecord

namespace ProbeNet

variable {n : Nat} {catalog : ProbeCatalog n} {s s' : ProbeNet n} {l : ProbeStep n}

/-! ### The dialogues of an export -/

/-- The chunks of request `r` that board `b` has still to send. -/
def to_send (s : ProbeNet n) (r : Nat) (b : Fin n) : List (ProbeQueryReplyWire n) :=
  match (s.node b).csv_out with
  | some out => if out.request_id = r then chunks b out else []
  | none => []

/-- The dialogue of the job with board `b`. -/
def csv_talk (s : ProbeNet n) (job : CsvJob n) (b : Fin n) (got : List (ProbeQueryReplyWire n)) :
    Dialogue (ProbeQueryWire n) Snapshot (ProbeQueryReplyWire n) where
  asked := (s.csv_a2n b ++ s.csv_s2a).filter (puts job.request_id b)
  answers := (s.node b).begun.filter fun snap => snap.request_id = job.request_id
  replies := (s.csv_a2s ++ s.csv_n2a).filter (tells job.request_id b) ++
    s.to_send job.request_id b
  got := got
  awaited := decide (b ∈ job.expected)

/-- How board `b` answers export queries. -/
def csv_manner (catalog : ProbeCatalog n) (b : Fin n) :
    Manner (ProbeQueryWire n) Snapshot (ProbeQueryReplyWire n) where
  answers q snap rs := ∃ records truncated,
    (truncated = false → ∀ p, of p records = selects q p snap.history) ∧
      Owned catalog b records ∧ rs = chunks b ⟨q.request_id, records, 0, truncated⟩
  last := ProbeQueryReplyWire.last
  ends := by
    rintro q snap rs ⟨records, truncated, -, -, rfl⟩
    exact chunks_ends b _

/-- What the job asks of board `b`: all of its probes. -/
def csv_question (catalog : ProbeCatalog n) (job : CsvJob n) (b : Fin n) :
    Option (ProbeQueryWire n) :=
  catalog.question (catalog.points.map ProbePointName.probe_id)
    (fun i ids => .csv job.request_id i ids job.range) b

/-- The dialogue is in order, and the job has kept what has been received. -/
structure Reads (catalog : ProbeCatalog n) (s : ProbeNet n) (job : CsvJob n) (b : Fin n)
    (got : List (ProbeQueryReplyWire n)) : Prop where
  phase : Phase (csv_manner catalog b) (csv_question catalog job b) (s.csv_talk job b got)
  records_eq : (job.handed ++ job.pending).filter
    (fun rec => catalog.board_of rec.probe_id = some b) = got.flatMap ProbeQueryReplyWire.records
  truncated : ∀ x ∈ got, x.truncated = true → job.truncated = true

/-- A request id that is not taken has never been used, and a chunk carries
    records of the board that it is from. -/
structure CsvTidy (catalog : ProbeCatalog n) (s : ProbeNet n) : Prop where
  s2a : ∀ q ∈ s.csv_s2a, q.request_id < s.server.next_request_id
  a2n (i : Fin n) : ∀ q ∈ s.csv_a2n i, q.request_id < s.server.next_request_id
  n2a : ∀ x ∈ s.csv_n2a, x.request_id < s.server.next_request_id ∧ Owned catalog x.from_ x.records
  a2s : ∀ x ∈ s.csv_a2s, x.request_id < s.server.next_request_id ∧ Owned catalog x.from_ x.records
  out (i : Fin n) : ∀ out ∈ (s.node i).csv_out,
    out.request_id < s.server.next_request_id ∧ Owned catalog i out.records
  begun (i : Fin n) : ∀ snap ∈ (s.node i).begun, snap.request_id < s.server.next_request_id
  job : ∀ job ∈ s.server.csv_job, job.request_id < s.server.next_request_id

theorem Ready.csv_tidy (h : Ready catalog s) : CsvTidy catalog s := by
  refine ⟨?_, ?_, ?_, ?_, ?_, ?_, ?_⟩
  · rw [h.csv_s2a_eq]
    nofun
  · intro i
    rw [h.csv_a2n_eq i]
    nofun
  · rw [h.csv_n2a_eq]
    nofun
  · rw [h.csv_a2s_eq]
    nofun
  · intro i
    rw [(h.node i).csv_eq]
    nofun
  · intro i
    rw [(h.node i).begun_eq]
    nofun
  · rw [h.server_eq]
    nofun

theorem CsvMove.next_le (hm : CsvMove catalog s l s') :
    s.server.next_request_id ≤ s'.server.next_request_id := by
  cases hm with
  | other _ _ hsame => exact hsame.next_le
  | started _ _ sv hnext =>
    show s.server.next_request_id ≤ sv.next_request_id
    omega
  | _ => exact Nat.le_refl _

theorem read_csv_id (reply : ProbeQueryReplyWire n) (job : CsvJob n) :
    (ProbeServer.read_csv reply job).request_id = job.request_id := by
  unfold ProbeServer.read_csv
  split <;> rfl

theorem settle_csv_id (expired : Bool) (job : CsvJob n) :
    (ProbeServer.settle_csv expired job).request_id = job.request_id := by
  unfold ProbeServer.settle_csv
  split
  · rfl
  · split <;> rfl

theorem next_chunk_owned {i : Fin n} {out : CsvSend} (h : Owned catalog i out.records) :
    Owned catalog (next_chunk i out).1.from_ (next_chunk i out).1.records := by
  intro rec hrec
  rw [(next_chunk_eq i out).1] at hrec
  exact h rec (List.mem_of_mem_drop (List.mem_of_mem_take hrec))

theorem CsvTidy.moved (h : CsvTidy catalog s) (hwf : ∀ i, (s.node i).Wf catalog i)
    (hm : CsvMove catalog s l s') : CsvTidy catalog s' := by
  have hnext := hm.next_le
  -- Ids are only ever given out in increasing order, so old bounds stay good.
  have hgrow : CsvTidy catalog { s with
      server := { s.server with next_request_id := s'.server.next_request_id } } :=
    ⟨fun q hq => Nat.lt_of_lt_of_le (h.s2a q hq) hnext,
      fun i q hq => Nat.lt_of_lt_of_le (h.a2n i q hq) hnext,
      fun x hx => ⟨Nat.lt_of_lt_of_le (h.n2a x hx).1 hnext, (h.n2a x hx).2⟩,
      fun x hx => ⟨Nat.lt_of_lt_of_le (h.a2s x hx).1 hnext, (h.a2s x hx).2⟩,
      fun i out hout => ⟨Nat.lt_of_lt_of_le (h.out i out hout).1 hnext, (h.out i out hout).2⟩,
      fun i snap hsnap => Nat.lt_of_lt_of_le (h.begun i snap hsnap) hnext,
      fun job hjob => Nat.lt_of_lt_of_le (h.job job hjob) hnext⟩
  cases hm with
  | other _ _ hsame =>
    refine ⟨?_, ?_, ?_, ?_, ?_, ?_, ?_⟩
    · rw [hsame.s2a_eq]
      exact hgrow.s2a
    · rw [hsame.a2n_eq]
      exact hgrow.a2n
    · rw [hsame.n2a_eq]
      exact hgrow.n2a
    · rw [hsame.a2s_eq]
      exact hgrow.a2s
    · intro i
      rw [hsame.out_eq i]
      exact hgrow.out i
    · intro i
      rw [hsame.begun_eq i]
      exact hgrow.begun i
    · rw [hsame.job_eq]
      exact hgrow.job
  | started range expired sv hsv hjob =>
    refine ⟨?_, hgrow.a2n, hgrow.n2a, hgrow.a2s, hgrow.out, hgrow.begun, ?_⟩
    · intro q hq
      rcases List.mem_append.mp ((Ring.push_all_sublist _ _ _).subset hq) with hold | hnew
      · exact hgrow.s2a q hold
      -- The new queries carry the id that the job has just taken.
      · obtain ⟨p, -, rfl⟩ := List.mem_map.mp hnew
        show s.server.next_request_id < sv.next_request_id
        omega
    · intro job hmem
      have hmem' : sv.csv_job = some job := hmem
      rw [hjob] at hmem'
      cases hmem'
      show s.server.next_request_id < sv.next_request_id
      omega
  | polled job hjob =>
    refine ⟨h.s2a, h.a2n, h.n2a, h.a2s, h.out, h.begun, ?_⟩
    intro job' hmem
    cases hmem
    exact h.job job hjob
  | read job reply rest hjob hqueue =>
    refine ⟨h.s2a, h.a2n, h.n2a, ?_, h.out, h.begun, ?_⟩
    · intro x hx
      exact h.a2s x (hqueue ▸ List.mem_cons_of_mem _ hx)
    · intro job' hmem
      cases hmem
      rw [read_csv_id]
      exact h.job job hjob
  | settled expired job hjob =>
    refine ⟨h.s2a, h.a2n, h.n2a, h.a2s, h.out, h.begun, ?_⟩
    intro job' hmem
    cases hmem
    rw [settle_csv_id]
    exact h.job job hjob
  | forwarded query rest hqueue =>
    refine ⟨?_, ?_, h.n2a, h.a2s, h.out, h.begun, h.job⟩
    · intro q hq
      exact h.s2a q (hqueue ▸ List.mem_cons_of_mem _ hq)
    · intro i q hq
      rcases Ring.mem_push hq with hold | rfl
      · exact h.a2n i q hold
      · exact h.s2a _ (hqueue ▸ List.mem_cons_self)
  | passed chunk rest hqueue =>
    refine ⟨h.s2a, h.a2n, ?_, ?_, h.out, h.begun, h.job⟩
    · intro x hx
      exact h.n2a x (hqueue ▸ List.mem_cons_of_mem _ hx)
    · intro x hx
      rcases Ring.mem_push hx with hold | rfl
      · exact h.a2s x hold
      · exact h.n2a _ (hqueue ▸ List.mem_cons_self)
  | begun i io_ok query rest hqueue =>
    have hquery : query.request_id < s.server.next_request_id :=
      h.a2n i query (hqueue ▸ List.mem_cons_self)
    refine ⟨h.s2a, ?_, h.n2a, h.a2s, ?_, ?_, h.job⟩
    · intro j q hq
      by_cases hj : j = i
      · subst hj
        simp only [Function.update_self] at hq
        exact h.a2n j q (hqueue ▸ List.mem_cons_of_mem _ hq)
      · simp only [Function.update_of_ne hj] at hq
        exact h.a2n j q hq
    · intro j out hout
      by_cases hj : j = i
      · subst hj
        simp only [Function.update_self] at hout
        rcases (hwf j).take_csv io_ok query with heq | ⟨-, -, records, truncated, -, howned, heq⟩
        · rw [heq] at hout
          exact h.out j out hout
        · rw [heq] at hout
          cases hout
          exact ⟨hquery, howned⟩
      · simp only [Function.update_of_ne hj] at hout
        exact h.out j out hout
    · intro j snap hsnap
      by_cases hj : j = i
      · subst hj
        simp only [Function.update_self] at hsnap
        rcases (hwf j).take_csv io_ok query with heq | ⟨-, -, records, truncated, -, -, heq⟩
        · rw [heq] at hsnap
          exact h.begun j snap hsnap
        · rw [heq] at hsnap
          rcases List.mem_append.mp hsnap with hold | hnew
          · exact h.begun j snap hold
          · rw [List.mem_singleton.mp hnew]
            exact hquery
      · simp only [Function.update_of_ne hj] at hsnap
        exact h.begun j snap hsnap
  | sent i out hout =>
    obtain ⟨hid, howned⟩ := h.out i out hout
    refine ⟨h.s2a, h.a2n, ?_, h.a2s, ?_, ?_, h.job⟩
    · intro x hx
      rcases Ring.mem_push hx with hold | rfl
      · exact h.n2a x hold
      · exact ⟨hid, next_chunk_owned howned⟩
    · intro j out' hout'
      by_cases hj : j = i
      · subst hj
        simp only [Function.update_self] at hout'
        unfold next_chunk at hout'
        dsimp only at hout'
        split at hout'
        · cases hout'
        · cases hout'
          exact ⟨hid, howned⟩
      · simp only [Function.update_of_ne hj] at hout'
        exact h.out j out' hout'
    · intro j snap hsnap
      by_cases hj : j = i
      · subst hj
        simp only [Function.update_self] at hsnap
        exact h.begun j snap hsnap
      · simp only [Function.update_of_ne hj] at hsnap
        exact h.begun j snap hsnap

/-! ### Chunks that may be lost -/

/-- The chunk is of the export in progress, and is not the last of its board. -/
def Middle (s : ProbeNet n) (x : ProbeQueryReplyWire n) : Prop :=
  ∃ job, s.server.csv_job = some job ∧ job.done = false ∧ x.request_id = job.request_id ∧
    x.last = false

/-- No such chunk is overwritten. -/
def KeepsChunks : Guard (ProbeNet n) (ProbeStep n)
  | s, .hub .forward_chunk => ∀ x ∈ Ring.dropped (reply_buffer n) s.csv_a2s, ¬s.Middle x
  | s, .node _ .send_chunk => ∀ x ∈ Ring.dropped (reply_buffer n) s.csv_n2a, ¬s.Middle x
  | _, _ => True

/-- Nothing is overwritten while there is room. -/
theorem keeps_sent (i : Fin n) (hroom : s.csv_n2a.length < reply_buffer n) :
    KeepsChunks s (.node i .send_chunk) := by
  show ∀ x ∈ Ring.dropped _ _, _
  unfold Ring.dropped
  rw [if_pos hroom]
  nofun

theorem keeps_passed (hroom : s.csv_a2s.length < reply_buffer n) :
    KeepsChunks s (.hub .forward_chunk) := by
  show ∀ x ∈ Ring.dropped _ _, _
  unfold Ring.dropped
  rw [if_pos hroom]
  nofun

/-- A job that has ended well has heard of every board. -/
structure Exporting (catalog : ProbeCatalog n) (s : ProbeNet n) (job : CsvJob n) : Prop where
  expected_eq : job.done = true → job.expected = []
  board (b : Fin n) : ∃ got, Reads catalog s job b got

/-! ### Steps -/

variable {job : CsvJob n} {b : Fin n} {got : List (ProbeQueryReplyWire n)}

/-- Nothing of the dialogue has moved. -/
theorem Reads.same_but (h : Reads catalog s job b got)
    (hasked : (s'.csv_a2n b ++ s'.csv_s2a).filter (puts job.request_id b) =
      (s.csv_a2n b ++ s.csv_s2a).filter (puts job.request_id b))
    (hanswers : (s'.node b).begun.filter (fun snap => snap.request_id = job.request_id) =
      (s.node b).begun.filter fun snap => snap.request_id = job.request_id)
    (hreplies : (s'.csv_a2s ++ s'.csv_n2a).filter (tells job.request_id b) ++
        s'.to_send job.request_id b =
      (s.csv_a2s ++ s.csv_n2a).filter (tells job.request_id b) ++ s.to_send job.request_id b) :
    Reads catalog s' job b got := by
  refine ⟨?_, h.records_eq, h.truncated⟩
  have heq : s'.csv_talk job b got = s.csv_talk job b got := by
    unfold csv_talk
    rw [hasked, hanswers, hreplies]
  rw [heq]
  exact h.phase

theorem Reads.same (h : Reads catalog s job b got)
    (hasked : (s'.csv_a2n b ++ s'.csv_s2a).filter (puts job.request_id b) =
      (s.csv_a2n b ++ s.csv_s2a).filter (puts job.request_id b))
    (hbegun : (s'.node b).begun = (s.node b).begun)
    (hreplies : (s'.csv_a2s ++ s'.csv_n2a).filter (tells job.request_id b) ++
        s'.to_send job.request_id b =
      (s.csv_a2s ++ s.csv_n2a).filter (tells job.request_id b) ++ s.to_send job.request_id b) :
    Reads catalog s' job b got :=
  h.same_but hasked (by rw [hbegun]) hreplies

/-- A chunk is overwritten; if it is of the dialogue, then it is a last one. -/
theorem Reads.dropped (h : Reads catalog s job b got) (x : ProbeQueryReplyWire n)
    (before after own : List (ProbeQueryReplyWire n))
    (hold : (s.csv_a2s ++ s.csv_n2a).filter (tells job.request_id b) ++
        s.to_send job.request_id b =
      before.filter (tells job.request_id b) ++ (x :: after).filter (tells job.request_id b) ++ own)
    (hnew : (s'.csv_a2s ++ s'.csv_n2a).filter (tells job.request_id b) ++
        s'.to_send job.request_id b =
      before.filter (tells job.request_id b) ++ after.filter (tells job.request_id b) ++ own)
    (hasked : (s'.csv_a2n b ++ s'.csv_s2a).filter (puts job.request_id b) =
      (s.csv_a2n b ++ s.csv_s2a).filter (puts job.request_id b))
    (hanswers : (s'.node b).begun = (s.node b).begun)
    (hx : tells job.request_id b x = true → x.last = true) : Reads catalog s' job b got := by
  cases htells : tells job.request_id b x with
  | false =>
    apply h.same hasked hanswers
    rw [hold, hnew, filter_head htells]
  | true =>
    refine ⟨?_, h.records_eq, h.truncated⟩
    have hreplies : (s.csv_talk job b got).replies =
        before.filter (tells job.request_id b) ++
          x :: (after.filter (tells job.request_id b) ++ own) := by
      refine hold.trans ?_
      rw [List.filter_cons_of_pos htells, List.append_assoc, List.cons_append]
    -- What is lost is the end of this board's answer, so the job goes on waiting.
    have hlost := h.phase.lose hreplies (hx htells)
    have heq : s'.csv_talk job b got = { s.csv_talk job b got with
        replies := before.filter (tells job.request_id b) ++
          (after.filter (tells job.request_id b) ++ own) } := by
      unfold csv_talk
      rw [hasked, hanswers, hnew, List.append_assoc]
    rw [heq]
    exact hlost

/-- A chunk that is overwritten is no loss to an export that can end well. -/
theorem Reads.harmless (h : Reads catalog s job b got) (hjob : s.server.csv_job = some job)
    (hexpected : job.done = true → job.expected = []) {x : ProbeQueryReplyWire n}
    (hx : x ∈ s.csv_a2s ++ s.csv_n2a) (hmiddle : ¬s.Middle x)
    (htells : tells job.request_id b x = true) : x.last = true := by
  have hid : x.request_id = job.request_id := by
    unfold tells at htells
    exact of_decide_eq_true (Bool.and_eq_true_iff.mp htells).1
  cases hdone : job.done with
  | false =>
    cases hlast : x.last with
    | true => rfl
    | false => exact absurd ⟨job, hjob, hdone, hid, hlast⟩ hmiddle
  | true =>
    -- All chunks have arrived.
    have hsilent : (s.csv_talk job b got).replies = [] := by
      refine (h.phase.silent ?_).2
      show decide (b ∈ job.expected) = false
      rw [hexpected hdone]
      rfl
    have hmem : x ∈ (s.csv_talk job b got).replies := by
      show x ∈ (s.csv_a2s ++ s.csv_n2a).filter _ ++ _
      exact List.mem_append_left _ (List.mem_filter.mpr ⟨hx, htells⟩)
    rw [hsilent] at hmem
    cases hmem

theorem reads_started (h : CsvTidy catalog s) {sv : ProbeServer n}
    (hid : job.request_id = s.server.next_request_id)
    (hexpected : job.expected =
      (catalog.by_board (catalog.points.map ProbePointName.probe_id)).map Prod.fst)
    (hpending : job.handed ++ job.pending = []) {queries : List (ProbeQueryWire n)}
    (hqueries : queries =
      (catalog.by_board (catalog.points.map ProbePointName.probe_id)).map fun p =>
        .csv job.request_id p.1 p.2 job.range) (b : Fin n) :
    Reads catalog { s with
      server := sv, csv_s2a := Ring.push_all watch_buffer s.csv_s2a queries } job b [] := by
  subst hqueries
  refine ⟨?_, by rw [hpending]; rfl, nofun⟩
  -- Nothing in flight carries the id of a job that has only now begun.
  have hold (q : ProbeQueryWire n) (hq : q.request_id < s.server.next_request_id) :
      puts job.request_id b q = false := by
    unfold puts
    rw [hid, decide_eq_false (Nat.ne_of_lt hq), Bool.false_and]
  have hnone (x : ProbeQueryReplyWire n) (hx : x.request_id < s.server.next_request_id) :
      tells job.request_id b x = false := by
    unfold tells
    rw [hid, decide_eq_false (Nat.ne_of_lt hx), Bool.false_and]
  refine .waiting ?_ ?_ ?_ rfl ?_
  · show ((s.csv_a2n b ++ Ring.push_all watch_buffer s.csv_s2a
      ((catalog.by_board (catalog.points.map ProbePointName.probe_id)).map fun p =>
        .csv job.request_id p.1 p.2 job.range)).filter (puts job.request_id b)).Sublist
      (csv_question catalog job b).toList
    -- Of the new queries one at most is for this board, and a full channel may
    -- drop it.
    have hqueue : (s.csv_a2n b).filter (puts job.request_id b) = [] := by
      apply List.filter_eq_nil_iff.mpr
      intro q hq
      simp [hold q (h.a2n b q hq)]
    have hs2a : s.csv_s2a.filter (puts job.request_id b) = [] := by
      apply List.filter_eq_nil_iff.mpr
      intro q hq
      simp [hold q (h.s2a q hq)]
    have hmine : ((catalog.by_board (catalog.points.map ProbePointName.probe_id)).map fun p =>
          ProbeQueryWire.csv job.request_id p.1 p.2 job.range).filter (puts job.request_id b) =
        (csv_question catalog job b).toList := by
      refine ProbeCatalog.question_toList _
        (fun i is => ProbeQueryWire.csv job.request_id i is job.range) b ?_
      intro i is
      unfold puts
      show (decide (job.request_id = job.request_id) && decide (i = b)) = decide (i = b)
      rw [decide_eq_true rfl, Bool.true_and]
    have hsub := (Ring.push_all_sublist watch_buffer s.csv_s2a
      ((catalog.by_board (catalog.points.map ProbePointName.probe_id)).map fun p =>
        .csv job.request_id p.1 p.2 job.range)).filter (puts job.request_id b)
    rw [List.filter_append, hs2a, hmine, List.nil_append] at hsub
    rw [List.filter_append, hqueue, List.nil_append]
    exact hsub
  · apply List.filter_eq_nil_iff.mpr
    intro snap hsnap
    have hlt := h.begun b snap hsnap
    rw [← hid] at hlt
    simpa using Nat.ne_of_lt hlt
  · have hqueue : (s.csv_a2s ++ s.csv_n2a).filter (tells job.request_id b) = [] := by
      apply List.filter_eq_nil_iff.mpr
      intro x hx
      rcases List.mem_append.mp hx with hx | hx
      · simp [hnone x (h.a2s x hx).1]
      · simp [hnone x (h.n2a x hx).1]
    have hsend : s.to_send job.request_id b = [] := by
      unfold to_send
      split
      · rename_i out hout
        have hlt := (h.out b out hout).1
        rw [if_neg (by rw [hid]; exact Nat.ne_of_lt hlt)]
      · rfl
    show (s.csv_a2s ++ s.csv_n2a).filter _ ++ s.to_send job.request_id b = []
    rw [hqueue, hsend]
    rfl
  · show decide (b ∈ job.expected) = (csv_question catalog job b).isSome
    unfold csv_question
    rw [hexpected, ProbeCatalog.question_isSome]

/-- The arbiter passes a query on; full queues lose the oldest one. -/
theorem Reads.forwarded (h : Reads catalog s job b got) {query : ProbeQueryWire n}
    {rest : List (ProbeQueryWire n)} (hqueue : s.csv_s2a = query :: rest) :
    Reads catalog { s with
      csv_s2a := rest, csv_a2n := broadcast watch_buffer s.csv_a2n query } job b got := by
  refine ⟨?_, h.records_eq, h.truncated⟩
  have hfewer : ((Ring.push watch_buffer (s.csv_a2n b) query ++ rest).filter
      (puts job.request_id b)).Sublist (s.csv_talk job b got).asked := by
    show List.Sublist _ ((s.csv_a2n b ++ s.csv_s2a).filter _)
    have hpush := (Ring.push_sublist watch_buffer (s.csv_a2n b) query).append
      (List.Sublist.refl rest)
    rw [List.append_assoc] at hpush
    rw [hqueue]
    exact hpush.filter _
  exact h.phase.fewer_asked hfewer

/-- A full channel has an oldest message. -/
theorem full_cons {α : Type} {xs : List α} (h : ¬xs.length < reply_buffer n) :
    ∃ x tl, xs = x :: tl := by
  apply List.exists_cons_of_ne_nil
  intro hnil
  rw [hnil] at h
  exact h (reply_buffer_pos n)

/-- The arbiter passes a chunk on. -/
theorem Reads.passed (h : Reads catalog s job b got) (hjob : s.server.csv_job = some job)
    (hexpected : job.done = true → job.expected = []) {chunk : ProbeQueryReplyWire n}
    {rest : List (ProbeQueryReplyWire n)} (hqueue : s.csv_n2a = chunk :: rest)
    (hkeeps : KeepsChunks s (.hub .forward_chunk)) :
    Reads catalog { s with
      csv_n2a := rest, csv_a2s := Ring.push (reply_buffer n) s.csv_a2s chunk } job b got := by
  by_cases hroom : s.csv_a2s.length < reply_buffer n
  · refine h.same ?_ ?_ ?_
    · rfl
    · rfl
    · show (Ring.push (reply_buffer n) s.csv_a2s chunk ++ rest).filter _ ++ _ = _
      rw [Ring.push_of_lt hroom, hqueue, List.append_assoc]
      rfl
  -- The channel is full, and its oldest chunk is replaced.
  · obtain ⟨x, tl, ha2s⟩ := full_cons hroom
    have hmiddle : ¬s.Middle x := by
      apply hkeeps
      unfold Ring.dropped
      rw [if_neg hroom, ha2s]
      exact List.mem_cons_self
    refine h.dropped x [] (tl ++ s.csv_n2a) (s.to_send job.request_id b) ?_ ?_ rfl rfl ?_
    · rw [ha2s]
      rfl
    · show (Ring.push (reply_buffer n) s.csv_a2s chunk ++ rest).filter _ ++ _ = _
      rw [Ring.push_of_le (Nat.le_of_not_lt hroom), ha2s, hqueue, List.tail_cons,
        List.append_assoc]
      rfl
    · exact h.harmless hjob hexpected (by rw [ha2s]; exact List.mem_cons_self) hmiddle

/-- A chunk that a node sends is the first of those it has to send. -/
theorem to_send_sent {i : Fin n} {out : CsvSend} (hout : (s.node i).csv_out = some out)
    (csv_n2a : List (ProbeQueryReplyWire n)) (r : Nat) (b : Fin n) :
    s.to_send r b = [(next_chunk i out).1].filter (tells r b) ++
      to_send { s with
        node := Function.update s.node i { s.node i with csv_out := (next_chunk i out).2 }
        csv_n2a := csv_n2a } r b := by
  obtain ⟨-, -, hid, hfrom, -⟩ := next_chunk_eq i out
  by_cases hb : b = i
  · subst hb
    have hnow : s.to_send r b = if out.request_id = r then chunks b out else [] := by
      unfold to_send
      rw [hout]
    have hthen : to_send { s with
          node := Function.update s.node b { s.node b with csv_out := (next_chunk b out).2 }
          csv_n2a := csv_n2a } r b =
        if out.request_id = r then (next_chunk b out).2.elim [] (chunks b) else [] := by
      unfold to_send
      dsimp only
      rw [Function.update_self]
      dsimp only
      -- The chunks that are left are of the same request.
      have hkept : ∀ out' ∈ (next_chunk b out).2, out'.request_id = out.request_id := by
        intro out' hout'
        unfold next_chunk at hout'
        dsimp only at hout'
        split at hout'
        · cases hout'
        · cases hout'
          rfl
      cases hnext : (next_chunk b out).2 with
      | none =>
        show [] = if out.request_id = r then [] else []
        exact (ite_self []).symm
      | some out' =>
        dsimp only
        rw [hkept out' hnext]
        rfl
    rw [hnow, hthen]
    by_cases hr : out.request_id = r
    · rw [if_pos hr, if_pos hr, chunks_eq,
        List.filter_cons_of_pos (by simp [tells, hid, hfrom, hr])]
      rfl
    · rw [if_neg hr, if_neg hr, List.filter_cons_of_neg (by simp [tells, hid, hr])]
      rfl
  · have hsame : to_send { s with
          node := Function.update s.node i { s.node i with csv_out := (next_chunk i out).2 }
          csv_n2a := csv_n2a } r b = s.to_send r b := by
      unfold to_send
      dsimp only
      rw [Function.update_of_ne hb]
    rw [hsame, List.filter_cons_of_neg (by simp [tells, hfrom, Ne.symm hb])]
    rfl

/-- A node sends a chunk. -/
theorem Reads.sent (h : Reads catalog s job b got) (hjob : s.server.csv_job = some job)
    (hexpected : job.done = true → job.expected = []) {i : Fin n} {out : CsvSend}
    (hout : (s.node i).csv_out = some out) (hkeeps : KeepsChunks s (.node i .send_chunk)) :
    Reads catalog { s with
      node := Function.update s.node i { s.node i with csv_out := (next_chunk i out).2 }
      csv_n2a := Ring.push (reply_buffer n) s.csv_n2a (next_chunk i out).1 } job b got := by
  have hsend := to_send_sent hout
    (Ring.push (reply_buffer n) s.csv_n2a (next_chunk i out).1) job.request_id b
  have hbegun : (Function.update s.node i
      { s.node i with csv_out := (next_chunk i out).2 } b).begun = (s.node b).begun := by
    by_cases hb : b = i
    · subst hb
      rw [Function.update_self]
    · rw [Function.update_of_ne hb]
  by_cases hroom : s.csv_n2a.length < reply_buffer n
  · refine h.same ?_ ?_ ?_
    · rfl
    · exact hbegun
    · rw [hsend]
      show (s.csv_a2s ++ Ring.push (reply_buffer n) s.csv_n2a (next_chunk i out).1).filter _ ++
        _ = _
      rw [Ring.push_of_lt hroom, ← List.append_assoc, List.filter_append, List.append_assoc]
  -- As in `Reads.passed`, one channel earlier.
  · obtain ⟨x, tl, hn2a⟩ := full_cons hroom
    have hmiddle : ¬s.Middle x := by
      apply hkeeps
      unfold Ring.dropped
      rw [if_neg hroom, hn2a]
      exact List.mem_cons_self
    refine h.dropped x s.csv_a2s tl (s.to_send job.request_id b) ?_ ?_ rfl hbegun ?_
    · rw [hn2a, List.filter_append]
    · rw [hsend]
      show (s.csv_a2s ++ Ring.push (reply_buffer n) s.csv_n2a (next_chunk i out).1).filter _ ++
        _ = _
      rw [Ring.push_of_le (Nat.le_of_not_lt hroom), hn2a, List.tail_cons, List.filter_append,
        List.filter_append]
      simp only [List.append_assoc]
    · refine h.harmless hjob hexpected ?_ hmiddle
      rw [hn2a]
      exact List.mem_append_right _ List.mem_cons_self

/-- A node reads a query. -/
theorem Reads.begun (h : Reads catalog s job b got) (hwf : ∀ i, (s.node i).Wf catalog i)
    {i : Fin n} {io_ok : Bool} {query : ProbeQueryWire n} {rest : List (ProbeQueryWire n)}
    (hqueue : s.csv_a2n i = query :: rest) :
    Reads catalog { s with
      node := Function.update s.node i ((s.node i).take_csv i io_ok query)
      csv_a2n := Function.update s.csv_a2n i rest } job b got := by
  by_cases hb : b = i
  · subst hb
    rcases (hwf b).take_csv io_ok query with
      heq | ⟨hidle, haddr, records, truncated, hdrawn, howned, heq⟩
    · -- The node does not take the query.
      rw [heq, Function.update_eq_self]
      refine ⟨?_, h.records_eq, h.truncated⟩
      have hfewer : ((Function.update s.csv_a2n b rest b ++ s.csv_s2a).filter
          (puts job.request_id b)).Sublist (s.csv_talk job b got).asked := by
        show List.Sublist _ ((s.csv_a2n b ++ s.csv_s2a).filter _)
        rw [Function.update_self, hqueue]
        exact (List.sublist_cons_self _ _).filter _
      exact h.phase.fewer_asked hfewer
    -- The node takes the query and draws the records once and for all.
    · rw [heq]
      by_cases hid : query.request_id = job.request_id
      · refine ⟨?_, h.records_eq, h.truncated⟩
        have hasked : (s.csv_talk job b got).asked =
            query :: (rest ++ s.csv_s2a).filter (puts job.request_id b) := by
          show (s.csv_a2n b ++ s.csv_s2a).filter _ = _
          rw [hqueue, List.cons_append]
          exact List.filter_cons_of_pos (by simp [puts, hid, haddr])
        have hanswer := h.phase.answer hasked (s := ⟨query.request_id, (s.node b).log.history⟩)
          ⟨records, truncated, hdrawn, howned, rfl⟩
        have heq' : csv_talk { s with
            node := Function.update s.node b { s.node b with
              csv_out := some ⟨query.request_id, records, 0, truncated⟩
              begun := (s.node b).begun ++ [⟨query.request_id, (s.node b).log.history⟩] }
            csv_a2n := Function.update s.csv_a2n b rest } job b got =
            { s.csv_talk job b got with
              asked := (rest ++ s.csv_s2a).filter (puts job.request_id b)
              answers := (s.csv_talk job b got).answers ++
                [⟨query.request_id, (s.node b).log.history⟩]
              replies := (s.csv_talk job b got).replies ++
                chunks b ⟨query.request_id, records, 0, truncated⟩ } := by
          unfold csv_talk to_send
          dsimp only
          rw [Function.update_self, Function.update_self, hidle]
          dsimp only
          rw [if_pos hid, List.append_nil, List.filter_append (s.node b).begun]
          congr 1
          rw [List.filter_cons_of_pos (by simpa using hid)]
          rfl
        rw [heq']
        exact hanswer
      · -- The query is of another export.
        refine h.same_but ?_ ?_ ?_
        · show (Function.update s.csv_a2n b rest b ++ s.csv_s2a).filter _ = _
          rw [Function.update_self, hqueue, List.cons_append]
          exact (filter_head (by simp [puts, hid])).symm
        · show (Function.update s.node b _ b).begun.filter _ = _
          rw [Function.update_self]
          exact filter_snoc _ _ (by simpa using hid)
        · show _ ++ to_send _ _ _ = _ ++ to_send _ _ _
          congr 1
          unfold to_send
          dsimp only
          rw [Function.update_self, hidle]
          exact if_neg hid
  · refine h.same ?_ ?_ ?_
    · show (Function.update s.csv_a2n i rest b ++ s.csv_s2a).filter _ = _
      rw [Function.update_of_ne hb]
    · show (Function.update s.node i _ b).begun = _
      rw [Function.update_of_ne hb]
    · show _ ++ to_send _ _ _ = _ ++ to_send _ _ _
      congr 1
      unfold to_send
      dsimp only
      rw [Function.update_of_ne hb]

/-- The server reads a chunk. -/
theorem Reads.read (h : Reads catalog s job b got) {reply : ProbeQueryReplyWire n}
    {rest : List (ProbeQueryReplyWire n)} (hqueue : s.csv_a2s = reply :: rest)
    (howned : Owned catalog reply.from_ reply.records) {sv : ProbeServer n} :
    ∃ got', Reads catalog { s with server := sv, csv_a2s := rest }
      (ProbeServer.read_csv reply job) b got' := by
  by_cases hid : reply.request_id = job.request_id
  · have hread : ProbeServer.read_csv reply job = { job with
        pending := job.pending ++ reply.records
        truncated := job.truncated || reply.truncated
        expected := if reply.last then job.expected.filter fun i => i ≠ reply.from_
          else job.expected } := if_pos hid
    rw [hread]
    have hkept : job.handed ++ (job.pending ++ reply.records) =
        job.handed ++ job.pending ++ reply.records := (List.append_assoc _ _ _).symm
    by_cases hb : reply.from_ = b
    · have htells : tells job.request_id b reply = true := by simp [tells, hid, hb]
      refine ⟨got ++ [reply], ?_, ?_, ?_⟩
      -- The oldest chunk of this board is the next one of its answer.
      · have hreplies : (s.csv_talk job b got).replies =
            reply :: ((rest ++ s.csv_n2a).filter (tells job.request_id b) ++
              s.to_send job.request_id b) := by
          show (s.csv_a2s ++ s.csv_n2a).filter _ ++ _ = _
          rw [hqueue, List.cons_append, List.filter_cons_of_pos htells]
          rfl
        have hreceive := h.phase.receive hreplies
        have heq : csv_talk { s with server := sv, csv_a2s := rest } { job with
              pending := job.pending ++ reply.records
              truncated := job.truncated || reply.truncated
              expected := if reply.last then job.expected.filter fun i => i ≠ reply.from_
                else job.expected } b (got ++ [reply]) =
            { s.csv_talk job b got with
              replies := (rest ++ s.csv_n2a).filter (tells job.request_id b) ++
                s.to_send job.request_id b
              got := (s.csv_talk job b got).got ++ [reply]
              awaited := (s.csv_talk job b got).awaited && !reply.last } := by
          unfold csv_talk
          dsimp only
          congr 1
          cases reply.last with
          | false => simp
          | true => simp [hb]
        rw [heq]
        exact hreceive
      · show (job.handed ++ (job.pending ++ reply.records)).filter _ = _
        rw [hkept, List.filter_append, h.records_eq, filter_owned howned, if_pos hb,
          List.flatMap_append, List.flatMap_singleton]
      · intro x hx htrunc
        show (job.truncated || reply.truncated) = true
        rcases List.mem_append.mp hx with hold | hnew
        · rw [h.truncated x hold htrunc, Bool.true_or]
        · rw [List.mem_singleton.mp hnew] at htrunc
          rw [htrunc, Bool.or_true]
    · -- The chunk is from another board.
      have htells : tells job.request_id b reply = false := by simp [tells, hb]
      refine ⟨got, ?_, ?_, ?_⟩
      · have heq : csv_talk { s with server := sv, csv_a2s := rest } { job with
              pending := job.pending ++ reply.records
              truncated := job.truncated || reply.truncated
              expected := if reply.last then job.expected.filter fun i => i ≠ reply.from_
                else job.expected } b got = s.csv_talk job b got := by
          unfold csv_talk
          rw [hqueue, List.cons_append, filter_head htells]
          dsimp only
          congr 1
          cases reply.last with
          | false => rfl
          | true => simp [Ne.symm hb]
        rw [heq]
        exact h.phase
      · show (job.handed ++ (job.pending ++ reply.records)).filter _ = _
        rw [hkept, List.filter_append, h.records_eq, filter_owned howned, if_neg hb,
          List.append_nil]
      · intro x hx htrunc
        show (job.truncated || reply.truncated) = true
        rw [h.truncated x hx htrunc, Bool.true_or]
  · have hread : ProbeServer.read_csv reply job = job := if_neg hid
    rw [hread]
    refine ⟨got, h.same rfl rfl ?_⟩
    show (rest ++ s.csv_n2a).filter _ ++ _ = (s.csv_a2s ++ s.csv_n2a).filter _ ++ _
    rw [hqueue, List.cons_append, filter_head (by simp [tells, hid])]
    rfl

/-- The job has changed, but not what it is and what it has received. -/
theorem Reads.kept (h : Reads catalog s job b got) {job' : CsvJob n} {sv : ProbeServer n}
    (hid : job'.request_id = job.request_id) (hrange : job'.range = job.range)
    (hexpected : job'.expected = job.expected)
    (hrecords : job'.handed ++ job'.pending = job.handed ++ job.pending)
    (htruncated : job'.truncated = job.truncated) :
    Reads catalog { s with server := sv } job' b got := by
  have hquestion : csv_question catalog job' b = csv_question catalog job b := by
    unfold csv_question
    rw [hid, hrange]
  have htalk : csv_talk { s with server := sv } job' b got = s.csv_talk job b got := by
    unfold csv_talk
    rw [hid, hexpected]
    rfl
  refine ⟨?_, ?_, ?_⟩
  · rw [hquestion, htalk]
    exact h.phase
  · rw [hrecords]
    exact h.records_eq
  · rw [htruncated]
    exact h.truncated

/-! ### Runs -/

/-- What holds of the exports in every state of a run. -/
structure Exports (catalog : ProbeCatalog n) (s : ProbeNet n) : Prop where
  tidy : CsvTidy catalog s
  job (job : CsvJob n) : s.server.csv_job = some job → job.failed = false →
    Exporting catalog s job

theorem Exports.initial (h : Ready catalog s) : Exports catalog s := by
  refine ⟨h.csv_tidy, ?_⟩
  intro job hjob
  rw [h.server_eq] at hjob
  cases hjob

theorem Exports.moved (h : Exports catalog s) (hwf : ∀ i, (s.node i).Wf catalog i)
    (hm : CsvMove catalog s l s') (hkeeps : KeepsChunks s l) : Exports catalog s' := by
  refine ⟨h.tidy.moved hwf hm, ?_⟩
  -- The job is the same through most moves; a new one has heard nothing yet.
  intro job' hjob' hfailed
  cases hm with
  | other _ _ hsame =>
    rw [hsame.job_eq] at hjob'
    obtain ⟨hexpected, hboard⟩ := h.job job' hjob' hfailed
    refine ⟨hexpected, ?_⟩
    intro b
    obtain ⟨got, hgot⟩ := hboard b
    refine ⟨got, hgot.same ?_ (hsame.begun_eq b) ?_⟩
    · rw [hsame.a2n_eq, hsame.s2a_eq]
    · unfold to_send
      rw [hsame.a2s_eq, hsame.n2a_eq, hsame.out_eq b]
  | started range expired sv _ hjob =>
    have heq : some job' = some _ := hjob'.symm.trans hjob
    cases heq
    refine ⟨?_, ?_⟩
    · intro hdone
      show (catalog.by_board _).map Prod.fst = []
      rw [List.isEmpty_iff.mp hdone]
      rfl
    · intro b
      refine ⟨[], ?_⟩
      apply reads_started h.tidy
      · rfl
      · rfl
      · rfl
      · rfl
  | polled job hjob =>
    cases hjob'
    obtain ⟨hexpected, hboard⟩ := h.job job hjob hfailed
    refine ⟨hexpected, ?_⟩
    intro b
    obtain ⟨got, hgot⟩ := hboard b
    exact ⟨got, hgot.kept rfl rfl rfl (List.append_nil _) rfl⟩
  | read job reply rest hjob hqueue hdone =>
    cases hjob'
    have hfailed' : job.failed = false := by
      unfold ProbeServer.read_csv at hfailed
      split at hfailed <;> exact hfailed
    obtain ⟨-, hboard⟩ := h.job job hjob hfailed'
    refine ⟨?_, ?_⟩
    · intro hdone'
      have hsame : (ProbeServer.read_csv reply job).done = job.done := by
        unfold ProbeServer.read_csv
        split <;> rfl
      rw [hsame, hdone] at hdone'
      cases hdone'
    · intro b
      obtain ⟨got, hgot⟩ := hboard b
      exact hgot.read hqueue (h.tidy.a2s reply (hqueue ▸ List.mem_cons_self)).2
  | settled expired job hjob hdone =>
    cases hjob'
    unfold ProbeServer.settle_csv at hfailed ⊢
    by_cases hempty : job.expected.isEmpty = true
    · rw [if_pos hempty] at hfailed ⊢
      obtain ⟨-, hboard⟩ := h.job job hjob hfailed
      refine ⟨fun _ => List.isEmpty_iff.mp hempty, ?_⟩
      intro b
      obtain ⟨got, hgot⟩ := hboard b
      exact ⟨got, hgot.kept rfl rfl rfl rfl rfl⟩
    · rw [if_neg hempty] at hfailed ⊢
      split at hfailed
      -- A job that has run out of time has failed and promises nothing.
      · cases hfailed
      · rename_i hexpired
        rw [if_neg hexpired]
        obtain ⟨hexpected, hboard⟩ := h.job job hjob hfailed
        refine ⟨hexpected, ?_⟩
        intro b
        obtain ⟨got, hgot⟩ := hboard b
        exact ⟨got, hgot.kept rfl rfl rfl rfl rfl⟩
  | forwarded query rest hqueue =>
    obtain ⟨hexpected, hboard⟩ := h.job job' hjob' hfailed
    refine ⟨hexpected, ?_⟩
    intro b
    obtain ⟨got, hgot⟩ := hboard b
    exact ⟨got, hgot.forwarded hqueue⟩
  | passed chunk rest hqueue =>
    obtain ⟨hexpected, hboard⟩ := h.job job' hjob' hfailed
    refine ⟨hexpected, ?_⟩
    intro b
    obtain ⟨got, hgot⟩ := hboard b
    exact ⟨got, hgot.passed hjob' hexpected hqueue hkeeps⟩
  | begun i io_ok query rest hqueue =>
    obtain ⟨hexpected, hboard⟩ := h.job job' hjob' hfailed
    refine ⟨hexpected, ?_⟩
    intro b
    obtain ⟨got, hgot⟩ := hboard b
    exact ⟨got, hgot.begun hwf hqueue⟩
  | sent i out hout =>
    obtain ⟨hexpected, hboard⟩ := h.job job' hjob' hfailed
    refine ⟨hexpected, ?_⟩
    intro b
    obtain ⟨got, hgot⟩ := hboard b
    exact ⟨got, hgot.sent hjob' hexpected hout hkeeps⟩

theorem Exports.reachable (h : Reachable (system catalog) KeepsChunks s) : Exports catalog s := by
  have hreach : Reachable (system catalog) (fun s l => KeepsChunks s l ∧ Queries catalog s) s :=
    h.strengthen fun s hs => Queries.reachable hs
  refine hreach.invariant ?_ ?_
  · intro s hs
    exact Exports.initial hs
  · rintro s l s' hs ⟨hkeeps, hinv⟩ hstep
    exact hs.moved hinv.tidy.node (csv_move hstep) hkeeps

/-- A job that has ended well has the records of every probe in its range, as
    its board had logged them when it began. -/
theorem Exporting.complete (h : Exporting catalog s job) (hdone : job.done = true)
    (htruncated : job.truncated = false) {point : ProbePointName n}
    (hpoint : point ∈ catalog.points) :
    ∃ snap, ((s.node point.board_hash).begun.filter fun snap =>
        snap.request_id = job.request_id) = [snap] ∧
      of point.probe_id (job.handed ++ job.pending) = (of point.probe_id snap.history).filter
        fun rec => job.range.contains rec.virtual_time_ns := by
  obtain ⟨got, hgot⟩ := h.board point.board_hash
  have hmine : (⟨point.probe_id, point.kind, point.probe_lt⟩ : ProbePoint) ∈
      catalog.of_board point.board_hash :=
    List.mem_map.mpr ⟨point, List.mem_filter.mpr ⟨hpoint, decide_eq_true rfl⟩, rfl⟩
  have hboard : catalog.board_of point.probe_id = some point.board_hash :=
    ProbeCatalog.board_of_of_board hmine
  have hasked : point.probe_id ∈
      catalog.ids_of (catalog.points.map ProbePointName.probe_id) point.board_hash :=
    List.mem_filter.mpr ⟨List.mem_map.mpr ⟨point, hpoint, rfl⟩, decide_eq_true hboard⟩
  -- The question has room for all probes of the board.
  have hfew : (catalog.ids_of (catalog.points.map ProbePointName.probe_id)
      point.board_hash).length ≤ max_probes_per_board := by
    refine Nat.le_trans ?_ (catalog.boards point.board_hash)
    unfold ProbeCatalog.ids_of
    rw [List.filter_map, List.length_map]
    have hsub : (catalog.points.filter
        ((fun id => decide (catalog.board_of id = some point.board_hash)) ∘
          ProbePointName.probe_id)) =
        catalog.points.filter fun p => p.board_hash = point.board_hash := by
      apply List.filter_congr
      intro p hp
      have hp' : (⟨p.probe_id, p.kind, p.probe_lt⟩ : ProbePoint) ∈ catalog.of_board p.board_hash :=
        List.mem_map.mpr ⟨p, List.mem_filter.mpr ⟨hp, decide_eq_true rfl⟩, rfl⟩
      show decide (catalog.board_of p.probe_id = some point.board_hash) = _
      rw [ProbeCatalog.board_of_of_board hp']
      simp
    rw [hsub]
  have hq : csv_question catalog job point.board_hash = some (.csv job.request_id point.board_hash
      (catalog.ids_of (catalog.points.map ProbePointName.probe_id) point.board_hash)
      job.range) := by
    unfold csv_question
    have hsome : ∃ q, catalog.question (catalog.points.map ProbePointName.probe_id)
        (fun i ids => ProbeQueryWire.csv job.request_id i ids job.range) point.board_hash =
          some q := by
      unfold ProbeCatalog.question
      cases hids : catalog.ids_of (catalog.points.map ProbePointName.probe_id)
          point.board_hash with
      | nil =>
        rw [hids] at hasked
        cases hasked
      | cons id ids => exact ⟨_, rfl⟩
    obtain ⟨q, hq⟩ := hsome
    rw [hq, ProbeCatalog.question_eq_some hq]
  have hawaited : (s.csv_talk job point.board_hash got).awaited = false := by
    show decide (point.board_hash ∈ job.expected) = false
    rw [h.expected_eq hdone]
    rfl
  obtain ⟨snap, hanswers, records, truncated, hdrawn, -, hreplies⟩ :=
    hgot.phase.finished hawaited hq
  change got = chunks point.board_hash ⟨job.request_id, records, 0, truncated⟩ at hreplies
  obtain ⟨hflat, hmarks⟩ := chunks_records point.board_hash
    ⟨job.request_id, records, 0, truncated⟩
  have hmark : truncated = false := by
    cases hcase : truncated with
    | false => rfl
    | true =>
      obtain ⟨init, x, heq, -, -⟩ := chunks_ends point.board_hash
        ⟨job.request_id, records, 0, truncated⟩
      have hx : x ∈ chunks point.board_hash ⟨job.request_id, records, 0, truncated⟩ := by
        rw [heq]
        exact List.mem_append_right _ List.mem_cons_self
      have hxt : x.truncated = true := (hmarks x hx).2.2.trans hcase
      have htrue := hgot.truncated x (hreplies ▸ hx) hxt
      rw [htruncated] at htrue
      cases htrue
  refine ⟨snap, hanswers, ?_⟩
  have hlocal : of point.probe_id (job.handed ++ job.pending) = of point.probe_id
      ((job.handed ++ job.pending).filter fun rec =>
        catalog.board_of rec.probe_id = some point.board_hash) := by
    unfold ProbeRecord.of
    rw [List.filter_filter]
    apply List.filter_congr
    intro rec _
    by_cases hid : rec.probe_id = point.probe_id
    · rw [hid, hboard]
      simp
    · simp [hid]
  rw [hlocal, hgot.records_eq, hreplies, hflat]
  show of point.probe_id records = _
  rw [hdrawn hmark]
  unfold selects
  apply List.filter_congr
  intro rec hrec
  have hid : rec.probe_id = point.probe_id := of_decide_eq_true (List.mem_filter.mp hrec).2
  have hcontains : (ProbeQueryWire.csv job.request_id point.board_hash (catalog.ids_of
      (catalog.points.map ProbePointName.probe_id) point.board_hash)
      job.range).probe_ids.contains rec.probe_id = true := by
    show (List.take max_probes_per_board _).contains rec.probe_id = true
    rw [List.take_of_length_le hfew, hid, List.contains_iff_mem]
    exact hasked
  show (job.range.contains rec.virtual_time_ns && (_ || List.contains _ rec.probe_id)) = _
  rw [hcontains, Bool.or_true, Bool.and_true]

/-- An export that reports success has handed out, or has ready, every record
    of every probe in its range that was in the log of its board when the node
    began the export, if no chunk of it but a last one has been overwritten.
    What a log holds are all the records that it has accepted. -/
theorem export_complete (h : Reachable (system catalog) KeepsChunks s)
    (hjob : s.server.csv_job = some job) (hdone : job.done = true)
    (hfailed : job.failed = false) (htruncated : job.truncated = false) :
    (∀ point ∈ catalog.points,
      ∃ snap, ((s.node point.board_hash).begun.filter fun snap =>
          snap.request_id = job.request_id) = [snap] ∧
        of point.probe_id (job.handed ++ job.pending) = (of point.probe_id snap.history).filter
          fun rec => job.range.contains rec.virtual_time_ns) ∧
    ∀ i q, (s.node i).log.held q = of q (s.node i).log.history := by
  refine ⟨?_, fun i => ((Queries.reachable h).tidy.node i).log.held_eq⟩
  intro point hpoint
  exact ((Exports.reachable h).job job hjob hfailed).complete hdone htruncated hpoint

end ProbeNet

end Rl78Sim
