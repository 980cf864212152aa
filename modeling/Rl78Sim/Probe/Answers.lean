import Rl78Sim.Framework.Dialogue
import Rl78Sim.Probe.Node
import Rl78Sim.Probe.Server

/-! # Questions to the Nodes and Their Answers

    A query is put to every board that owns one of the probes, and to no other.
    What a node answers is drawn from the records that its log has accepted,
    and all of them are records of its own probes.
-/

namespace Rl78Sim

open ProbeRecord

variable {n : Nat}

/-! ### The boards of the catalog -/

namespace ProbeCatalog

variable (catalog : ProbeCatalog n)

/-- The probes of board `i` among `probe_ids`. -/
def ids_of (probe_ids : List Nat) (i : Fin n) : List Nat :=
  probe_ids.filter fun id => catalog.board_of id = some i

/-- What a query puts to board `i`: one message, if it owns one of the probes. -/
def question {α : Type} (probe_ids : List Nat) (wire : Fin n → List Nat → α) (i : Fin n) :
    Option α :=
  match catalog.ids_of probe_ids i with
  | [] => none
  | ids => some (wire i ids)

variable {catalog}

/-- A list made of at most one entry for each index has one for `b`. -/
theorem filterMap_filter_fst {α : Type} {f : Fin n → Option (Fin n × α)}
    (hf : ∀ i p, f i = some p → p.1 = i) (b : Fin n) {is : List (Fin n)} (hnodup : is.Nodup) :
    (is.filterMap f).filter (fun p => p.1 = b) = if b ∈ is then (f b).toList else [] := by
  induction is with
  | nil => rfl
  | cons i is ih =>
    obtain ⟨hnot, hrest⟩ := List.nodup_cons.mp hnodup
    have ih := ih hrest
    cases hi : f i with
    | none =>
      rw [List.filterMap_cons_none hi, ih]
      by_cases hb : b = i
      · subst hb
        rw [if_neg hnot, if_pos List.mem_cons_self, hi]
        rfl
      · simp only [List.mem_cons, hb, false_or]
    | some p =>
      have hp := hf i p hi
      rw [List.filterMap_cons_some hi]
      by_cases hb : b = i
      · subst hb
        rw [List.filter_cons_of_pos (by simpa using hp), ih, if_neg hnot,
          if_pos List.mem_cons_self, hi]
        rfl
      · rw [List.filter_cons_of_neg (by simpa [hp] using Ne.symm hb), ih]
        simp only [List.mem_cons, hb, false_or]

theorem by_board_filter (probe_ids : List Nat) (b : Fin n) :
    (catalog.by_board probe_ids).filter (fun p => p.1 = b) =
      (catalog.question probe_ids Prod.mk b).toList := by
  unfold by_board
  rw [filterMap_filter_fst ?_ b (List.nodup_finRange n), if_pos (List.mem_finRange b)]
  · rfl
  · intro i p hi
    split at hi
    · cases hi
    · cases hi
      rfl

/-- The messages for board `b` of a query. -/
theorem question_toList {α : Type} (probe_ids : List Nat) (wire : Fin n → List Nat → α) (b : Fin n)
    {asks : α → Bool} (hasks : ∀ i ids, asks (wire i ids) = decide (i = b)) :
    ((catalog.by_board probe_ids).map fun p => wire p.1 p.2).filter asks =
      (catalog.question probe_ids wire b).toList := by
  have hcomp : (asks ∘ fun p : Fin n × List Nat => wire p.1 p.2) =
      fun p : Fin n × List Nat => decide (p.1 = b) := funext fun p => hasks p.1 p.2
  rw [List.filter_map, hcomp, by_board_filter]
  unfold question
  split <;> rfl

theorem question_isSome {α : Type} (probe_ids : List Nat) (wire : Fin n → List Nat → α)
    (b : Fin n) : (catalog.question probe_ids wire b).isSome =
      decide (b ∈ (catalog.by_board probe_ids).map Prod.fst) := by
  have hmem : b ∈ (catalog.by_board probe_ids).map Prod.fst ↔
      (catalog.by_board probe_ids).filter (fun p => p.1 = b) ≠ [] := by
    rw [List.mem_map, ne_eq, List.filter_eq_nil_iff, not_forall]
    constructor
    · rintro ⟨p, hp, heq⟩
      exact ⟨p, fun h => h hp (decide_eq_true heq)⟩
    · rintro ⟨p, hp⟩
      obtain ⟨hp, heq⟩ := Classical.not_imp.mp hp
      exact ⟨p, hp, of_decide_eq_true (Classical.not_not.mp heq)⟩
  rw [Bool.eq_iff_iff, decide_eq_true_iff, hmem, by_board_filter]
  unfold question
  split <;> simp

theorem question_eq_some {α : Type} {probe_ids : List Nat} {wire : Fin n → List Nat → α}
    {b : Fin n} {q : α} (h : catalog.question probe_ids wire b = some q) :
    q = wire b (catalog.ids_of probe_ids b) := by
  unfold question at h
  split at h
  · cases h
  · rename_i hids
    cases h
    rfl

/-- A probe of the board of a node is a probe of that board in the catalog. -/
theorem board_of_of_board {point : ProbePoint} {i : Fin n} (h : point ∈ catalog.of_board i) :
    catalog.board_of point.probe_id = some i := by
  obtain ⟨name, hname, rfl⟩ := List.mem_map.mp h
  obtain ⟨hname, hboard⟩ := List.mem_filter.mp hname
  have hfind : catalog.points.find? (fun p => p.probe_id = name.probe_id) = some name := by
    have hnodup := catalog.nodup
    revert hname hnodup
    generalize catalog.points = points
    intro hname hnodup
    induction points with
    | nil => cases hname
    | cons p points ih =>
      obtain ⟨hnot, hrest⟩ := List.nodup_cons.mp hnodup
      rcases List.mem_cons.mp hname with heq | htail
      · subst heq
        exact List.find?_cons_of_pos (decide_eq_true rfl)
      · have hne : p.probe_id ≠ name.probe_id := by
          intro heq
          exact hnot (List.mem_map.mpr ⟨name, htail, heq.symm⟩)
        rw [List.find?_cons_of_neg (by simpa using hne)]
        exact ih htail hrest
  show (catalog.points.find? fun p => p.probe_id = name.probe_id).map ProbePointName.board_hash = _
  rw [hfind, ← of_decide_eq_true hboard]
  rfl

end ProbeCatalog

/-! ### Logs and what changes them -/

/-- The node has a log of its own probes. -/
structure NodeProbes.Wf (catalog : ProbeCatalog n) (i : Fin n) (nd : NodeProbes n) : Prop where
  log : nd.log.Wf
  catalog_eq : nd.log.catalog = catalog.of_board i

variable {catalog : ProbeCatalog n} {i : Fin n}

namespace ProbeLog

theorem same_emit_coarse (log : ProbeLog) : SameStore log log.emit_coarse.1 :=
  ⟨rfl, rfl, rfl, rfl, rfl, rfl, rfl⟩

theorem same_set_running (log : ProbeLog) (running : Bool) :
    SameStore log (log.set_running running).1 := by
  unfold set_running
  split
  · exact ⟨rfl, rfl, rfl, rfl, rfl, rfl, rfl⟩
  · split <;> exact ⟨rfl, rfl, rfl, rfl, rfl, rfl, rfl⟩

theorem same_poll_coarse (log : ProbeLog) (due : Bool) : SameStore log (log.poll_coarse due).1 := by
  unfold poll_coarse
  split <;> exact ⟨rfl, rfl, rfl, rfl, rfl, rfl, rfl⟩

theorem Pushed.catalog_eq {log log' : ProbeLog} {record : ProbeRecord}
    (h : Pushed log record log') : log'.catalog = log.catalog := by
  cases h with
  | kept log₁ _ hcatalog => rw [← hcatalog]; exact (same_note_window _ record).catalog_eq
  | refused _ _ _ hcatalog => exact hcatalog

end ProbeLog

namespace NodeProbes

open ProbeLog

/-- What the pushes of one ingest keep holds of its result: each pushes a
    record of a point of the catalog. -/
theorem ingest_keeps {P : ProbeLog → Prop} (pending : Nat → Option TapSample)
    (written : Nat → Nat) {log : ProbeLog} (h : P log)
    (hpush : ∀ log' point sample, P log' → point ∈ log.catalog →
      pending point.probe_id = some sample → sample.value.kind = point.kind →
      P (log'.push (written point.probe_id) (point.record sample))) :
    P (ingest pending written log) := by
  unfold ingest
  revert hpush
  generalize hpoints : log.catalog = points
  clear hpoints
  induction points generalizing log with
  | nil =>
    intro _
    exact h
  | cons point points ih =>
    intro hpush
    rw [List.foldl_cons]
    have hrest : ∀ log' point' sample, P log' → point' ∈ points →
        pending point'.probe_id = some sample → sample.value.kind = point'.kind →
        P (log'.push (written point'.probe_id) (point'.record sample)) := by
      intro log' point' sample hlog' hpoint'
      exact hpush log' point' sample hlog' (List.mem_cons_of_mem _ hpoint')
    -- Only a sample of the kind of its point is logged.
    apply ih _ hrest
    split
    · rename_i sample hsample
      split
      · rename_i hkind
        exact hpush log point sample h List.mem_cons_self hsample hkind
      · exact h
    · exact h

theorem wf_ingest {log : ProbeLog} (h : log.Wf) (pending : Nat → Option TapSample)
    (written : Nat → Nat) :
    (ingest pending written log).Wf ∧ (ingest pending written log).catalog = log.catalog := by
  refine ingest_keeps (P := fun log' => log'.Wf ∧ log'.catalog = log.catalog) pending written
    ⟨h, rfl⟩ ?_
  rintro log' point sample ⟨hwf, hcatalog⟩ hpoint - hkind
  refine ⟨hwf.push _ ?_, ?_⟩
  · rw [Knows, hcatalog]
    exact ⟨point, hpoint, rfl, hkind.symm⟩
  · rw [(hwf.pushed _ _).catalog_eq]
    exact hcatalog

/-- What a step of the runtime leaves alone, and that its log stays in order. -/
structure Kept (catalog : ProbeCatalog n) (i : Fin n) (nd nd' : NodeProbes n) : Prop where
  wf : nd.Wf catalog i → nd'.Wf catalog i
  csv_eq : nd'.csv_out = nd.csv_out
  sending_eq : nd'.sending = nd.sending
  answered_eq : nd'.answered = nd.answered
  begun_eq : nd'.begun = nd.begun

theorem Wf.same {nd : NodeProbes n} (h : nd.Wf catalog i) {nd' : NodeProbes n}
    (hsame : SameStore nd.log nd'.log) : nd'.Wf catalog i :=
  ⟨h.log.same hsame, hsame.catalog_eq.trans h.catalog_eq⟩

theorem kept_ingest_and_emit (nd : NodeProbes n) (pending : Nat → Option TapSample)
    (written : Nat → Nat) (due : Bool) :
    Kept catalog i nd (nd.ingest_and_emit pending written due).1 := by
  refine ⟨?_, rfl, rfl, rfl, rfl⟩
  intro hwf
  obtain ⟨hlog, hcatalog⟩ := wf_ingest hwf.log pending written
  have hsame := same_poll_coarse (ingest pending written nd.log) due
  exact ⟨hlog.same hsame, (hsame.catalog_eq.trans hcatalog).trans hwf.catalog_eq⟩

theorem Kept.trans {nd nd' nd'' : NodeProbes n} (h : Kept catalog i nd nd')
    (h' : Kept catalog i nd' nd'') : Kept catalog i nd nd'' := by
  refine ⟨fun hwf => h'.wf (h.wf hwf), ?_, ?_, ?_, ?_⟩
  · exact h'.csv_eq.trans h.csv_eq
  · exact h'.sending_eq.trans h.sending_eq
  · exact h'.answered_eq.trans h.answered_eq
  · exact h'.begun_eq.trans h.begun_eq

theorem kept_set_running (nd : NodeProbes n) (running : Bool) :
    Kept catalog i nd (nd.set_running running).1 :=
  ⟨fun hwf => hwf.same (same_set_running nd.log running), rfl, rfl, rfl, rfl⟩

/-- The node starts or stops its log when its state says so. -/
theorem Kept.follow {nd moved : NodeProbes n} (h : Kept catalog i nd moved) (starts stops : Prop)
    [Decidable starts] [Decidable stops] :
    Kept catalog i nd (if starts then moved.set_running true
      else if stops then moved.set_running false else (moved, [])).1 := by
  split
  · exact h.trans (kept_set_running _ true)
  · split
    · exact h.trans (kept_set_running _ false)
    · exact h

theorem kept_take_control (nd : NodeProbes n) (msg : ControlToNode n) :
    Kept catalog i nd (nd.take_control i msg).1 := by
  unfold take_control
  dsimp only
  refine Kept.follow ?_ _ _
  split
  · unfold set_watch
    split <;> exact ⟨fun hwf => ⟨hwf.log, hwf.catalog_eq⟩, rfl, rfl, rfl, rfl⟩
  · exact ⟨fun hwf => ⟨hwf.log, hwf.catalog_eq⟩, rfl, rfl, rfl, rfl⟩

/-! ### Replies -/

/-- What a query selects of the log, for one probe. -/
def selects (query : ProbeQueryWire n) (p : Nat) (history : List ProbeRecord) :
    List ProbeRecord :=
  (of p history).filter fun rec =>
    query.range.contains rec.virtual_time_ns &&
      (query.probe_ids.isEmpty || query.probe_ids.contains rec.probe_id)

/-- The records of the answer to `query` are drawn from `history`. -/
def Drawn (query : ProbeQueryWire n) (history : List ProbeRecord) (records : List ProbeRecord)
    (truncated : Bool) : Prop :=
  match query.kind with
  | .Latest =>
      records = sort_by_key (query.probe_ids.filterMap fun p => (of p history).getLast?)
  | .Range => truncated = false → ∀ p, of p records = selects query p history

/-- The records are of board `i`. -/
def Owned (catalog : ProbeCatalog n) (i : Fin n) (records : List ProbeRecord) : Prop :=
  ∀ rec ∈ records, catalog.board_of rec.probe_id = some i

theorem Wf.owned_history {nd : NodeProbes n} (h : nd.Wf catalog i) :
    Owned catalog i nd.log.history := by
  intro rec hrec
  obtain ⟨point, hpoint, hid, -⟩ := h.log.known rec hrec
  rw [h.catalog_eq] at hpoint
  rw [← hid]
  exact ProbeCatalog.board_of_of_board hpoint

theorem owned_of {records history : List ProbeRecord} (h : Owned catalog i history)
    (hof : ∀ p, ∀ rec ∈ of p records, rec ∈ history) : Owned catalog i records := by
  intro rec hrec
  refine h rec (hof rec.probe_id rec ?_)
  exact List.mem_filter.mpr ⟨hrec, decide_eq_true rfl⟩

theorem Wf.range_records {nd : NodeProbes n} (h : nd.Wf catalog i) (io_ok : Bool)
    (query : ProbeQueryWire n) :
    ((nd.range_records io_ok query).2 = false →
      ∀ p, of p (nd.range_records io_ok query).1 = selects query p nd.log.history) ∧
    Owned catalog i (nd.range_records io_ok query).1 := by
  unfold NodeProbes.range_records
  split
  · have hof (p : Nat) : of p ((nd.log.load_export nd.log.export_).filter fun rec =>
        query.range.contains rec.virtual_time_ns &&
          (query.probe_ids.isEmpty || query.probe_ids.contains rec.probe_id)) =
        selects query p nd.log.history := by
      unfold selects
      rw [← h.log.of_load_export p]
      exact List.filter_comm _ _ _
    refine ⟨fun _ => hof, owned_of h.owned_history ?_⟩
    intro p rec hrec
    rw [hof p] at hrec
    exact (List.mem_filter.mp (List.mem_filter.mp hrec).1).1
  · exact ⟨nofun, fun rec hrec => absurd hrec List.not_mem_nil⟩

theorem Wf.latest_of {nd : NodeProbes n} (h : nd.Wf catalog i) (ids : List Nat) :
    nd.log.latest_of ids =
        sort_by_key (ids.filterMap fun p => (of p nd.log.history).getLast?) ∧
      Owned catalog i (nd.log.latest_of ids) := by
  have heq : nd.log.latest_of ids =
      sort_by_key (ids.filterMap fun p => (of p nd.log.history).getLast?) := by
    unfold ProbeLog.latest_of
    congr 1
    exact List.filterMap_congr fun p _ => h.log.latest_eq p
  refine ⟨heq, ?_⟩
  rw [heq]
  intro rec hrec
  apply h.owned_history
  obtain ⟨p, -, hlast⟩ := List.mem_filterMap.mp ((List.mem_insertionSort _).mp hrec)
  exact (List.mem_filter.mp (List.mem_of_getLast? hlast)).1

theorem query_reply_ends (i : Fin n) (request_id : Nat) (truncated : Bool)
    (records : List ProbeRecord) : ∃ init x,
      query_reply i request_id truncated records = init ++ [x] ∧ x.last = true ∧
        ∀ y ∈ init, y.last = false := by
  induction records with
  | nil => exact ⟨[], _, rfl, rfl, nofun⟩
  | cons record rest ih =>
    cases rest with
    | nil => exact ⟨[], _, rfl, rfl, nofun⟩
    | cons next rest =>
      obtain ⟨init, x, heq, hlast, hnot⟩ := ih
      refine ⟨.chunk request_id i [record] false truncated :: init, x, ?_, hlast, ?_⟩
      · rw [List.cons_append, ← heq]
        rfl
      · intro y hy
        rcases List.mem_cons.mp hy with rfl | htail
        · rfl
        · exact hnot y htail

/-- The replies carry the records, each with the mark of truncation. -/
theorem query_reply_records (i : Fin n) (request_id : Nat) (truncated : Bool)
    (records : List ProbeRecord) :
    (query_reply i request_id truncated records).flatMap ProbeQueryReplyWire.records = records ∧
      ∀ x ∈ query_reply i request_id truncated records,
        x.request_id = request_id ∧ x.from_ = i ∧ x.truncated = truncated := by
  induction records with
  | nil =>
    refine ⟨rfl, ?_⟩
    intro x hx
    rw [List.mem_singleton.mp hx]
    exact ⟨rfl, rfl, rfl⟩
  | cons record rest ih =>
    cases rest with
    | nil =>
      refine ⟨rfl, ?_⟩
      intro x hx
      rw [List.mem_singleton.mp hx]
      exact ⟨rfl, rfl, rfl⟩
    | cons next rest =>
      refine ⟨?_, ?_⟩
      · show [record] ++ (query_reply i request_id truncated (next :: rest)).flatMap _ = _
        rw [ih.1]
        rfl
      · intro x hx
        rcases List.mem_cons.mp hx with rfl | htail
        · exact ⟨rfl, rfl, rfl⟩
        · exact ih.2 x htail

theorem query_reply_length (i : Fin n) (request_id : Nat) (truncated : Bool)
    (records : List ProbeRecord) :
    (query_reply i request_id truncated records).length = max records.length 1 := by
  induction records with
  | nil => rfl
  | cons record rest ih =>
    cases rest with
    | nil => rfl
    | cons next rest =>
      show (query_reply i request_id truncated (next :: rest)).length + 1 = _
      rw [ih]
      simp

/-- The answer of board `i` to a query. -/
structure Answer (catalog : ProbeCatalog n) (i : Fin n) (query : ProbeQueryWire n)
    (snapshot : Snapshot) (records : List ProbeRecord) (truncated : Bool) : Prop where
  request_eq : snapshot.request_id = query.request_id
  drawn : Drawn query snapshot.history records truncated
  owned : Owned catalog i records

/-- What a node does with a query. -/
theorem Wf.answer_query {nd : NodeProbes n} (h : nd.Wf catalog i) (io_ok : Bool)
    (query : ProbeQueryWire n) :
    (query.addresses i = false ∧ nd.answer_query i io_ok query = nd) ∨
    (query.addresses i = true ∧ ∃ records truncated,
      Answer catalog i query ⟨query.request_id, nd.log.history⟩ records truncated ∧
      nd.answer_query i io_ok query = { nd with
        sending := query_reply i query.request_id truncated records
        answered := nd.answered ++ [⟨query.request_id, nd.log.history⟩] }) := by
  unfold NodeProbes.answer_query
  cases haddr : query.addresses i with
  | false => exact .inl ⟨rfl, rfl⟩
  | true =>
    right
    refine ⟨rfl, ?_⟩
    cases hkind : query.kind with
    | Latest =>
      obtain ⟨hlatest, howned⟩ := h.latest_of query.probe_ids
      refine ⟨_, _, ⟨rfl, ?_, howned⟩, rfl⟩
      unfold Drawn
      rw [hkind]
      exact hlatest
    | Range =>
      obtain ⟨hrange, howned⟩ := h.range_records io_ok query
      refine ⟨_, _, ⟨rfl, ?_, howned⟩, rfl⟩
      unfold Drawn
      rw [hkind]
      exact hrange

/-- The replies of an answer are from the board, with the id and the records of
    the answer. -/
theorem Answer.reply {query : ProbeQueryWire n} {snapshot : Snapshot}
    {records : List ProbeRecord} {truncated : Bool}
    (h : Answer catalog i query snapshot records truncated) {x : ProbeQueryReplyWire n}
    (hx : x ∈ query_reply i query.request_id truncated records) :
    x.request_id = query.request_id ∧ x.from_ = i ∧ Owned catalog x.from_ x.records := by
  obtain ⟨hrecords, hall⟩ := query_reply_records i query.request_id truncated records
  obtain ⟨hid, hfrom, -⟩ := hall x hx
  refine ⟨hid, hfrom, ?_⟩
  intro rec hrec
  rw [hfrom]
  apply h.owned
  rw [← hrecords]
  exact List.mem_flatMap.mpr ⟨x, hx, hrec⟩

end NodeProbes

end Rl78Sim
