import Mathlib.Data.List.Flatten
import Rl78Sim.Probe.Samples
import Rl78Sim.Probe.Window

/-! # Live Samples

    A client that watches probes is handed the samples of the coarse stream,
    and with each watch request a snapshot of the newest values. The stream
    goes from the node through the arbiter to the server; the snapshot takes
    the way of the queries, and may overtake samples of the stream.

    If every snapshot comes in its place, clients see the samples of a probe in
    the order of time and no record twice.
-/

namespace Rl78Sim

open Transition NodeProbes ProbeRecord

variable {n : Nat} {catalog : ProbeCatalog n}

namespace ProbeServer

/-- The samples that the server has read and not queued yet. -/
def reading (sv : ProbeServer n) : List ProbeRecord :=
  match sv.call with
  | .samples live => live
  | _ => []

/-- The samples that clients have been handed. -/
def handed_out (sv : ProbeServer n) : List ProbeRecord := sv.handed.flatMap CoarseBatch.samples

/-- The samples that are queued for clients. -/
def queued (sv : ProbeServer n) : List ProbeRecord := sv.watch.pending.flatMap CoarseBatch.samples

theorem reading_of_none {sv : ProbeServer n} (h : sv.call = .none) : sv.reading = [] := by
  unfold reading
  rw [h]

theorem reading_of_query {sv : ProbeServer n} {c : Collect n} (h : sv.call = .query c) :
    sv.reading = [] := by
  unfold reading
  rw [h]

end ProbeServer

namespace ProbeNet

variable {s s' : ProbeNet n}

/-! ### The way of a sample -/

/-- The samples of probe `p` that its node has published, oldest first. -/
def on_way (s : ProbeNet n) (p : Nat) : List ProbeRecord :=
  s.server.reading ++ s.probe_a2s ++ s.hub.carried ++ s.taps p

/-- All samples of probe `p` that have left its log. -/
def stream (s : ProbeNet n) (p : Nat) : List ProbeRecord :=
  s.server.handed_out ++ s.server.queued ++ s.on_way p

/-- Virtual time does not go back: a pending sample is not older than what the
    log has of its probe. -/
def Timely (s : ProbeNet n) : ProbeStep n → Prop
  | .node i (.ingest_and_emit pending _ _) =>
      ∀ point ∈ (s.node i).log.catalog, ∀ sample ∈ pending point.probe_id,
        ∀ r ∈ of point.probe_id (s.node i).log.history, r.virtual_time_ns ≤ sample.virtual_time_ns
  | _ => True

/-- The records fetched are new to the client, and none of the samples of their
    probes that it gets later is as old. -/
structure InPlace (s : ProbeNet n) (records : List ProbeRecord) : Prop where
  nodup : (records.map NodeProbes.published).Nodup
  before : ∀ x ∈ records, ∀ r ∈ of x.probe_id (s.server.handed_out ++ s.server.queued),
    r.Precedes x
  after : ∀ x ∈ records, ∀ i, ∀ r ∈ of x.probe_id (s.on_way x.probe_id ++ (s.node i).log.window),
    x.Precedes r

instance (s : ProbeNet n) (records : List ProbeRecord) : Decidable (InPlace s records) :=
  decidable_of_iff
    ((records.map NodeProbes.published).Nodup ∧
      (∀ x ∈ records, ∀ r ∈ of x.probe_id (s.server.handed_out ++ s.server.queued),
        r.Precedes x) ∧
      ∀ x ∈ records, ∀ i,
        ∀ r ∈ of x.probe_id (s.on_way x.probe_id ++ (s.node i).log.window),
          x.Precedes r)
    ⟨fun ⟨hnodup, hbefore, hafter⟩ => ⟨hnodup, hbefore, hafter⟩,
      fun ⟨hnodup, hbefore, hafter⟩ => ⟨hnodup, hbefore, hafter⟩⟩

/-- The snapshot that a step of the server queues. -/
def snapshot (s : ProbeNet n) : ProbeStep n → List ProbeRecord
  | .server .finish =>
      match s.server.call with
      | .query ⟨_, _, records, _, .Snapshot _⟩ => records
      | _ => []
  | _ => []

/-- A snapshot comes in its place. -/
def SnapshotInPlace (s : ProbeNet n) (l : ProbeStep n) : Prop := s.InPlace (s.snapshot l)

instance (s : ProbeNet n) (l : ProbeStep n) : Decidable (SnapshotInPlace s l) :=
  inferInstanceAs (Decidable (s.InPlace (s.snapshot l)))

instance (s : ProbeNet n) (l : ProbeStep n) : Decidable (Timely s l) :=
  match l with
  | .node i (.ingest_and_emit pending _ _) =>
      inferInstanceAs (Decidable (∀ point ∈ (s.node i).log.catalog,
        ∀ sample ∈ pending point.probe_id, ∀ r ∈ of point.probe_id (s.node i).log.history,
          r.virtual_time_ns ≤ sample.virtual_time_ns))
  | .node _ .take_control => isTrue trivial
  | .node _ (.take_query _) => isTrue trivial
  | .node _ .send_reply => isTrue trivial
  | .node _ (.take_csv _) => isTrue trivial
  | .node _ .send_chunk => isTrue trivial
  | .server _ => isTrue trivial
  | .hub _ => isTrue trivial

/-! ### Publishing -/

/-- A record is published on the channel of its probe. -/
theorem publish_sublist (taps : Nat → List ProbeRecord) (records : List ProbeRecord) (p : Nat) :
    (publish taps records p).Sublist (taps p ++ of p records) := by
  induction records generalizing taps with
  | nil =>
    show (taps p).Sublist (taps p ++ [])
    rw [List.append_nil]
  | cons r records ih =>
    have hrest := ih (Function.update taps r.probe_id
      (Ring.push probe_buffer (taps r.probe_id) r))
    show (publish (Function.update taps r.probe_id
      (Ring.push probe_buffer (taps r.probe_id) r)) records p).Sublist _
    refine hrest.trans ?_
    by_cases hp : r.probe_id = p
    · subst hp
      have hhead : of r.probe_id (r :: records) = r :: of r.probe_id records :=
        List.filter_cons_of_pos (decide_eq_true rfl)
      rw [Function.update_self, hhead]
      have hpush := Ring.push_sublist probe_buffer (taps r.probe_id) r
      simpa using hpush.append (List.Sublist.refl (of r.probe_id records))
    · have hhead : of p (r :: records) = of p records :=
        List.filter_cons_of_neg (by simpa using hp)
      rw [Function.update_of_ne (Ne.symm hp), hhead]

/-- The log moves on, and gives out records of its probes. -/
structure Gives (log : ProbeLog) (sent : Nat → List ProbeRecord) (log' : ProbeLog)
    (records : List ProbeRecord) : Prop where
  catalog_eq : log'.catalog = log.catalog
  history : ∀ r ∈ log.history, r ∈ log'.history
  known : ∀ r ∈ records, ∃ point ∈ log.catalog, point.probe_id = r.probe_id
  coarse : log'.Coarse fun p => sent p ++ records

/-- Only what the server watches is published. -/
theorem gives_watched {nd : NodeProbes n} {log log₁ log' : ProbeLog}
    {sent : Nat → List ProbeRecord} {records : List ProbeRecord}
    (h : log₁.Coarse sent) (hemits : log₁.Emits sent log' records)
    (hcatalog : log₁.catalog = log.catalog) (hhistory : ∀ r ∈ log.history, r ∈ log₁.history) :
    Gives log sent log' (nd.publish_watched records) := by
  refine ⟨hemits.same.catalog_eq.trans hcatalog, ?_, ?_, hemits.coarse.fewer ?_⟩
  · intro r hr
    rw [hemits.same.history_eq]
    exact hhistory r hr
  · intro r hr
    obtain ⟨r', hr', rfl⟩ := List.mem_map.mp hr
    obtain ⟨point, hpoint, hid, -⟩ := h.wf.known r' (hemits.logged r' (List.mem_filter.mp hr').1)
    exact ⟨point, hcatalog ▸ hpoint, by rw [published_id, hid]⟩
  · intro point _
    rw [arrived_append, arrived_append]
    apply (List.Sublist.refl _).append
    unfold publish_watched arrived
    rw [of_map_published, List.map_map]
    have hidem : NodeProbes.published ∘ NodeProbes.published = NodeProbes.published :=
      funext published_published
    rw [hidem]
    exact (of_sublist _ List.filter_sublist).map _

theorem gives_set_running {nd : NodeProbes n} {sent : Nat → List ProbeRecord}
    (h : nd.log.Coarse sent) (running : Bool) :
    Gives nd.log sent (nd.set_running running).1.log (nd.set_running running).2 :=
  gives_watched h (h.set_running running) rfl fun _ hr => hr

theorem gives_take_control {nd : NodeProbes n} {sent : Nat → List ProbeRecord}
    (h : nd.log.Coarse sent) (i : Fin n) (msg : ControlToNode n) :
    Gives nd.log sent (nd.take_control i msg).1.log (nd.take_control i msg).2 := by
  unfold take_control
  -- neither the probes watched nor the lifecycle is part of the log
  have hmoved (moved : NodeProbes n) (hlog : moved.log = nd.log) :
      Gives nd.log sent moved.log [] ∧ ∀ running,
        Gives nd.log sent (moved.set_running running).1.log (moved.set_running running).2 := by
    rw [← hlog] at h ⊢
    refine ⟨⟨rfl, fun _ hr => hr, nofun, by simpa using h⟩, gives_set_running h⟩
  have hlog := nd.watched_log i (nd.state.on_message msg).2
  dsimp only
  split
  · exact (hmoved _ hlog).2 true
  · split
    · exact (hmoved _ hlog).2 false
    · exact (hmoved _ hlog).1

theorem gives_ingest_and_emit {nd : NodeProbes n} {sent : Nat → List ProbeRecord}
    (h : nd.log.Coarse sent) (pending : Nat → Option TapSample) (written : Nat → Nat) (due : Bool)
    (hle : ∀ point ∈ nd.log.catalog, ∀ sample, pending point.probe_id = some sample →
      ∀ r ∈ of point.probe_id nd.log.history, r.virtual_time_ns ≤ sample.virtual_time_ns) :
    Gives nd.log sent (nd.ingest_and_emit pending written due).1.log
      (nd.ingest_and_emit pending written due).2 := by
  obtain ⟨hcoarse, hcatalog, hhistory⟩ := h.ingest pending written hle
  exact gives_watched hcoarse (hcoarse.poll due) hcatalog hhistory

/-! ### The invariant -/

/-- The streams of all probes are in order, up to what the windows hold. -/
structure Streams (catalog : ProbeCatalog n) (s : ProbeNet n) : Prop where
  catalog_eq (i : Fin n) : (s.node i).log.catalog = catalog.of_board i
  coarse (i : Fin n) : (s.node i).log.Coarse s.stream
  taps (p : Nat) : ∀ r ∈ s.taps p, r.probe_id = p

/-- No log forgets a record. -/
def Grows (s s' : ProbeNet n) : Prop :=
  ∀ i, ∀ r ∈ (s.node i).log.history, r ∈ (s'.node i).log.history

theorem Ready.streams (h : Ready catalog s) : Streams catalog s := by
  refine ⟨fun i => (h.node i).catalog_eq, ?_, ?_⟩
  · intro i
    have hwindow := (h.node i).window
    refine ⟨(h.node i).log, ProbeLog.windowed_of_window hwindow, ?_⟩
    intro point _
    have hnil : s.stream point.probe_id = [] := by
      unfold stream on_way
      rw [h.server_eq, h.probe_a2s_eq, h.carried_eq, h.taps_eq]
      rfl
    rw [hwindow, hnil]
    exact ⟨List.Pairwise.nil, List.nil_subperm⟩
  · intro p
    rw [h.taps_eq p]
    nofun

/-- Samples are passed on in order, or dropped, and the logs are left alone. -/
structure Passes (s s' : ProbeNet n) : Prop where
  log_eq (i : Fin n) : (s'.node i).log = (s.node i).log
  fewer (p : Nat) : (of p (s'.stream p)).Sublist (of p (s.stream p))
  taps (p : Nat) : (s'.taps p).Sublist (s.taps p)

theorem Streams.passed (h : Streams catalog s) (hp : Passes s s') : Streams catalog s' := by
  refine ⟨?_, ?_, ?_⟩
  · intro i
    rw [hp.log_eq i]
    exact h.catalog_eq i
  · intro i
    rw [hp.log_eq i]
    exact (h.coarse i).fewer fun point _ => arrived_sublist (hp.fewer point.probe_id)
  · intro p r hr
    exact h.taps p r ((hp.taps p).subset hr)

/-- A node publishes what its log gives out. -/
theorem Streams.emitted (h : Streams catalog s) {i : Fin n} {nd : NodeProbes n}
    {records : List ProbeRecord} {ctrl : Fin n → List (ControlToNode n)}
    (hgives : Gives (s.node i).log s.stream nd.log records) :
    Streams catalog { s with
      node := Function.update s.node i nd, ctrl_a2n := ctrl, taps := publish s.taps records } := by
  refine ⟨?_, ?_, ?_⟩
  · intro j
    by_cases hj : j = i
    · subst hj
      simp only [Function.update_self]
      exact hgives.catalog_eq.trans (h.catalog_eq j)
    · simp only [Function.update_of_ne hj]
      exact h.catalog_eq j
  · intro j
    have hsub (p : Nat) : (of p (s.server.handed_out ++ s.server.queued ++ (s.server.reading ++
        s.probe_a2s ++ s.hub.carried ++ publish s.taps records p))).Sublist
      (of p (s.stream p ++ records)) := by
      have hof : of p (of p records) = of p records := by
        unfold of
        rw [List.filter_filter]
        simp
      have htaps := of_sublist p (publish_sublist s.taps records p)
      rw [of_append, hof] at htaps
      unfold stream on_way
      simp only [of_append, List.append_assoc] at htaps ⊢
      simpa using htaps
    by_cases hj : j = i
    · subst hj
      simp only [Function.update_self]
      exact hgives.coarse.fewer fun point _ => arrived_sublist (hsub point.probe_id)
    · simp only [Function.update_of_ne hj]
      apply (h.coarse j).fewer
      intro point hpoint
      -- the records are of another board
      have hnone : of point.probe_id records = [] := by
        apply List.filter_eq_nil_iff.mpr
        intro r hr
        obtain ⟨point', hpoint', hid⟩ := hgives.known r hr
        rw [h.catalog_eq] at hpoint hpoint'
        have hboard := ProbeCatalog.board_of_of_board hpoint
        have hboard' := ProbeCatalog.board_of_of_board hpoint'
        rw [decide_eq_true_eq]
        intro heq
        rw [hid, heq, hboard] at hboard'
        exact hj (Option.some.inj hboard')
      have hsub := hsub point.probe_id
      rw [of_append _ _ records, hnone, List.append_nil] at hsub
      exact arrived_sublist hsub
  · intro p r hr
    rcases List.mem_append.mp ((publish_sublist s.taps records p).subset hr) with hold | hnew
    · exact h.taps p r hold
    · exact (ProbeLog.mem_of.mp hnew).2

theorem queue_batch (watch : ProbeWatch) (batch : CoarseBatch) :
    ((watch.push_batch batch).pending.flatMap CoarseBatch.samples).Sublist
      (watch.pending.flatMap CoarseBatch.samples ++ batch.samples) := by
  have hpush := Ring.push_sublist watch_pending_keep watch.pending batch
  have hflat := hpush.flatMap CoarseBatch.samples
  rw [List.flatMap_append, List.flatMap_singleton] at hflat
  exact hflat

/-- What has been collected is queued behind the rest, or not at all. -/
theorem finish_query_queued (sv : ProbeServer n) (c : Collect n) :
    (sv.finish_query c).handed_out = sv.handed_out ∧
    (sv.finish_query c).queued.Sublist (sv.queued ++ sort_by_key c.records) ∧
    (sv.finish_query c).reading = [] := by
  refine ⟨?_, ?_, ProbeServer.reading_of_none (finish_query_call sv c)⟩
  · unfold ProbeServer.finish_query
    split
    · dsimp only
      split <;> rfl
    · rfl
  · unfold ProbeServer.finish_query
    split
    · dsimp only
      split
      · exact List.sublist_append_left _ _
      · exact queue_batch _ _
    · exact List.sublist_append_left _ _

/-- A snapshot of logged records is queued in its place. -/
theorem Streams.snapshot (h : Streams catalog s) {c : Collect n} (hcall : s.server.call = .query c)
    (hplace : s.InPlace c.records)
    (hlogged : ∀ i, ∀ x ∈ c.records, catalog.board_of x.probe_id = some i →
      x ∈ (s.node i).log.history) :
    Streams catalog { s with server := s.server.finish_query c } := by
  refine ⟨h.catalog_eq, ?_, h.taps⟩
  intro i
  refine ⟨(h.coarse i).wf, (h.coarse i).windowed, ?_⟩
  intro point hpoint
  have hboard : catalog.board_of point.probe_id = some i := by
    apply ProbeCatalog.board_of_of_board
    rw [← h.catalog_eq i]
    exact hpoint
  have hmem {x : ProbeRecord} (hx : x ∈ of point.probe_id (sort_by_key c.records)) :
      x ∈ c.records ∧ x.probe_id = point.probe_id := by
    obtain ⟨hx, hid⟩ := ProbeLog.mem_of.mp hx
    exact ⟨(List.mem_insertionSort _).mp hx, hid⟩
  have hordered := (h.coarse i).ordered point hpoint
  unfold stream at hordered
  rw [List.append_assoc] at hordered
  -- The snapshot goes between what was queued and what is still on its way.
  have hsorted : (of point.probe_id (sort_by_key c.records)).Pairwise
      fun a b => a.virtual_time_ns ≤ b.virtual_time_ns :=
    (sort_by_key_times c.records).sublist List.filter_sublist
  have hinsert := hordered.insert hsorted ?_ ?_ ?_ ?_
  · apply hinsert.fewer
    apply arrived_sublist
    apply of_sublist
    obtain ⟨hhanded, hqueued, hnone⟩ := finish_query_queued s.server c
    have hreading : s.server.reading = [] := ProbeServer.reading_of_query hcall
    unfold stream on_way
    rw [hhanded, hnone, hreading]
    have hall := ((List.Sublist.refl s.server.handed_out).append hqueued).append
      (List.Sublist.refl (s.probe_a2s ++ s.hub.carried ++ s.taps point.probe_id ++
        (s.node i).log.window))
    simpa using hall
  · have hperm := (List.perm_insertionSort key_le c.records).map NodeProbes.published
    exact (hperm.nodup_iff.mpr hplace.nodup).sublist (List.filter_sublist.map _)
  · intro x hx
    obtain ⟨hrec, hid⟩ := hmem hx
    exact ProbeLog.mem_of.mpr ⟨hlogged i x hrec (hid ▸ hboard), hid⟩
  · intro x hx r hr
    obtain ⟨hrec, hid⟩ := hmem hx
    exact hplace.before x hrec r (hid ▸ hr)
  · intro x hx r hr
    obtain ⟨hrec, hid⟩ := hmem hx
    exact hplace.after x hrec i r (hid ▸ hr)

/-! ### Steps -/

/-- A step of the server that reads and hands out samples in order. -/
theorem passes_server {sv : ProbeServer n} {watch_s2a : List (ProbeWatchWire n)}
    {query_s2a csv_s2a : List (ProbeQueryWire n)} {query_a2s csv_a2s : List (ProbeQueryReplyWire n)}
    {probe_a2s : List ProbeRecord}
    (hsub : (sv.handed_out ++ sv.queued ++ sv.reading ++ probe_a2s).Sublist
      (s.server.handed_out ++ s.server.queued ++ s.server.reading ++ s.probe_a2s)) :
    Passes s { s with
      server := sv, watch_s2a := watch_s2a, query_s2a := query_s2a, csv_s2a := csv_s2a
      query_a2s := query_a2s, csv_a2s := csv_a2s, probe_a2s := probe_a2s } := by
  refine ⟨fun _ => rfl, ?_, fun _ => List.Sublist.refl _⟩
  intro p
  have hall := hsub.append (List.Sublist.refl (s.hub.carried ++ s.taps p))
  have hof := of_sublist p hall
  unfold stream on_way
  simpa using hof

/-- A step of the server that leaves the queue alone, outside of its sample
    loop. -/
theorem passes_call {sv : ProbeServer n} (hhanded : sv.handed = s.server.handed)
    (hpending : sv.watch.pending = s.server.watch.pending)
    (hreading : sv.reading = []) {watch_s2a : List (ProbeWatchWire n)}
    {query_s2a csv_s2a : List (ProbeQueryWire n)}
    {query_a2s csv_a2s : List (ProbeQueryReplyWire n)} :
    Passes s { s with
      server := sv, watch_s2a := watch_s2a, query_s2a := query_s2a, csv_s2a := csv_s2a
      query_a2s := query_a2s, csv_a2s := csv_a2s } := by
  apply passes_server
  unfold ProbeServer.handed_out ProbeServer.queued
  rw [hhanded, hpending, hreading, List.append_nil]
  exact (List.sublist_append_left _ _).append (List.Sublist.refl _)

/-- A step of the server that ends its sample loop, or is outside of it. -/
theorem passes_queue {sv : ProbeServer n} (hreading : sv.reading = [])
    (hsub : (sv.handed_out ++ sv.queued).Sublist
      (s.server.handed_out ++ s.server.queued ++ s.server.reading))
    {watch_s2a : List (ProbeWatchWire n)} :
    Passes s { s with server := sv, watch_s2a := watch_s2a } := by
  apply passes_server
  rw [hreading, List.append_nil]
  exact hsub.append (List.Sublist.refl _)

theorem start_csv_queue {range : ProbeRange} {expired : Bool} {sv sv' : ProbeServer n}
    {queries : List (ProbeQueryWire n)}
    (h : sv.start_csv catalog range expired = some (sv', queries)) :
    sv'.handed = sv.handed ∧ sv'.watch.pending = sv.watch.pending := by
  unfold ProbeServer.start_csv at h
  split at h
  · cases h
  · cases h
    exact ⟨rfl, rfl⟩

/-- What is queued is handed out, or dropped. -/
theorem live_watch_queue (after : Nat) (sv : ProbeServer n) :
    ((sv.live_watch after).handed_out ++ (sv.live_watch after).queued).Sublist
      (sv.handed_out ++ sv.queued) := by
  have hfilter := (List.filter_sublist (l := sv.watch.pending)
    (p := fun batch : CoarseBatch => after < batch.seq)).flatMap CoarseBatch.samples
  show ((sv.handed ++ sv.watch.pending.filter fun batch : CoarseBatch => after < batch.seq).flatMap
    CoarseBatch.samples ++ []).Sublist _
  rw [List.append_nil, List.flatMap_append]
  exact (List.Sublist.refl _).append hfilter

/-- The samples that are watched are queued behind the others. -/
theorem fanout_live_queue (live : List ProbeRecord) (sv : ProbeServer n) :
    (sv.fanout_live live).call = sv.call ∧
    ((sv.fanout_live live).handed_out ++ (sv.fanout_live live).queued).Sublist
      (sv.handed_out ++ sv.queued ++ live) := by
  unfold ProbeServer.fanout_live
  dsimp only
  split
  · exact ⟨rfl, List.sublist_append_left _ _⟩
  · refine ⟨rfl, ?_⟩
    have hqueue := queue_batch { sv.watch with next_seq := sv.watch.next_seq + 1 }
      ⟨sv.watch.next_seq, live.filter fun record => sv.watch.probe_ids.contains record.probe_id⟩
    rw [List.append_assoc]
    apply (List.Sublist.refl sv.handed_out).append
    exact hqueue.trans ((List.Sublist.refl _).append List.filter_sublist)

/-- The server passes samples on, unless it queues a snapshot. -/
theorem server_passes {act : ServerAct n} (h : ServerMove catalog s act s') :
    Passes s s' ∨ ∃ c seq, act = .finish ∧ s.server.call = .query c ∧ c.expected = [] ∧
      c.purpose = .Snapshot seq ∧ s' = { s with server := s.server.finish_query c } := by
  cases h with
  | finish c hcall hexpected =>
    cases hpurpose : c.purpose with
    | Snapshot seq => exact .inr ⟨c, seq, rfl, hcall, hexpected, hpurpose, rfl⟩
    | Samples p range =>
      have heq : s.server.finish_query c = { s.server with call := .none } := by
        unfold ProbeServer.finish_query
        rw [hpurpose]
      left
      rw [heq]
      apply passes_call
      · rfl
      · rfl
      · rfl
  | watched _ _ hcall | poll_csv _ hcall | take_id hcall | read_csv _ _ _ hcall
  | settle_csv _ _ hcall =>
    left
    apply passes_call
    · rfl
    · rfl
    · exact ProbeServer.reading_of_none hcall
  | put_watch | query_latest | query_range | timeout | read_reply =>
    left
    apply passes_call
    · rfl
    · rfl
    · rfl
  | start_csv range expired sv queries hcall hstart =>
    obtain ⟨hcall', -⟩ := start_csv_eq hstart
    obtain ⟨hhanded, hpending⟩ := start_csv_queue hstart
    left
    apply passes_call
    · exact hhanded
    · exact hpending
    · exact ProbeServer.reading_of_none (hcall'.trans hcall)
  | no_samples =>
    exact .inl ⟨fun _ => rfl, fun _ => List.Sublist.refl _, fun _ => List.Sublist.refl _⟩
  | clear_watch hcall =>
    -- what is queued is dropped
    left
    apply passes_queue
    · exact ProbeServer.reading_of_none hcall
    · show (s.server.handed_out ++ []).Sublist _
      rw [List.append_assoc]
      exact (List.Sublist.refl _).append (List.nil_sublist _)
  | live_watch after hcall =>
    left
    apply passes_queue
    · exact ProbeServer.reading_of_none hcall
    · exact (live_watch_queue after s.server).trans (List.sublist_append_left _ _)
  | begin_samples hcall =>
    left
    apply passes_server
    rw [ProbeServer.reading_of_none hcall]
    exact List.Sublist.refl _
  | read_sample live record rest hcall hqueue =>
    left
    apply passes_server
    have hreading : s.server.reading = live := by
      unfold ProbeServer.reading
      rw [hcall]
    rw [hreading, hqueue]
    show (s.server.handed_out ++ s.server.queued ++ (live ++ [record]) ++ rest).Sublist _
    simp
  | fanout live hcall =>
    left
    have hreading : s.server.reading = live := by
      unfold ProbeServer.reading
      rw [hcall]
    obtain ⟨hcall', hqueue⟩ := fanout_live_queue live { s.server with call := .none }
    apply passes_queue
    · exact ProbeServer.reading_of_none hcall'
    · rw [hreading]
      exact hqueue

theorem hub_passes {act : HubAct n} (h : HubMove s act s')
    (htaps : ∀ p, ∀ r ∈ s.taps p, r.probe_id = p) : Passes s s' := by
  cases h with
  | take_sample q record rest _ hqueue =>
    have hid : record.probe_id = q := htaps q record (hqueue ▸ List.mem_cons_self)
    refine ⟨fun _ => rfl, ?_, ?_⟩
    · intro p
      have hof : of p (s.hub.carried ++ [record] ++ Function.update s.taps q rest p) =
          of p (s.hub.carried ++ s.taps p) := by
        by_cases hp : p = q
        · subst hp
          rw [Function.update_self, hqueue, List.append_assoc, List.singleton_append]
        · -- the record is of another probe
          have hnone : of p [record] = [] :=
            List.filter_cons_of_neg (by simpa [hid] using Ne.symm hp)
          rw [Function.update_of_ne hp, of_append, of_append, of_append, hnone, List.append_nil]
      unfold stream on_way
      simp only [of_append, List.append_assoc] at hof ⊢
      show (_ ++ (_ ++ (of p s.server.reading ++ (of p s.probe_a2s ++ _)))).Sublist _
      rw [← hof]
    · intro p
      by_cases hp : p = q
      · subst hp
        simp only [Function.update_self, hqueue]
        exact List.sublist_cons_self _ _
      · simp only [Function.update_of_ne hp]
        exact List.Sublist.refl _
  | publish_sample record rest _ hcarried =>
    refine ⟨fun _ => rfl, ?_, fun _ => List.Sublist.refl _⟩
    intro p
    apply of_sublist
    have hpush := Ring.push_sublist probe_a2s_buffer s.probe_a2s record
    have hall := hpush.append (List.Sublist.refl (rest ++ s.taps p))
    unfold stream on_way
    rw [hcarried]
    simpa using hall
  | _ => exact ⟨fun _ => rfl, fun _ => List.Sublist.refl _, fun _ => List.Sublist.refl _⟩

/-- A step of a node that leaves its log alone. -/
theorem passes_node {i : Fin n} {nd : NodeProbes n} (hlog : nd.log = (s.node i).log)
    {query_a2n csv_a2n : Fin n → List (ProbeQueryWire n)}
    {query_n2a csv_n2a : List (ProbeQueryReplyWire n)} :
    Passes s { s with
      node := Function.update s.node i nd, query_a2n := query_a2n, csv_a2n := csv_a2n
      query_n2a := query_n2a, csv_n2a := csv_n2a } := by
  refine ⟨?_, fun _ => List.Sublist.refl _, fun _ => List.Sublist.refl _⟩
  intro j
  by_cases hj : j = i
  · subst hj
    simpa using hlog
  · simp [hj]

theorem Passes.grows (h : Passes s s') : Grows s s' := by
  intro i r hr
  rw [h.log_eq i]
  exact hr

/-- A step of a node keeps the streams in order. -/
theorem Streams.node_moved (h : Streams catalog s) {i : Fin n} {act : NodeProbeAct}
    (hm : NodeMove s i act s') (htimely : s.Timely (.node i act)) :
    Streams catalog s' ∧ Grows s s' := by
  have hpasses {t : ProbeNet n} (hp : Passes s t) : Streams catalog t ∧ Grows s t :=
    ⟨h.passed hp, hp.grows⟩
  have hgives {nd : NodeProbes n} {records : List ProbeRecord}
      {ctrl : Fin n → List (ControlToNode n)}
      (hgives : Gives (s.node i).log s.stream nd.log records) :
      Streams catalog { s with
        node := Function.update s.node i nd, ctrl_a2n := ctrl, taps := publish s.taps records } ∧
      Grows s { s with
        node := Function.update s.node i nd
        ctrl_a2n := ctrl
        taps := publish s.taps records } := by
    refine ⟨h.emitted hgives, ?_⟩
    intro j r hr
    by_cases hj : j = i
    · subst hj
      simpa using hgives.history r hr
    · simpa [hj] using hr
  cases hm with
  | take_control msg rest nd records _ _ htake =>
    apply hgives
    have hcontrol := gives_take_control (h.coarse i) i msg
    rw [htake] at hcontrol
    exact hcontrol
  | ingest_and_emit pending written due nd records _ hemit =>
    apply hgives
    have hingest := gives_ingest_and_emit (h.coarse i) pending written due htimely
    rw [hemit] at hingest
    exact hingest
  | take_query io_ok query rest =>
    apply hpasses
    apply passes_node
    unfold answer_query
    split <;> rfl
  | send_reply | send_chunk =>
    apply hpasses
    apply passes_node
    rfl
  | take_csv io_ok query rest =>
    apply hpasses
    apply passes_node
    unfold take_csv
    split
    · rfl
    · split <;> rfl

/-- What a snapshot has collected was in the log of its board when the board
    answered. -/
theorem Asking.snapshot_logged {c : Collect n} (h : Asking catalog s c)
    (hexpected : c.expected = [])
    {seq : Nat} (hpurpose : c.purpose = .Snapshot seq) {x : ProbeRecord} (hx : x ∈ c.records)
    {b : Fin n} (hb : catalog.board_of x.probe_id = some b) :
    ∃ snap ∈ (s.node b).answered, x ∈ snap.history := by
  obtain ⟨⟨ids, wire, hasks, -, hboard⟩, -⟩ := h
  rw [hpurpose] at hasks
  cases hasks with
  | snapshot =>
    obtain ⟨got, hgot⟩ := hboard b
    have hheard : x ∈ got.flatMap ProbeQueryReplyWire.records := by
      rw [← hgot.records_eq]
      exact List.mem_filter.mpr ⟨hx, decide_eq_true hb⟩
    cases hq : catalog.question ids (ProbeQueryWire.latest c.request_id) b with
    -- A board that was asked nothing has sent nothing.
    | none =>
      rw [hq] at hgot
      rw [hgot.unasked hexpected] at hheard
      cases hheard
    | some q =>
      -- The answer is complete and was drawn from one snapshot of the log.
      have hawaited : (s.talk c b got).awaited = false := by
        show decide (b ∈ c.expected) = false
        rw [hexpected]
        rfl
      obtain ⟨snap, hanswers, records, truncated, ha, hreplies⟩ := hgot.phase.finished hawaited hq
      have hsnap : snap ∈ (s.node b).answered := by
        have hmem : snap ∈ (s.talk c b got).answers := by
          rw [hanswers]
          exact List.mem_cons_self
        exact (List.mem_filter.mp hmem).1
      refine ⟨snap, hsnap, ?_⟩
      change got = _ at hreplies
      rw [hreplies, (query_reply_records b q.request_id truncated records).1] at hheard
      have hdrawn := ha.drawn
      unfold Drawn at hdrawn
      rw [ProbeCatalog.question_eq_some hq] at hdrawn
      change records = sort_by_key _ at hdrawn
      rw [hdrawn] at hheard
      obtain ⟨p, -, hlast⟩ := List.mem_filterMap.mp ((List.mem_insertionSort _).mp hheard)
      exact (ProbeLog.mem_of.mp (List.mem_of_getLast? hlast)).1

/-- What holds of the live samples in every state of a run. -/
structure Live (catalog : ProbeCatalog n) (s : ProbeNet n) : Prop where
  queries : Queries catalog s
  streams : Streams catalog s
  answered (i : Fin n) : ∀ snap ∈ (s.node i).answered, ∀ r ∈ snap.history,
    r ∈ (s.node i).log.history

theorem Live.initial (h : Ready catalog s) : Live catalog s := by
  refine ⟨.initial h, h.streams, ?_⟩
  intro i
  rw [(h.node i).answered_eq]
  nofun

theorem Live.streams_moved (h : Live catalog s) {l : ProbeStep n}
    (hstep : step catalog s l = some s') (htimely : s.Timely l) (hplace : s.SnapshotInPlace l) :
    Streams catalog s' ∧ Grows s s' := by
  cases l with
  | server act =>
    rcases server_passes (server_move hstep) with
      hpasses | ⟨c, seq, rfl, hcall, hexpected, hpurpose, rfl⟩
    · exact ⟨h.streams.passed hpasses, hpasses.grows⟩
    · refine ⟨h.streams.snapshot hcall ?_ ?_, fun _ _ hr => hr⟩
      · have hrecords : s.snapshot (.server .finish) = c.records := by
          obtain ⟨_, _, records, _, purpose⟩ := c
          subst hpurpose
          unfold snapshot
          rw [hcall]
        rw [← hrecords]
        exact hplace
      · intro i x hx hboard
        obtain ⟨snap, hsnap, hlogged⟩ :=
          (h.queries.asking c hcall).snapshot_logged hexpected hpurpose hx hboard
        exact h.answered i snap hsnap x hlogged
  | hub act =>
    have hpasses := hub_passes (hub_move hstep) h.streams.taps
    exact ⟨h.streams.passed hpasses, hpasses.grows⟩
  | node i act => exact h.streams.node_moved (node_move hstep) htimely

theorem Live.moved (h : Live catalog s) {l : ProbeStep n} (hstep : step catalog s l = some s')
    (htimely : s.Timely l) (hplace : s.SnapshotInPlace l) : Live catalog s' := by
  obtain ⟨hstreams, hgrows⟩ := h.streams_moved hstep htimely hplace
  have hm := query_move hstep
  refine ⟨h.queries.moved hm, hstreams, ?_⟩
  intro i snap hsnap r hr
  apply hgrows i
  rcases (hm.node_cases h.queries.tidy.node i).2 with
    heq | ⟨_, query, _, _, _, -, -, -, -, heq, -⟩
  · rw [heq] at hsnap
    exact h.answered i snap hsnap r hr
  · rw [heq] at hsnap
    rcases List.mem_append.mp hsnap with hold | hnew
    · exact h.answered i snap hold r hr
    · rw [List.mem_singleton.mp hnew] at hr
      exact hr

/-- As long as virtual time does not go back and every snapshot comes in its
    place, the samples that clients are handed of a probe are in the order of
    time, and are records of its log, none of them handed out twice. -/
theorem live_watch_in_order
    (h : Reachable (system catalog) (fun s l => s.Timely l ∧ s.SnapshotInPlace l) s) (i : Fin n) :
    ∀ point ∈ catalog.of_board i,
      (of point.probe_id s.server.handed_out).Pairwise
        (fun a b => a.virtual_time_ns ≤ b.virtual_time_ns) ∧
      (arrived point.probe_id s.server.handed_out).Subperm
        (arrived point.probe_id (s.node i).log.history) := by
  have hlive : Live catalog s := by
    refine h.invariant ?_ ?_
    · intro s hs
      exact Live.initial hs
    · intro s l s' hs hok hstep
      exact hs.moved hstep hok.1 hok.2
  intro point hpoint
  have hordered := (hlive.streams.coarse i).ordered point (hlive.streams.catalog_eq i ▸ hpoint)
  have hhanded : Ordered point.probe_id s.server.handed_out (s.node i).log.history := by
    apply hordered.fewer
    apply arrived_sublist
    apply of_sublist
    unfold stream
    rw [List.append_assoc, List.append_assoc]
    exact List.sublist_append_left _ _
  exact ⟨hhanded.times, hhanded.logged⟩

/-! ### One probe watched -/

/-- The node takes a word of the probe, and passes it on if it is `due`. -/
def take_word (virtual_time_ns value : Nat) (due : Bool) : ProbeStep 1 :=
  .node 0 (.ingest_and_emit
    (fun _ => some ⟨virtual_time_ns % 256 ^ 8, .frame ⟨value % 256 ^ 2, mod_lt_u16 _⟩,
      mod_lt_u64 _⟩) (fun _ => spill_rec) due)

/-- The node passes on the words that it has taken. -/
def pass_words : ProbeStep 1 := .node 0 (.ingest_and_emit (fun _ => none) (fun _ => spill_rec) true)

/-- The node is started. -/
def start_node : List (ProbeStep 1) :=
  [.hub (.control (.StartupRecord 1000 1000)), .hub (.control (.Start 1000)),
    .node 0 .take_control, .node 0 .take_control]

/-- The probe is watched, and a snapshot of its newest word is queued. -/
def watch_probe : List (ProbeStep 1) :=
  [.server (.put_watch [⟨0, 7⟩]), .hub .forward_watch, .hub .forward_query,
    .node 0 .take_control, .node 0 (.take_query true), .node 0 .send_reply,
    .hub .take_reply, .hub .publish_reply, .server .read_reply, .server .finish]

/-- One word of the stream is queued. -/
def queue_word : List (ProbeStep 1) :=
  [.hub (.take_sample 1), .hub .publish_sample, .server .begin_samples, .server .read_sample,
    .server .fanout]

/-- A second snapshot overtakes a word that is on its way. -/
def overtaking_run : List (ProbeStep 1) :=
  start_node ++ watch_probe ++ [take_word 10 65 true, take_word 20 66 false] ++ watch_probe ++
    queue_word ++ [.server (.live_watch 0), pass_words] ++ queue_word ++ [.server (.live_watch 3)]

/-- A client may see a word, then an older one, and then the first word once
    more. -/
theorem live_watch_goes_back : ∃ s, Reachable (system uart_catalog) (fun s l => s.Timely l) s ∧
    ¬∀ i, ∀ point ∈ uart_catalog.of_board i,
      (of point.probe_id s.server.handed_out).Pairwise
        (fun a b => a.virtual_time_ns ≤ b.virtual_time_ns) ∧
      (arrived point.probe_id s.server.handed_out).Subperm
        (arrived point.probe_id (s.node i).log.history) := by
  have hrun : (((system uart_catalog).exec (fun s l => s.Timely l) (uart_net []) overtaking_run).any
      fun s =>
        s.server.handed_out = [uart_word 20 66, uart_word 10 65, uart_word 20 66]) = true := by
    decide +kernel
  obtain ⟨s, hreach, hs⟩ := Reachable.exists_of_exec overtaking_run (ready_uart_net _) hrun
  refine ⟨s, hreach, ?_⟩
  intro hall
  obtain ⟨htimes, -⟩ := hall 0 ⟨1, .Uart, by decide⟩ (by decide)
  rw [hs] at htimes
  revert htimes
  decide

/-- A snapshot of what was logged before the start, and a word of the stream. -/
def ordered_run : List (ProbeStep 1) :=
  start_node ++ watch_probe ++ [take_word 20 66 true] ++ queue_word ++ [.server (.live_watch 0)]

theorem live_watch_in_order_uart : ∃ s, Reachable (system uart_catalog)
      (fun s l => s.Timely l ∧ s.SnapshotInPlace l) s ∧
    s.server.handed_out = [uart_word 10 65, uart_word 20 66] ∧
    ∀ point ∈ uart_catalog.of_board 0,
      (of point.probe_id s.server.handed_out).Pairwise
        (fun a b => a.virtual_time_ns ≤ b.virtual_time_ns) ∧
      (arrived point.probe_id s.server.handed_out).Subperm
        (arrived point.probe_id (s.node 0).log.history) := by
  have hrun : (((system uart_catalog).exec (fun s l => s.Timely l ∧ s.SnapshotInPlace l)
      (uart_net [(10, 65)]) ordered_run).any
        fun s => s.server.handed_out = [uart_word 10 65, uart_word 20 66]) = true := by
    decide +kernel
  obtain ⟨s, hreach, hs⟩ := Reachable.exists_of_exec ordered_run (ready_uart_net _) hrun
  exact ⟨s, hreach, hs, live_watch_in_order hreach 0⟩

end ProbeNet

end Rl78Sim
