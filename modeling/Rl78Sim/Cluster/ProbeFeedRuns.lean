import Rl78Sim.Cluster.ProbeFeed
import Rl78Sim.Cluster.ProbeHubLaws
import Rl78Sim.Probe.Server

/-! # What the Server Knows of the Probes

    Every point of the catalog is a probe that its board has printed, no id has
    two points, and no board more than its limit; this is what the other models
    of the probes assume of a catalog. When all messages are sent and fit into
    the buffer, a catalog that is ready has the last probe of every id, however
    many samples have come in the meantime.
-/

namespace Rl78Sim

open Transition

/-! ### One message -/

section messages

variable {boards : HashedId → Option String} {sim : ServerProbes} {sample : ProbeToServer}
  {entry : ProbeCatalogEntry}

/-- The point that the server keeps of a message. -/
def ProbeToServer.kept (boards : HashedId → Option String) (sample : ProbeToServer) :
    Option CatalogPoint :=
  if sample.msg = msg_catalog then
    (ProbeKind.from_wire sample.wire_kind).map (sample.point boards)
  else none

theorem catalog_ne_end : msg_catalog ≠ msg_catalog_end := by decide

theorem sample_ne_end : msg_sample ≠ msg_catalog_end := by decide

theorem sample_ne_catalog : msg_sample ≠ msg_catalog := by decide

theorem ingest_probe_fst : (ingest_probe boards sim sample).1 =
    { probe_catalog := (sample.kept boards).elim sim.probe_catalog
        (Table.put CatalogPoint.probe_id sim.probe_catalog)
      catalog_ready := sim.catalog_ready || decide (sample.msg = msg_catalog_end) } := by
  unfold ingest_probe ProbeToServer.kept
  by_cases hend : sample.msg = msg_catalog_end
  · rw [if_pos hend, if_neg (hend ▸ catalog_ne_end.symm), decide_eq_true hend, Bool.or_true]
    rfl
  · rw [if_neg hend, decide_eq_false hend, Bool.or_false]
    by_cases hcatalog : sample.msg = msg_catalog
    · rw [if_pos hcatalog]
      cases ProbeKind.from_wire sample.wire_kind with
      | none => rfl
      | some kind => exact congrArg Prod.fst (if_pos hcatalog)
    · rw [if_neg hcatalog]
      cases ProbeKind.from_wire sample.wire_kind with
      | none => rfl
      | some kind =>
        dsimp only
        rw [if_neg hcatalog]
        split <;> rfl

/-- A record survives the message. -/
theorem ingest_publish_sample (record : ProbeRecord) :
    ingest_probe boards sim (publish_sample record) = (sim, some record) := by
  have hrecord : (publish_sample record).record record.kind = record := by
    ext
    · exact Nat.mod_eq_of_lt record.probe_lt
    · exact Nat.mod_eq_of_lt record.time_lt
    · rfl
    · exact Nat.mod_eq_of_lt record.value_lt
  have hmsg : (publish_sample record).msg = msg_sample := rfl
  unfold ingest_probe
  rw [hmsg, if_neg sample_ne_end,
    show (publish_sample record).wire_kind = record.kind.to_wire from rfl,
    ProbeKind.from_wire_to_wire]
  dsimp only
  rw [if_neg sample_ne_catalog, if_pos rfl, hrecord]

/-- What the server shows of an entry. -/
def ProbeCatalogEntry.shown (entry : ProbeCatalogEntry) : CatalogPoint :=
  ⟨entry.probe_id, entry.board_hash, entry.board_id, entry.name, entry.kind⟩

/-- A probe survives the message, if its name fits and its board is known. -/
theorem kept_publish_catalog (hfits : entry.name.utf8ByteSize ≤ probe_name_cap)
    (hboard : boards entry.board_hash = some entry.board_id) :
    (publish_catalog entry).kept boards = some entry.shown := by
  have hmin : min entry.name.utf8ByteSize probe_name_cap = entry.name.utf8ByteSize :=
    Nat.min_eq_left hfits
  have hsmall : entry.name.utf8ByteSize < 256 := Nat.lt_of_le_of_lt hfits (by decide)
  -- The name is cut at its cap and filled up with zeros. A name that fits loses
  -- nothing, and its length says where the zeros begin.
  have hlen : (publish_catalog entry).name_len.toNat = (Utf8.as_bytes entry.name).length := by
    unfold publish_catalog
    dsimp only
    rw [hmin, if_pos hsmall, ← Utf8.utf8ByteSize_eq, UInt8.toNat_ofNat']
    exact Nat.mod_eq_of_lt hsmall
  have hbytes : (publish_catalog entry).name =
      Utf8.as_bytes entry.name ++ List.replicate (probe_name_cap - entry.name.utf8ByteSize) 0 := by
    unfold publish_catalog
    dsimp only
    rw [hmin, Utf8.utf8ByteSize_eq, List.take_length]
  have hname : (publish_catalog entry).name.take
      (min (publish_catalog entry).name_len.toNat (publish_catalog entry).name.length) =
        Utf8.as_bytes entry.name := by
    rw [hlen, hbytes, List.length_append, Nat.min_eq_left (Nat.le_add_right ..),
      List.take_left']
    rfl
  unfold ProbeToServer.kept
  rw [if_pos (by rfl), show (publish_catalog entry).wire_kind = entry.kind.to_wire from rfl,
    ProbeKind.from_wire_to_wire, Option.map_some]
  unfold ProbeToServer.point
  rw [hname, Utf8.from_utf8_lossy_as_bytes,
    show (publish_catalog entry).board_hash = entry.board_hash from rfl, hboard]
  rfl

end messages

/-! ### The rows of the hub -/

namespace ProbeFeedConfig

variable {cfg : ProbeFeedConfig} {entry : ProbeCatalogEntry}

/-- The rows that the hub has after the dumps. -/
def entries (cfg : ProbeFeedConfig) : List ProbeCatalogEntry :=
  Table.fill ProbeCatalogEntry.probe_id (all_entries cfg.hashes cfg.catalogs)

/-- An entry is a probe that a board has printed. -/
def Printed (cfg : ProbeFeedConfig) (entry : ProbeCatalogEntry) : Prop :=
  ∃ board ∈ cfg.server.topo.boards, ∃ probe ∈ cfg.dump board, ∃ kind,
    from_catalog_kind probe.kind = some kind ∧
      entry = probe_entry cfg.hashes (cfg.collect board) probe kind

theorem printed_of_all (h : entry ∈ all_entries cfg.hashes cfg.catalogs) : cfg.Printed entry := by
  obtain ⟨dump, hdump, hin⟩ := List.mem_flatMap.mp h
  obtain ⟨board, hboard, rfl⟩ := List.mem_map.mp hdump
  obtain ⟨probe, hprobe, hentry⟩ := List.mem_filterMap.mp hin
  obtain ⟨kind, hkind, rfl⟩ := Option.map_eq_some_iff.mp hentry
  exact ⟨board, hboard, probe, hprobe, kind, hkind, rfl⟩

theorem printed_of_entries (h : entry ∈ cfg.entries) : cfg.Printed entry := by
  obtain ⟨before, after, heq, -⟩ := Table.mem_fill.mp h
  exact printed_of_all (heq ▸ List.mem_append_right _ List.mem_cons_self)

/-- Boards with one hash are one board. -/
theorem board_of_hash {a b : BoardSpec} (ha : a ∈ cfg.server.topo.boards)
    (hb : b ∈ cfg.server.topo.boards)
    (h : cfg.server.board_id_hash a.id = cfg.server.board_id_hash b.id) : a = b :=
  List.inj_on_of_nodup_map cfg.distinct ha hb h

/-- The server reads a row as it is in the hub. -/
theorem kept_entry (hwell : ∀ board ∈ cfg.catalogs, board.WellFormed cfg.hashes)
    (h : entry ∈ cfg.entries) : (publish_catalog entry).kept cfg.boards = some entry.shown := by
  obtain ⟨board, hboard, probe, hprobe, kind, -, rfl⟩ := printed_of_entries h
  refine kept_publish_catalog ?_ ?_
  · exact (hwell _ (List.mem_map_of_mem hboard)).sized probe hprobe
  · exact ServerSim.boards_new (fun a ha b hb hsame => by rw [board_of_hash ha hb hsame]) hboard

end ProbeFeedConfig

/-! ### One step -/

namespace ProbeFeed

variable {cfg : ProbeFeedConfig} {s s' : ProbeFeed} {h h' : ProbeFeedHistory}

theorem forward_cases {sent : Bool} (hstep : s.step cfg (.forward sent) = some s') :
    s.ended = false ∧ s' = { s with
      catalog_a2s :=
        if sent then Ring.push probe_catalog_a2s_buffer s.catalog_a2s s.next else s.catalog_a2s
      todo := s.todo.tail
      ended := s.todo.isEmpty } := by
  simp only [step, Option.ite_none_left_eq_some, Option.some.injEq, Bool.not_eq_true] at hstep
  exact ⟨hstep.1, hstep.2.symm⟩

theorem sample_cases {record : ProbeRecord} {sent : Bool}
    (hstep : s.step cfg (.sample record sent) = some s') :
    s' = if sent then
        { s with samples_a2s := Ring.push probe_a2s_buffer s.samples_a2s (publish_sample record) }
      else s := by
  simp only [step, Option.ite_none_left_eq_some] at hstep
  cases sent with
  | true => exact (Option.some.inj hstep.2).symm
  | false => exact (Option.some.inj hstep.2).symm

theorem poll_catalog_cases (hstep : s.step cfg .poll_catalog = some s') :
    ∃ sample rest, s.catalog_a2s = sample :: rest ∧
      s' = { s with catalog_a2s := rest, sim := (ingest_probe cfg.boards s.sim sample).1 } := by
  simp only [step] at hstep
  split at hstep
  · cases hstep
  · rename_i sample rest hqueue
    exact ⟨sample, rest, hqueue, (Option.some.inj hstep).symm⟩

theorem poll_sample_cases (hstep : s.step cfg .poll_sample = some s') :
    ∃ sample rest, s.samples_a2s = sample :: rest ∧
      s' = { s with samples_a2s := rest, sim := (ingest_probe cfg.boards s.sim sample).1 } := by
  simp only [step] at hstep
  split at hstep
  · cases hstep
  · rename_i sample rest hqueue
    exact ⟨sample, rest, hqueue, (Option.some.inj hstep).symm⟩

/-! ### What holds in every run -/

/-- The messages for the rows `done` and, at the end, the last one. -/
def messages (ended : Bool) (done : List ProbeCatalogEntry) : List ProbeToServer :=
  done.map publish_catalog ++ if ended then [publish_catalog_done] else []

/-- What the server knows is what it has read, and what it has read was sent for
    rows of the hub. -/
structure Held (cfg : ProbeFeedConfig) (s : ProbeFeed) (h : ProbeFeedHistory) : Prop where
  well : ∀ board ∈ cfg.catalogs, board.WellFormed cfg.hashes
  sent : ∃ done, (done ++ s.todo).Perm cfg.entries ∧ h.sent.Sublist (messages s.ended done)
  ended : s.ended = true → s.todo = []
  catalog : s.sim.probe_catalog =
    Table.fill CatalogPoint.probe_id (h.received.filterMap (ProbeToServer.kept cfg.boards))
  ready : s.sim.catalog_ready = h.received.any fun sample => sample.msg = msg_catalog_end
  line : (h.received ++ s.catalog_a2s).Sublist h.sent
  samples : ∃ line, s.samples_a2s = line.map publish_sample ∧
    (h.records ++ line).Sublist h.sampled

/-- One round of the arbiter's loop over the hub. -/
theorem messages_forward (done : List ProbeCatalogEntry) (hended : s.ended = false) :
    ∃ done', done ++ s.todo = done' ++ s.todo.tail ∧
      messages s.todo.isEmpty done' = messages s.ended done ++ [s.next] := by
  unfold messages next
  rw [hended, if_neg Bool.false_ne_true, List.append_nil]
  cases s.todo with
  | nil => exact ⟨done, rfl, rfl⟩
  | cons entry rest =>
    refine ⟨done ++ [entry], by simp, ?_⟩
    rw [List.map_append]
    exact List.append_nil _

theorem held_new {hub : ArbiterProbeHub} {todo : List ProbeCatalogEntry}
    (hhub : apply_probe_catalogs cfg.hashes .new cfg.catalogs = .ok hub)
    (htodo : todo.Perm hub.catalog) : Held cfg (.new todo) .new := by
  obtain ⟨hwell, rfl⟩ := apply_probe_catalogs_ok.mp hhub
  rw [ArbiterProbeHub.record_all_catalog] at htodo
  exact
    { well := hwell
      sent := ⟨[], htodo, List.nil_sublist _⟩
      ended := fun hfalse => by cases hfalse
      catalog := rfl
      ready := rfl
      line := List.Sublist.refl _
      samples := ⟨[], rfl, List.Sublist.refl _⟩ }

theorem held_forward (hheld : Held cfg s h) {sent : Bool}
    (hstep : s.step cfg (.forward sent) = some s') :
    Held cfg s' (ProbeFeedHistory.log cfg s (.forward sent) s' h) := by
  obtain ⟨hended, rfl⟩ := forward_cases hstep
  obtain ⟨done, hperm, hsub⟩ := hheld.sent
  -- A row that could not be sent counts as done, too.
  obtain ⟨done', htodo, hmessages⟩ := messages_forward done hended
  have hdone : s.todo.isEmpty = true → s.todo.tail = [] := fun hempty => by
    rw [List.isEmpty_iff.mp hempty, List.tail_nil]
  have hgrown : (h.sent ++ [s.next]).Sublist (messages s.todo.isEmpty done') := by
    rw [hmessages]
    exact hsub.append_right [s.next]
  cases sent with
  | true =>
    exact
      { well := hheld.well
        sent := ⟨done', htodo ▸ hperm, hgrown⟩
        ended := hdone
        catalog := hheld.catalog
        ready := hheld.ready
        line := by
          -- A full buffer drops its oldest message.
          refine ((Ring.push_sublist ..).append_left h.received).trans ?_
          rw [← List.append_assoc]
          exact hheld.line.append_right [s.next]
        samples := hheld.samples }
  | false =>
    exact
      { well := hheld.well
        sent := ⟨done', htodo ▸ hperm, (List.sublist_append_left ..).trans hgrown⟩
        ended := hdone
        catalog := hheld.catalog
        ready := hheld.ready
        line := hheld.line
        samples := hheld.samples }

theorem held_sample (hheld : Held cfg s h) {record : ProbeRecord} {sent : Bool}
    (hstep : s.step cfg (.sample record sent) = some s') :
    Held cfg s' (ProbeFeedHistory.log cfg s (.sample record sent) s' h) := by
  obtain rfl := sample_cases hstep
  cases sent with
  | false => exact { hheld with }
  | true =>
    obtain ⟨line, hqueue, hline⟩ := hheld.samples
    refine { hheld with samples := ⟨Ring.push probe_a2s_buffer line record, ?_, ?_⟩ }
    · show Ring.push probe_a2s_buffer s.samples_a2s (publish_sample record) = _
      unfold Ring.push
      rw [hqueue, List.length_map]
      split <;> simp
    · refine ((Ring.push_sublist ..).append_left h.records).trans ?_
      rw [← List.append_assoc]
      exact hline.append_right [record]

theorem held_poll_catalog (hheld : Held cfg s h) (hstep : s.step cfg .poll_catalog = some s') :
    Held cfg s' (ProbeFeedHistory.log cfg s .poll_catalog s' h) := by
  obtain ⟨sample, rest, hqueue, rfl⟩ := poll_catalog_cases hstep
  have htake : s.catalog_a2s.take 1 = [sample] := by
    rw [hqueue]
    rfl
  show Held cfg _ { h with received := h.received ++ s.catalog_a2s.take 1 }
  rw [htake, ingest_probe_fst]
  exact
    { hheld with
      catalog := by
        rw [hheld.catalog, List.filterMap_append]
        cases hkept : sample.kept cfg.boards with
        | none => simp [hkept]
        | some point =>
          simp only [List.filterMap_cons, hkept, List.filterMap_nil]
          exact Table.fill_append.symm
      ready := by
        rw [hheld.ready]
        simp
      line := by
        have hline := hheld.line
        rw [hqueue] at hline
        rwa [List.append_assoc] }

theorem held_poll_sample (hheld : Held cfg s h) (hstep : s.step cfg .poll_sample = some s') :
    Held cfg s' (ProbeFeedHistory.log cfg s .poll_sample s' h) := by
  obtain ⟨sample, rest, hqueue, rfl⟩ := poll_sample_cases hstep
  obtain ⟨line, hmap, hline⟩ := hheld.samples
  rw [hqueue] at hmap
  -- The message is one of those that were made of a record, and becomes it again.
  obtain ⟨record, line, rfl, rfl, rfl⟩ := List.map_eq_cons_iff.mp hmap.symm
  have hrecords : ((s.samples_a2s.take 1).filterMap fun sample =>
      (ingest_probe cfg.boards s.sim sample).2) = [record] := by
    rw [hqueue]
    simp [ingest_publish_sample]
  unfold ProbeFeedHistory.log
  dsimp only
  rw [hrecords, ingest_publish_sample]
  refine { hheld with samples := ⟨line, rfl, ?_⟩ }
  rwa [List.append_assoc]

theorem held_step {l : ProbeFeedStep} (hheld : Held cfg s h) (hstep : s.step cfg l = some s') :
    Held cfg s' (ProbeFeedHistory.log cfg s l s' h) := by
  cases l with
  | forward sent => exact held_forward hheld hstep
  | sample record sent => exact held_sample hheld hstep
  | poll_catalog => exact held_poll_catalog hheld hstep
  | poll_sample => exact held_poll_sample hheld hstep

theorem held_reachable {ok : Guard (ProbeFeed × ProbeFeedHistory) ProbeFeedStep}
    {x : ProbeFeed × ProbeFeedHistory} (hreach : Reachable (probe_feed cfg) ok x) :
    Held cfg x.1 x.2 := by
  induction hreach with
  | @init x hinit =>
    obtain ⟨⟨hub, hhub, todo, htodo, hnew⟩, hstart⟩ := hinit
    rw [hnew, hstart]
    exact held_new hhub htodo
  | step l _ _ hstep ih =>
    obtain ⟨hstep, hlog⟩ := System.logged_step_cases hstep
    rw [hlog]
    exact held_step ih hstep

/-! ### What the server shows -/

/-- The end of the catalog is no point. -/
theorem kept_done : publish_catalog_done.kept cfg.boards = none := if_neg catalog_ne_end.symm

/-- A message that gives a point was sent for a row of the hub. -/
theorem Held.kept (hheld : Held cfg s h) {sample : ProbeToServer} {point : CatalogPoint}
    (hsample : sample ∈ h.sent) (hkept : sample.kept cfg.boards = some point) :
    ∃ entry ∈ cfg.entries, point = entry.shown := by
  obtain ⟨done, hperm, hsub⟩ := hheld.sent
  rcases List.mem_append.mp (hsub.subset hsample) with hrow | hend
  · obtain ⟨entry, hentry, rfl⟩ := List.mem_map.mp hrow
    have hin : entry ∈ cfg.entries := hperm.subset (List.mem_append_left _ hentry)
    rw [ProbeFeedConfig.kept_entry hheld.well hin] at hkept
    exact ⟨entry, hin, (Option.some.inj hkept).symm⟩
  · rw [List.mem_ite_nil_right, List.mem_singleton] at hend
    rw [hend.2, kept_done] at hkept
    cases hkept

/-- A point of the catalog is a row of the hub. -/
theorem Held.point (hheld : Held cfg s h) {point : CatalogPoint}
    (hpoint : point ∈ s.sim.probe_catalog) : ∃ entry ∈ cfg.entries, point = entry.shown := by
  rw [hheld.catalog] at hpoint
  obtain ⟨before, after, hsplit, -⟩ := Table.mem_fill.mp hpoint
  have hin : point ∈ h.received.filterMap (ProbeToServer.kept cfg.boards) := by
    rw [hsplit]
    exact List.mem_append_right _ List.mem_cons_self
  obtain ⟨sample, hsample, hkept⟩ := List.mem_filterMap.mp hin
  exact hheld.kept (hheld.line.subset (List.mem_append_left _ hsample)) hkept

/-- No id has two points. -/
theorem Held.nodup (hheld : Held cfg s h) :
    (s.sim.probe_catalog.map CatalogPoint.probe_id).Nodup := by
  rw [hheld.catalog]
  exact Table.nodup_fill ..

/-- The id of a point is the one of a probe that its board has printed. -/
theorem Held.id_of_point (hheld : Held cfg s h) {point : CatalogPoint} {board : BoardSpec}
    (hpoint : point ∈ s.sim.probe_catalog) (hboard : board ∈ cfg.server.topo.boards)
    (hhash : cfg.server.board_id_hash board.id = point.board_hash) :
    point.probe_id ∈ (cfg.dump board).map fun probe =>
      cfg.hashes.probe_id_hash (cfg.server.board_id_hash board.id) probe.probe_label := by
  obtain ⟨entry, hentry, rfl⟩ := hheld.point hpoint
  obtain ⟨board', hboard', probe, hprobe, kind, -, rfl⟩ := ProbeFeedConfig.printed_of_entries hentry
  obtain rfl := ProbeFeedConfig.board_of_hash hboard hboard' hhash
  exact List.mem_map.mpr ⟨probe, hprobe, rfl⟩

/-- A board has no more points than it may have probes. -/
theorem Held.per_board (hheld : Held cfg s h) (board_hash : HashedId) :
    (s.sim.probe_catalog.filter fun point => point.board_hash = board_hash).length ≤
      max_probes_per_board := by
  by_cases hknown : ∃ board ∈ cfg.server.topo.boards,
      cfg.server.board_id_hash board.id = board_hash
  · obtain ⟨board, hboard, rfl⟩ := hknown
    have hnodup := (List.filter_sublist (p := fun point : CatalogPoint =>
      point.board_hash = cfg.server.board_id_hash board.id)).map CatalogPoint.probe_id |>.nodup
        hheld.nodup
    -- The points of the board have different ids, each of them of a probe in its dump.
    have hsub := List.subperm_of_subset hnodup fun id hid => by
      obtain ⟨point, hpoint, rfl⟩ := List.mem_map.mp hid
      obtain ⟨hin, hhash⟩ := List.mem_filter.mp hpoint
      exact hheld.id_of_point hin hboard (of_decide_eq_true hhash).symm
    have hlen := hsub.length_le
    rw [List.length_map, List.length_map] at hlen
    exact hlen.trans (hheld.well _ (List.mem_map_of_mem hboard)).few
  · have hnone : (s.sim.probe_catalog.filter fun point => point.board_hash = board_hash) = [] := by
      refine List.filter_eq_nil_iff.mpr fun point hpoint hhash => hknown ?_
      obtain ⟨entry, hentry, rfl⟩ := hheld.point hpoint
      obtain ⟨board, hboard, probe, hprobe, kind, -, rfl⟩ :=
        ProbeFeedConfig.printed_of_entries hentry
      exact ⟨board, hboard, of_decide_eq_true hhash⟩
    rw [hnone]
    exact Nat.zero_le _

/-- The point as the other models of the probes have it, with its board by
    number. -/
def Same (cfg : ProbeFeedConfig) (point : CatalogPoint)
    (named : ProbePointName cfg.server.topo.boards.length) : Prop :=
  named.probe_id = point.probe_id.toNat ∧
    cfg.server.board_id_hash (cfg.server.topo.boards.get named.board_hash).id =
      point.board_hash ∧
    named.name_hash = (cfg.hashes.probe_name_hash point.name).toNat ∧ named.kind = point.kind

/-- Every point has such a form. -/
theorem Held.same (hheld : Held cfg s h) {point : CatalogPoint}
    (hpoint : point ∈ s.sim.probe_catalog) : ∃ named, Same cfg point named := by
  obtain ⟨entry, hentry, rfl⟩ := hheld.point hpoint
  obtain ⟨board, hboard, probe, hprobe, kind, -, rfl⟩ := ProbeFeedConfig.printed_of_entries hentry
  obtain ⟨i, rfl⟩ := List.get_of_mem hboard
  exact ⟨⟨_, i, _, kind, toNat_lt_u64 _⟩, rfl, rfl, rfl, rfl⟩

/-- Points of one board in one form are points of one board in the other. -/
theorem length_same {points : List CatalogPoint}
    {named : List (ProbePointName cfg.server.topo.boards.length)}
    (hsame : List.Forall₂ (Same cfg) points named) (i : Fin cfg.server.topo.boards.length) :
    (named.filter fun point => point.board_hash = i).length ≤
      (points.filter fun point =>
        point.board_hash = cfg.server.board_id_hash (cfg.server.topo.boards.get i).id).length := by
  induction hsame with
  | nil => exact Nat.le_refl 0
  | @cons point one points named hone _ ih =>
    obtain ⟨-, hhash, -, -⟩ := hone
    rw [List.filter_cons, List.filter_cons]
    split
    · rename_i hboard
      obtain rfl := of_decide_eq_true hboard
      rw [if_pos (decide_eq_true hhash.symm)]
      exact Nat.succ_le_succ ih
    · split
      · exact ih.trans (Nat.le_succ _)
      · exact ih

def AnyStep (_ : ProbeFeed × ProbeFeedHistory) (_ : ProbeFeedStep) : Prop := True

instance (x : ProbeFeed × ProbeFeedHistory) (l : ProbeFeedStep) : Decidable (AnyStep x l) :=
  .isTrue trivial

/-- In every run, with any messages lost, the catalog of the server is one that
    the models of the probes start from; each of its points is a probe that its
    board has printed, and the records of the samples are, in their order, a part
    of those that the arbiter has sent. -/
theorem probe_catalog_printed {x : ProbeFeed × ProbeFeedHistory}
    (hreach : Reachable (probe_feed cfg) AnyStep x) :
    (∃ catalog : ProbeCatalog cfg.server.topo.boards.length,
      List.Forall₂ (Same cfg) x.1.sim.probe_catalog catalog.points) ∧
    (∀ point ∈ x.1.sim.probe_catalog, ∃ board ∈ cfg.server.topo.boards,
      ∃ probe ∈ cfg.dump board, ∃ kind, from_catalog_kind probe.kind = some kind ∧
        probe.probe = cfg.hashes.probe_name_hash probe.probe_label ∧
        point =
          { probe_id :=
              cfg.hashes.probe_id_hash (cfg.server.board_id_hash board.id) probe.probe_label
            board_hash := cfg.server.board_id_hash board.id
            board_label := board.id
            name := probe.probe_label
            kind := kind }) ∧
    x.2.records.Sublist x.2.sampled := by
  have hheld := held_reachable hreach
  refine ⟨?_, fun point hpoint => ?_, ?_⟩
  · obtain ⟨named, hsame⟩ := Fallible.forall₂_of_forall fun point hpoint =>
      hheld.same (hpoint : point ∈ x.1.sim.probe_catalog)
    have hids : named.map ProbePointName.probe_id =
        x.1.sim.probe_catalog.map fun point => point.probe_id.toNat :=
      Fallible.forall₂_map_eq hsame fun point one hone => hone.1
    have hnodup : (named.map ProbePointName.probe_id).Nodup := by
      rw [hids, show (fun point : CatalogPoint => point.probe_id.toNat) =
        UInt64.toNat ∘ CatalogPoint.probe_id from rfl, ← List.map_map]
      exact hheld.nodup.map fun _ _ => UInt64.toNat.inj
    exact ⟨⟨named, hnodup, fun i => (length_same hsame i).trans (hheld.per_board _)⟩, hsame⟩
  · obtain ⟨entry, hentry, rfl⟩ := hheld.point hpoint
    obtain ⟨board, hboard, probe, hprobe, kind, hkind, rfl⟩ :=
      ProbeFeedConfig.printed_of_entries hentry
    exact ⟨board, hboard, probe, hprobe, kind, hkind,
      (hheld.well _ (List.mem_map_of_mem hboard)).hashed probe hprobe, rfl⟩
  · obtain ⟨line, -, hline⟩ := hheld.samples
    exact (List.sublist_append_left ..).trans hline

/-- One board with two probes; a name has its length as hash. -/
def lone_feed : ProbeFeedConfig where
  server :=
    { board_id_hash := fun name => .ofNat name.length
      topo := ⟨[⟨"mcu", "rl78", none, []⟩], [], 0, 0, 0⟩ }
  hashes := ⟨fun name => .ofNat name.length, fun board name => board + .ofNat name.length⟩
  dump _ := [⟨2, "tx", "uart"⟩, ⟨3, "led", "digital"⟩]
  distinct := List.nodup_singleton _

/-- The hub is gone through from its end. -/
def lone_todo : List ProbeCatalogEntry :=
  [⟨"mcu", 3, "led", 3, 6, .Digital⟩, ⟨"mcu", 3, "tx", 2, 5, .Uart⟩]

/-- A sample of its UART. -/
def lone_record : ProbeRecord where
  probe_id := 5
  virtual_time_ns := 1
  kind := .Uart
  value := 2
  probe_lt := mod_lt_u64 5
  time_lt := mod_lt_u64 1
  value_lt := mod_lt_u16 2

theorem lone_feed_well : ∀ board ∈ lone_feed.catalogs, board.WellFormed lone_feed.hashes :=
  List.forall_mem_singleton.mpr
    { few := by decide
      sized := by decide +kernel
      hashed := by decide +kernel
      known := by decide +kernel
      distinct := by decide +kernel }

theorem init_lone_feed : (probe_feed lone_feed).init (.new lone_todo, .new) :=
  ⟨⟨_, apply_probe_catalogs_ok.mpr ⟨lone_feed_well, rfl⟩, lone_todo, by decide +kernel, rfl⟩, rfl⟩

/-- A message and a sample are lost, and another sample comes in. -/
theorem probe_catalog_printed_lone : ∃ x : ProbeFeed × ProbeFeedHistory,
    Reachable (probe_feed lone_feed) AnyStep x ∧
      x.1.sim = ⟨[⟨5, 3, "mcu", "tx", .Uart⟩], true⟩ ∧ x.2.records = [lone_record] ∧
      ∃ catalog : ProbeCatalog lone_feed.server.topo.boards.length,
        List.Forall₂ (Same lone_feed) x.1.sim.probe_catalog catalog.points := by
  obtain ⟨x, hreach, hsim, hrecords⟩ : ∃ x : ProbeFeed × ProbeFeedHistory,
      Reachable (probe_feed lone_feed) AnyStep x ∧
        x.1.sim = ⟨[⟨5, 3, "mcu", "tx", .Uart⟩], true⟩ ∧ x.2.records = [lone_record] :=
    Reachable.exists_of_exec
      [.forward false, .forward true, .forward true, .sample lone_record false,
        .sample lone_record true, .poll_sample, .poll_catalog, .poll_catalog]
      init_lone_feed (by decide +kernel)
  exact ⟨x, hreach, hsim, hrecords, (probe_catalog_printed hreach).1⟩

/-! ### When nothing is lost -/

/-- Every message of the catalog is sent. -/
def AllSent (_ : ProbeFeed × ProbeFeedHistory) (l : ProbeFeedStep) : Prop := l ≠ .forward false

instance (x : ProbeFeed × ProbeFeedHistory) (l : ProbeFeedStep) : Decidable (AllSent x l) :=
  inferInstanceAs (Decidable (l ≠ _))

/-- All messages have been sent, and none is lost. -/
structure Whole (cfg : ProbeFeedConfig) (s : ProbeFeed) (h : ProbeFeedHistory) : Prop where
  sent : ∃ done, (done ++ s.todo).Perm cfg.entries ∧ h.sent = messages s.ended done
  line : h.received ++ s.catalog_a2s = h.sent

theorem whole_forward (hroom : cfg.entries.length < probe_catalog_a2s_buffer)
    (hwhole : Whole cfg s h) (hstep : s.step cfg (.forward true) = some s') :
    Whole cfg s' (ProbeFeedHistory.log cfg s (.forward true) s' h) := by
  obtain ⟨hended, rfl⟩ := forward_cases hstep
  obtain ⟨done, hperm, hsent⟩ := hwhole.sent
  obtain ⟨done', htodo, hmessages⟩ := messages_forward done hended
  -- What is on its way are rows that are done, and there is one more to come.
  have hlt : s.catalog_a2s.length < probe_catalog_a2s_buffer := by
    have hlen := congrArg List.length hwhole.line
    rw [hsent, hended, messages, if_neg Bool.false_ne_true, List.append_nil, List.length_map,
      List.length_append] at hlen
    have hrows := hperm.length_eq
    rw [List.length_append] at hrows
    omega
  constructor
  · refine ⟨done', htodo ▸ hperm, ?_⟩
    show h.sent ++ [s.next] = messages s.todo.isEmpty done'
    rw [hmessages, hsent]
  · show h.received ++ Ring.push probe_catalog_a2s_buffer s.catalog_a2s s.next = h.sent ++ [s.next]
    rw [Ring.push_of_lt hlt, ← List.append_assoc, hwhole.line]

theorem whole_step (hroom : cfg.entries.length < probe_catalog_a2s_buffer) {l : ProbeFeedStep}
    (hwhole : Whole cfg s h) (hok : l ≠ .forward false) (hstep : s.step cfg l = some s') :
    Whole cfg s' (ProbeFeedHistory.log cfg s l s' h) := by
  cases l with
  | forward sent =>
    cases sent with
    | true => exact whole_forward hroom hwhole hstep
    | false => exact absurd rfl hok
  | sample record sent =>
    obtain rfl := sample_cases hstep
    cases sent with
    | true => exact { hwhole with }
    | false => exact { hwhole with }
  | poll_catalog =>
    obtain ⟨sample, rest, hqueue, rfl⟩ := poll_catalog_cases hstep
    refine { hwhole with line := ?_ }
    show h.received ++ s.catalog_a2s.take 1 ++ rest = h.sent
    rw [← hwhole.line, hqueue, List.append_assoc]
    rfl
  | poll_sample =>
    obtain ⟨sample, rest, -, rfl⟩ := poll_sample_cases hstep
    exact { hwhole with }

theorem whole_reachable (hroom : cfg.entries.length < probe_catalog_a2s_buffer)
    {x : ProbeFeed × ProbeFeedHistory} (hreach : Reachable (probe_feed cfg) AllSent x) :
    Whole cfg x.1 x.2 := by
  induction hreach with
  | @init x hinit =>
    obtain ⟨⟨hub, hhub, todo, htodo, hnew⟩, hstart⟩ := hinit
    obtain ⟨-, rfl⟩ := apply_probe_catalogs_ok.mp hhub
    rw [ArbiterProbeHub.record_all_catalog] at htodo
    rw [hnew, hstart]
    exact ⟨⟨[], htodo, rfl⟩, rfl⟩
  | step l _ hok hstep ih =>
    obtain ⟨hstep, hlog⟩ := System.logged_step_cases hstep
    rw [hlog]
    exact whole_step hroom ih hok hstep

/-- A catalog that is ready has been made of all rows of the hub. -/
theorem Whole.filled (hwhole : Whole cfg s h) (hheld : Held cfg s h)
    (hready : s.sim.catalog_ready = true) : ∃ done : List ProbeCatalogEntry,
      done.Perm cfg.entries ∧
      s.sim.probe_catalog =
        Table.fill CatalogPoint.probe_id (done.map ProbeCatalogEntry.shown) := by
  obtain ⟨done, hperm, hsent⟩ := hwhole.sent
  rw [hheld.ready, List.any_eq_true] at hready
  obtain ⟨last, hlast, hend⟩ := hready
  -- Only the last message makes the catalog ready, and it comes after all rows.
  have hrow : last ∉ done.map publish_catalog := by
    intro hin
    obtain ⟨entry, -, rfl⟩ := List.mem_map.mp hin
    exact catalog_ne_end (of_decide_eq_true hend)
  have hpre : h.received <+: messages s.ended done := ⟨s.catalog_a2s, hwhole.line.trans hsent⟩
  unfold messages at hpre
  cases hended : s.ended with
  | false =>
    rw [hended, if_neg Bool.false_ne_true, List.append_nil] at hpre
    exact absurd (hpre.subset hlast) hrow
  | true =>
    rw [hended, if_pos rfl] at hpre
    rw [hheld.ended hended, List.append_nil] at hperm
    refine ⟨done, hperm, ?_⟩
    rcases List.prefix_concat_iff.mp hpre with hall | hpart
    · have hrows : (done.map publish_catalog).filterMap (ProbeToServer.kept cfg.boards) =
          done.map ProbeCatalogEntry.shown := by
        rw [List.filterMap_map, ← List.filterMap_eq_map]
        refine List.filterMap_congr fun entry hentry => ?_
        exact ProbeFeedConfig.kept_entry hheld.well (hperm.subset hentry)
      rw [hheld.catalog, hall, List.filterMap_append, hrows, List.filterMap_cons_none kept_done,
        List.filterMap_nil, List.append_nil]
    · exact absurd (hpart.subset hlast) hrow

/-- When every message of the catalog is sent, and all of them fit into the
    buffer, a catalog that is ready has the last probe of every id, and nothing
    else, whatever samples have come in. -/
theorem probe_catalog_complete (cfg : ProbeFeedConfig)
    (hroom : cfg.entries.length < probe_catalog_a2s_buffer) {x : ProbeFeed × ProbeFeedHistory}
    (hreach : Reachable (probe_feed cfg) AllSent x) (hready : x.1.sim.catalog_ready = true) :
    ∀ point, point ∈ x.1.sim.probe_catalog ↔ ∃ entry,
      Table.Last ProbeCatalogEntry.probe_id entry (all_entries cfg.hashes cfg.catalogs) ∧
        point = entry.shown := by
  intro point
  obtain ⟨done, hperm, hfilled⟩ :=
    (whole_reachable hroom hreach).filled (held_reachable hreach) hready
  have hids : ((done.map ProbeCatalogEntry.shown).map CatalogPoint.probe_id).Nodup := by
    rw [List.map_map]
    exact (hperm.map _).nodup_iff.mpr (Table.nodup_fill ..)
  rw [hfilled, Table.mem_fill_of_nodup hids, List.mem_map]
  constructor
  · rintro ⟨entry, hentry, rfl⟩
    exact ⟨entry, Table.mem_fill.mp (hperm.subset hentry), rfl⟩
  · rintro ⟨entry, hlast, rfl⟩
    exact ⟨entry, hperm.symm.subset (Table.mem_fill.mpr hlast), rfl⟩

/-- Both rows are sent, and the server has read them and the end. -/
theorem probe_catalog_complete_lone : ∃ x : ProbeFeed × ProbeFeedHistory,
    Reachable (probe_feed lone_feed) AllSent x ∧
      x.1.sim.probe_catalog = [⟨6, 3, "mcu", "led", .Digital⟩, ⟨5, 3, "mcu", "tx", .Uart⟩] ∧
      ∀ point, point ∈ x.1.sim.probe_catalog ↔ ∃ entry,
        Table.Last ProbeCatalogEntry.probe_id entry
          (all_entries lone_feed.hashes lone_feed.catalogs) ∧ point = entry.shown := by
  obtain ⟨x, hreach, hready, hpoints⟩ : ∃ x : ProbeFeed × ProbeFeedHistory,
      Reachable (probe_feed lone_feed) AllSent x ∧ x.1.sim.catalog_ready = true ∧
        x.1.sim.probe_catalog = [⟨6, 3, "mcu", "led", .Digital⟩, ⟨5, 3, "mcu", "tx", .Uart⟩] :=
    Reachable.exists_of_exec
      [.forward true, .poll_catalog, .forward true, .forward true, .poll_catalog, .poll_catalog]
      init_lone_feed (by decide +kernel)
  exact ⟨x, hreach, hpoints, probe_catalog_complete lone_feed (by decide +kernel) hreach hready⟩

end ProbeFeed

end Rl78Sim
