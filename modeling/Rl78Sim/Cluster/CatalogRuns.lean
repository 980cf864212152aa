import Rl78Sim.Cluster.CatalogFeed

/-! # What the Server Knows of the Actions

    Every row of the catalog is one that a board has printed, and no action has
    two. When all rows fit into the buffer, a catalog whose end has been read
    has the last row of every action, however the processes are interleaved, and
    the check of a request passes exactly for the actions that were printed.
-/

namespace Rl78Sim

open Transition ActionWire

variable {cfg : CatalogConfig}

/-! ### One sample -/

/-- The sample is from the board that it was packed for. -/
theorem advertise_from {id_hash : String → Nat} {from_ : Nat} {entry : ActionCatalogEntry}
    {sample : ActionAdvertise} (h : ActionAdvertise.new id_hash from_ entry = .ok sample) :
    sample.from_ = from_ := by
  unfold ActionAdvertise.new at h
  split at h
  · cases h
  split at h
  · cases h
  split at h
  · cases h
  obtain ⟨⟨device_len, device⟩, -, h⟩ := Fallible.bind_ok h
  obtain ⟨⟨action_len, action⟩, -, h⟩ := Fallible.bind_ok h
  obtain ⟨⟨description_len, description⟩, -, h⟩ := Fallible.bind_ok h
  obtain ⟨params, -, h⟩ := Fallible.bind_ok h
  obtain rfl := Except.ok.inj h
  rfl

/-- The sample is the end of the catalog. -/
def ActionUpstream.is_end : ActionUpstream → Bool
  | .CatalogEnd => true
  | _ => false

namespace CatalogConfig

/-- The row that the server makes of a sample. -/
def public_row (cfg : CatalogConfig) : ActionUpstream → Option ActionWire.AdvertisedAction
  | .Advertise sample => (cfg.board_label sample.from_).bind fun board_label =>
      (ActionWire.AdvertisedAction.new cfg.name_hash sample.from_ board_label sample).toOption
  | _ => none

theorem board_of_row {row : String × CatalogAction} (h : row ∈ cfg.rows) :
    ∃ board ∈ cfg.server.topo.boards, board.id = row.1 ∧ row.2 ∈ cfg.dump board := by
  obtain ⟨board, hboard, hin⟩ := List.mem_flatMap.mp h
  obtain ⟨action, haction, rfl⟩ := List.mem_map.mp hin
  exact ⟨board, hboard, rfl, haction⟩

/-- The server knows the board of a row. -/
theorem board_label_of_row {row : String × CatalogAction} (h : row ∈ cfg.rows) :
    cfg.board_label (cfg.server.board_id_hash row.1).toNat = some row.1 := by
  obtain ⟨board, hboard, hid, -⟩ := board_of_row h
  unfold board_label
  rw [UInt64.ofNat_toNat, ← hid]
  exact ServerSim.boards_new cfg.distinct hboard

/-- What was packed of a row is read as the row. -/
theorem public_row_advertise {row : String × CatalogAction} {sample : ActionAdvertise}
    (hrow : row ∈ cfg.rows) (h : cfg.advertise row = .ok sample) :
    cfg.public_row (.Advertise sample) = some (cfg.shown row) := by
  have hfrom := advertise_from h
  obtain ⟨-, -, hread⟩ := ActionAdvertise.new_ok h (cfg.server.board_id_hash row.1).toNat row.1
  unfold public_row
  dsimp only
  rw [hfrom, board_label_of_row hrow, Option.bind_some, hread]
  rfl

end CatalogConfig

/-! ### One step -/

namespace CatalogFeed

variable {s s' : CatalogFeed} {h h' : FeedHistory} {msg : ActionUpstream}

theorem receive_eq (s : CatalogFeed) (msg : ActionUpstream) : s.receive cfg msg =
    { s with
      catalog := (cfg.public_row msg).elim s.catalog (upsert_catalog s.catalog)
      ready := s.ready || msg.is_end } := by
  cases msg with
  | Advertise sample =>
    unfold receive CatalogConfig.public_row
    dsimp only
    cases cfg.board_label sample.from_ with
    | none => simp [ActionUpstream.is_end]
    | some board_label =>
      dsimp only [Option.bind_some]
      cases ActionWire.AdvertisedAction.new cfg.name_hash sample.from_ board_label sample with
      | ok body => simp [ActionUpstream.is_end, Except.toOption]
      | error err => simp [ActionUpstream.is_end, Except.toOption]
  | Result request_id status => simp [receive, CatalogConfig.public_row, ActionUpstream.is_end]
  | CatalogEnd => simp [receive, CatalogConfig.public_row, ActionUpstream.is_end]

theorem publish_cases {sent : Bool} (hstep : s.step cfg (.publish sent) = some s') :
    s.ended = false ∧ s.gone = false ∧
      s' = if sent then s.publish cfg else { s with gone := true } := by
  simp only [step, Option.ite_none_left_eq_some, Option.some.injEq, not_or,
    Bool.not_eq_true] at hstep
  exact ⟨hstep.1.1, hstep.1.2, hstep.2.symm⟩

theorem result_cases {request_id : Nat} {status : ActionStatus} {sent : Bool}
    (hstep : s.step cfg (.result request_id status sent) = some s') :
    s.ended = true ∧ s.asked ≠ 0 ∧
      s' = if sent then
          { s with
            a2s := Ring.push cfg.buffer s.a2s (.Result request_id status)
            asked := s.asked - 1 }
        else { s with gone := true } := by
  simp only [step, Option.ite_none_right_eq_some, Option.some.injEq] at hstep
  exact ⟨hstep.1.1, Nat.ne_of_gt hstep.1.2.2, hstep.2.symm⟩

theorem poll_cases (hstep : s.step cfg .poll = some s') :
    ∃ msg rest, s.a2s = msg :: rest ∧ s' = { s with a2s := rest }.receive cfg msg := by
  simp only [step] at hstep
  split at hstep
  · cases hstep
  · rename_i msg rest ha2s
    exact ⟨msg, rest, ha2s, (Option.some.inj hstep).symm⟩

theorem request_cases (hstep : s.step cfg .request = some s') :
    s.ready = true ∧ s' = { s with asked := s.asked + 1 } := by
  simp only [step, Option.ite_none_right_eq_some, Option.some.injEq] at hstep
  exact ⟨hstep.1, hstep.2.symm⟩

/-! ### What holds in every run -/

/-- The arbiter has packed the rows `done`, in `samples`. -/
def Packed (cfg : CatalogConfig) (done : List (String × CatalogAction))
    (samples : List ActionAdvertise) : Prop :=
  List.Forall₂ (fun row sample => cfg.advertise row = .ok sample) done samples

/-- What the server knows is what it has read, and what it has read was
    published in that order. A result comes after the end of the catalog. -/
structure Held (cfg : CatalogConfig) (s : CatalogFeed) (h : FeedHistory) : Prop where
  lead : ∃ done samples, cfg.rows = done ++ s.todo ∧ Packed cfg done samples ∧
    h.lead = samples.map .Advertise ++ if s.ended then [.CatalogEnd] else []
  ended : s.ended = true → s.todo = []
  results : ∀ msg ∈ h.results, cfg.public_row msg = none ∧ msg.is_end = false
  late : s.ended = false → h.results = []
  catalog : s.catalog = Table.fill action_key (h.received.filterMap cfg.public_row)
  ready : s.ready = h.received.any ActionUpstream.is_end
  asked : s.asked ≠ 0 → s.ready = true
  line : (h.received ++ s.a2s).Sublist (h.lead ++ h.results)

theorem held_new (cfg : CatalogConfig) : Held cfg (.new cfg) .new where
  lead := ⟨[], [], rfl, .nil, rfl⟩
  ended h := by cases h
  results := List.forall_mem_nil _
  late _ := rfl
  catalog := rfl
  ready := rfl
  asked h := absurd rfl h
  line := List.Sublist.refl _

/-- The arbiter gives up. -/
theorem Held.fail (hheld : Held cfg s h) : Held cfg { s with gone := true } h where
  lead := hheld.lead
  ended := hheld.ended
  results := hheld.results
  late := hheld.late
  catalog := hheld.catalog
  ready := hheld.ready
  asked := hheld.asked
  line := hheld.line

/-- A sample is published at the end of the line. -/
theorem Held.line_push (hheld : Held cfg s h) (hended : s.ended = false) (msg : ActionUpstream) :
    (h.received ++ Ring.push cfg.buffer s.a2s msg).Sublist (h.lead ++ [msg] ++ h.results) := by
  have hline := hheld.line
  rw [hheld.late hended, List.append_nil] at hline ⊢
  refine ((Ring.push_sublist cfg.buffer s.a2s msg).append_left h.received).trans ?_
  rw [← List.append_assoc]
  exact hline.append_right [msg]

theorem held_publish (hheld : Held cfg s h) (hended : s.ended = false) :
    Held cfg (s.publish cfg) { h with lead := h.lead ++ FeedHistory.next_lead cfg s } := by
  obtain ⟨done, samples, hrows, hpacked, hlead⟩ := hheld.lead
  rw [hended] at hlead
  unfold publish FeedHistory.next_lead
  cases htodo : s.todo with
  | nil =>
    dsimp only
    exact
      { lead := ⟨done, samples, hrows.trans (by rw [htodo]), hpacked, by
          rw [hlead]
          simp⟩
        ended := fun _ => rfl
        results := hheld.results
        late := fun hfalse => by cases hfalse
        catalog := hheld.catalog
        ready := hheld.ready
        asked := hheld.asked
        line := hheld.line_push hended .CatalogEnd }
  | cons row rest =>
    dsimp only
    cases hsample : cfg.advertise row with
    | error err =>
      dsimp only
      rw [List.append_nil, ← htodo]
      exact hheld.fail
    | ok sample =>
      dsimp only
      have hrows' : cfg.rows = done ++ [row] ++ rest := by
        rw [hrows, htodo, List.append_assoc]
        rfl
      exact
        { lead := ⟨done ++ [row], samples ++ [sample], hrows',
            List.rel_append hpacked (.cons hsample .nil), by
              rw [hlead, hended]
              simp⟩
          ended := fun htrue => by
            rw [hended] at htrue
            cases htrue
          results := hheld.results
          late := hheld.late
          catalog := hheld.catalog
          ready := hheld.ready
          asked := hheld.asked
          line := hheld.line_push hended (.Advertise sample) }

theorem held_result (hheld : Held cfg s h) (hended : s.ended = true) (hasked : s.asked ≠ 0)
    (request_id : Nat) (status : ActionStatus) :
    Held cfg
      { s with
        a2s := Ring.push cfg.buffer s.a2s (.Result request_id status)
        asked := s.asked - 1 }
      { h with results := h.results ++ [.Result request_id status] } where
  lead := hheld.lead
  ended := hheld.ended
  results msg hin := by
    rcases List.mem_append.mp hin with hold | hnew
    · exact hheld.results msg hold
    · rw [List.mem_singleton.mp hnew]
      exact ⟨rfl, rfl⟩
  late hfalse := by
    rw [hended] at hfalse
    cases hfalse
  catalog := hheld.catalog
  ready := hheld.ready
  asked _ := hheld.asked hasked
  line := by
    refine ((Ring.push_sublist cfg.buffer s.a2s _).append_left h.received).trans ?_
    rw [← List.append_assoc, ← List.append_assoc]
    exact hheld.line.append_right _

theorem held_poll (hheld : Held cfg s h) {rest : List ActionUpstream} (ha2s : s.a2s = msg :: rest) :
    Held cfg ({ s with a2s := rest }.receive cfg msg)
      { h with received := h.received ++ [msg] } := by
  rw [receive_eq]
  exact
    { lead := hheld.lead
      ended := hheld.ended
      results := hheld.results
      late := hheld.late
      catalog := by
        rw [hheld.catalog, List.filterMap_append]
        cases hrow : cfg.public_row msg with
        | none => simp [hrow]
        | some row =>
          simp only [List.filterMap_cons, hrow, List.filterMap_nil]
          exact Table.fill_append.symm
      ready := by
        rw [hheld.ready]
        simp
      asked := fun hasked => by
        rw [hheld.asked hasked]
        rfl
      line := by
        have hline := hheld.line
        rw [ha2s] at hline
        rwa [List.append_assoc] }

theorem held_step {l : FeedStep} (hheld : Held cfg s h) (hstep : s.step cfg l = some s') :
    Held cfg s' (FeedHistory.record cfg s l s' h) := by
  cases l with
  | publish sent =>
    obtain ⟨hended, -, rfl⟩ := publish_cases hstep
    cases sent with
    | true => exact held_publish hheld hended
    | false => exact hheld.fail
  | result request_id status sent =>
    obtain ⟨hended, hasked, rfl⟩ := result_cases hstep
    cases sent with
    | true => exact held_result hheld hended hasked request_id status
    | false => exact hheld.fail
  | poll =>
    obtain ⟨msg, rest, ha2s, rfl⟩ := poll_cases hstep
    have htake : s.a2s.take 1 = [msg] := by rw [ha2s]; rfl
    show Held cfg _ { h with received := h.received ++ s.a2s.take 1 }
    rw [htake]
    exact held_poll hheld ha2s
  | request =>
    obtain ⟨hready, rfl⟩ := request_cases hstep
    exact { hheld with asked := fun _ => hready }

/-! ### When all rows fit into the buffer -/

/-- No end is read that was not published. -/
theorem Held.ended_of_ready (hheld : Held cfg s h) (hready : s.ready = true) : s.ended = true := by
  obtain ⟨done, samples, -, -, hlead⟩ := hheld.lead
  rw [hheld.ready, List.any_eq_true] at hready
  obtain ⟨msg, hmsg, hend⟩ := hready
  by_contra hended
  have hline := hheld.line.subset (List.mem_append_left _ hmsg)
  rw [hheld.late (Bool.not_eq_true _ ▸ hended), List.append_nil, hlead, if_neg hended,
    List.append_nil] at hline
  obtain ⟨sample, -, rfl⟩ := List.mem_map.mp hline
  cases hend

/-- The end of the catalog has been read only after all that was published
    before it. -/
theorem Held.lead_received (hheld : Held cfg s h) (hlead_in : h.lead <+: h.received ++ s.a2s)
    (hready : s.ready = true) : h.lead <+: h.received := by
  obtain ⟨done, samples, -, -, hlead⟩ := hheld.lead
  rw [hheld.ended_of_ready hready, if_pos rfl] at hlead
  rw [hheld.ready, List.any_eq_true] at hready
  obtain ⟨msg, hmsg, hend⟩ := hready
  rcases List.prefix_or_prefix_of_prefix hlead_in (List.prefix_append ..) with hle | hle
  · exact hle
  · -- What has been read before the end has no end in it.
    rw [hlead] at hle ⊢
    rcases List.prefix_concat_iff.mp hle with hall | hpart
    · exact hall ▸ List.prefix_rfl
    · obtain ⟨sample, -, rfl⟩ := List.mem_map.mp (hpart.subset hmsg)
      cases hend

/-- No sample of the catalog is lost. -/
theorem lead_step {l : FeedStep} (hroom : cfg.rows.length < cfg.buffer) (hheld : Held cfg s h)
    (hlead_in : h.lead <+: h.received ++ s.a2s) (hstep : s.step cfg l = some s')
    (hh' : h' = FeedHistory.record cfg s l s' h) : h'.lead <+: h'.received ++ s'.a2s := by
  subst hh'
  cases l with
  | publish sent =>
    obtain ⟨hended, -, rfl⟩ := publish_cases hstep
    cases sent with
    | false => exact hlead_in
    | true =>
      -- As long as the catalog has not ended, the line is what was published.
      have hline := hheld.line
      rw [hheld.late hended, List.append_nil] at hline
      have heq : h.received ++ s.a2s = h.lead := hline.antisymm hlead_in.sublist
      have hlt : s.a2s.length < cfg.buffer := by
        obtain ⟨done, samples, hrows, hpacked, hlead⟩ := hheld.lead
        rw [hended, if_neg Bool.false_ne_true, List.append_nil] at hlead
        have hlen := congrArg List.length heq
        rw [hlead, List.length_append, List.length_map, ← hpacked.length_eq] at hlen
        rw [hrows, List.length_append] at hroom
        omega
      show h.lead ++ FeedHistory.next_lead cfg s <+: h.received ++ (s.publish cfg).a2s
      unfold publish FeedHistory.next_lead
      cases s.todo with
      | nil =>
        dsimp only
        rw [Ring.push_of_lt hlt, ← List.append_assoc]
        exact heq ▸ List.prefix_rfl
      | cons row rest =>
        dsimp only
        cases cfg.advertise row with
        | error err =>
          dsimp only
          rw [List.append_nil]
          exact heq ▸ List.prefix_rfl
        | ok sample =>
          dsimp only
          rw [Ring.push_of_lt hlt, ← List.append_assoc]
          exact heq ▸ List.prefix_rfl
  | result request_id status sent =>
    obtain ⟨hended, hasked, rfl⟩ := result_cases hstep
    cases sent with
    | false => exact hlead_in
    | true =>
      exact (hheld.lead_received hlead_in (hheld.asked hasked)).trans (List.prefix_append ..)
  | poll =>
    obtain ⟨msg, rest, ha2s, rfl⟩ := poll_cases hstep
    show h.lead <+: h.received ++ s.a2s.take 1 ++ ({ s with a2s := rest }.receive cfg msg).a2s
    rw [receive_eq, ha2s, List.append_assoc]
    rwa [ha2s] at hlead_in
  | request =>
    obtain ⟨-, rfl⟩ := request_cases hstep
    exact hlead_in

/-! ### Whole runs -/

def AnyStep (_ : CatalogFeed × FeedHistory) (_ : FeedStep) : Prop := True

instance (x : CatalogFeed × FeedHistory) (l : FeedStep) : Decidable (AnyStep x l) := .isTrue trivial

theorem held_reachable {x : CatalogFeed × FeedHistory}
    (hreach : Reachable (catalog_feed cfg) AnyStep x) : Held cfg x.1 x.2 := by
  induction hreach with
  | init hinit =>
    obtain ⟨hnew, hstart⟩ := hinit
    rw [hnew, hstart]
    exact held_new cfg
  | step l _ _ hstep ih =>
    obtain ⟨hstep, hh'⟩ := System.logged_step_cases hstep
    rw [hh']
    exact held_step ih hstep

theorem lead_reachable (hroom : cfg.rows.length < cfg.buffer) {x : CatalogFeed × FeedHistory}
    (hreach : Reachable (catalog_feed cfg) AnyStep x) : x.2.lead <+: x.2.received ++ x.1.a2s := by
  induction hreach with
  | init hinit => exact hinit.2 ▸ List.nil_prefix
  | step l hreach _ hstep ih =>
    obtain ⟨hstep, hh'⟩ := System.logged_step_cases hstep
    exact lead_step hroom (held_reachable hreach) ih hstep hh'

/-- What was packed for the rows is read as the rows. -/
theorem public_rows {done : List (String × CatalogAction)} {samples : List ActionAdvertise}
    (hpacked : Packed cfg done samples) (hrows : ∀ row ∈ done, row ∈ cfg.rows) :
    (samples.map ActionUpstream.Advertise).filterMap cfg.public_row = done.map cfg.shown := by
  induction hpacked with
  | nil => rfl
  | cons hsample _ ih =>
    rw [List.map_cons, List.filterMap_cons,
      CatalogConfig.public_row_advertise (hrows _ List.mem_cons_self) hsample,
      ih fun row hin => hrows row (List.mem_cons_of_mem _ hin), List.map_cons]

/-- A result is no row. -/
theorem Held.no_rows (hheld : Held cfg s h) {part : List ActionUpstream}
    (hpart : part.Sublist h.results) : part.filterMap cfg.public_row = [] :=
  List.filterMap_eq_nil_iff.mpr fun msg hin => (hheld.results msg (hpart.subset hin)).1

/-- The rows that the arbiter has published. -/
theorem Held.lead_rows (hheld : Held cfg s h) :
    ∃ done, cfg.rows = done ++ s.todo ∧ h.lead.filterMap cfg.public_row = done.map cfg.shown ∧
      ∀ row ∈ done, row.2.entry.Hashed cfg.name_hash ∧ row.2.entry.Fits := by
  obtain ⟨done, samples, hrows, hpacked, hlead⟩ := hheld.lead
  have hdone (row) (hin : row ∈ done) : row ∈ cfg.rows := by
    rw [hrows]
    exact List.mem_append_left _ hin
  refine ⟨done, hrows, ?_, fun row hin => ?_⟩
  · rw [hlead, List.filterMap_append, public_rows hpacked hdone]
    cases s.ended <;> simp [CatalogConfig.public_row]
  · obtain ⟨sample, -, hsample⟩ := Fallible.forall₂_exists_right hpacked hin
    obtain ⟨hhashed, hfits, -⟩ := ActionAdvertise.new_ok hsample 0 ""
    exact ⟨hhashed, hfits⟩

/-- In every run each row of the catalog is one that a board has printed, with
    the right hashes and within the capacities, and no action has two rows. -/
theorem catalog_printed {x : CatalogFeed × FeedHistory}
    (hreach : Reachable (catalog_feed cfg) AnyStep x) :
    (x.1.catalog.map action_key).Nodup ∧
      ∀ row ∈ x.1.catalog, ∃ board ∈ cfg.server.topo.boards, ∃ action ∈ cfg.dump board,
        row = action.entry.shown (cfg.server.board_id_hash board.id).toNat board.id ∧
        action.entry.Hashed cfg.name_hash ∧ action.entry.Fits := by
  have hheld := held_reachable hreach
  rw [hheld.catalog]
  refine ⟨Table.nodup_fill .., fun row hrow => ?_⟩
  obtain ⟨before, after, hsplit, -⟩ := Table.mem_fill.mp hrow
  have hin : row ∈ x.2.received.filterMap cfg.public_row := by
    rw [hsplit]
    exact List.mem_append_right _ List.mem_cons_self
  -- What has been read is a part of what was published, and results are no rows.
  have hpart := ((List.sublist_append_left x.2.received x.1.a2s).trans hheld.line).filterMap
    cfg.public_row
  rw [List.filterMap_append, hheld.no_rows (List.Sublist.refl _), List.append_nil] at hpart
  obtain ⟨done, hrows, hlead, hfits⟩ := hheld.lead_rows
  rw [hlead] at hpart
  obtain ⟨printed, hprinted, rfl⟩ := List.mem_map.mp (hpart.subset hin)
  obtain ⟨board, hboard, hid, haction⟩ := CatalogConfig.board_of_row
    (hrows ▸ List.mem_append_left _ hprinted : printed ∈ cfg.rows)
  exact ⟨board, hboard, printed.2, haction, by rw [hid]; rfl, hfits printed hprinted⟩

/-- A name has its length as hash. -/
def name_length (name : String) : HashedId := .ofNat name.length

/-- One board with two actions, of which it prints the first twice. -/
def lone_catalog : CatalogConfig where
  server :=
    { board_id_hash := name_length
      topo := ⟨[⟨"mcu", "rl78", none, []⟩], [], 0, 0, 0⟩ }
  id_hash := name_length
  dump _ := [⟨3, "sw1", 4, "hold", "press", []⟩, ⟨3, "sw1", 7, "release", "let go", []⟩,
    ⟨3, "sw1", 4, "hold", "press it", []⟩]
  distinct := by simp

theorem init_lone_catalog : (catalog_feed lone_catalog).init (.new lone_catalog, .new) := ⟨rfl, rfl⟩

/-- The server has read the rows of both actions, and not yet the new one. -/
theorem catalog_printed_two : ∃ x : CatalogFeed × FeedHistory,
    Reachable (catalog_feed lone_catalog) AnyStep x ∧
      x.1.catalog.map (·.description) = ["press", "let go"] ∧
      (x.1.catalog.map action_key).Nodup ∧
      ∀ row ∈ x.1.catalog, ∃ board ∈ lone_catalog.server.topo.boards,
        ∃ action ∈ lone_catalog.dump board,
          row = action.entry.shown (lone_catalog.server.board_id_hash board.id).toNat board.id ∧
          action.entry.Hashed lone_catalog.name_hash ∧ action.entry.Fits := by
  obtain ⟨x, hreach, hrows⟩ : ∃ x : CatalogFeed × FeedHistory,
      Reachable (catalog_feed lone_catalog) AnyStep x ∧
        x.1.catalog.map (·.description) = ["press", "let go"] :=
    Reachable.exists_of_exec [.publish true, .publish true, .poll, .publish true, .poll]
      init_lone_catalog (by decide +kernel)
  exact ⟨x, hreach, hrows, catalog_printed hreach⟩

/-- A catalog that is ready has been filled with all rows. -/
theorem catalog_filled (hroom : cfg.rows.length < cfg.buffer) {x : CatalogFeed × FeedHistory}
    (hreach : Reachable (catalog_feed cfg) AnyStep x) (hready : x.1.ready = true) :
    x.1.catalog = Table.fill action_key (cfg.rows.map cfg.shown) := by
  have hheld := held_reachable hreach
  obtain ⟨later, hreceived⟩ := hheld.lead_received (lead_reachable hroom hreach) hready
  have hlater : later.Sublist x.2.results := by
    have hline := hheld.line
    rw [← hreceived, List.append_assoc] at hline
    exact (List.sublist_append_left ..).trans ((List.append_sublist_append_left _).mp hline)
  obtain ⟨done, hrows, hlead, -⟩ := hheld.lead_rows
  rw [hheld.ended (hheld.ended_of_ready hready), List.append_nil] at hrows
  rw [hheld.catalog, ← hreceived, List.filterMap_append, hheld.no_rows hlater, List.append_nil,
    hlead, hrows]

/-! ### Requests -/

/-- What a request is compared with. -/
def key_row (key : Nat × Nat × Nat) : Rl78Sim.AdvertisedAction :=
  ⟨.ofNat key.1, .ofNat key.2.1, .ofNat key.2.2⟩

/-- The row as a request sees it. -/
def invoke_row (row : ActionWire.AdvertisedAction) : Rl78Sim.AdvertisedAction :=
  key_row (action_key row)

theorem invoke_row_shown (row : String × CatalogAction) : invoke_row (cfg.shown row) =
    ⟨cfg.server.board_id_hash row.1, row.2.device, row.2.action⟩ := by
  show AdvertisedAction.mk (.ofNat (cfg.server.board_id_hash row.1).toNat)
    (.ofNat row.2.device.toNat) (.ofNat row.2.action.toNat) = _
  rw [UInt64.ofNat_toNat, UInt64.ofNat_toNat, UInt64.ofNat_toNat]

/-- The check of a request passes for the rows of the catalog, and for no
    others. -/
theorem catalog_invoke_error_none {V : Type} {catalog : List Rl78Sim.AdvertisedAction}
    {request : InvokeActionRequest V} : catalog_invoke_error catalog request = none ↔
      ⟨request.board_id, request.device, request.action⟩ ∈ catalog := by
  unfold catalog_invoke_error
  dsimp only
  split
  · rename_i hany
    refine iff_of_true rfl ?_
    obtain ⟨row, hrow, hsame⟩ := List.any_eq_true.mp hany
    obtain ⟨hin, hboard⟩ := List.mem_filter.mp hrow
    obtain ⟨hdevice, haction⟩ := of_decide_eq_true hsame
    rw [← of_decide_eq_true hboard, ← hdevice, ← haction]
    exact hin
  · rename_i hany
    refine iff_of_false (by split <;> exact Option.some_ne_none _) fun hin => hany ?_
    exact List.any_eq_true.mpr
      ⟨_, List.mem_filter.mpr ⟨hin, decide_eq_true rfl⟩, decide_eq_true ⟨rfl, rfl⟩⟩

/-- When all rows fit into the buffer, a catalog that is ready has the last row
    of every action, and a request passes its check exactly for an action that
    its board has printed. -/
theorem catalog_complete (cfg : CatalogConfig) (hroom : cfg.rows.length < cfg.buffer)
    {x : CatalogFeed × FeedHistory} (hreach : Reachable (catalog_feed cfg) AnyStep x)
    (hready : x.1.ready = true) :
    (∀ row, row ∈ x.1.catalog ↔ Table.Last action_key row (cfg.rows.map cfg.shown)) ∧
    ∀ request : InvokeActionRequest F64,
      catalog_invoke_error (x.1.catalog.map invoke_row) request = none ↔
        ∃ board ∈ cfg.server.topo.boards, ∃ action ∈ cfg.dump board,
          cfg.server.board_id_hash board.id = request.board_id ∧
          action.device = request.device ∧ action.action = request.action := by
  rw [catalog_filled hroom hreach hready]
  refine ⟨fun row => Table.mem_fill, fun request => ?_⟩
  have hkey (row : ActionWire.AdvertisedAction) : invoke_row row = key_row (action_key row) := rfl
  rw [catalog_invoke_error_none, Table.mem_map_fill hkey, List.map_map, List.mem_map]
  constructor
  · rintro ⟨row, hrow, hsame⟩
    obtain ⟨board, hboard, hid, haction⟩ := CatalogConfig.board_of_row hrow
    obtain ⟨hboard_id, hdevice, hact⟩ :=
      AdvertisedAction.mk.inj ((invoke_row_shown row).symm.trans hsame)
    exact ⟨board, hboard, row.2, haction, hid ▸ hboard_id, hdevice, hact⟩
  · rintro ⟨board, hboard, action, haction, hboard_id, hdevice, hact⟩
    have hrow : (board.id, action) ∈ cfg.rows :=
      List.mem_flatMap.mpr ⟨board, hboard, List.mem_map_of_mem haction⟩
    refine ⟨_, hrow, (invoke_row_shown _).trans ?_⟩
    rw [hboard_id, hdevice, hact]

/-- A whole run: the last row has replaced the first, and a request has got its
    result. -/
theorem catalog_complete_lone : ∃ x : CatalogFeed × FeedHistory,
    Reachable (catalog_feed lone_catalog) AnyStep x ∧
      x.1.catalog.map (·.description) = ["press it", "let go"] ∧
      ∀ request : InvokeActionRequest F64,
        catalog_invoke_error (x.1.catalog.map invoke_row) request = none ↔
          ∃ board ∈ lone_catalog.server.topo.boards, ∃ action ∈ lone_catalog.dump board,
            lone_catalog.server.board_id_hash board.id = request.board_id ∧
            action.device = request.device ∧ action.action = request.action := by
  obtain ⟨x, hreach, hready, hrows⟩ : ∃ x : CatalogFeed × FeedHistory,
      Reachable (catalog_feed lone_catalog) AnyStep x ∧ x.1.ready = true ∧
        x.1.catalog.map (·.description) = ["press it", "let go"] :=
    Reachable.exists_of_exec
      [.publish true, .publish true, .poll, .publish true, .publish true, .poll, .poll, .poll,
        .request, .result 1 .Applied true, .poll]
      init_lone_catalog (by decide +kernel)
  exact ⟨x, hreach, hrows, (catalog_complete lone_catalog (by decide) hreach hready).2⟩

end CatalogFeed

end Rl78Sim
