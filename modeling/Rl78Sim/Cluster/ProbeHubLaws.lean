import Rl78Sim.Cluster.ProbeHub

/-! # What the Hub Knows

    The dumps are accepted exactly when each of them is well formed, and the hub
    then has the last probe of every id. A name is resolved to the id that is
    computed from it, if some probe has that id.
-/

namespace Rl78Sim

/-! ### Dumps -/

/-- What a dump has to satisfy. -/
structure BoardProbes.WellFormed (hashes : ProbeHashes) (board : BoardProbes) : Prop where
  few : board.probes.length ≤ max_probes_per_board
  sized : ∀ probe ∈ board.probes, probe.probe_label.utf8ByteSize ≤ probe_name_cap
  hashed : ∀ probe ∈ board.probes, probe.probe = hashes.probe_name_hash probe.probe_label
  known : ∀ probe ∈ board.probes, (from_catalog_kind probe.kind).isSome = true
  distinct : (board.probes.map CatalogProbe.probe_label).Nodup

/-- The entry of a probe of a board, if its kind is known. -/
def entry_of (hashes : ProbeHashes) (board : BoardProbes) (probe : CatalogProbe) :
    Option ProbeCatalogEntry :=
  (from_catalog_kind probe.kind).map (probe_entry hashes board probe)

/-- The entries of all boards. -/
def all_entries (hashes : ProbeHashes) (boards : List BoardProbes) : List ProbeCatalogEntry :=
  boards.flatMap fun board => board.probes.filterMap (entry_of hashes board)

/-- Record the entries one after the other. -/
def ArbiterProbeHub.record_all (hub : ArbiterProbeHub) (entries : List ProbeCatalogEntry) :
    ArbiterProbeHub :=
  entries.foldl record_advertise hub

section dumps

variable {hashes : ProbeHashes} {board : BoardProbes} {boards : List BoardProbes}
  {hub hub' : ArbiterProbeHub} {seen : List String} {probe : CatalogProbe}
  {probes : List CatalogProbe} {kind : ProbeKind}

theorem check_probe_ok : check_probe hashes board seen probe = .ok kind ↔
    probe.probe_label.utf8ByteSize ≤ probe_name_cap ∧
      probe.probe = hashes.probe_name_hash probe.probe_label ∧ probe.probe_label ∉ seen ∧
      from_catalog_kind probe.kind = some kind := by
  unfold check_probe
  split
  · rename_i hlong
    exact iff_of_false (fun h => by cases h) fun h => absurd h.1 (Nat.not_le.mpr hlong)
  · rename_i hshort
    dsimp only
    split
    · rename_i hhash
      exact iff_of_false (fun h => by cases h) fun h => hhash h.2.1
    · rename_i hhash
      split
      · rename_i hseen
        exact iff_of_false (fun h => by cases h) fun h => h.2.2.1 hseen
      · rename_i hnew
        rw [not_not] at hhash
        have hrest : probe.probe_label.utf8ByteSize ≤ probe_name_cap ∧
            probe.probe = hashes.probe_name_hash probe.probe_label ∧ probe.probe_label ∉ seen :=
          ⟨Nat.le_of_not_lt hshort, hhash, hnew⟩
        cases hkind : from_catalog_kind probe.kind with
        | none => exact iff_of_false (fun h => by cases h) fun h => by cases h.2.2.2
        | some found =>
          constructor
          · intro h
            exact ⟨hrest.1, hrest.2.1, hrest.2.2, congrArg some (Except.ok.inj h)⟩
          · intro h
            exact congrArg Except.ok (Option.some.inj h.2.2.2)

/-- The probes pass, behind the labels of `seen`. -/
structure Passing (hashes : ProbeHashes) (seen : List String) (probes : List CatalogProbe) :
    Prop where
  sized : ∀ probe ∈ probes, probe.probe_label.utf8ByteSize ≤ probe_name_cap
  hashed : ∀ probe ∈ probes, probe.probe = hashes.probe_name_hash probe.probe_label
  known : ∀ probe ∈ probes, (from_catalog_kind probe.kind).isSome = true
  distinct : (probes.map CatalogProbe.probe_label).Nodup
  fresh : ∀ probe ∈ probes, probe.probe_label ∉ seen

/-- The first of them passes its checks. -/
theorem Passing.uncons (h : Passing hashes seen (probe :: probes)) (board : BoardProbes) :
    (∃ kind, check_probe hashes board seen probe = .ok kind) ∧
      Passing hashes (probe.probe_label :: seen) probes := by
  obtain ⟨kind, hkind⟩ := Option.isSome_iff_exists.mp (h.known probe List.mem_cons_self)
  have hdistinct := List.nodup_cons.mp h.distinct
  refine ⟨⟨kind, check_probe_ok.mpr ⟨h.sized probe List.mem_cons_self,
    h.hashed probe List.mem_cons_self, h.fresh probe List.mem_cons_self, hkind⟩⟩, ?_⟩
  exact
    { sized := fun p hp => h.sized p (List.mem_cons_of_mem _ hp)
      hashed := fun p hp => h.hashed p (List.mem_cons_of_mem _ hp)
      known := fun p hp => h.known p (List.mem_cons_of_mem _ hp)
      distinct := hdistinct.2
      fresh := fun p hp hin => by
        rcases List.mem_cons.mp hin with hsame | hseen
        · exact hdistinct.1 (hsame ▸ List.mem_map_of_mem hp)
        · exact h.fresh p (List.mem_cons_of_mem _ hp) hseen }

theorem Passing.cons (hcheck : ∃ kind, check_probe hashes board seen probe = .ok kind)
    (h : Passing hashes (probe.probe_label :: seen) probes) :
    Passing hashes seen (probe :: probes) := by
  obtain ⟨kind, hcheck⟩ := hcheck
  obtain ⟨hsized, hhashed, hfresh, hkind⟩ := check_probe_ok.mp hcheck
  have hnew : probe.probe_label ∉ probes.map CatalogProbe.probe_label := by
    intro hin
    obtain ⟨p, hp, hsame⟩ := List.mem_map.mp hin
    exact h.fresh p hp (hsame ▸ List.mem_cons_self)
  exact
    { sized := List.forall_mem_cons.mpr ⟨hsized, h.sized⟩
      hashed := List.forall_mem_cons.mpr ⟨hhashed, h.hashed⟩
      known := List.forall_mem_cons.mpr ⟨hkind ▸ rfl, h.known⟩
      distinct := List.nodup_cons.mpr ⟨hnew, h.distinct⟩
      fresh := List.forall_mem_cons.mpr
        ⟨hfresh, fun p hp hseen => h.fresh p hp (List.mem_cons_of_mem _ hseen)⟩ }

theorem apply_probes_ok : apply_probes hashes board seen probes hub = .ok hub' ↔
    Passing hashes seen probes ∧
      hub' = hub.record_all (probes.filterMap (entry_of hashes board)) := by
  induction probes generalizing seen hub with
  | nil =>
    constructor
    · intro h
      refine ⟨⟨?_, ?_, ?_, List.nodup_nil, ?_⟩, (Except.ok.inj h).symm⟩ <;>
        exact List.forall_mem_nil _
    · rintro ⟨-, rfl⟩
      rfl
  | cons probe probes ih =>
    -- A probe of a known kind is recorded before those that follow it.
    have hfirst {kind : ProbeKind} (hkind : from_catalog_kind probe.kind = some kind) :
        hub.record_all ((probe :: probes).filterMap (entry_of hashes board)) =
          (hub.record_advertise (probe_entry hashes board probe kind)).record_all
            (probes.filterMap (entry_of hashes board)) := by
      have hentry : entry_of hashes board probe = some (probe_entry hashes board probe kind) := by
        unfold entry_of
        rw [hkind, Option.map_some]
      rw [List.filterMap_cons_some hentry]
      rfl
    constructor
    · intro h
      obtain ⟨kind, hcheck, hrest⟩ := Fallible.bind_ok h
      obtain ⟨hpassing, rfl⟩ := ih.mp hrest
      obtain ⟨-, -, -, hkind⟩ := check_probe_ok.mp hcheck
      exact ⟨Passing.cons ⟨kind, hcheck⟩ hpassing, (hfirst hkind).symm⟩
    · rintro ⟨hall, heq⟩
      obtain ⟨⟨kind, hcheck⟩, hpassing⟩ := hall.uncons board
      obtain ⟨-, -, -, hkind⟩ := check_probe_ok.mp hcheck
      unfold apply_probes
      rw [hcheck]
      exact ih.mpr ⟨hpassing, heq.trans (hfirst hkind)⟩

theorem apply_board_ok : apply_board hashes hub board = .ok hub' ↔ board.WellFormed hashes ∧
    hub' = hub.record_all (board.probes.filterMap (entry_of hashes board)) := by
  unfold apply_board
  split
  · rename_i hmany
    exact iff_of_false (fun h => by cases h) fun h => absurd h.1.few (Nat.not_le.mpr hmany)
  · rename_i hfew
    rw [apply_probes_ok]
    refine and_congr_left fun _ => ⟨fun h => ?_, fun h => ?_⟩
    · exact ⟨Nat.le_of_not_lt hfew, h.sized, h.hashed, h.known, h.distinct⟩
    · exact ⟨h.sized, h.hashed, h.known, h.distinct, fun _ _ => List.not_mem_nil⟩

/-- The dumps are accepted exactly when all of them are well formed. -/
theorem apply_probe_catalogs_ok : apply_probe_catalogs hashes hub boards = .ok hub' ↔
    (∀ board ∈ boards, board.WellFormed hashes) ∧
      hub' = hub.record_all (all_entries hashes boards) := by
  unfold apply_probe_catalogs
  induction boards generalizing hub with
  | nil =>
    constructor
    · intro h
      exact ⟨List.forall_mem_nil _, (Except.ok.inj h).symm⟩
    · rintro ⟨-, rfl⟩
      rfl
  | cons board boards ih =>
    rw [List.foldlM_cons, List.forall_mem_cons]
    have hsplit : hub.record_all (all_entries hashes (board :: boards)) =
        (hub.record_all (board.probes.filterMap (entry_of hashes board))).record_all
          (all_entries hashes boards) := List.foldl_append
    constructor
    · intro h
      obtain ⟨middle, hboard, hrest⟩ := Fallible.bind_ok h
      obtain ⟨hwell, rfl⟩ := apply_board_ok.mp hboard
      obtain ⟨hall, rfl⟩ := ih.mp hrest
      exact ⟨⟨hwell, hall⟩, hsplit.symm⟩
    · rintro ⟨⟨hwell, hall⟩, heq⟩
      rw [apply_board_ok.mpr ⟨hwell, rfl⟩]
      exact ih.mpr ⟨hall, heq.trans hsplit⟩

end dumps

/-! ### Names -/

namespace ArbiterProbeHub

section names

variable {hashes : ProbeHashes} {hub hub' : ArbiterProbeHub} {entries : List ProbeCatalogEntry}
  {board_hash id : HashedId} {name : String} {keys : List HashedId}
  {opens : ProbeCatalogEntry → Bool}

theorem record_all_catalog : (hub.record_all entries).catalog =
    entries.foldl (Table.put ProbeCatalogEntry.probe_id) hub.catalog := by
  induction entries generalizing hub with
  | nil => rfl
  | cons entry entries ih => exact ih

/-- The row of `by_name` for an entry. -/
def name_row (entry : ProbeCatalogEntry) : (HashedId × String) × HashedId :=
  ((entry.board_hash, entry.name), entry.probe_id)

theorem record_all_by_name : (hub.record_all entries).by_name =
    (entries.map name_row).foldl (Table.put Prod.fst) hub.by_name := by
  induction entries generalizing hub with
  | nil => rfl
  | cons entry entries ih => exact ih

theorem record_all_subs : (hub.record_all entries).subs = hub.subs := by
  induction entries generalizing hub with
  | nil => rfl
  | cons entry entries ih => exact ih

/-- The id of an entry is the one that its board and its name have. -/
theorem id_of_entry {boards : List BoardProbes} {entry : ProbeCatalogEntry}
    (h : entry ∈ all_entries hashes boards) :
    entry.probe_id = hashes.probe_id_hash entry.board_hash entry.name := by
  obtain ⟨board, -, hin⟩ := List.mem_flatMap.mp h
  obtain ⟨probe, -, hentry⟩ := List.mem_filterMap.mp hin
  obtain ⟨kind, -, rfl⟩ := Option.map_eq_some_iff.mp hentry
  rfl

/-- A name leads to its own id, when a probe with that id is recorded. -/
theorem resolve_name_ok
    (hid : ∀ entry ∈ entries, entry.probe_id = hashes.probe_id_hash entry.board_hash entry.name) :
    (new.record_all entries).resolve_name hashes board_hash name = .ok id ↔
      id = hashes.probe_id_hash board_hash name ∧
        id ∈ entries.map ProbeCatalogEntry.probe_id := by
  have hcatalog (i : HashedId) :
      i ∈ (new.record_all entries).catalog.map ProbeCatalogEntry.probe_id ↔
        i ∈ entries.map ProbeCatalogEntry.probe_id := by
    rw [record_all_catalog]
    exact Table.mem_keys_fill
  unfold resolve_name
  cases hfind : (new.record_all entries).by_name.find? fun row => row.1 = (board_hash, name) with
  | some row =>
    have hnames : (new.record_all entries).by_name = Table.fill Prod.fst (entries.map name_row) :=
      record_all_by_name
    -- The row was made of an entry with this board and this name.
    have hrow := Table.mem_fill.mp (hnames ▸ List.mem_of_find?_eq_some hfind)
    have hkey : row.1 = (board_hash, name) := by simpa using List.find?_some hfind
    obtain ⟨before, after, heq, -⟩ := hrow
    have hin : row ∈ entries.map name_row := heq ▸ List.mem_append_right _ List.mem_cons_self
    obtain ⟨entry, hentry, rfl⟩ := List.mem_map.mp hin
    obtain ⟨rfl, rfl⟩ := Prod.mk.inj hkey
    have hexpected := hid entry hentry
    constructor
    · intro h
      obtain rfl : entry.probe_id = id := Except.ok.inj h
      exact ⟨hexpected, List.mem_map_of_mem hentry⟩
    · rintro ⟨rfl, -⟩
      exact congrArg Except.ok hexpected
  | none =>
    dsimp only
    split
    · rename_i hmem
      constructor
      · intro h
        obtain rfl := Except.ok.inj h
        exact ⟨rfl, (hcatalog _).mp hmem⟩
      · rintro ⟨rfl, -⟩
        rfl
    · rename_i hmem
      refine iff_of_false (fun h => by cases h) ?_
      rintro ⟨rfl, hin⟩
      exact hmem ((hcatalog _).mpr hin)

/-! ### Subscriptions -/

/-- Subscribing to one probe. -/
theorem subscribe_probe_ok : hub.subscribe_probe opens id = .ok hub' ↔
    id ∉ hub.subs ∧
      (∃ entry, (hub.catalog.find? fun entry => entry.probe_id = id) = some entry ∧
        opens entry = true) ∧
      hub' = { hub with subs := hub.subs ++ [id] } := by
  unfold subscribe_probe
  split
  · rename_i hopen
    exact iff_of_false (fun h => by cases h) fun h => h.1 hopen
  · rename_i hnew
    cases hfind : hub.catalog.find? fun entry => entry.probe_id = id with
    | none =>
      refine iff_of_false (fun h => by cases h) ?_
      rintro ⟨-, ⟨entry, hentry, -⟩, -⟩
      cases hentry
    | some entry =>
      dsimp only
      split
      · rename_i hopens
        constructor
        · intro h
          exact ⟨hnew, ⟨entry, rfl, hopens⟩, (Except.ok.inj h).symm⟩
        · rintro ⟨-, -, rfl⟩
          rfl
      · rename_i hcloses
        refine iff_of_false (fun h => by cases h) ?_
        rintro ⟨-, ⟨entry', hentry, hopens⟩, -⟩
        exact hcloses (Option.some.inj hentry ▸ hopens)

/-- Subscribing to several. -/
theorem subscribe_catalog_ok (hfresh : keys.Nodup) (hclosed : ∀ id ∈ keys, id ∉ hub.subs) :
    hub.subscribe_catalog opens keys = .ok hub' ↔
      (∀ id ∈ keys, ∃ entry, (hub.catalog.find? fun entry => entry.probe_id = id) = some entry ∧
        opens entry = true) ∧
      hub' = { hub with subs := hub.subs ++ keys } := by
  induction keys generalizing hub with
  | nil =>
    constructor
    · intro h
      refine ⟨List.forall_mem_nil _, ?_⟩
      rw [List.append_nil]
      exact (Except.ok.inj h).symm
    · rintro ⟨-, rfl⟩
      rw [List.append_nil]
      rfl
  | cons key keys ih =>
    obtain ⟨hnew, hfresh⟩ := List.nodup_cons.mp hfresh
    obtain ⟨hkey, hclosed⟩ := List.forall_mem_cons.mp hclosed
    -- No key is subscribed before its turn.
    have hlater : ∀ id ∈ keys, id ∉ hub.subs ++ [key] := by
      intro id hid hin
      rcases List.mem_append.mp hin with hold | hsame
      · exact hclosed id hid hold
      · exact hnew (List.mem_singleton.mp hsame ▸ hid)
    unfold subscribe_catalog at ih ⊢
    rw [List.foldlM_cons, List.forall_mem_cons]
    constructor
    · intro h
      obtain ⟨middle, hfirst, hrest⟩ := Fallible.bind_ok h
      obtain ⟨-, hopens, rfl⟩ := subscribe_probe_ok.mp hfirst
      obtain ⟨hall, rfl⟩ := (ih hfresh hlater).mp hrest
      refine ⟨⟨hopens, hall⟩, ?_⟩
      rw [List.append_assoc]
      rfl
    · rintro ⟨⟨hopens, hall⟩, rfl⟩
      rw [subscribe_probe_ok.mpr ⟨hkey, hopens, rfl⟩]
      refine (ih hfresh hlater).mpr ⟨hall, ?_⟩
      rw [List.append_assoc]
      rfl

end names

end ArbiterProbeHub

/-! ### The hub after the dumps -/

section hub

open ArbiterProbeHub

/-- The dumps are accepted exactly when all of them are well formed. The hub
    then has the last probe of every id; a name is resolved to its own id when
    a probe with this id was printed; and all of the catalog is subscribed, in
    whatever order, when every subscriber opens. -/
theorem probe_hub_catalog (hashes : ProbeHashes) (boards : List BoardProbes) :
    ((∃ hub, apply_probe_catalogs hashes new boards = .ok hub) ↔
        ∀ board ∈ boards, board.WellFormed hashes) ∧
      ∀ hub, apply_probe_catalogs hashes new boards = .ok hub →
        (hub.catalog.map ProbeCatalogEntry.probe_id).Nodup ∧
        (∀ entry, entry ∈ hub.catalog ↔
          Table.Last ProbeCatalogEntry.probe_id entry (all_entries hashes boards)) ∧
        (∀ board_hash name id, hub.resolve_name hashes board_hash name = .ok id ↔
          id = hashes.probe_id_hash board_hash name ∧
            id ∈ (all_entries hashes boards).map ProbeCatalogEntry.probe_id) ∧
        ∀ keys, keys.Perm (hub.catalog.map ProbeCatalogEntry.probe_id) → ∀ opens hub',
          hub.subscribe_catalog opens keys = .ok hub' ↔
            (∀ entry ∈ hub.catalog, opens entry = true) ∧ hub' = { hub with subs := keys } := by
  constructor
  · constructor
    · rintro ⟨hub, h⟩
      exact (apply_probe_catalogs_ok.mp h).1
    · intro hall
      exact ⟨_, apply_probe_catalogs_ok.mpr ⟨hall, rfl⟩⟩
  · intro hub h
    obtain ⟨-, rfl⟩ := apply_probe_catalogs_ok.mp h
    have hcatalog : (new.record_all (all_entries hashes boards)).catalog =
        Table.fill ProbeCatalogEntry.probe_id (all_entries hashes boards) := record_all_catalog
    have hnodup := hcatalog ▸
      Table.nodup_fill ProbeCatalogEntry.probe_id (all_entries hashes boards)
    refine ⟨hnodup, fun entry => hcatalog ▸ Table.mem_fill, fun board_hash name id =>
      resolve_name_ok fun entry hin => id_of_entry hin, fun keys hkeys opens hub' => ?_⟩
    have hclosed : ∀ id ∈ keys, id ∉ (new.record_all (all_entries hashes boards)).subs := by
      intro id _ hin
      rw [record_all_subs] at hin
      cases hin
    rw [subscribe_catalog_ok (hkeys.nodup_iff.mpr hnodup) hclosed, record_all_subs,
      show (new.subs ++ keys) = keys from rfl]
    refine and_congr_left fun _ => ?_
    constructor
    · intro hall entry hentry
      obtain ⟨found, hfind, hopens⟩ :=
        hall entry.probe_id (hkeys.mem_iff.mpr (List.mem_map_of_mem hentry))
      -- There is one entry for each id, so that the one found is this entry.
      have hid : found.probe_id = entry.probe_id := by simpa using List.find?_some hfind
      exact List.inj_on_of_nodup_map hnodup (List.mem_of_find?_eq_some hfind) hentry hid ▸ hopens
    · intro hall id hid
      obtain ⟨entry, hentry, hsame⟩ := List.mem_map.mp (hkeys.mem_iff.mp hid)
      have hsome : ((new.record_all (all_entries hashes boards)).catalog.find?
          fun entry => entry.probe_id = id).isSome = true :=
        List.find?_isSome.mpr ⟨entry, hentry, by simpa using hsame⟩
      obtain ⟨found, hfind⟩ := Option.isSome_iff_exists.mp hsome
      exact ⟨found, hfind, hall found (List.mem_of_find?_eq_some hfind)⟩

/-- Hashes that tell the names of a board by their lengths. -/
def length_hashes : ProbeHashes where
  probe_name_hash name := UInt64.ofNat name.utf8ByteSize
  probe_id_hash board_hash name := 256 * board_hash + UInt64.ofNat name.utf8ByteSize

/-- Two boards that both have a probe of the name `led`. -/
def led_boards : List BoardProbes :=
  [⟨"mcu0", 1, [⟨3, "led", "digital"⟩, ⟨8, "uart0_tx", "uart"⟩]⟩,
    ⟨"mcu1", 2, [⟨3, "led", "analog"⟩]⟩]

/-- Each `led` has an id of its own, and the catalog is subscribed in another
    order. A board with two of them is refused. -/
theorem probe_hub_catalog_led :
    (∃ hub, apply_probe_catalogs length_hashes new led_boards = .ok hub ∧
      (hub.catalog.map ProbeCatalogEntry.probe_id).Nodup ∧
      hub.resolve_name length_hashes 1 "led" = .ok 259 ∧
      hub.resolve_name length_hashes 2 "led" = .ok 515 ∧
      ∃ hub', hub.subscribe_catalog (fun _ => true) [515, 264, 259] = .ok hub') ∧
    ¬ ∃ hub, apply_probe_catalogs length_hashes new
      [⟨"mcu0", 1, [⟨3, "led", "digital"⟩, ⟨3, "led", "digital"⟩]⟩] = .ok hub := by
  constructor
  · obtain ⟨hub, hok, hids⟩ : ∃ hub, apply_probe_catalogs length_hashes new led_boards = .ok hub ∧
        hub.catalog.map ProbeCatalogEntry.probe_id = [259, 264, 515] := ⟨_, rfl, rfl⟩
    obtain ⟨hnodup, -, hnames, hsubs⟩ := (probe_hub_catalog length_hashes led_boards).2 hub hok
    refine ⟨hub, hok, hnodup, (hnames 1 "led" 259).mpr (by decide +kernel),
      (hnames 2 "led" 515).mpr (by decide +kernel), _, (hsubs [515, 264, 259] ?_ _ _).mpr
        ⟨fun _ _ => rfl, rfl⟩⟩
    rw [hids]
    decide
  · intro hok
    have hwell := (probe_hub_catalog length_hashes _).1.mp hok _ List.mem_cons_self
    exact absurd hwell.distinct (by decide)

end hub

end Rl78Sim
