import Rl78Sim.Cluster.EdgeNames
import Rl78Sim.Framework.Fallible
import Rl78Sim.Framework.Table
import Rl78Sim.Probe.Wire

/-! # The Probes of All Boards

    The arbiter checks what `--list-catalog` printed for each board and records
    every probe in its hub, by the id of the probe and by the board and the name.
    A probe is subscribed by either.
-/

namespace Rl78Sim

/-- `PROBE_NAME_CAP`. -/
def probe_name_cap : Nat := 64

/-- `ProbeWireKind::from_catalog_kind`. -/
def from_catalog_kind (kind : String) : Option ProbeKind :=
  if kind = "digital" then some .Digital
  else if kind = "uart" then some .Uart
  else if kind = "analog" then some .Analog
  else none

/-- `CatalogProbe`. -/
structure CatalogProbe where
  probe : HashedId
  probe_label : String
  kind : String
  deriving DecidableEq

/-- `CollectedBoardCatalog`, with the probes of its dump. -/
structure BoardProbes where
  board_id : String
  board_hash : HashedId
  probes : List CatalogProbe

/-- `ProbeCatalogEntry`. -/
structure ProbeCatalogEntry where
  board_id : String
  board_hash : HashedId
  name : String
  name_hash : HashedId
  probe_id : HashedId
  kind : ProbeKind
  deriving DecidableEq

/-- `ArbiterProbeError`. -/
inductive ArbiterProbeError where
  | UnknownProbe (probe_id : HashedId)
  | UnknownName (board_id name : String)
  | AlreadySubscribed (probe_id : HashedId)
  | Ipc
  deriving DecidableEq

/-- `ArbiterProbeHub`: the values of `catalog` and the entries of `by_name`, each
    with its own key, and the keys of `subs`. -/
structure ArbiterProbeHub where
  catalog : List ProbeCatalogEntry
  by_name : List ((HashedId × String) × HashedId)
  subs : List HashedId

/-- The hashes of names and of probes. -/
structure ProbeHashes where
  probe_name_hash : String → HashedId
  probe_id_hash : HashedId → String → HashedId

namespace ArbiterProbeHub

/-- `ArbiterProbeHub::new`. -/
def new : ArbiterProbeHub := ⟨[], [], []⟩

/-- `record_advertise`. -/
def record_advertise (hub : ArbiterProbeHub) (entry : ProbeCatalogEntry) : ArbiterProbeHub :=
  { hub with
    by_name := Table.put Prod.fst hub.by_name ((entry.board_hash, entry.name), entry.probe_id)
    catalog := Table.put ProbeCatalogEntry.probe_id hub.catalog entry }

/-- `subscribe_probe`; `opens` says whether the subscriber of the entry opens. -/
def subscribe_probe (opens : ProbeCatalogEntry → Bool) (hub : ArbiterProbeHub)
    (probe_id : HashedId) : Except ArbiterProbeError ArbiterProbeHub :=
  if probe_id ∈ hub.subs then .error (.AlreadySubscribed probe_id)
  else
    match hub.catalog.find? fun entry => entry.probe_id = probe_id with
    | none => .error (.UnknownProbe probe_id)
    | some entry =>
      if opens entry then .ok { hub with subs := hub.subs ++ [probe_id] } else .error .Ipc

/-- The id that `subscribe_by_name` looks up, or the board that it names in its
    error. -/
def resolve_name (hashes : ProbeHashes) (hub : ArbiterProbeHub) (board_hash : HashedId)
    (name : String) : Except ArbiterProbeError HashedId :=
  match hub.by_name.find? fun row => row.1 = (board_hash, name) with
  | some row => .ok row.2
  | none =>
    -- A name that was not printed may still have the id of a probe that was.
    let id := hashes.probe_id_hash board_hash name
    if id ∈ hub.catalog.map ProbeCatalogEntry.probe_id then .ok id
    else
      let entry := hub.catalog.find? fun entry => entry.board_hash = board_hash
      .error (.UnknownName (entry.elim board_hash.to_hex ProbeCatalogEntry.board_id) name)

/-- `subscribe_by_name`. -/
def subscribe_by_name (hashes : ProbeHashes) (opens : ProbeCatalogEntry → Bool)
    (hub : ArbiterProbeHub) (board_hash : HashedId) (name : String) :
    Except ArbiterProbeError (HashedId × ArbiterProbeHub) := do
  let probe_id ← hub.resolve_name hashes board_hash name
  let hub ← hub.subscribe_probe opens probe_id
  return (probe_id, hub)

/-- `subscribe_catalog`; the keys of the catalog come in any order. -/
def subscribe_catalog (opens : ProbeCatalogEntry → Bool) (hub : ArbiterProbeHub)
    (keys : List HashedId) : Except ArbiterProbeError ArbiterProbeHub :=
  keys.foldlM (subscribe_probe opens) hub

end ArbiterProbeHub

/-! ### Reading the dumps -/

/-- Why a dump is refused. -/
inductive ProbeDumpError where
  | TooMany (board_id : String) (count : Nat)
  | NameTooLong (board_id probe_label : String)
  | HashMismatch (board_id probe_label : String) (got expected : HashedId)
  | DuplicateLabel (board_id probe_label : String)
  | UnknownKind (board_id kind probe_label : String)
  deriving DecidableEq

/-- The text of the `ArbiterError::Message`. -/
def ProbeDumpError.message : ProbeDumpError → String
  | .TooMany board_id count =>
    "board '" ++ board_id ++ "': `--list-catalog` has " ++ toString count ++ " probes (max " ++
      toString max_probes_per_board ++ ")"
  | .NameTooLong board_id probe_label =>
    "board '" ++ board_id ++ "': probe `" ++ probe_label ++ "` name exceeds " ++
      toString probe_name_cap ++ " UTF-8 bytes"
  | .HashMismatch board_id probe_label got expected =>
    "board '" ++ board_id ++ "': probe `" ++ probe_label ++ "` hash mismatch (got " ++
      got.to_hex ++ ", expected " ++ expected.to_hex ++ ")"
  | .DuplicateLabel board_id probe_label =>
    "board '" ++ board_id ++ "': duplicate probe label `" ++ probe_label ++ "`"
  | .UnknownKind board_id kind probe_label =>
    "board '" ++ board_id ++ "': unknown probe kind `" ++ kind ++ "` for `" ++ probe_label ++ "`"

section dumps

variable (hashes : ProbeHashes)

/-- The entry of a probe. -/
def probe_entry (board : BoardProbes) (probe : CatalogProbe) (kind : ProbeKind) :
    ProbeCatalogEntry where
  board_id := board.board_id
  board_hash := board.board_hash
  name := probe.probe_label
  name_hash := probe.probe
  probe_id := hashes.probe_id_hash board.board_hash probe.probe_label
  kind := kind

/-- The checks of a probe; `seen` are the labels before it. -/
def check_probe (board : BoardProbes) (seen : List String) (probe : CatalogProbe) :
    Except ProbeDumpError ProbeKind :=
  if probe_name_cap < probe.probe_label.utf8ByteSize then
    .error (.NameTooLong board.board_id probe.probe_label)
  else
    let expected := hashes.probe_name_hash probe.probe_label
    if probe.probe ≠ expected then
      .error (.HashMismatch board.board_id probe.probe_label probe.probe expected)
    else if probe.probe_label ∈ seen then
      .error (.DuplicateLabel board.board_id probe.probe_label)
    else
      match from_catalog_kind probe.kind with
      | none => .error (.UnknownKind board.board_id probe.kind probe.probe_label)
      | some kind => .ok kind

/-- The loop over the probes of a board. -/
def apply_probes (board : BoardProbes) :
    List String → List CatalogProbe → ArbiterProbeHub → Except ProbeDumpError ArbiterProbeHub
  | _, [], hub => .ok hub
  | seen, probe :: rest, hub => do
    let kind ← check_probe hashes board seen probe
    apply_probes board (probe.probe_label :: seen) rest
      (hub.record_advertise (probe_entry hashes board probe kind))

/-- The loop over the boards. -/
def apply_board (hub : ArbiterProbeHub) (board : BoardProbes) :
    Except ProbeDumpError ArbiterProbeHub :=
  if max_probes_per_board < board.probes.length then
    .error (.TooMany board.board_id board.probes.length)
  else apply_probes hashes board [] board.probes hub

/-- `apply_probe_catalogs`. What the hub holds after an error is dropped with
    the session. -/
def apply_probe_catalogs (hub : ArbiterProbeHub) (catalogs : List BoardProbes) :
    Except ProbeDumpError ArbiterProbeHub :=
  catalogs.foldlM (apply_board hashes) hub

end dumps

end Rl78Sim
