import Rl78Sim.Cluster.ActionWire
import Rl78Sim.Cluster.ServerSim
import Rl78Sim.Framework.Relay
import Rl78Sim.Framework.Table
import Rl78Sim.Hw.HoldSwitch

/-! # The Action Catalog

    Before it runs the boards, the arbiter publishes a sample for every row that
    their `--list-catalog` printed, and then the end of the catalog. The server
    keeps one row for each action, and takes no request before it has read the
    end. The results of the actions come through the same buffer, which drops
    its oldest sample when it overflows.
-/

namespace Rl78Sim

open Transition ActionWire

/-! ### The rows -/

/-- `CatalogAction`. -/
structure CatalogAction where
  device : HashedId
  device_label : String
  action : HashedId
  action_label : String
  description : String
  params : List AdvertisedActionParam

/-- The entry of `action_advertise_from_catalog`. -/
def CatalogAction.entry (action : CatalogAction) : ActionCatalogEntry where
  device := action.device_label
  device_hash := action.device.toNat
  action := action.action_label
  action_hash := action.action.toNat
  description := action.description
  params := action.params.map fun param =>
    { name := param.name_label
      name_hash := param.name
      unit := param.unit
      description := param.description
      min := param.min
      max := param.max
      default := param.default }

/-- `ActionUpstream`. -/
inductive ActionUpstream where
  | Advertise (sample : ActionAdvertise)
  | Result (request_id : Nat) (status : ActionStatus)
  | CatalogEnd

/-- What is fixed: the topology, and what `--list-catalog` printed for each
    board. -/
structure CatalogConfig where
  server : ServerConfig
  id_hash : String → HashedId
  dump : BoardSpec → List CatalogAction
  /-- `board_hash_table` refuses boards with one hash. -/
  distinct : ∀ a ∈ server.topo.boards, ∀ b ∈ server.topo.boards,
    server.board_id_hash a.id = server.board_id_hash b.id → a.id = b.id

namespace CatalogConfig

variable (cfg : CatalogConfig)

/-- The hash of a name, as it is in a sample. -/
def name_hash (name : String) : Nat := (cfg.id_hash name).toNat

/-- The rows of all boards, each with the id of its board. -/
def rows : List (String × CatalogAction) :=
  cfg.server.topo.boards.flatMap fun board => (cfg.dump board).map fun action => (board.id, action)

/-- `upstream_buffer`. -/
def buffer : Nat := max cfg.server.topo.boards.length 1 * action_recv_cap

/-- `action_advertise_from_catalog`. -/
def advertise (row : String × CatalogAction) : Except ActionPackError ActionAdvertise :=
  ActionAdvertise.new cfg.name_hash (cfg.server.board_id_hash row.1).toNat row.2.entry

/-- What the public row says. -/
def shown (row : String × CatalogAction) : ActionWire.AdvertisedAction :=
  row.2.entry.shown (cfg.server.board_id_hash row.1).toNat row.1

/-- `Simulation::boards`. -/
def board_label (board_hash : Nat) : Option String :=
  (ServerSim.new cfg.server).boards (.ofNat board_hash)

end CatalogConfig

/-- The server knows a board by its hash. -/
theorem ServerSim.boards_new {cfg : ServerConfig} {board : BoardSpec}
    (hdistinct : ∀ a ∈ cfg.topo.boards, ∀ b ∈ cfg.topo.boards,
      cfg.board_id_hash a.id = cfg.board_id_hash b.id → a.id = b.id)
    (hboard : board ∈ cfg.topo.boards) :
    (ServerSim.new cfg).boards (cfg.board_id_hash board.id) = some board.id := by
  show (cfg.topo.boards.find? _).map BoardSpec.id = some board.id
  cases hfind : cfg.topo.boards.find? fun b =>
      cfg.board_id_hash b.id = cfg.board_id_hash board.id with
  | none =>
    have hnone := List.find?_eq_none.mp hfind board hboard
    exact absurd rfl (of_decide_eq_false (Bool.not_eq_true _ ▸ hnone))
  | some found =>
    have hsame : cfg.board_id_hash found.id = cfg.board_id_hash board.id := by
      simpa using List.find?_some hfind
    rw [Option.map_some, hdistinct found (List.mem_of_find?_eq_some hfind) board hboard hsame]

/-! ### The system -/

/-- What `upsert_catalog` compares. -/
def action_key (row : ActionWire.AdvertisedAction) : Nat × Nat × Nat :=
  (row.board_id, row.device, row.action)

/-- `upsert_catalog`. -/
def upsert_catalog (catalog : List ActionWire.AdvertisedAction)
    (body : ActionWire.AdvertisedAction) : List ActionWire.AdvertisedAction :=
  Table.put action_key catalog body

/-- The arbiter with the rows that it still has to publish, the samples on their
    way, and the server. `asked` are the requests without a result. -/
structure CatalogFeed where
  todo : List (String × CatalogAction)
  ended : Bool
  gone : Bool
  a2s : List ActionUpstream
  asked : Nat
  catalog : List ActionWire.AdvertisedAction
  ready : Bool

/-- What the processes do. A send that fails ends the arbiter. -/
inductive FeedStep where
  /-- One round of the loop of `publish_action_catalogs`, or what is after it. -/
  | publish (sent : Bool)
  /-- `forward_invokes` has a result from a node. -/
  | result (request_id : Nat) (status : ActionStatus) (sent : Bool)
  /-- One round of `poll_actions`. -/
  | poll
  /-- `queue_invoke` publishes a request. -/
  | request
  deriving DecidableEq

namespace CatalogFeed

variable (cfg : CatalogConfig)

/-- All boards have been asked for their catalogs. -/
def new : CatalogFeed where
  todo := cfg.rows
  ended := false
  gone := false
  a2s := []
  asked := 0
  catalog := []
  ready := false

/-- One round of `publish_action_catalogs`, with sends that succeed. -/
def publish (s : CatalogFeed) : CatalogFeed :=
  match s.todo with
  | [] => { s with a2s := Ring.push cfg.buffer s.a2s .CatalogEnd, ended := true }
  | row :: rest =>
    match cfg.advertise row with
    | .error _ => { s with gone := true }
    | .ok sample =>
      { s with a2s := Ring.push cfg.buffer s.a2s (.Advertise sample), todo := rest }

/-- What the server does with a sample. -/
def receive (s : CatalogFeed) : ActionUpstream → CatalogFeed
  | .Advertise sample =>
    match cfg.board_label sample.from_ with
    | none => s
    | some board_label =>
      match ActionWire.AdvertisedAction.new cfg.name_hash sample.from_ board_label sample with
      | .ok body => { s with catalog := upsert_catalog s.catalog body }
      | .error _ => s
  | .CatalogEnd => { s with ready := true }
  | .Result .. => s

def step (s : CatalogFeed) : FeedStep → Option CatalogFeed
  | .publish sent =>
    if s.ended ∨ s.gone then none
    else some (if sent then s.publish cfg else { s with gone := true })
  | .result request_id status sent =>
    if s.ended ∧ !s.gone ∧ 0 < s.asked then
      some (if sent then
          { s with
            a2s := Ring.push cfg.buffer s.a2s (.Result request_id status)
            asked := s.asked - 1 }
        else { s with gone := true })
    else none
  | .poll =>
    match s.a2s with
    | [] => none
    | msg :: rest => some ({ s with a2s := rest }.receive cfg msg)
  | .request => if s.ready then some { s with asked := s.asked + 1 } else none

end CatalogFeed

/-! ### The history of a run -/

/-- What `publish_action_catalogs` has published, the results that came after
    it, and what the server has read. -/
structure FeedHistory where
  lead : List ActionUpstream
  results : List ActionUpstream
  received : List ActionUpstream

namespace FeedHistory

/-- Nothing has happened. -/
def new : FeedHistory := ⟨[], [], []⟩

/-- The sample that the next round of `publish_action_catalogs` publishes. -/
def next_lead (cfg : CatalogConfig) (s : CatalogFeed) : List ActionUpstream :=
  match s.todo with
  | [] => [.CatalogEnd]
  | row :: _ =>
    match cfg.advertise row with
    | .error _ => []
    | .ok sample => [.Advertise sample]

/-- One more step. -/
def record (cfg : CatalogConfig) (s : CatalogFeed) (l : FeedStep) (_ : CatalogFeed)
    (h : FeedHistory) : FeedHistory :=
  match l with
  | .publish true => { h with lead := h.lead ++ next_lead cfg s }
  | .result request_id status true =>
    { h with results := h.results ++ [.Result request_id status] }
  | .poll => { h with received := h.received ++ s.a2s.take 1 }
  | _ => h

end FeedHistory

/-- All runs, with their histories. -/
def catalog_feed (cfg : CatalogConfig) : System (CatalogFeed × FeedHistory) FeedStep :=
  System.logged ⟨fun s => s = .new cfg, fun s l => s.step cfg l⟩ .new (FeedHistory.record cfg)

end Rl78Sim
