import Rl78Sim.Cluster.Accepted
import Rl78Sim.Framework.Transition
import Mathlib.Logic.Function.Basic

/-! # The Objects of the Topology DSL

    The `Topology` objects that a Python script builds, and the calls it makes
    on them. Topologies are numbered in the order in which they are attached,
    the root first; the script is any sequence of calls. A call that raises has
    no result.

    The path of a topology is that of its parent, which never changes once it is
    attached, and its own name, so it is kept with the topology. A topology that
    is attached is a new one: a root whose own `build` is still running could be
    attached as well, and would be built within itself, which is left out. -/

namespace Rl78Sim.Dsl

/-! ### Ports and boards -/

/-- `EndpointLoc`, which `to_dict` writes as a hop of the JSON. -/
abbrev EndpointLoc := Rl78Sim.PortRef

/-- `PortRef`: a leaf endpoint, or the chain of exports that leads to it. -/
structure PortRef where
  chain : List EndpointLoc
  direction : EndpointDirection
  payload : PayloadKind

/-- `PortRef.leaf`. -/
def PortRef.leaf (ref : PortRef) : EndpointLoc := ref.chain.headD ⟨"", ""⟩

/-- A `dict`, in the order of insertion. -/
abbrev Dict (α : Type) := List (String × α)

namespace Dict

variable {α : Type}

def keys (dict : Dict α) : List String := dict.map Prod.fst

def values (dict : Dict α) : List α := dict.map Prod.snd

/-- `dict.get`. -/
def get (dict : Dict α) (key : String) : Option α :=
  (dict.find? fun entry => entry.1 = key).map Prod.snd

/-- The entry `key` with another value. -/
def put (dict : Dict α) (key : String) (value : α) : Dict α :=
  dict.map fun entry => if entry.1 = key then (key, value) else entry

theorem mem_of_get {dict : Dict α} {key : String} {value : α} (h : dict.get key = some value) :
    (key, value) ∈ dict := by
  obtain ⟨entry, hfind, rfl⟩ := Option.map_eq_some_iff.mp h
  have hkey : entry.1 = key := by simpa using List.find?_some hfind
  exact hkey ▸ List.mem_of_find?_eq_some hfind

theorem mem_keys {dict : Dict α} {key : String} :
    key ∈ dict.keys ↔ ∃ value, (key, value) ∈ dict := by
  simp [keys]

@[simp] theorem keys_put (dict : Dict α) (key : String) (value : α) :
    (dict.put key value).keys = dict.keys := by
  unfold put keys
  rw [List.map_map]
  apply List.map_congr_left
  intro entry _
  by_cases h : entry.1 = key
  · simp [h]
  · simp [h]

theorem mem_put {dict : Dict α} {key k : String} {value v : α}
    (h : (k, v) ∈ dict.put key value) : (k = key ∧ v = value) ∨ (k ≠ key ∧ (k, v) ∈ dict) := by
  obtain ⟨entry, hmem, heq⟩ := List.mem_map.mp h
  by_cases hkey : entry.1 = key
  · rw [if_pos hkey] at heq
    cases heq
    exact .inl ⟨rfl, rfl⟩
  · rw [if_neg hkey] at heq
    subst heq
    exact .inr ⟨hkey, hmem⟩

theorem put_mem_of_mem {dict : Dict α} {k : String} {v : α} (key : String) (value : α)
    (h : (k, v) ∈ dict) :
    (k = key ∧ (key, value) ∈ dict.put key value) ∨ (k ≠ key ∧ (k, v) ∈ dict.put key value) := by
  by_cases hkey : k = key
  · exact .inl ⟨hkey, List.mem_map.mpr ⟨(k, v), h, by simp [hkey]⟩⟩
  · exact .inr ⟨hkey, List.mem_map.mpr ⟨(k, v), h, by simp [hkey]⟩⟩

end Dict

/-- `Board`. -/
structure Board where
  id : String
  path : String
  kind : String
  elf : Option String
  endpoints : Dict PortRef

/-- `Board.endpoint`. -/
def Board.endpoint (board : Board) (name : String) (direction : EndpointDirection)
    (payload : PayloadKind) : Option Board :=
  if name = "" then none
  else if name ∈ board.endpoints.keys then none
  else
    let ref : PortRef := { chain := [⟨board.path, name⟩], direction, payload }
    some { board with endpoints := board.endpoints ++ [(name, ref)] }

/-- `Board.to_dict`. -/
def Board.to_dict (board : Board) : BoardSpec where
  id := board.id
  kind := board.kind
  elf := board.elf
  endpoints := board.endpoints.values.map fun ep =>
    { name := ep.leaf.port, direction := ep.direction, payload := ep.payload }

/-! ### Topologies -/

/-- A path with one more name. -/
def under (path name : String) : String := path ++ "/" ++ name

/-- `path.rsplit("/", 1)[-1]`. -/
def local_of (path : String) : String :=
  String.ofList (path.toList.reverse.takeWhile (· ≠ '/')).reverse

/-- `Topology`. Children are kept by number. -/
structure Topology where
  path : String
  children : Dict Nat
  boards : Dict Board
  exports : Dict PortRef
  edges : List DirectedEdge

/-- `Topology.__init__`, for an object that is attached at `path`. -/
def Topology.new (path : String) : Topology := ⟨path, [], [], [], []⟩

/-- A name that `Topology.__init__` and `_board` take. -/
def valid_name (name : String) : Bool := name ≠ "" && '/' ∉ name.toList

/-- The topologies of a tree. `building` are those inside their `build`, the
    innermost first. -/
structure Tree where
  count : Nat
  topology : Nat → Topology
  building : List Nat

/-- Where a script takes a port from: `board.port(name)` or `topology.port(name)`. -/
inductive PortName where
  | endpoint (t : Nat) (local_name name : String)
  | exported (t : Nat) (name : String)

/-- What a script does. -/
inductive Call where
  | board (t : Nat) (local_name kind : String) (elf : Option String)
  | endpoint (t : Nat) (local_name name : String) (direction : EndpointDirection)
      (payload : PayloadKind)
  | add_child (t : Nat) (name : String)
  /-- The innermost `build` returns. -/
  | built
  | export_ (t : Nat) (name : String) (endpoint : PortName)
  | connect (t : Nat) (src dst : PortName) (uart_ring_len : Option Nat)

namespace Tree

/-- The tree of a root that enters its `build`. -/
def root (name : String) : Tree := ⟨1, fun _ => Topology.new name, [0]⟩

/-- The tree with the topology `t` replaced. -/
def put (d : Tree) (t : Nat) (topology : Topology) : Tree :=
  { d with topology := Function.update d.topology t topology }

/-- The port of a name. A port that does not exist raises. -/
def port (d : Tree) : PortName → Option PortRef
  | .endpoint t local_name name =>
      if t < d.count then
        ((d.topology t).boards.get local_name).bind fun board => board.endpoints.get name
      else none
  | .exported t name => if t < d.count then (d.topology t).exports.get name else none

/-- `_is_visible`. -/
def is_visible (d : Tree) (t : Nat) (ref : PortRef) : Bool :=
  match ref.chain.getLast? with
  | none => false
  | some last =>
      (ref.chain.length = 1 &&
        match (d.topology t).boards.get (local_of last.path) with
        | some board => board.path = last.path && last.port ∈ board.endpoints.keys
        | none => false) ||
      (d.topology t).children.values.any fun c =>
        last.path = (d.topology c).path && last.port ∈ (d.topology c).exports.keys

/-- `_board`. -/
def board (d : Tree) (t : Nat) (local_name kind : String) (elf : Option String) : Option Tree :=
  let self := d.topology t
  if t ∉ d.building then none
  else if !valid_name local_name then none
  else if local_name ∈ self.boards.keys then none
  else if local_name ∈ self.children.keys then none
  else
    let board_path := under self.path local_name
    let board : Board := { id := board_path, path := board_path, kind, elf, endpoints := [] }
    some (d.put t { self with boards := self.boards ++ [(local_name, board)] })

/-- `Board.endpoint` on a board of the tree. -/
def endpoint (d : Tree) (t : Nat) (local_name name : String) (direction : EndpointDirection)
    (payload : PayloadKind) : Option Tree :=
  let self := d.topology t
  if t < d.count then
    ((self.boards.get local_name).bind fun board => board.endpoint name direction payload).map
      fun board => d.put t { self with boards := self.boards.put local_name board }
  else none

/-- `_add_child` of a new topology, up to the call of its `build`. -/
def add_child (d : Tree) (t : Nat) (name : String) : Option Tree :=
  let self := d.topology t
  if t ∉ d.building then none
  else if !valid_name name then none
  else if name ∈ self.children.keys then none
  else if name ∈ self.boards.keys then none
  else
    let child := d.count
    let attached := d.put t { self with children := self.children ++ [(name, child)] }
    some { attached.put child (Topology.new (under self.path name)) with
      count := d.count + 1
      building := child :: d.building }

/-- The end of `run_build`. -/
def built (d : Tree) : Option Tree :=
  match d.building with
  | [] => none
  | _ :: building => some { d with building }

/-- `_export`. -/
def export_ (d : Tree) (t : Nat) (name : String) (endpoint : PortRef) : Option Tree :=
  let self := d.topology t
  if t ∉ d.building then none
  else if name = "" then none
  else if name ∈ self.exports.keys then none
  else if !d.is_visible t endpoint then none
  else
    let exported : PortRef :=
      { endpoint with chain := endpoint.chain ++ [⟨self.path, name⟩] }
    some (d.put t { self with exports := self.exports ++ [(name, exported)] })

/-- `_connect`. -/
def connect (d : Tree) (t : Nat) (src dst : PortRef) (uart_ring_len : Option Nat) : Option Tree :=
  let self := d.topology t
  if t ∉ d.building then none
  else if !d.is_visible t src || !d.is_visible t dst then none
  else if src.direction ≠ .Out then none
  else if dst.direction ≠ .In then none
  else if src.payload ≠ dst.payload then none
  else if src.leaf.path = dst.leaf.path then none
  else if (src.leaf, dst.leaf) ∈ self.edges.map DirectedEdge.ends then none
  else
    let edge : DirectedEdge :=
      { from_ := src.leaf, to_ := dst.leaf, route := src.chain ++ dst.chain.reverse
        payload := src.payload, uart_ring_len }
    some (d.put t { self with edges := self.edges ++ [edge] })

/-- One call of the script. -/
def call (d : Tree) : Call → Option Tree
  | .board t local_name kind elf => d.board t local_name kind elf
  | .endpoint t local_name name direction payload => d.endpoint t local_name name direction payload
  | .add_child t name => d.add_child t name
  | .built => d.built
  | .export_ t name endpoint => (d.port endpoint).bind fun ref => d.export_ t name ref
  | .connect t src dst uart_ring_len =>
      (d.port src).bind fun src => (d.port dst).bind fun dst => d.connect t src dst uart_ring_len

end Tree

open Transition

/-- The scripts: any calls on the tree of any root. -/
def scripts : System Tree Call where
  init d := ∃ name, valid_name name = true ∧ d = Tree.root name
  step d l := d.call l

/-- Scripts that give no board a firmware. -/
def NoElf (_ : Tree) : Call → Prop
  | .board _ _ _ elf => elf = none
  | _ => True

instance (d : Tree) (l : Call) : Decidable (NoElf d l) :=
  match l with
  | .board _ _ _ elf => inferInstanceAs (Decidable (elf = none))
  | .endpoint .. | .add_child .. | .built | .export_ .. | .connect .. => .isTrue trivial

/-! ### The flattened topology -/

namespace Tree

/-- `collect_boards`, down to a depth. -/
def collect_boards (d : Tree) : Nat → Nat → List Board
  | 0, _ => []
  | fuel + 1, t => (d.topology t).boards.values ++
      (d.topology t).children.values.flatMap fun c => d.collect_boards fuel c

/-- `collect_edges`, down to a depth. -/
def collect_edges (d : Tree) : Nat → Nat → List DirectedEdge
  | 0, _ => []
  | fuel + 1, t => (d.topology t).edges ++
      (d.topology t).children.values.flatMap fun c => d.collect_edges fuel c

/-- `SimulationConfig.to_dict` of a root that is built. No branch of the tree is
    longer than the number of its topologies. -/
def to_dict (d : Tree) (margin_ns headroom_threshold_ns : Nat) (ready_timeout_ms : Option Nat) :
    Option LogicalTopology :=
  let boards := d.collect_boards d.count 0
  let edges := d.collect_edges d.count 0
  if d.building ≠ [] then none
  -- `_reject_duplicate_edges`
  else if ¬ (edges.map DirectedEdge.ends).Nodup then none
  else some
    { boards := boards.map Board.to_dict, edges, margin_ns, headroom_threshold_ns
      ready_timeout_ms := ready_timeout_ms.getD 10000 }

end Tree

end Rl78Sim.Dsl
