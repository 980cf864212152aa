import Rl78Sim.Cluster.Accepted
import Rl78Sim.Framework.Joins
import Mathlib.Logic.Function.Basic
import Mathlib.Tactic.Ring

/-! # Edge Ids and Data-Plane Services

    An edge is known at run time by the hash of the text that joins its four
    names. The names may themselves hold the separators of that text, and the
    tables of `build_topology_hashes` refuse only different texts with one hash.
    The hash function is a parameter. -/

namespace Rl78Sim

open Joins Fallible

/-! ### Hashed ids -/

/-- `HashedId<u64>`. -/
abbrev HashedId := UInt64

namespace HashedId

/-- A lowercase hexadecimal digit. -/
def hex_digit (n : Nat) : Char := Char.ofNat (if n < 10 then '0'.toNat + n else 'a'.toNat + n - 10)

/-- The value of a lowercase hexadecimal digit. -/
def hex_value (c : Char) : Option Nat :=
  if '0' ≤ c ∧ c ≤ '9' then some (c.toNat - '0'.toNat)
  else if 'a' ≤ c ∧ c ≤ 'f' then some (c.toNat - 'a'.toNat + 10)
  else none

/-- The lowest `k` digits of `n`, the highest first. -/
def hex_digits (n : Nat) : Nat → List Char
  | 0 => []
  | k + 1 => hex_digit (n / 16 ^ k % 16) :: hex_digits n k

/-- `Hexable::to_hex` for `u64`. -/
def to_hex (v : HashedId) : String := String.ofList (hex_digits v.toNat 16)

/-- `u64::from_str_radix`, from the value read so far. -/
def read_hex : Nat → List Char → Option Nat
  | acc, [] => some acc
  | acc, c :: cs => (hex_value c).bind fun d => read_hex (acc * 16 + d) cs

/-- `Hexable::from_hex` for `u64`. -/
def from_hex (text : String) : Option HashedId :=
  if text.toList.length ≠ 16 then none else (read_hex 0 text.toList).map UInt64.ofNat

theorem hex_value_hex_digit : ∀ n < 16, hex_value (hex_digit n) = some n := by decide

@[simp] theorem hex_digits_length (n k : Nat) : (hex_digits n k).length = k := by
  induction k with
  | zero => rfl
  | succ k ih => simp [hex_digits, ih]

theorem read_hex_digits (n : Nat) :
    ∀ k acc, read_hex acc (hex_digits n k) = some (acc * 16 ^ k + n % 16 ^ k) := by
  intro k
  induction k with
  | zero =>
    intro acc
    simp [hex_digits, read_hex, Nat.mod_one]
  | succ k ih =>
    intro acc
    have hd := hex_value_hex_digit (n / 16 ^ k % 16) (Nat.mod_lt _ (by decide))
    have hpow : n % 16 ^ (k + 1) = n % 16 ^ k + 16 ^ k * (n / 16 ^ k % 16) := Nat.mod_pow_succ
    simp only [hex_digits, read_hex, hd, Option.bind_some, ih, hpow]
    congr 1
    ring

/-- An id is read back from its text. -/
theorem from_hex_to_hex (v : HashedId) : from_hex (to_hex v) = some v := by
  simp [from_hex, to_hex, read_hex_digits]

theorem to_hex_injective : Function.Injective to_hex := by
  intro v w h
  have hback := from_hex_to_hex v
  rw [h, from_hex_to_hex w] at hback
  exact (Option.some.inj hback).symm

end HashedId

/-! ### Names -/

/-- `edge_id_logical`. -/
def edge_id_logical (from_board from_ep to_board to_ep : String) : String :=
  s!"{from_board}:{from_ep}->{to_board}:{to_ep}"

/-- `uart_edge`. -/
def uart_edge (cluster_key : String) (edge_id : HashedId) : String :=
  s!"sim-cluster/{cluster_key}/uart/{edge_id.to_hex}"

/-- `analog_edge`. -/
def analog_edge (cluster_key : String) (edge_id : HashedId) : String :=
  s!"sim-cluster/{cluster_key}/analog/{edge_id.to_hex}"

namespace DirectedEdge

/-- The text that is hashed for an edge. -/
def logical (edge : DirectedEdge) : String :=
  edge_id_logical edge.from_.path edge.from_.port edge.to_.path edge.to_.port

/-- `edge_id_hash` of an edge. -/
def edge_id (xxh3_64 : String → HashedId) (edge : DirectedEdge) : HashedId :=
  xxh3_64 edge.logical

/-- The service that both ends of an edge open. No service carries a digital
    edge. -/
def service_name (xxh3_64 : String → HashedId) (cluster_key : String) (edge : DirectedEdge) :
    Option String :=
  match edge.payload with
  | .Uart => some (uart_edge cluster_key (edge.edge_id xxh3_64))
  | .Analog => some (analog_edge cluster_key (edge.edge_id xxh3_64))
  | .Digital => none

end DirectedEdge

/-! ### The tables -/

/-- A reverse lookup. -/
abbrev HashTable := HashedId → Option String

/-- The loop of `id_hash_table`. -/
def id_hash_table (hash : String → HashedId) :
    HashTable → List String → Except String HashTable
  | table, [] => .ok table
  | table, id :: ids =>
      let h := hash id
      let inserted := Function.update table h (some id)
      match table h with
      | some existing =>
          if existing ≠ id then
            .error s!"hash collision between '{existing}' and '{id}' (hash={h.to_hex})"
          else id_hash_table hash inserted ids
      | none => id_hash_table hash inserted ids

/-- `TopologyHashes`. -/
structure TopologyHashes where
  boards : HashTable
  paths : HashTable
  ports : HashTable
  edges : HashTable

/-- `map_err(TopologyError::Invalid)`. -/
def TopologyError.of_message {α : Type} : Except String α → Except TopologyError α
  | .ok a => .ok a
  | .error message => .error (.Invalid message)

/-- The paths of a topology: of its boards, its edges and their hops. -/
def LogicalTopology.paths (topo : LogicalTopology) : List String :=
  topo.boards.map BoardSpec.id ++ topo.edges.flatMap fun edge =>
    edge.from_.path :: edge.to_.path :: edge.route.map PortRef.path

/-- The port names of a topology. -/
def LogicalTopology.ports (topo : LogicalTopology) : List String :=
  (topo.boards.flatMap fun board => board.endpoints.map EndpointSpec.name) ++
    topo.edges.flatMap fun edge =>
      edge.from_.port :: edge.to_.port :: edge.route.map PortRef.port

/-- `build_topology_hashes`. All four tables hash with `xxh3_64`. -/
def build_topology_hashes (xxh3_64 : String → HashedId) (topo : LogicalTopology) :
    Except TopologyError TopologyHashes := do
  let empty : HashTable := fun _ => none
  let boards ← TopologyError.of_message (id_hash_table xxh3_64 empty (topo.boards.map BoardSpec.id))
  let paths ← TopologyError.of_message (id_hash_table xxh3_64 empty topo.paths)
  let ports ← TopologyError.of_message (id_hash_table xxh3_64 empty topo.ports)
  let edges ← TopologyError.of_message (id_hash_table xxh3_64 empty
    (topo.edges.map DirectedEdge.logical))
  .ok { boards, paths, ports, edges }

/-- A table is built only of texts that the hash keeps apart, from each other
    and from those in the table. -/
theorem id_hash_table_ok {hash : String → HashedId} {ids : List String} :
    ∀ {table table' : HashTable}, id_hash_table hash table ids = .ok table' →
      (∀ id ∈ ids, ∀ existing, table (hash id) = some existing → existing = id) ∧
        ∀ id ∈ ids, ∀ id' ∈ ids, hash id = hash id' → id = id' := by
  induction ids with
  | nil => exact fun _ => ⟨nofun, nofun⟩
  | cons id ids ih =>
    intro table table' h
    have hold : (∀ existing, table (hash id) = some existing → existing = id) ∧
        id_hash_table hash (Function.update table (hash id) (some id)) ids = .ok table' := by
      simp only [id_hash_table] at h
      cases hget : table (hash id) with
      | none =>
        rw [hget] at h
        exact ⟨nofun, h⟩
      | some existing =>
        rw [hget] at h
        by_cases hsame : existing = id
        · simp only [hsame, ne_eq, not_true_eq_false, if_false] at h
          exact ⟨fun e he => by rw [← hsame]; exact (Option.some.inj he).symm, h⟩
        · simp [hsame] at h
    obtain ⟨hrest, hdistinct⟩ := ih hold.2
    -- a later text with the hash of `id` finds it in the table
    have hnew : ∀ id' ∈ ids, hash id' = hash id → id = id' := by
      intro id' hid' hhash
      exact hrest id' hid' id (by rw [hhash, Function.update_self])
    constructor
    · intro id' hid' existing hget
      rcases List.mem_cons.mp hid' with rfl | hid'
      · exact hold.1 existing hget
      · by_cases hhash : hash id' = hash id
        · rw [hhash] at hget
          rw [hold.1 existing hget, hnew id' hid' hhash]
        · exact hrest id' hid' existing (by rw [Function.update_of_ne hhash]; exact hget)
    · intro a ha b hb hhash
      rcases List.mem_cons.mp ha with rfl | ha'
      · rcases List.mem_cons.mp hb with rfl | hb'
        · rfl
        · exact hnew b hb' hhash.symm
      · rcases List.mem_cons.mp hb with rfl | hb'
        · exact (hnew a ha' hhash).symm
        · exact hdistinct a ha' b hb' hhash

/-- A hash keeps the texts of a list apart. -/
def KeepsApart (hash : String → HashedId) (ids : List String) : Prop :=
  ∀ id ∈ ids, ∀ id' ∈ ids, hash id = hash id' → id = id'

instance (hash : String → HashedId) (ids : List String) : Decidable (KeepsApart hash ids) :=
  inferInstanceAs (Decidable (∀ id ∈ ids, ∀ id' ∈ ids, hash id = hash id' → id = id'))

/-- A table is built of any texts that the hash keeps apart. -/
theorem id_hash_table_of_keepsApart {hash : String → HashedId} {ids : List String} :
    ∀ {table : HashTable}, KeepsApart hash ids →
      (∀ id ∈ ids, ∀ existing, table (hash id) = some existing → existing = id) →
        ∃ table', id_hash_table hash table ids = .ok table' := by
  induction ids with
  | nil => exact fun {table} _ _ => ⟨table, rfl⟩
  | cons id ids ih =>
    intro table hapart htable
    have hrest : ∃ table', id_hash_table hash (Function.update table (hash id) (some id)) ids =
        .ok table' := by
      apply ih
      · exact fun a ha b hb => hapart a (.tail _ ha) b (.tail _ hb)
      -- A later id meets `id` in the table only if they are the same.
      · intro id' hid' existing hget
        by_cases hhash : hash id' = hash id
        · rw [hhash, Function.update_self] at hget
          rw [hapart id' (.tail _ hid') id List.mem_cons_self hhash]
          exact (Option.some.inj hget).symm
        · rw [Function.update_of_ne hhash] at hget
          exact htable id' (.tail _ hid') existing hget
    obtain ⟨table', hok⟩ := hrest
    refine ⟨table', ?_⟩
    rw [id_hash_table]
    cases hget : table (hash id) with
    | none => exact hok
    | some existing =>
      have hsame := htable id List.mem_cons_self existing hget
      simpa [hsame] using hok

theorem of_message_ok {α : Type} {x : Except String α} {a : α}
    (h : TopologyError.of_message x = .ok a) : x = .ok a := by
  cases x with
  | error message => cases h
  | ok b =>
    cases h
    rfl

/-- Edges with different texts have different ids. -/
theorem build_topology_hashes_edges {xxh3_64 : String → HashedId} {topo : LogicalTopology}
    {hashes : TopologyHashes} (h : build_topology_hashes xxh3_64 topo = .ok hashes)
    {e e' : DirectedEdge} (he : e ∈ topo.edges) (he' : e' ∈ topo.edges) :
    e.edge_id xxh3_64 = e'.edge_id xxh3_64 ↔ e.logical = e'.logical := by
  obtain ⟨_, -, h⟩ := bind_ok h
  obtain ⟨_, -, h⟩ := bind_ok h
  obtain ⟨_, -, h⟩ := bind_ok h
  obtain ⟨_, hedges, -⟩ := bind_ok h
  have hdistinct := (id_hash_table_ok (of_message_ok hedges)).2
  exact ⟨hdistinct _ (List.mem_map_of_mem he) _ (List.mem_map_of_mem he'),
    fun hlogical => congrArg xxh3_64 hlogical⟩

theorem build_topology_hashes_of_keepsApart {xxh3_64 : String → HashedId}
    {topo : LogicalTopology} (hpaths : KeepsApart xxh3_64 topo.paths)
    (hports : KeepsApart xxh3_64 topo.ports)
    (hedges : KeepsApart xxh3_64 (topo.edges.map DirectedEdge.logical)) :
    ∃ hashes, build_topology_hashes xxh3_64 topo = .ok hashes := by
  have hboards : KeepsApart xxh3_64 (topo.boards.map BoardSpec.id) := fun a ha b hb =>
    hpaths a (List.mem_append_left _ ha) b (List.mem_append_left _ hb)
  have hnew : ∀ ids, KeepsApart xxh3_64 ids →
      ∃ table, id_hash_table xxh3_64 (fun _ => none) ids = .ok table :=
    fun ids hids => id_hash_table_of_keepsApart hids nofun
  obtain ⟨boards, hboards⟩ := hnew _ hboards
  obtain ⟨paths, hpaths⟩ := hnew _ hpaths
  obtain ⟨ports, hports⟩ := hnew _ hports
  obtain ⟨edges, hedges⟩ := hnew _ hedges
  refine ⟨⟨boards, paths, ports, edges⟩, ?_⟩
  simp only [build_topology_hashes, hboards, hpaths, hports, hedges]
  rfl

/-! ### Edges that share a text -/

/-- The text of one end of an edge. -/
def PortRef.text (ref : PortRef) : List Char := join [':'] ref.path.toList ref.port.toList

/-- Two ends with one text: the same end, or a colon in a name of one is taken
    for the colon between the names of the other. -/
def SameText (p q : PortRef) : Prop :=
  p = q ∨ Shift [':'] p.path.toList p.port.toList q.path.toList q.port.toList ∨
    Shift [':'] q.path.toList q.port.toList p.path.toList p.port.toList

/-- Two edges with one text: their ends have the same texts, or an arrow inside
    an end of one is taken for the arrow of the other. -/
def Confusable (e e' : DirectedEdge) : Prop :=
  (SameText e.from_ e'.from_ ∧ SameText e.to_ e'.to_) ∨
    Shift ['-', '>'] e.from_.text e.to_.text e'.from_.text e'.to_.text ∨
    Shift ['-', '>'] e'.from_.text e'.to_.text e.from_.text e.to_.text

theorem text_eq_iff (p q : PortRef) : p.text = q.text ↔ SameText p q := by
  have hnames : p = q ↔ p.path.toList = q.path.toList ∧ p.port.toList = q.port.toList := by
    cases p
    cases q
    simp [String.toList_inj]
  rw [SameText, hnames]
  exact join_eq_iff (borderless_single ':') _ _ _ _

theorem logical_toList (e : DirectedEdge) :
    e.logical.toList = join ['-', '>'] e.from_.text e.to_.text := by
  simp [DirectedEdge.logical, edge_id_logical, PortRef.text, join, toString]

/-- The edges that `edge_id_logical` cannot tell apart. -/
theorem logical_eq_iff (e e' : DirectedEdge) : e.logical = e'.logical ↔ Confusable e e' := by
  rw [← String.toList_inj, logical_toList, logical_toList,
    join_eq_iff (borderless_pair (by decide)), text_eq_iff, text_eq_iff]
  exact Iff.rfl

instance (e e' : DirectedEdge) : Decidable (Confusable e e') :=
  decidable_of_iff _ (logical_eq_iff e e')

/-- A name that holds neither separator. -/
def Plain (name : String) : Prop := ':' ∉ name.toList ∧ '>' ∉ name.toList

theorem sameText_of_plain {p q : PortRef} (hp : Plain p.path ∧ Plain p.port)
    (hq : Plain q.path ∧ Plain q.port) (h : SameText p q) : p = q := by
  have hcolon : ∀ {c : List Char}, [':'] <:+: c → ':' ∈ c := by
    intro c hc
    exact hc.subset (by simp)
  rcases h with heq | hshift | hshift
  · exact heq
  · exact absurd (hcolon hshift.infix_left) hp.1.1
  · exact absurd (hcolon hshift.infix_left) hq.1.1

theorem arrow_of_text {ref : PortRef} (h : ['-', '>'] <:+: ref.text) :
    ¬ (Plain ref.path ∧ Plain ref.port) := by
  rintro ⟨hpath, hport⟩
  have hmem : '>' ∈ ref.text := h.subset (by simp)
  simp only [PortRef.text, join, List.mem_append, List.mem_singleton] at hmem
  rcases hmem with (hmem | hmem) | hmem
  · exact hpath.2 hmem
  · exact absurd hmem (by decide)
  · exact hport.2 hmem

/-- Plain names keep edges apart. -/
theorem not_confusable_of_plain {e e' : DirectedEdge} (hne : e.ends ≠ e'.ends)
    (hfrom : Plain e.from_.path ∧ Plain e.from_.port) (hto : Plain e.to_.path ∧ Plain e.to_.port)
    (hfrom' : Plain e'.from_.path ∧ Plain e'.from_.port)
    (hto' : Plain e'.to_.path ∧ Plain e'.to_.port) : ¬ Confusable e e' := by
  rintro (⟨hsrc, hdst⟩ | hshift | hshift)
  · apply hne
    rw [DirectedEdge.ends, DirectedEdge.ends, sameText_of_plain hfrom hfrom' hsrc,
      sameText_of_plain hto hto' hdst]
  · exact arrow_of_text hshift.infix_left hfrom
  · exact arrow_of_text hshift.infix_left hfrom'

/-! ### Services -/

/-- The id at the end of a service name. -/
theorem uart_edge_injective {cluster_key : String} {id id' : HashedId}
    (h : uart_edge cluster_key id = uart_edge cluster_key id') : id = id' := by
  apply HashedId.to_hex_injective
  simpa [uart_edge, ← String.toList_inj, toString] using h

theorem analog_edge_injective {cluster_key : String} {id id' : HashedId}
    (h : analog_edge cluster_key id = analog_edge cluster_key id') : id = id' := by
  apply HashedId.to_hex_injective
  simpa [analog_edge, ← String.toList_inj, toString] using h

theorem uart_edge_ne_analog_edge {cluster_key : String} {id id' : HashedId} :
    uart_edge cluster_key id ≠ analog_edge cluster_key id' := by
  intro h
  simp [uart_edge, analog_edge, ← String.toList_inj, toString] at h

/-- What distinct edges of a cluster need: ids of their own and, for whatever
    key the cluster has, services of their own. -/
def OwnService (xxh3_64 : String → HashedId) (e e' : DirectedEdge) : Prop :=
  e.edge_id xxh3_64 ≠ e'.edge_id xxh3_64 ∧
    ∀ cluster_key name name', e.service_name xxh3_64 cluster_key = some name →
      e'.service_name xxh3_64 cluster_key = some name' → name ≠ name'

theorem ownService_of_id {xxh3_64 : String → HashedId} {e e' : DirectedEdge}
    (h : e.edge_id xxh3_64 ≠ e'.edge_id xxh3_64) : OwnService xxh3_64 e e' := by
  refine ⟨h, fun cluster_key name name' hname hname' heq => ?_⟩
  subst heq
  unfold DirectedEdge.service_name at hname hname'
  cases hpay : e.payload <;> cases hpay' : e'.payload <;>
    simp only [hpay, hpay', Option.some.injEq, reduceCtorEq] at hname hname'
  · exact h (uart_edge_injective (hname.trans hname'.symm))
  · exact uart_edge_ne_analog_edge (hname.trans hname'.symm)
  · exact uart_edge_ne_analog_edge (hname'.trans hname.symm)
  · exact h (analog_edge_injective (hname.trans hname'.symm))

section

variable {xxh3_64 : String → HashedId} {topo : LogicalTopology} {hashes : TopologyHashes}

theorem ownService_iff (h : build_topology_hashes xxh3_64 topo = .ok hashes) {e e' : DirectedEdge}
    (he : e ∈ topo.edges) (he' : e' ∈ topo.edges) :
    OwnService xxh3_64 e e' ↔ ¬ Confusable e e' := by
  rw [← logical_eq_iff, ← build_topology_hashes_edges h he he']
  exact ⟨fun hown => hown.1, ownService_of_id⟩

/-- A topology with plain names has a service for each edge. -/
theorem services_of_plain {check_spec : String → Except String Unit}
    (hvalid : topo.validate check_spec = .ok ())
    (h : build_topology_hashes xxh3_64 topo = .ok hashes)
    (hplain : ∀ edge ∈ topo.edges, (Plain edge.from_.path ∧ Plain edge.from_.port) ∧
      Plain edge.to_.path ∧ Plain edge.to_.port) : topo.edges.Pairwise (OwnService xxh3_64) := by
  have hends : topo.edges.Pairwise fun e e' => e.ends ≠ e'.ends :=
    List.pairwise_map.mp (LogicalTopology.validate_iff.mp hvalid).ends
  refine hends.imp_of_mem fun {e e'} he he' hne => (ownService_iff h he he').mpr ?_
  exact not_confusable_of_plain hne (hplain e he).1 (hplain e he).2 (hplain e' he').1
    (hplain e' he').2

end

/-- The edges of an accepted topology have ids and services of their own exactly
    when no two of them are confusable. -/
theorem own_services (xxh3_64 : String → HashedId) (topo : LogicalTopology)
    (hashes : TopologyHashes) (hhashes : build_topology_hashes xxh3_64 topo = .ok hashes) :
    topo.edges.Pairwise (OwnService xxh3_64) ↔
      topo.edges.Pairwise fun e e' => ¬ Confusable e e' := by
  constructor
  · intro h
    exact h.imp_of_mem fun he he' hown => (ownService_iff hhashes he he').mp hown
  · intro h
    exact h.imp_of_mem fun he he' hconf => (ownService_iff hhashes he he').mpr hconf

/-- A hash for small examples. -/
def poly_hash (text : String) : HashedId :=
  text.toList.foldl (fun h c => h * 257 + c.toNat.toUInt64) 1

/-- Two boards, `a` with the output `out_a`, `b` with the output `out_b`, that
    feed the inputs `left` and `right` of a third. -/
def funnel (a out_a b out_b : String) : LogicalTopology where
  boards :=
    [{ id := a, kind := "rl78", elf := none, endpoints := [⟨out_a, .Out, .Uart⟩] },
      { id := b, kind := "rl78", elf := none, endpoints := [⟨out_b, .Out, .Uart⟩] },
      { id := "z", kind := "plant", elf := none, endpoints := [⟨"in", .In, .Uart⟩] }]
  edges :=
    [⟨⟨a, out_a⟩, ⟨"z", "in"⟩, [⟨a, out_a⟩, ⟨"z", "in"⟩], .Uart, none⟩,
      ⟨⟨b, out_b⟩, ⟨"z", "in"⟩, [⟨b, out_b⟩, ⟨"z", "in"⟩], .Uart, none⟩]
  margin_ns := 1000
  headroom_threshold_ns := 100
  ready_timeout_ms := 10000

/-- Two boards with one port name each. -/
theorem own_services_funnel : ∃ hashes,
    build_topology_hashes poly_hash (funnel "a" "tx" "b" "tx") = .ok hashes ∧
      ((funnel "a" "tx" "b" "tx").edges.Pairwise (OwnService poly_hash) ↔
        (funnel "a" "tx" "b" "tx").edges.Pairwise fun e e' => ¬ Confusable e e') := by
  have hbuilt : ∃ hashes,
      build_topology_hashes poly_hash (funnel "a" "tx" "b" "tx") = .ok hashes :=
    build_topology_hashes_of_keepsApart (by decide +kernel) (by decide +kernel) (by decide +kernel)
  obtain ⟨hashes, h⟩ := hbuilt
  exact ⟨hashes, h, own_services poly_hash (funnel "a" "tx" "b" "tx") hashes h⟩

/-- The port `b:c` of board `a` and the port `c` of board `a:b` share a service. -/
theorem edges_share_service :
    (funnel "a" "b:c" "a:b" "c").validate (fun _ => .ok ()) = .ok () ∧
      (∃ hashes, build_topology_hashes poly_hash (funnel "a" "b:c" "a:b" "c") = .ok hashes) ∧
      KeepsApart poly_hash ((funnel "a" "b:c" "a:b" "c").edges.map DirectedEdge.logical) ∧
      ¬ (funnel "a" "b:c" "a:b" "c").edges.Pairwise (OwnService poly_hash) := by
  refine ⟨by decide +kernel, build_topology_hashes_of_keepsApart (by decide +kernel)
    (by decide +kernel) (by decide +kernel), by decide +kernel, fun h => ?_⟩
  have hown := (List.pairwise_cons.mp h).1 _ List.mem_cons_self
  exact hown.1 (by decide +kernel)

end Rl78Sim
