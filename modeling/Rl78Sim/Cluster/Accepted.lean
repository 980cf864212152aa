import Rl78Sim.Cluster.Topology
import Mathlib.Data.List.Nodup

/-! # The Accepted Topologies

    What `LogicalTopology::validate` decides, as a property of the topology:
    the structure `Valid` says it in terms of the boards and edges, and
    `validate_iff` that the chain of checks accepts exactly the valid
    topologies. -/

namespace Rl78Sim

/-- The two ends of an edge, which identify it. -/
def DirectedEdge.ends (edge : DirectedEdge) : PortRef × PortRef := (edge.from_, edge.to_)

namespace LogicalTopology

open Fallible

/-! ### The property -/

/-- The board `ref.path` has an endpoint `ref.port` of this direction and payload. -/
def HasEndpoint (boards : List BoardSpec) (ref : PortRef) (direction : EndpointDirection)
    (payload : PayloadKind) : Prop :=
  ∃ board ∈ boards, board.id = ref.path ∧
    ∃ ep ∈ board.endpoints, ep.name = ref.port ∧ ep.direction = direction ∧ ep.payload = payload

/-- A board with a name, named endpoints and a firmware source that can be read. -/
structure ValidBoard (check_spec : String → Except String Unit) (board : BoardSpec) : Prop where
  id : board.id ≠ ""
  names : ∀ ep ∈ board.endpoints, ep.name ≠ ""
  distinct : (board.endpoints.map EndpointSpec.name).Nodup
  elf : ∀ elf, board.elf = some elf → check_spec elf = .ok ()

/-- An edge from an output to an input of another board, with its route. -/
structure ValidEdge (boards : List BoardSpec) (edge : DirectedEdge) : Prop where
  head : edge.route.head? = some edge.from_
  last : edge.route.getLast? = some edge.to_
  src : HasEndpoint boards edge.from_ .Out edge.payload
  dst : HasEndpoint boards edge.to_ .In edge.payload
  ne : edge.from_.path ≠ edge.to_.path

/-- A topology whose names are unique and whose edges resolve. -/
structure Valid (check_spec : String → Except String Unit) (topo : LogicalTopology) : Prop where
  boards_ne : topo.boards ≠ []
  ids : (topo.boards.map BoardSpec.id).Nodup
  boards : ∀ board ∈ topo.boards, ValidBoard check_spec board
  ends : (topo.edges.map DirectedEdge.ends).Nodup
  edges : ∀ edge ∈ topo.edges, ValidEdge topo.boards edge

/-! ### The checks, one by one -/

@[simp] theorem require_iff {b : Bool} {message : String} :
    require b message = .ok () ↔ b = true := by
  cases b <;> simp [require]

theorem seq_iff {x y : Except TopologyError Unit} :
    (x >>= fun _ => y) = .ok () ↔ x = .ok () ∧ y = .ok () := by
  constructor
  · intro h
    obtain ⟨_, hx, hy⟩ := bind_ok h
    exact ⟨hx, hy⟩
  · rintro ⟨rfl, hy⟩
    exact hy

theorem found_iff {α : Type} {o : Option α} {message : String}
    {f : α → Except TopologyError Unit} :
    (found o message >>= f) = .ok () ↔ ∃ a, o = some a ∧ f a = .ok () := by
  constructor
  · intro h
    obtain ⟨a, ha, hf⟩ := bind_ok h
    exact ⟨a, found_ok ha, hf⟩
  · rintro ⟨a, rfl, hf⟩
    exact hf

/-- A pass over a list that remembers the keys it has seen finds each key once. -/
theorem unseen_cons {α β : Type} (key : α → β) (P : α → Prop) (a : α) (l : List α)
    (seen : List β) :
    ((P a ∧ key a ∉ seen) ∧ (∀ b ∈ l, P b ∧ key b ∉ key a :: seen) ∧ (l.map key).Nodup) ↔
      (∀ b ∈ a :: l, P b ∧ key b ∉ seen) ∧ ((a :: l).map key).Nodup := by
  rw [List.forall_mem_cons, List.map_cons, List.nodup_cons]
  constructor
  · rintro ⟨ha, hl, hnodup⟩
    refine ⟨⟨ha, fun b hb => ⟨(hl b hb).1, fun hs => (hl b hb).2 (.tail _ hs)⟩⟩, ?_, hnodup⟩
    intro hmem
    obtain ⟨b, hb, hkey⟩ := List.mem_map.mp hmem
    exact (hl b hb).2 (hkey ▸ List.mem_cons_self)
  · rintro ⟨⟨ha, hl⟩, hnew, hnodup⟩
    refine ⟨ha, fun b hb => ⟨(hl b hb).1, fun hs => ?_⟩, hnodup⟩
    rcases List.mem_cons.mp hs with hkey | hs
    · exact hnew (hkey ▸ List.mem_map_of_mem hb)
    · exact (hl b hb).2 hs

theorem check_endpoints_iff {board : BoardSpec} {eps : List EndpointSpec} :
    ∀ {seen : List String}, check_endpoints board seen eps = .ok () ↔
      (∀ ep ∈ eps, ep.name ≠ "" ∧ ep.name ∉ seen) ∧ (eps.map EndpointSpec.name).Nodup := by
  induction eps with
  | nil => simp [check_endpoints]
  | cons ep eps ih =>
    intro seen
    have hstep : check_endpoints board seen (ep :: eps) = .ok () ↔
        (ep.name ≠ "" ∧ ep.name ∉ seen) ∧
          check_endpoints board (ep.name :: seen) eps = .ok () := by
      rw [check_endpoints, seq_iff, seq_iff]
      simp [and_assoc]
    rw [hstep, ih]
    exact unseen_cons EndpointSpec.name (fun e => e.name ≠ "") ep eps seen

variable {check_spec : String → Except String Unit} {topo : LogicalTopology}

/-- One board, and then the others with its name seen. -/
theorem check_boards_cons {board : BoardSpec} {boards : List BoardSpec} {seen : List String} :
    check_boards check_spec seen (board :: boards) = .ok () ↔
      (ValidBoard check_spec board ∧ board.id ∉ seen) ∧
        check_boards check_spec (board.id :: seen) boards = .ok () := by
  rw [check_boards, seq_iff, seq_iff, seq_iff, require_iff, require_iff, check_endpoints_iff]
  constructor
  -- The image is checked last, so what follows it is known only once it has passed.
  · rintro ⟨hne, hseen, ⟨hnames, hdistinct⟩, hrest⟩
    have hid : board.id ≠ "" := by simpa using hne
    cases helf : board.elf with
    | none =>
      simp only [helf, Option.map_none] at hrest
      exact ⟨⟨⟨hid, fun ep hep => (hnames ep hep).1, hdistinct, by simp [helf]⟩,
        by simpa using hseen⟩, hrest⟩
    | some elf =>
      cases hspec : check_spec elf with
      | error err =>
        simp only [helf, Option.map_some, hspec] at hrest
        cases hrest
      | ok _ =>
        simp only [helf, Option.map_some, hspec] at hrest
        exact ⟨⟨⟨hid, fun ep hep => (hnames ep hep).1, hdistinct, by simp [helf, hspec]⟩,
          by simpa using hseen⟩, hrest⟩
  · rintro ⟨⟨hboard, hseen⟩, hrest⟩
    refine ⟨by simpa using hboard.id, by simpa using hseen,
      ⟨fun ep hep => ⟨hboard.names ep hep, by simp⟩, hboard.distinct⟩, ?_⟩
    cases helf : board.elf with
    | none => simpa only [Option.map_none] using hrest
    | some elf => simpa only [Option.map_some, hboard.elf elf helf] using hrest

theorem check_boards_iff {boards : List BoardSpec} :
    ∀ {seen : List String}, check_boards check_spec seen boards = .ok () ↔
      (∀ board ∈ boards, ValidBoard check_spec board ∧ board.id ∉ seen) ∧
        (boards.map BoardSpec.id).Nodup := by
  induction boards with
  | nil => simp [check_boards]
  | cons board boards ih =>
    intro seen
    rw [check_boards_cons, ih]
    exact unseen_cons BoardSpec.id (ValidBoard check_spec) board boards seen

/-- With unique ids, the board that is found is the board of that id. -/
theorem board_at_some {path : String} (hids : (topo.boards.map BoardSpec.id).Nodup)
    {board : BoardSpec} (hmem : board ∈ topo.boards) (hid : board.id = path) :
    ∃ i, topo.board_at path = some i ∧ topo.boards.get i = board := by
  have hsome : (topo.board_at path).isSome = true := by
    obtain ⟨i, hi, hget⟩ := List.mem_iff_getElem.mp hmem
    exact List.find?_isSome.mpr ⟨⟨i, hi⟩, List.mem_finRange _, by simp [hget, hid]⟩
  obtain ⟨i, hi⟩ := Option.isSome_iff_exists.mp hsome
  refine ⟨i, hi, List.inj_on_of_nodup_map hids (List.getElem_mem i.isLt) hmem ?_⟩
  exact (board_at_id hi).trans hid.symm

/-- With unique names, the endpoint that is found is the endpoint of that name. -/
theorem endpoint_at_some {board : BoardSpec} {port : String}
    (hnames : (board.endpoints.map EndpointSpec.name).Nodup)
    {ep : EndpointSpec} (hmem : ep ∈ board.endpoints) (hname : ep.name = port) :
    endpoint_at board port = some ep := by
  have hsome : (endpoint_at board port).isSome = true :=
    List.find?_isSome.mpr ⟨ep, hmem, by simp [hname]⟩
  obtain ⟨e, he⟩ := Option.isSome_iff_exists.mp hsome
  have hsame : e = ep := List.inj_on_of_nodup_map hnames (List.mem_of_find?_eq_some he) hmem
    (by rw [hname]; simpa using List.find?_some he)
  rw [he, hsame]

/-- The lookup of one end of an edge succeeds as the property says. -/
theorem has_endpoint_iff (hids : (topo.boards.map BoardSpec.id).Nodup)
    (hboards : ∀ board ∈ topo.boards, ValidBoard check_spec board) {ref : PortRef}
    {direction : EndpointDirection} {payload : PayloadKind} :
    HasEndpoint topo.boards ref direction payload ↔
      ∃ i ep, topo.board_at ref.path = some i ∧
        endpoint_at (topo.boards.get i) ref.port = some ep ∧
          ep.direction = direction ∧ ep.payload = payload := by
  constructor
  · rintro ⟨board, hmem, hid, ep, hep, hname, hdir, hpay⟩
    obtain ⟨i, hi, hget⟩ := board_at_some hids hmem hid
    refine ⟨i, ep, hi, ?_, hdir, hpay⟩
    rw [hget]
    exact endpoint_at_some (hboards board hmem).distinct hep hname
  · rintro ⟨i, ep, hi, hep, hdir, hpay⟩
    exact ⟨topo.boards.get i, List.getElem_mem i.isLt, board_at_id hi, ep,
      List.mem_of_find?_eq_some hep, by simpa using List.find?_some hep, hdir, hpay⟩

theorem check_edge_iff (hids : (topo.boards.map BoardSpec.id).Nodup)
    (hboards : ∀ board ∈ topo.boards, ValidBoard check_spec board)
    {seen : List (PortRef × PortRef)} {edge : DirectedEdge} :
    topo.check_edge seen edge = .ok () ↔ ValidEdge topo.boards edge ∧ edge.ends ∉ seen := by
  simp only [check_edge, seq_iff, found_iff, require_iff]
  constructor
  · rintro ⟨-, hhead, hlast, hseen, i, hi, j, hj, src, hsrc, dst, hdst, hout, hin, hpay, hne⟩
    simp only [Bool.and_eq_true, decide_eq_true_eq] at hhead hlast hseen hout hin hpay hne
    exact ⟨⟨hhead, hlast, (has_endpoint_iff hids hboards).mpr ⟨i, src, hi, hsrc, hout, hpay.1⟩,
      (has_endpoint_iff hids hboards).mpr ⟨j, dst, hj, hdst, hin, hpay.2⟩, hne⟩, hseen⟩
  · rintro ⟨hedge, hseen⟩
    obtain ⟨i, src, hi, hsrc, hout, hpay⟩ := (has_endpoint_iff hids hboards).mp hedge.src
    obtain ⟨j, dst, hj, hdst, hin, hpay'⟩ := (has_endpoint_iff hids hboards).mp hedge.dst
    have hroute : edge.route ≠ [] := by
      intro hnil
      have hhead := hedge.head
      rw [hnil] at hhead
      cases hhead
    refine ⟨by simpa using hroute, by simpa using hedge.head, by simpa using hedge.last,
      by simpa [DirectedEdge.ends] using hseen, i, hi, j, hj, src, hsrc, dst, hdst,
      by simpa using hout, by simpa using hin, by simp [hpay, hpay'], by simpa using hedge.ne⟩

theorem check_edges_iff (hids : (topo.boards.map BoardSpec.id).Nodup)
    (hboards : ∀ board ∈ topo.boards, ValidBoard check_spec board) {edges : List DirectedEdge} :
    ∀ {seen : List (PortRef × PortRef)}, topo.check_edges seen edges = .ok () ↔
      (∀ edge ∈ edges, ValidEdge topo.boards edge ∧ edge.ends ∉ seen) ∧
        (edges.map DirectedEdge.ends).Nodup := by
  induction edges with
  | nil => simp [check_edges]
  | cons edge edges ih =>
    intro seen
    rw [check_edges, seq_iff, check_edge_iff hids hboards, ih]
    exact unseen_cons DirectedEdge.ends (ValidEdge topo.boards) edge edges seen

/-- `validate` accepts exactly the valid topologies. -/
theorem validate_iff : topo.validate check_spec = .ok () ↔ Valid check_spec topo := by
  rw [validate, seq_iff, seq_iff, require_iff, check_boards_iff]
  constructor
  · rintro ⟨hne, ⟨hboards, hids⟩, hedges⟩
    have hboards' : ∀ board ∈ topo.boards, ValidBoard check_spec board :=
      fun board hboard => (hboards board hboard).1
    rw [check_edges_iff hids hboards'] at hedges
    exact ⟨by simpa using hne, hids, hboards', hedges.2, fun edge hedge => (hedges.1 edge hedge).1⟩
  · intro h
    refine ⟨by simpa using h.boards_ne,
      ⟨fun board hboard => ⟨h.boards board hboard, by simp⟩, h.ids⟩, ?_⟩
    rw [check_edges_iff h.ids h.boards]
    exact ⟨fun edge hedge => ⟨h.edges edge hedge, by simp⟩, h.ends⟩

end LogicalTopology

end Rl78Sim
