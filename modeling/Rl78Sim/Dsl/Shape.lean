import Rl78Sim.Dsl.Objects
import Rl78Sim.Framework.Joins
import Mathlib.Data.List.Chain

/-! # The Shape of a Tree

    What every sequence of calls keeps: names without separators, paths that
    join them, and ports whose chains start at a board endpoint and climb one
    level at a time. A port stays good while the tree grows, so the step lemma
    has two parts: what becomes of the topology that a call changes, and that
    the tree around it only grows. -/

namespace Rl78Sim.Dsl

open Transition Joins

/-! ### Paths -/

/-- A name that does not hold the separator. -/
def Segment (name : String) : Prop := '/' ∉ name.toList

/-- `p` is one level below `q`. -/
def Below (p q : String) : Prop := ∃ name, Segment name ∧ p = under q name

theorem under_toList (p n : String) : (under p n).toList = p.toList ++ '/' :: n.toList := by
  simp [under]

theorem under_injective {p n n' : String} (h : under p n = under p n') : n = n' := by
  have hlist := congrArg String.toList h
  rw [under_toList, under_toList, List.append_right_inj, List.cons.injEq] at hlist
  exact String.toList_inj.mp hlist.2

theorem under_under (p n r : String) : under (under p n) r = under p (under n r) := by
  rw [← String.toList_inj]
  rw [under_toList, under_toList, under_toList, under_toList, List.append_assoc, List.cons_append]

theorem under_ne_empty (p n : String) : under p n ≠ "" := by
  intro h
  have hlist := congrArg String.toList h
  rw [under_toList] at hlist
  simp at hlist

theorem not_infix_of_segment {n : String} (h : Segment n) : ¬ ['/'] <:+: n.toList := by
  intro hin
  exact h (hin.subset (by simp))

/-- The first name of a path can be read off. -/
theorem segment_of_under {n n' r r' : String} (hn : Segment n) (hn' : Segment n')
    (h : under n r = under n' r') : n = n' := by
  have hlist : join ['/'] n.toList r.toList = join ['/'] n'.toList r'.toList := by
    have h := congrArg String.toList h
    simpa [under_toList, join] using h
  exact String.toList_inj.mp (join_inj (borderless_single '/') (not_infix_of_segment hn)
    (not_infix_of_segment hn') hlist).1

theorem under_not_segment (n r : String) : ¬ Segment (under n r) := by
  intro h
  exact h (by simp [under_toList])

theorem valid_name_segment {name : String} (h : valid_name name = true) : Segment name := by
  simp only [valid_name, Bool.and_eq_true, decide_eq_true_eq] at h
  exact h.2

/-! ### Ports -/

/-- A chain that starts one level above its first path and ends one level below
    `level`. -/
def Climbs (chain : List EndpointLoc) (level : String) : Prop :=
  List.IsChain (fun a b : EndpointLoc => Below a.path b.path) chain ∧
    ∃ last, chain.getLast? = some last ∧ Below last.path level

/-- The tree has a board endpoint at `loc`. -/
def HasPort (d : Tree) (loc : EndpointLoc) (direction : EndpointDirection)
    (payload : PayloadKind) : Prop :=
  ∃ t < d.count, ∃ name board, (name, board) ∈ (d.topology t).boards ∧ board.path = loc.path ∧
    ∃ ref, (loc.port, ref) ∈ board.endpoints ∧ ref.direction = direction ∧ ref.payload = payload

/-- A port of the tree: it leads up from a board endpoint of its own kind. -/
structure Sound (d : Tree) (ref : PortRef) : Prop where
  ne : ref.chain ≠ []
  climb : List.IsChain (fun a b : EndpointLoc => Below a.path b.path) ref.chain
  leaf : HasPort d ref.leaf ref.direction ref.payload

/-- An edge from an output to an input, whose route climbs to the level of the
    connection and descends from it. -/
structure Routed (level : String) (edge : DirectedEdge) : Prop where
  route : ∃ up down, edge.route = up ++ down.reverse ∧
    up.head? = some edge.from_ ∧ down.head? = some edge.to_ ∧ Climbs up level ∧ Climbs down level

/-- An edge of the topology at `level`. -/
structure Connected (d : Tree) (level : String) (edge : DirectedEdge) : Prop extends
    Routed level edge where
  src : HasPort d edge.from_ .Out edge.payload
  dst : HasPort d edge.to_ .In edge.payload
  ne : edge.from_.path ≠ edge.to_.path

/-! ### The invariant -/

/-- A board under the name it is kept by. -/
structure GoodBoard (path name : String) (board : Board) : Prop where
  id : board.id = board.path
  path : board.path = under path name
  segment : Segment name
  elf : board.elf = none
  distinct : board.endpoints.keys.Nodup
  endpoint : ∀ n ref, (n, ref) ∈ board.endpoints → n ≠ "" ∧ ref.chain = [⟨board.path, n⟩]

/-- A topology with its number, as it stands in the tree. -/
structure Good (d : Tree) (t : Nat) (topo : Topology) : Prop where
  child : ∀ name c, (name, c) ∈ topo.children → t < c ∧ c < d.count ∧
    Segment name ∧ (d.topology c).path = under topo.path name
  names : (topo.children.keys ++ topo.boards.keys).Nodup
  board : ∀ name board, (name, board) ∈ topo.boards → GoodBoard topo.path name board
  exported : ∀ name ref, (name, ref) ∈ topo.exports →
    Sound d ref ∧ ref.chain.getLast? = some ⟨topo.path, name⟩
  edge : ∀ edge ∈ topo.edges, Connected d topo.path edge

/-- The shape of a tree. -/
structure Shape (d : Tree) : Prop where
  root : 0 < d.count
  parent : ∀ c < d.count, 0 < c → ∃ t < d.count, ∃ name, (name, c) ∈ (d.topology t).children
  building : ∀ t ∈ d.building, t < d.count
  good : ∀ t < d.count, Good d t (d.topology t)

/-! ### A growing tree -/

/-- A tree with more boards, endpoints and topologies. -/
structure Grows (d d' : Tree) : Prop where
  count : d.count ≤ d'.count
  path : ∀ t < d.count, (d'.topology t).path = (d.topology t).path
  port : ∀ {loc direction payload}, HasPort d loc direction payload →
    HasPort d' loc direction payload

theorem Sound.grows {d d' : Tree} {ref : PortRef} (h : Sound d ref) (hd : Grows d d') :
    Sound d' ref := ⟨h.ne, h.climb, hd.port h.leaf⟩

theorem Connected.grows {d d' : Tree} {level : String} {edge : DirectedEdge}
    (h : Connected d level edge) (hd : Grows d d') : Connected d' level edge :=
  ⟨h.toRouted, hd.port h.src, hd.port h.dst, h.ne⟩

theorem Good.grows {d d' : Tree} {t : Nat} {topo : Topology} (h : Good d t topo)
    (hd : Grows d d') : Good d' t topo where
  child name c hmem := by
    obtain ⟨hlt, hc, hname, hpath⟩ := h.child name c hmem
    exact ⟨hlt, Nat.lt_of_lt_of_le hc hd.count, hname, (hd.path c hc).trans hpath⟩
  names := h.names
  board := h.board
  exported name ref hmem := ⟨(h.exported name ref hmem).1.grows hd, (h.exported name ref hmem).2⟩
  edge e he := (h.edge e he).grows hd

/-- Every endpoint of a dictionary of boards is one of another. -/
def BoardsGrow (boards boards' : Dict Board) : Prop :=
  ∀ name board, (name, board) ∈ boards → ∃ board', (name, board') ∈ boards' ∧
    board'.path = board.path ∧ ∀ n ref, (n, ref) ∈ board.endpoints → (n, ref) ∈ board'.endpoints

theorem boardsGrow_refl (boards : Dict Board) : BoardsGrow boards boards :=
  fun _ board hmem => ⟨board, hmem, rfl, fun _ _ h => h⟩

theorem boardsGrow_append (boards more : Dict Board) : BoardsGrow boards (boards ++ more) :=
  fun _ board hmem => ⟨board, List.mem_append_left _ hmem, rfl, fun _ _ h => h⟩

/-- A call that changes one topology and lets its boards grow. -/
theorem grows_put {d : Tree} {t : Nat} (topo : Topology) (hpath : topo.path = (d.topology t).path)
    (hboards : BoardsGrow (d.topology t).boards topo.boards) : Grows d (d.put t topo) where
  count := Nat.le_refl _
  path s _ := by
    by_cases hs : s = t
    · subst hs
      simp [Tree.put, hpath]
    · simp [Tree.put, hs]
  port := by
    rintro loc direction payload ⟨s, hs, name, board, hmem, hloc, ref, href, hkind⟩
    by_cases hst : s = t
    · subst hst
      obtain ⟨board', hmem', hpath', hports⟩ := hboards name board hmem
      exact ⟨s, hs, name, board', by simpa [Tree.put] using hmem', hpath'.trans hloc, ref,
        hports _ _ href, hkind⟩
    · exact ⟨s, hs, name, board, by simpa [Tree.put, hst] using hmem, hloc, ref, href, hkind⟩

/-- The shape is kept when the changed topology is good in the new tree. -/
theorem shape_put {d : Tree} (h : Shape d) {t : Nat} {topo : Topology}
    (hgrows : Grows d (d.put t topo))
    (hchildren : ∀ entry ∈ (d.topology t).children, entry ∈ topo.children)
    (hself : t < d.count → Good (d.put t topo) t topo) : Shape (d.put t topo) where
  root := h.root
  parent c hc hpos := by
    obtain ⟨s, hs, name, hmem⟩ := h.parent c hc hpos
    refine ⟨s, hs, name, ?_⟩
    by_cases hst : s = t
    · subst hst
      simpa [Tree.put] using hchildren _ hmem
    · simpa [Tree.put, hst] using hmem
  building := h.building
  good s hs := by
    by_cases hst : s = t
    · subst hst
      simpa [Tree.put] using hself hs
    · simpa [Tree.put, hst] using (h.good s hs).grows hgrows

/-! ### What a call does -/

section

variable {d d' : Tree}

/-- Where a visible port ends: at a board of the topology, or at a child. -/
theorem below_of_visible (h : Shape d) {t : Nat} (ht : t < d.count) {ref : PortRef}
    (hvis : d.is_visible t ref = true) :
    ∃ last, ref.chain.getLast? = some last ∧ Below last.path (d.topology t).path := by
  have hgood := h.good t ht
  cases hlast : ref.chain.getLast? with
  | none => simp [Tree.is_visible, hlast] at hvis
  | some last =>
    refine ⟨last, rfl, ?_⟩
    simp only [Tree.is_visible, hlast, Bool.or_eq_true, Bool.and_eq_true, List.any_eq_true,
      decide_eq_true_eq] at hvis
    rcases hvis with ⟨-, hboard⟩ | ⟨c, hc, hpath, -⟩
    · cases hget : (d.topology t).boards.get (local_of last.path) with
      | none => simp [hget] at hboard
      | some board =>
        simp only [hget, Bool.and_eq_true, decide_eq_true_eq] at hboard
        have hb := hgood.board _ board (Dict.mem_of_get hget)
        exact ⟨_, hb.segment, hboard.1 ▸ hb.path⟩
    · obtain ⟨entry, hentry, rfl⟩ := List.mem_map.mp hc
      obtain ⟨-, -, hname, hunder⟩ := hgood.child entry.1 entry.2 hentry
      exact ⟨entry.1, hname, hpath.trans hunder⟩

/-- The ports that a script can name are sound. -/
theorem sound_of_port (h : Shape d) {name : PortName} {ref : PortRef}
    (href : d.port name = some ref) : Sound d ref := by
  cases name with
  | endpoint t local_name name =>
    simp only [Tree.port] at href
    by_cases ht : t < d.count
    · rw [if_pos ht] at href
      obtain ⟨board, hboard, hget⟩ := Option.bind_eq_some_iff.mp href
      have hmem := Dict.mem_of_get hboard
      have hb := (h.good t ht).board _ board hmem
      have hep := Dict.mem_of_get hget
      obtain ⟨-, hchain⟩ := hb.endpoint name ref hep
      refine ⟨by simp [hchain], by simp [hchain], t, ht, local_name, board, hmem, ?_, ref, ?_,
        rfl, rfl⟩
      · simp [PortRef.leaf, hchain]
      · simpa [PortRef.leaf, hchain] using hep
    · rw [if_neg ht] at href
      cases href
  | exported t name =>
    simp only [Tree.port] at href
    by_cases ht : t < d.count
    · rw [if_pos ht] at href
      exact ((h.good t ht).exported name ref (Dict.mem_of_get href)).1
    · rw [if_neg ht] at href
      cases href

theorem shape_board (h : Shape d) {t : Nat} {local_name kind : String}
    (hstep : d.board t local_name kind none = some d') : Shape d' := by
  simp only [Tree.board] at hstep
  split_ifs at hstep with hbuild hname hboard hchild
  cases hstep
  have hseg : Segment local_name := valid_name_segment (by simpa using hname)
  have hgrows := grows_put (d := d) (t := t)
    ({ d.topology t with boards := (d.topology t).boards ++ [(local_name,
      { id := under (d.topology t).path local_name, path := under (d.topology t).path local_name,
        kind, elf := none, endpoints := [] })] }) rfl (boardsGrow_append _ _)
  refine shape_put h hgrows (fun _ hmem => hmem) fun ht => ?_
  have hold := (h.good t ht).grows hgrows
  refine ⟨hold.child, ?_, ?_, hold.exported, hold.edge⟩
  · have hnames := hold.names
    simp only [Dict.keys, List.map_append, List.map_cons, List.map_nil, ← List.append_assoc] at *
    refine List.nodup_append.mpr ⟨hnames, List.nodup_singleton _, ?_⟩
    rintro a ha b hb rfl
    rw [List.mem_singleton.mp hb] at ha
    rcases List.mem_append.mp ha with ha | ha
    · exact hchild ha
    · exact hboard ha
  · intro name board hmem
    rcases List.mem_append.mp hmem with hmem | hmem
    · exact hold.board name board hmem
    · cases List.mem_singleton.mp hmem
      exact ⟨rfl, rfl, hseg, rfl, List.nodup_nil, by simp⟩

theorem Board.endpoint_some {board board' : Board} {name : String}
    {direction : EndpointDirection} {payload : PayloadKind}
    (h : board.endpoint name direction payload = some board') :
    name ≠ "" ∧ name ∉ board.endpoints.keys ∧
      board' = { board with endpoints :=
        board.endpoints ++ [(name, ⟨[⟨board.path, name⟩], direction, payload⟩)] } := by
  simp only [Board.endpoint] at h
  split_ifs at h with hempty hdup
  cases h
  exact ⟨hempty, hdup, rfl⟩

theorem goodBoard_endpoint {path local_name name : String} {board board' : Board}
    {direction : EndpointDirection} {payload : PayloadKind} (hb : GoodBoard path local_name board)
    (h : board.endpoint name direction payload = some board') :
    GoodBoard path local_name board' := by
  obtain ⟨hempty, hdup, rfl⟩ := Board.endpoint_some h
  refine ⟨hb.id, hb.path, hb.segment, hb.elf, ?_, ?_⟩
  · simp only [Dict.keys, List.map_append, List.map_cons, List.map_nil]
    refine List.nodup_append.mpr ⟨hb.distinct, List.nodup_singleton _, ?_⟩
    rintro a ha b hmem rfl
    rw [List.mem_singleton.mp hmem] at ha
    exact hdup ha
  · intro n ref hmem
    rcases List.mem_append.mp hmem with hmem | hmem
    · exact hb.endpoint n ref hmem
    · cases List.mem_singleton.mp hmem
      exact ⟨hempty, rfl⟩

theorem shape_endpoint (h : Shape d) {t : Nat} {local_name name : String}
    {direction : EndpointDirection} {payload : PayloadKind}
    (hstep : d.endpoint t local_name name direction payload = some d') : Shape d' := by
  simp only [Tree.endpoint] at hstep
  split_ifs at hstep with ht
  obtain ⟨board', hboard', rfl⟩ := Option.map_eq_some_iff.mp hstep
  obtain ⟨board, hget, hep⟩ := Option.bind_eq_some_iff.mp hboard'
  have hold := h.good t ht
  have hmem := Dict.mem_of_get hget
  have hnodup : (d.topology t).boards.keys.Nodup := (List.nodup_append.mp hold.names).2.1
  -- The board is put back under its name, with one more port.
  have hgrow : BoardsGrow (d.topology t).boards ((d.topology t).boards.put local_name board') := by
    intro n b hb
    rcases Dict.put_mem_of_mem local_name board' hb with ⟨rfl, hput⟩ | ⟨-, hput⟩
    · have hsame : b = board := congrArg Prod.snd (List.inj_on_of_nodup_map hnodup hb hmem rfl)
      subst hsame
      obtain ⟨-, -, hnew⟩ := Board.endpoint_some hep
      exact ⟨board', hput, by rw [hnew], fun m ref href => by
        rw [hnew]; exact List.mem_append_left _ href⟩
    · exact ⟨b, hput, rfl, fun _ _ href => href⟩
  have hgrows := grows_put (d := d) (t := t) ({ d.topology t with
    boards := (d.topology t).boards.put local_name board' }) rfl hgrow
  refine shape_put h hgrows (fun _ hmem => hmem) fun ht => ?_
  have hold := hold.grows hgrows
  refine ⟨hold.child, ?_, ?_, hold.exported, hold.edge⟩
  · simpa using hold.names
  · intro n b hb
    rcases Dict.mem_put hb with ⟨rfl, rfl⟩ | ⟨-, hb⟩
    · exact goodBoard_endpoint (hold.board _ _ hmem) hep
    · exact hold.board n b hb

theorem shape_add_child (h : Shape d) {t : Nat} {name : String}
    (hstep : d.add_child t name = some d') : Shape d' := by
  simp only [Tree.add_child] at hstep
  split_ifs at hstep with hbuild hname hchild hboard
  cases hstep
  have ht : t < d.count := h.building t (by simpa using hbuild)
  have hseg : Segment name := valid_name_segment (by simpa using hname)
  have hne : t ≠ d.count := Nat.ne_of_lt ht
  generalize hd' : ({ (d.put t { d.topology t with
      children := (d.topology t).children ++ [(name, d.count)] }).put d.count
        (Topology.new (under (d.topology t).path name)) with
      count := d.count + 1, building := d.count :: d.building } : Tree) = d'
  -- Three topologies to tell apart: `t`, the new child, and all others.
  have htop : ∀ s < d.count, s ≠ t → d'.topology s = d.topology s := by
    intro s hs hst
    have hsc : s ≠ d.count := Nat.ne_of_lt hs
    subst hd'
    simp [Tree.put, hst, hsc]
  have hself : d'.topology t = { d.topology t with
      children := (d.topology t).children ++ [(name, d.count)] } := by
    subst hd'
    simp [Tree.put, hne]
  have hnew : d'.topology d.count = Topology.new (under (d.topology t).path name) := by
    subst hd'
    simp [Tree.put]
  have hcount : d'.count = d.count + 1 := by subst hd'; rfl
  have hgrows : Grows d d' := by
    have hboards : ∀ s < d.count, (d'.topology s).boards = (d.topology s).boards ∧
        (d'.topology s).path = (d.topology s).path := by
      intro s hs
      by_cases hst : s = t
      · subst hst
        rw [hself]
        exact ⟨rfl, rfl⟩
      · rw [htop s hs hst]
        exact ⟨rfl, rfl⟩
    refine ⟨by omega, fun s hs => (hboards s hs).2, ?_⟩
    rintro loc direction payload ⟨s, hs, n, board, hmem, hport⟩
    exact ⟨s, by omega, n, board, (hboards s hs).1 ▸ hmem, hport⟩
  refine ⟨by omega, ?_, ?_, ?_⟩
  · intro c hc hpos
    by_cases hlast : c = d.count
    · exact ⟨t, by omega, name, by rw [hself, hlast]; simp⟩
    · obtain ⟨s, hs, n, hmem⟩ := h.parent c (by omega) hpos
      refine ⟨s, by omega, n, ?_⟩
      by_cases hst : s = t
      · subst hst
        rw [hself]
        exact List.mem_append_left _ hmem
      · rw [htop s hs hst]
        exact hmem
  · intro s hs
    have hs : s ∈ d.count :: d.building := by subst hd'; exact hs
    rcases List.mem_cons.mp hs with rfl | hs
    · omega
    · exact Nat.lt_of_lt_of_le (h.building s hs) (by omega)
  · intro s hs
    by_cases hlast : s = d.count
    · rw [hlast, hnew]
      exact ⟨nofun, List.nodup_nil, nofun, nofun, nofun⟩
    · have hs' : s < d.count := by omega
      by_cases hst : s = t
      · subst hst
        rw [hself]
        have hold := (h.good s hs').grows hgrows
        refine ⟨?_, ?_, hold.board, hold.exported, hold.edge⟩
        · intro n c hmem
          rcases List.mem_append.mp hmem with hmem | hmem
          · exact hold.child n c hmem
          · cases List.mem_singleton.mp hmem
            exact ⟨hs', by omega, hseg, by rw [hnew]; rfl⟩
        · have hnames := hold.names
          simp only [Dict.keys, List.map_append, List.map_cons, List.map_nil, List.append_assoc,
            List.singleton_append] at *
          -- The name of the child stands between those of the children and the boards.
          rw [List.nodup_middle]
          refine List.nodup_cons.mpr ⟨?_, hnames⟩
          intro hmem
          rcases List.mem_append.mp hmem with hmem | hmem
          · exact hchild hmem
          · exact hboard hmem
      · rw [htop s hs' hst]
        exact (h.good s hs').grows hgrows

theorem shape_built (h : Shape d) (hstep : d.built = some d') : Shape d' := by
  simp only [Tree.built] at hstep
  cases hstack : d.building with
  | nil =>
    rw [hstack] at hstep
    cases hstep
  | cons t building =>
    rw [hstack] at hstep
    cases hstep
    have hgrows : Grows d { d with building } := ⟨Nat.le_refl _, fun _ _ => rfl, fun hport => hport⟩
    exact ⟨h.root, h.parent, fun s hs => h.building s (hstack ▸ .tail _ hs),
      fun s hs => (h.good s hs).grows hgrows⟩

theorem shape_export (h : Shape d) {t : Nat} {name : String} {ref : PortRef} (href : Sound d ref)
    (hstep : d.export_ t name ref = some d') : Shape d' := by
  simp only [Tree.export_] at hstep
  split_ifs at hstep with hbuild hempty hdup hvis
  cases hstep
  have ht : t < d.count := h.building t (by simpa using hbuild)
  obtain ⟨last, hlast, hbelow⟩ := below_of_visible h ht (by simpa using hvis)
  have hgrows := grows_put (d := d) (t := t) ({ d.topology t with
    exports := (d.topology t).exports ++ [(name,
      { ref with chain := ref.chain ++ [⟨(d.topology t).path, name⟩] })] }) rfl (boardsGrow_refl _)
  refine shape_put h hgrows (fun _ hmem => hmem) fun ht => ?_
  have hold := (h.good t ht).grows hgrows
  refine ⟨hold.child, hold.names, hold.board, ?_, hold.edge⟩
  intro n r hmem
  rcases List.mem_append.mp hmem with hmem | hmem
  · exact hold.exported n r hmem
  · cases List.mem_singleton.mp hmem
    refine ⟨⟨by simp, ?_, ?_⟩, by simp⟩
    · refine List.isChain_append.mpr ⟨href.climb, List.isChain_singleton _, ?_⟩
      intro a ha b hb
      rw [hlast] at ha
      cases ha
      cases hb
      exact hbelow
    -- The export adds to the end of the chain; the leaf is its start.
    · have hleaf : ({ ref with chain := ref.chain ++ [⟨(d.topology t).path, name⟩] } :
          PortRef).leaf = ref.leaf := by
        obtain ⟨loc, chain, hchain⟩ := List.exists_cons_of_ne_nil href.ne
        simp [PortRef.leaf, hchain]
      rw [hleaf]
      exact hgrows.port href.leaf

theorem shape_connect (h : Shape d) {t : Nat} {src dst : PortRef} {uart_ring_len : Option Nat}
    (hsrc : Sound d src) (hdst : Sound d dst)
    (hstep : d.connect t src dst uart_ring_len = some d') : Shape d' := by
  simp only [Tree.connect] at hstep
  split_ifs at hstep with hbuild hvis hout hin hpay hpath hdup
  cases hstep
  have ht : t < d.count := h.building t (by simpa using hbuild)
  simp only [Bool.or_eq_true, Bool.not_eq_true', not_or, Bool.not_eq_false] at hvis
  obtain ⟨up, hup, hup'⟩ := below_of_visible h ht hvis.1
  obtain ⟨down, hdown, hdown'⟩ := below_of_visible h ht hvis.2
  have hgrows := grows_put (d := d) (t := t) ({ d.topology t with
    edges := (d.topology t).edges ++
      [⟨src.leaf, dst.leaf, src.chain ++ dst.chain.reverse, src.payload, uart_ring_len⟩] })
    rfl (boardsGrow_refl _)
  refine shape_put h hgrows (fun _ hmem => hmem) fun ht => ?_
  have hold := (h.good t ht).grows hgrows
  refine ⟨hold.child, hold.names, hold.board, hold.exported, ?_⟩
  intro edge hmem
  rcases List.mem_append.mp hmem with hmem | hmem
  · exact hold.edge edge hmem
  · cases List.mem_singleton.mp hmem
    have hleaf : ∀ {ref : PortRef}, ref.chain ≠ [] → ref.chain.head? = some ref.leaf := by
      intro ref hne
      obtain ⟨loc, chain, hchain⟩ := List.exists_cons_of_ne_nil hne
      simp [PortRef.leaf, hchain]
    -- The checks of `connect` fix the directions and make the payloads one.
    have hsrc' := hsrc.leaf
    have hdst' := hdst.leaf
    simp only [ne_eq, Decidable.not_not] at hout hin hpay
    rw [hout] at hsrc'
    rw [hin, ← hpay] at hdst'
    exact ⟨⟨src.chain, dst.chain, rfl, hleaf hsrc.ne, hleaf hdst.ne,
      ⟨hsrc.climb, up, hup, hup'⟩, hdst.climb, down, hdown, hdown'⟩, hgrows.port hsrc',
      hgrows.port hdst', hpath⟩

/-- Every call of a script keeps the shape. -/
theorem shape_call (h : Shape d) {l : Call} (hok : NoElf d l) (hstep : d.call l = some d') :
    Shape d' := by
  cases l with
  | board t local_name kind elf =>
    obtain rfl : elf = none := hok
    exact shape_board h hstep
  | endpoint t local_name name direction payload => exact shape_endpoint h hstep
  | add_child t name => exact shape_add_child h hstep
  | built => exact shape_built h hstep
  | export_ t name endpoint =>
    obtain ⟨ref, href, hstep⟩ := Option.bind_eq_some_iff.mp hstep
    exact shape_export h (sound_of_port h href) hstep
  | connect t src dst uart_ring_len =>
    obtain ⟨srcref, hsrc, hstep⟩ := Option.bind_eq_some_iff.mp hstep
    obtain ⟨dstref, hdst, hstep⟩ := Option.bind_eq_some_iff.mp hstep
    exact shape_connect h (sound_of_port h hsrc) (sound_of_port h hdst) hstep

end

theorem shape_root (name : String) : Shape (Tree.root name) where
  root := Nat.one_pos
  parent c hc hpos := absurd hc (by simp only [Tree.root]; omega)
  building t ht := by simp [Tree.root] at ht ⊢; omega
  good t _ := ⟨nofun, List.nodup_nil, nofun, nofun, nofun⟩

theorem shape_inductive : Inductive scripts NoElf Shape := by
  intro d l d' h hok hstep
  exact shape_call h hok hstep

/-- Every tree that a script builds without firmware has the shape. -/
theorem shape_of_reachable {d : Tree} (h : Reachable scripts NoElf d) : Shape d := by
  refine h.invariant ?_ shape_inductive
  rintro d ⟨name, -, rfl⟩
  exact shape_root name

end Rl78Sim.Dsl
