import Rl78Sim.Dsl.Shape

/-! # The Flattened Tree

    `to_dict` walks the tree from its root. The walk finds every board once, so
    that the ends of the edges, which are boards of the tree, are boards of the
    flattened topology, and `LogicalTopology::validate` accepts it. -/

namespace Rl78Sim.Dsl

open Transition

variable {d : Tree}

/-! ### The walk -/

/-- A board on the walk has a path below that of the topology where it starts. -/
theorem under_of_collected (h : Shape d) :
    ∀ fuel t, t < d.count → ∀ board ∈ d.collect_boards fuel t,
      ∃ rest, board.path = under (d.topology t).path rest := by
  intro fuel
  induction fuel with
  | zero => exact fun _ _ => nofun
  | succ fuel ih =>
    intro t ht board hmem
    rcases List.mem_append.mp hmem with hmem | hmem
    · obtain ⟨⟨name, b⟩, hb, rfl⟩ := List.mem_map.mp hmem
      exact ⟨name, ((h.good t ht).board name b hb).path⟩
    · obtain ⟨c, hc, hmem⟩ := List.mem_flatMap.mp hmem
      obtain ⟨⟨name, c⟩, hchild, rfl⟩ := List.mem_map.mp hc
      obtain ⟨-, hcount, -, hpath⟩ := (h.good t ht).child name c hchild
      obtain ⟨rest, hrest⟩ := ih c hcount board hmem
      exact ⟨under name rest, by rw [hrest, hpath, under_under]⟩

/-- The boards on the walk are boards of the tree. -/
theorem goodBoard_of_collected (h : Shape d) :
    ∀ fuel t, t < d.count → ∀ board ∈ d.collect_boards fuel t,
      ∃ path name, GoodBoard path name board := by
  intro fuel
  induction fuel with
  | zero => exact fun _ _ => nofun
  | succ fuel ih =>
    intro t ht board hmem
    rcases List.mem_append.mp hmem with hmem | hmem
    · obtain ⟨⟨name, b⟩, hb, rfl⟩ := List.mem_map.mp hmem
      exact ⟨_, name, (h.good t ht).board name b hb⟩
    · obtain ⟨c, hc, hmem⟩ := List.mem_flatMap.mp hmem
      obtain ⟨⟨name, c⟩, hchild, rfl⟩ := List.mem_map.mp hc
      exact ih c ((h.good t ht).child name c hchild).2.1 board hmem

/-- The walk meets no path twice. -/
theorem collected_nodup (h : Shape d) :
    ∀ fuel t, t < d.count → ((d.collect_boards fuel t).map Board.path).Nodup := by
  intro fuel
  induction fuel with
  | zero => exact fun _ _ => List.nodup_nil
  | succ fuel ih =>
    intro t ht
    have hgood := h.good t ht
    obtain ⟨hchildren, hboards, hapart⟩ := List.nodup_append.mp hgood.names
    rw [Tree.collect_boards, List.map_append, List.map_flatMap]
    refine List.nodup_append.mpr ⟨?_, List.nodup_flatMap.mpr ⟨?_, ?_⟩, ?_⟩
    · -- the boards of the topology itself
      rw [Dict.values, List.map_map]
      rw [Dict.keys] at hboards
      refine List.Nodup.map_on ?_ hboards.of_map
      intro x hx y hy hpath
      have hx' := (hgood.board x.1 x.2 hx).path
      have hy' := (hgood.board y.1 y.2 hy).path
      have hname : x.1 = y.1 := under_injective (hx'.symm.trans (hpath.trans hy'))
      exact List.inj_on_of_nodup_map hboards hx hy hname
    · intro c hc
      obtain ⟨⟨name, c⟩, hchild, rfl⟩ := List.mem_map.mp hc
      exact ih c (hgood.child name c hchild).2.1
    · -- two children have different names, which their boards keep
      rw [Dict.values, List.pairwise_map]
      refine (List.pairwise_map.mp hchildren).imp_of_mem ?_
      intro x y hx hy hname
      obtain ⟨-, hcx, hsegx, hpathx⟩ := hgood.child x.1 x.2 hx
      obtain ⟨-, hcy, hsegy, hpathy⟩ := hgood.child y.1 y.2 hy
      intro path hmemx hmemy
      obtain ⟨bx, hbx, rfl⟩ := List.mem_map.mp hmemx
      obtain ⟨byy, hby, hsame⟩ := List.mem_map.mp hmemy
      obtain ⟨rx, hrx⟩ := under_of_collected h fuel x.2 hcx bx hbx
      obtain ⟨ry, hry⟩ := under_of_collected h fuel y.2 hcy byy hby
      rw [hpathx, under_under] at hrx
      rw [hpathy, under_under] at hry
      exact hname (segment_of_under hsegx hsegy
        (under_injective (hrx.symm.trans (hsame.symm.trans hry))))
    · -- a board and a board of a child
      intro path hown path' hbelow hsame
      subst hsame
      obtain ⟨b, hb, rfl⟩ := List.mem_map.mp hown
      obtain ⟨⟨name, b⟩, hboard, rfl⟩ := List.mem_map.mp hb
      obtain ⟨c, hc, hmem⟩ := List.mem_flatMap.mp hbelow
      obtain ⟨⟨cname, c⟩, hchild, rfl⟩ := List.mem_map.mp hc
      obtain ⟨b', hb', hpath'⟩ := List.mem_map.mp hmem
      obtain ⟨-, hcount, -, hpath⟩ := hgood.child cname c hchild
      obtain ⟨rest, hrest⟩ := under_of_collected h fuel c hcount b' hb'
      have hg := hgood.board name b hboard
      have heq : under (d.topology t).path name = under (d.topology t).path (under cname rest) := by
        rw [← under_under, ← hpath, ← hrest, ← hg.path]
        exact hpath'.symm
      exact under_not_segment cname rest (under_injective heq ▸ hg.segment)

/-- More depth finds more. -/
theorem collect_boards_mono :
    ∀ fuel t, ∀ board ∈ d.collect_boards fuel t, board ∈ d.collect_boards (fuel + 1) t := by
  intro fuel
  induction fuel with
  | zero => exact fun _ => nofun
  | succ fuel ih =>
    intro t board hmem
    rw [Tree.collect_boards] at hmem ⊢
    rcases List.mem_append.mp hmem with hmem | hmem
    · exact List.mem_append_left _ hmem
    · obtain ⟨c, hc, hmem⟩ := List.mem_flatMap.mp hmem
      exact List.mem_append_right _ (List.mem_flatMap.mpr ⟨c, hc, ih c board hmem⟩)

theorem collect_boards_le {fuel fuel' : Nat} (hle : fuel ≤ fuel') (t : Nat) :
    ∀ board ∈ d.collect_boards fuel t, board ∈ d.collect_boards fuel' t := by
  induction hle with
  | refl => exact fun _ h => h
  | step _ ih => exact fun board h => collect_boards_mono _ t board (ih board h)

/-- The walk from the root comes through every topology, with depth left for the
    topologies after it. -/
theorem collected_from_root (h : Shape d) :
    ∀ t < d.count, ∀ board ∈ d.collect_boards (d.count - t) t,
      board ∈ d.collect_boards d.count 0 := by
  intro t
  induction t using Nat.strong_induction_on with
  | _ t ih =>
    intro ht board hmem
    by_cases hroot : t = 0
    · subst hroot
      exact hmem
    · obtain ⟨s, hs, name, hchild⟩ := h.parent t ht (by omega)
      have hlt : s < t := ((h.good s hs).child name t hchild).1
      refine ih s hlt hs board ?_
      obtain ⟨fuel, hfuel⟩ : ∃ fuel, d.count - s = fuel + 1 := ⟨d.count - s - 1, by omega⟩
      rw [hfuel, Tree.collect_boards]
      refine List.mem_append_right _ (List.mem_flatMap.mpr ⟨t, ?_, ?_⟩)
      · exact List.mem_map.mpr ⟨(name, t), hchild, rfl⟩
      · exact collect_boards_le (by omega) t board hmem

/-- Every board of the tree is collected. -/
theorem collected_of_board (h : Shape d) {t : Nat} (ht : t < d.count) {name : String}
    {board : Board} (hmem : (name, board) ∈ (d.topology t).boards) :
    board ∈ d.collect_boards d.count 0 := by
  refine collected_from_root h t ht board ?_
  obtain ⟨fuel, hfuel⟩ : ∃ fuel, d.count - t = fuel + 1 := ⟨d.count - t - 1, by omega⟩
  rw [hfuel, Tree.collect_boards]
  exact List.mem_append_left _ (List.mem_map.mpr ⟨_, hmem, rfl⟩)

/-- Every collected edge is an edge of a topology of the tree. -/
theorem collected_edge (h : Shape d) :
    ∀ fuel t, t < d.count → ∀ edge ∈ d.collect_edges fuel t,
      ∃ s < d.count, edge ∈ (d.topology s).edges := by
  intro fuel
  induction fuel with
  | zero => exact fun _ _ => nofun
  | succ fuel ih =>
    intro t ht edge hmem
    rcases List.mem_append.mp hmem with hmem | hmem
    · exact ⟨t, ht, hmem⟩
    · obtain ⟨c, hc, hmem⟩ := List.mem_flatMap.mp hmem
      obtain ⟨⟨name, c⟩, hchild, rfl⟩ := List.mem_map.mp hc
      exact ih c ((h.good t ht).child name c hchild).2.1 edge hmem

/-! ### The validator -/

theorem validBoard_to_dict {check_spec : String → Except String Unit} {path name : String}
    {board : Board} (hb : GoodBoard path name board) :
    LogicalTopology.ValidBoard check_spec board.to_dict := by
  have hports : board.to_dict.endpoints.map EndpointSpec.name = board.endpoints.keys := by
    simp only [Board.to_dict, Dict.values, Dict.keys, List.map_map]
    apply List.map_congr_left
    rintro ⟨n, ref⟩ hmem
    have hchain := (hb.endpoint n ref hmem).2
    simp [PortRef.leaf, hchain]
  refine ⟨?_, ?_, ?_, ?_⟩
  · simp only [Board.to_dict, hb.id, hb.path]
    exact under_ne_empty path name
  · intro ep hep
    have hname : ep.name ∈ board.endpoints.keys := by
      rw [← hports]
      exact List.mem_map_of_mem hep
    obtain ⟨ref, href⟩ := Dict.mem_keys.mp hname
    exact (hb.endpoint _ ref href).1
  · rw [hports]
    exact hb.distinct
  · intro elf helf
    simp [Board.to_dict, hb.elf] at helf

/-- A board endpoint of the tree is an endpoint of the flattened topology. -/
theorem hasEndpoint_of_hasPort (h : Shape d) {loc : EndpointLoc} {direction : EndpointDirection}
    {payload : PayloadKind} (hport : HasPort d loc direction payload) :
    LogicalTopology.HasEndpoint ((d.collect_boards d.count 0).map Board.to_dict) loc direction
      payload := by
  obtain ⟨t, ht, name, board, hmem, hpath, ref, href, hdir, hpay⟩ := hport
  have hb := (h.good t ht).board name board hmem
  have hchain := (hb.endpoint loc.port ref href).2
  refine ⟨board.to_dict, List.mem_map_of_mem (collected_of_board h ht hmem), hb.id.trans hpath,
    ⟨ref.leaf.port, ref.direction, ref.payload⟩, ?_, ?_, hdir, hpay⟩
  · exact List.mem_map.mpr ⟨ref, List.mem_map.mpr ⟨(loc.port, ref), href, rfl⟩, rfl⟩
  · simp [PortRef.leaf, hchain]

theorem validEdge_of_connected (h : Shape d) {level : String} {edge : DirectedEdge}
    (he : Connected d level edge) :
    LogicalTopology.ValidEdge ((d.collect_boards d.count 0).map Board.to_dict) edge := by
  obtain ⟨up, down, hroute, hup, hdown, -, -⟩ := he.route
  refine ⟨?_, ?_, hasEndpoint_of_hasPort h he.src, hasEndpoint_of_hasPort h he.dst, he.ne⟩
  · rw [hroute, List.head?_append, hup]
    rfl
  · rw [hroute, List.getLast?_append, List.getLast?_reverse, hdown]
    rfl

/-- A board that feeds a board two levels down, through two exports. -/
def nested_script : List Call :=
  [.board 0 "a" "rl78" none, .endpoint 0 "a" "tx" .Out .Uart, .add_child 0 "left",
    .add_child 1 "inner", .board 2 "b" "plant" none, .endpoint 2 "b" "rx" .In .Uart,
    .export_ 2 "in" (.endpoint 2 "b" "rx"), .built, .export_ 1 "in" (.exported 2 "in"), .built,
    .connect 0 (.endpoint 0 "a" "tx") (.exported 1 "in") none, .built]

end Rl78Sim.Dsl
