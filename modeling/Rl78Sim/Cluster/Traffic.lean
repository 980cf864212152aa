import Rl78Sim.Cluster.System

/-! # What a Step Does to One Edge

    A drive of a board's guest waits on its out-port, then in the queue of the
    running `pump_tx`, and is then published into the ring of every edge of
    the port. Each step does at most one thing to an edge: more drives are
    made, one frame is published, one is delivered, or the ring is discarded
    by a reset. The facts about single edges are derived from this only.
-/

namespace Rl78Sim

open Transition

variable {n m : Nat} {E F : Type} [Entity E F]

/-! ### Drives that are still to be published -/

/-- What is left of a running `pump_tx`. -/
def NodePc.tx_todo : NodePc m F → List (Fin m × Drive F)
  | .tx todo => todo
  | _ => []

omit [Entity E F] in
@[simp] theorem NodePc.tx_todo_tx (todo : List (Fin m × Drive F)) :
    (NodePc.tx todo).tx_todo = todo := rfl

namespace Node

/-- The drives on the port of `e` that the board has yet to publish on `e`,
    oldest first. -/
def unsent (cfg : Config n m) (nd : Node m E F) (e : Fin m) : List (Drive F) :=
  (nd.pc.tx_todo.filter fun p => p.1 = e).map (·.2) ++
    (Entity.ports nd.sim.entity).pending.filter fun d => d.port = (cfg.edge e).src_port

/-- Every drive ever made on the port of `e`, oldest first. -/
def made (cfg : Config n m) (nd : Node m E F) (e : Fin m) : List (Drive F) :=
  (Entity.ports nd.sim.entity).driven.filter fun d => d.port = (cfg.edge e).src_port

/-- Further drives on the port of `e` are made, and nothing is published. -/
def Grew (cfg : Config n m) (nd nd' : Node m E F) (e : Fin m) : Prop :=
  ∃ new, nd'.unsent cfg e = nd.unsent cfg e ++ new ∧ nd'.made cfg e = nd.made cfg e ++ new ∧
    ∀ d ∈ new, nd.now ≤ d.at_ ∧ d.at_ ≤ nd'.now

/-- A step that keeps the place in `pump_tx` and may drive ports. -/
theorem grew_of_extends (cfg : Config n m) {nd nd' : Node m E F} (e : Fin m)
    (htodo : nd'.pc.tx_todo = nd.pc.tx_todo)
    (hports : (Entity.ports nd.sim.entity).Extends (Entity.ports nd'.sim.entity)
      nd.now nd'.now) : Grew cfg nd nd' e := by
  obtain ⟨new, hpending, hdriven, hat⟩ := hports
  refine ⟨new.filter fun d => d.port = (cfg.edge e).src_port, ?_, ?_, ?_⟩
  · simp only [unsent, htodo, hpending, List.filter_append, List.append_assoc]
  · simp only [made, hdriven, List.filter_append]
  · intro d hd
    exact hat d (List.mem_of_mem_filter hd)

/-- A step that leaves the ports and the place in `pump_tx` alone. -/
theorem grew_of_eq (cfg : Config n m) {nd nd' : Node m E F} (e : Fin m)
    (htodo : nd'.pc.tx_todo = nd.pc.tx_todo)
    (hports : Entity.ports nd'.sim.entity = Entity.ports nd.sim.entity) :
    Grew cfg nd nd' e :=
  ⟨[], by simp [unsent, htodo, hports], by simp [made, hports], nofun⟩

end Node

/-! ### The queue of a `pump_tx` -/

namespace Config

variable (cfg : Config n m) {i : Fin n} {e : Fin m}

theorem mem_in_lanes : e ∈ cfg.in_lanes i ↔ (cfg.edge e).dst = i ∧ (cfg.edge e).wired := by
  simp [in_lanes]

theorem mem_out_lanes {port : String} : e ∈ cfg.out_lanes i port ↔
    (cfg.edge e).src = i ∧ (cfg.edge e).wired ∧ (cfg.edge e).src_port = port := by
  simp [out_lanes]

theorem out_lanes_nodup (port : String) : (cfg.out_lanes i port).Nodup :=
  (List.nodup_finRange m).filter _

theorem mem_tx_ports (hsrc : (cfg.edge e).src = i) (hwired : (cfg.edge e).wired) :
    (cfg.edge e).src_port ∈ cfg.tx_ports i := by
  apply List.mem_dedup.mpr
  apply List.mem_map.mpr
  exact ⟨e, by simp [hsrc, hwired], rfl⟩

omit [Entity E F] in
/-- What `pump_tx` sends for one drive on the port of `e`: it sends on `e` once. -/
theorem filter_lanes_self (hsrc : (cfg.edge e).src = i) (hwired : (cfg.edge e).wired)
    (d : Drive F) :
    (((cfg.out_lanes i (cfg.edge e).src_port).map fun e' => (e', d)).filter
      fun p => p.1 = e) = [(e, d)] := by
  have hmem : e ∈ cfg.out_lanes i (cfg.edge e).src_port :=
    cfg.mem_out_lanes.mpr ⟨hsrc, hwired, rfl⟩
  have honce : (cfg.out_lanes i (cfg.edge e).src_port).filter (fun e' => e' = e) = [e] := by
    rw [List.filter_eq, List.count_eq_one_of_mem (cfg.out_lanes_nodup _) hmem]
    rfl
  rw [List.filter_map]
  show ((cfg.out_lanes i (cfg.edge e).src_port).filter (fun e' => e' = e)).map _ = _
  rw [honce]
  rfl

omit [Entity E F] in
/-- A drive on another port is not sent on `e`. -/
theorem filter_lanes_other {port : String} (hport : port ≠ (cfg.edge e).src_port)
    (d : Drive F) :
    (((cfg.out_lanes i port).map fun e' => (e', d)).filter fun p => p.1 = e) = [] := by
  apply List.filter_eq_nil_iff.mpr
  intro p hp
  obtain ⟨e', he', rfl⟩ := List.mem_map.mp hp
  intro heq
  obtain rfl : e' = e := by simpa using heq
  exact hport (cfg.mem_out_lanes.mp he').2.2.symm

omit [Entity E F] in
/-- What `pump_tx` sends for the pending drives of one port. -/
theorem filter_port_queue (hsrc : (cfg.edge e).src = i) (hwired : (cfg.edge e).wired)
    (port : String) (pending : List (Drive F)) :
    ((((pending.filter fun d => d.port = port).flatMap fun d =>
        (cfg.out_lanes i port).map fun e' => (e', d)).filter fun p => p.1 = e).map (·.2)) =
      if port = (cfg.edge e).src_port then pending.filter (fun d => d.port = port) else [] := by
  rw [List.filter_flatMap]
  by_cases hport : port = (cfg.edge e).src_port
  · subst hport
    rw [if_pos rfl]
    simp only [cfg.filter_lanes_self hsrc hwired]
    rw [List.map_flatMap]
    exact List.flatMap_singleton' _
  · rw [if_neg hport]
    simp only [cfg.filter_lanes_other hport]
    simp

omit [Entity E F] in
/-- A `pump_tx` publishes on an edge what is pending on the port of the edge,
    in order. -/
theorem filter_tx_queue (hsrc : (cfg.edge e).src = i) (hwired : (cfg.edge e).wired)
    (pending : List (Drive F)) :
    (((cfg.tx_queue i pending).filter fun p => p.1 = e).map (·.2)) =
      pending.filter fun d => d.port = (cfg.edge e).src_port := by
  -- Over any list of ports, the port of `e` contributes as often as it occurs.
  have hports (ports : List String) (hnodup : ports.Nodup)
      (hmem : (cfg.edge e).src_port ∈ ports) :
      (((ports.flatMap fun port => (pending.filter fun d => d.port = port).flatMap fun d =>
        (cfg.out_lanes i port).map fun e' => (e', d)).filter fun p => p.1 = e).map (·.2)) =
      pending.filter fun d => d.port = (cfg.edge e).src_port := by
    obtain ⟨before, behind, rfl⟩ := List.append_of_mem hmem
    have hne (port : String) (hin : port ∈ before ++ behind) :
        port ≠ (cfg.edge e).src_port := by
      intro heq
      subst heq
      exact (List.nodup_middle.mp hnodup).notMem hin
    have hnil (ports : List String) (hsub : ∀ port ∈ ports, port ∈ before ++ behind) :
        (((ports.flatMap fun port => (pending.filter fun d => d.port = port).flatMap fun d =>
          (cfg.out_lanes i port).map fun e' => (e', d)).filter fun p => p.1 = e).map (·.2)) =
        [] := by
      rw [List.filter_flatMap, List.map_flatMap]
      apply List.flatMap_eq_nil_iff.mpr
      intro port hin
      rw [cfg.filter_port_queue hsrc hwired, if_neg (hne port (hsub port hin))]
    rw [List.flatMap_append, List.filter_append, List.map_append,
      hnil before fun _ h => List.mem_append_left _ h, List.flatMap_cons, List.filter_append,
      List.map_append, hnil behind fun _ h => List.mem_append_right _ h,
      cfg.filter_port_queue hsrc hwired, if_pos rfl]
    simp
  exact hports _ (List.nodup_dedup _) (cfg.mem_tx_ports hsrc hwired)

end Config

/-! ### Steps of one node -/

namespace Node

/-- The lanes in the queues of the pumps are the board's own. -/
structure PumpsOwn (cfg : Config n m) (i : Fin n) (nd : Node m E F) : Prop where
  rx (todo : List (Fin m × Nat)) : nd.pc = .rx todo →
    ∀ p ∈ todo, (cfg.edge p.1).dst = i ∧ (cfg.edge p.1).wired
  tx : ∀ p ∈ nd.pc.tx_todo, (cfg.edge p.1).src = i ∧ (cfg.edge p.1).wired

omit [Entity E F] in
/-- Nothing of the sort in a queue that is not there. -/
theorem PumpsOwn.of_pc {cfg : Config n m} {i : Fin n} {nd : Node m E F}
    (hrx : ∀ todo, nd.pc ≠ .rx todo) (htx : ∀ todo, nd.pc ≠ .tx todo) :
    nd.PumpsOwn cfg i := by
  refine ⟨fun todo h => absurd h (hrx todo), fun p hp => ?_⟩
  cases hpc : nd.pc with
  | tx todo => exact absurd hpc (htx todo)
  | _ =>
    rw [hpc] at hp
    cases hp

omit [Entity E F] in
theorem PumpsOwn.of_rx {cfg : Config n m} {i : Fin n} {nd : Node m E F}
    {todo : List (Fin m × Nat)} (hpc : nd.pc = .rx todo)
    (hown : ∀ p ∈ todo, (cfg.edge p.1).dst = i ∧ (cfg.edge p.1).wired) : nd.PumpsOwn cfg i := by
  refine ⟨fun todo' htodo => ?_, fun p hp => ?_⟩
  · rw [hpc] at htodo
    cases htodo
    exact hown
  · rw [hpc] at hp
    cases hp

omit [Entity E F] in
theorem PumpsOwn.of_tx {cfg : Config n m} {i : Fin n} {nd : Node m E F}
    {todo : List (Fin m × Drive F)} (hpc : nd.pc = .tx todo)
    (hown : ∀ p ∈ todo, (cfg.edge p.1).src = i ∧ (cfg.edge p.1).wired) : nd.PumpsOwn cfg i := by
  refine ⟨fun todo' htodo => ?_, fun p hp => ?_⟩
  · rw [hpc] at htodo
    cases htodo
  · rw [hpc] at hp
    exact hown p hp

/-- What a step of a node does to its drives and to the lanes. -/
inductive Traffic (cfg : Config n m) (i : Fin n) (nd : Node m E F) (lanes : Lanes m F) :
    Act → Node m E F → Lanes m F → Prop where
  | grew (l : Act) (nd' : Node m E F) : (l = .pump_tx → nd.pc.tx_todo = []) →
      (∀ e, (cfg.edge e).src = i → (cfg.edge e).wired → Grew cfg nd nd' e) →
      Traffic cfg i nd lanes l nd' lanes
  | received (e : Fin m) (k : Nat) (rest : List (Fin m × Nat)) (frame : Frame F)
      (lane : Lane F) (nd' : Node m E F) :
      nd.pc = .rx ((e, k + 1) :: rest) → (lanes e).receive nd.now = some (frame, lane) →
      nd'.sim = { nd.sim with
        entity := Entity.receive nd.sim.entity (cfg.edge e).dst_port frame.value } →
      (∀ e, Grew cfg nd nd' e) →
      Traffic cfg i nd lanes .pump_rx nd' (Function.update lanes e lane)
  | sent (e : Fin m) (d : Drive F) (rest : List (Fin m × Drive F)) :
      nd.pc = .tx ((e, d) :: rest) →
      Traffic cfg i nd lanes .pump_tx { nd with pc := .tx rest }
        (Function.update lanes e ((lanes e).send (cfg.edge e).capacity ⟨d.value, d.at_, nd.now⟩))

variable [LawfulEntity E]

/-- Queued actions may drive ports. -/
theorem extends_apply_actions (requests : List ActionRequest) (e : E) :
    (Entity.ports e).Extends
      (Entity.ports (requests.foldl (fun e req => (Entity.apply_action e req).1) e))
      (Entity.now e) (Entity.now e) := by
  induction requests generalizing e with
  | nil => exact OutPorts.Extends.refl _ _ _
  | cons req requests ih =>
    have hact := LawfulEntity.apply_action_timeless e req
    have hrest := ih (Entity.apply_action e req).1
    rw [hact.now_eq] at hrest
    exact hact.ports.trans hrest

theorem extends_service_actions (nd : Node m E F) (requests : List ActionRequest) :
    (Entity.ports nd.sim.entity).Extends
      (Entity.ports (nd.service_actions requests).sim.entity) nd.now nd.now := by
  unfold service_actions
  split
  · dsimp only
    split
    · have hpoll := LawfulEntity.poll_actions_timeless nd.sim.entity
      have hact := extends_apply_actions (nd.pending_actions ++ requests)
        (Entity.poll_actions nd.sim.entity)
      rw [hpoll.now_eq] at hact
      exact hpoll.ports.trans hact
    · exact OutPorts.Extends.refl _ _ _
  · exact OutPorts.Extends.refl _ _ _

/-- A poll that runs the guest hands its drives over to `pump_tx`. -/
theorem grew_begin_tx (cfg : Config n m) {i : Fin n} {nd nd₁ : Node m E F} {e : Fin m}
    (hsrc : (cfg.edge e).src = i) (hwired : (cfg.edge e).wired) (htodo : nd.pc.tx_todo = [])
    (hports : (Entity.ports nd.sim.entity).Extends (Entity.ports nd₁.sim.entity)
      nd.now nd₁.now) : Grew cfg nd (nd₁.begin_tx cfg i) e := by
  have hpolled : Grew cfg nd { nd₁ with pc := nd.pc } e :=
    grew_of_extends cfg e rfl hports
  obtain ⟨new, hunsent, hmade, hat⟩ := hpolled
  have hnow : (nd₁.begin_tx cfg i).now = nd₁.now := LawfulEntity.drain_now _ _
  have hleft : (((Entity.ports nd₁.sim.entity).drain_pending (cfg.tx_ports i)).pending.filter
      fun d => d.port = (cfg.edge e).src_port) = [] := by
    apply List.filter_eq_nil_iff.mpr
    intro d hd hport
    have hout : d.port ∉ cfg.tx_ports i := by simpa using List.of_mem_filter hd
    rw [of_decide_eq_true hport] at hout
    exact hout (cfg.mem_tx_ports hsrc hwired)
  refine ⟨new, ?_, ?_, ?_⟩
  · -- What was pending on the port is now in the queue, and the port is empty.
    rw [← hunsent]
    simp only [unsent, begin_tx, NodePc.tx_todo_tx, LawfulEntity.drain_ports, hleft,
      cfg.filter_tx_queue hsrc hwired, htodo, List.append_nil, List.filter_nil, List.map_nil,
      List.nil_append]
  · rw [← hmade]
    simp only [made, begin_tx, LawfulEntity.drain_ports, OutPorts.drain_pending_driven]
  · intro d hd
    rw [hnow]
    exact hat d hd

/-- `Traffic` lists all that a step of a node can do to drives and lanes. -/
theorem act_traffic {cfg : Config n m} {i : Fin n} {l : Act} {lanes lanes' : Lanes m F}
    {nd nd' : Node m E F} {out : List Report}
    (h : nd.act cfg i lanes l = some (lanes', nd', out)) :
    Traffic cfg i nd lanes l nd' lanes' := by
  cases l with
  | drained =>
    simp only [act] at h
    split at h <;> cases h
    rename_i hpc
    exact .grew _ _ (by simp) fun e _ _ => grew_of_eq cfg e (by rw [hpc]; rfl) rfl
  | inspect cmd =>
    simp only [act] at h
    split at h <;> cases h
    have hports := (Simulator.frame_command nd.sim (.Inspect cmd)).timeless.ports
    have hnow : (nd.sim.command (.Inspect cmd)).1.now = nd.now :=
      (Simulator.frame_command nd.sim (.Inspect cmd)).timeless.now_eq
    refine .grew _ _ (by simp) fun e _ _ => grew_of_extends cfg e rfl ?_
    exact hports.mono (Nat.le_refl _) (Nat.le_of_eq hnow.symm)
  | service requests =>
    simp only [act] at h
    split at h
    case h_2 => cases h
    rename_i hpc
    have hports := extends_service_actions nd requests
    have hnow : (nd.service_actions requests).now = nd.now :=
      (quiet_service_actions nd requests).now_eq
    have hgrew (pc : NodePc m F) (htodo : pc.tx_todo = []) (e : Fin m) :
        Grew cfg nd { nd.service_actions requests with pc := pc } e := by
      refine grew_of_extends cfg e (by rw [hpc]; exact htodo) ?_
      exact hports.mono (Nat.le_refl _) (Nat.le_of_eq hnow.symm)
    split at h <;> cases h
    · exact .grew _ _ (by simp) fun e _ _ => hgrew _ rfl e
    · exact .grew _ _ (by simp) fun e _ _ => hgrew _ rfl e
  | pump_rx =>
    simp only [act] at h
    split at h <;> cases h
    rename_i todo hpc
    unfold pump_rx
    split
    · exact .grew _ _ (by simp) fun e _ _ => grew_of_eq cfg e (by rw [hpc]; rfl) rfl
    · exact .grew _ _ (by simp) fun e _ _ => grew_of_eq cfg e (by rw [hpc]; rfl) rfl
    · rename_i e k rest
      split
      · exact .grew _ _ (by simp) fun e _ _ => grew_of_eq cfg e (by rw [hpc]; rfl) rfl
      · rename_i frame lane hrecv
        have htimeless :=
          LawfulEntity.receive_timeless nd.sim.entity (cfg.edge e).dst_port frame.value
        refine .received e k rest frame lane _ hpc hrecv rfl fun e' => ?_
        refine grew_of_extends cfg e' (by rw [hpc]; rfl) ?_
        exact htimeless.ports.mono (Nat.le_refl _) (Nat.le_of_eq htimeless.now_eq.symm)
  | poll fuel =>
    obtain ⟨hpc, rfl, hpoll⟩ := act_poll h
    have htodo : nd.pc.tx_todo = [] := by rw [hpc]; rfl
    rcases hpoll with ⟨-, rfl, rfl⟩ | ⟨-, hrun, sim, rsp, nd₁, msgs, hsim, hreport, -, rfl, rfl⟩
    · exact .grew _ _ (by simp) fun e _ _ => grew_of_eq cfg e htodo.symm rfl
    · -- Only a poll that ran the simulator has driven new frames.
      have hspec := Simulator.poll_spec hrun hsim
      obtain ⟨last, msgs', hrep, -⟩ := report_poll_cases hspec.outcome
      rw [hrep] at hreport
      cases hreport
      exact .grew _ _ (by simp) fun e hsrc hwired => grew_begin_tx cfg hsrc hwired htodo hspec.ports
  | pump_tx =>
    simp only [act] at h
    split at h <;> cases h
    rename_i todo hpc
    unfold pump_tx
    split
    · exact .grew _ _ (fun _ => by rw [hpc]; rfl) fun e _ _ =>
        grew_of_eq cfg e (by rw [hpc]; rfl) rfl
    · rename_i e d rest
      exact .sent e d rest hpc

omit [Entity E F] [LawfulEntity E] in
theorem mem_tx_queue {cfg : Config n m} {i : Fin n} {pending : List (Drive F)}
    {p : Fin m × Drive F} (h : p ∈ cfg.tx_queue i pending) :
    (cfg.edge p.1).src = i ∧ (cfg.edge p.1).wired := by
  obtain ⟨port, -, hport⟩ := List.mem_flatMap.mp h
  obtain ⟨d, -, hd⟩ := List.mem_flatMap.mp hport
  obtain ⟨e, he, rfl⟩ := List.mem_map.mp hd
  obtain ⟨hsrc, hwired, -⟩ := cfg.mem_out_lanes.mp he
  exact ⟨hsrc, hwired⟩

omit [LawfulEntity E] in
theorem PumpsOwn.acted {cfg : Config n m} {i : Fin n} {l : Act} {lanes lanes' : Lanes m F}
    {nd nd' : Node m E F} {out : List Report} (hown : nd.PumpsOwn cfg i)
    (h : nd.act cfg i lanes l = some (lanes', nd', out)) : nd'.PumpsOwn cfg i := by
  cases l with
  | drained =>
    simp only [act] at h
    split at h <;> cases h
    exact .of_pc (by simp) (by simp)
  | inspect cmd =>
    simp only [act] at h
    split at h <;> cases h
    exact ⟨hown.rx, hown.tx⟩
  | service requests =>
    simp only [act] at h
    split at h
    case h_2 => cases h
    split at h <;> cases h
    · refine .of_rx rfl fun p hp => ?_
      obtain ⟨e, he, rfl⟩ := List.mem_map.mp hp
      exact cfg.mem_in_lanes.mp he
    · exact .of_pc (by simp) (by simp)
  | pump_rx =>
    simp only [act] at h
    split at h <;> cases h
    rename_i todo hpc
    -- The pump goes on with its own list, or drops its head.
    have hold := hown.rx todo hpc
    unfold pump_rx
    split
    · exact .of_pc (by simp) (by simp)
    · exact .of_rx rfl fun p hp => hold p (List.mem_cons_of_mem _ hp)
    · rename_i e k rest
      have hhead := hold (e, k + 1) List.mem_cons_self
      split
      · exact .of_rx rfl fun p hp => hold p (List.mem_cons_of_mem _ hp)
      · refine .of_rx rfl fun p hp => ?_
        rcases List.mem_cons.mp hp with rfl | hp
        · exact hhead
        · exact hold p (List.mem_cons_of_mem _ hp)
  | poll fuel =>
    obtain ⟨-, -, ⟨-, rfl, -⟩ | ⟨-, -, sim, rsp, nd₁, msgs, -, -, -, rfl, -⟩⟩ := act_poll h
    · exact .of_pc (by simp) (by simp)
    · exact .of_tx rfl fun p hp => mem_tx_queue hp
  | pump_tx =>
    simp only [act] at h
    split at h <;> cases h
    rename_i todo hpc
    have hold := hown.tx
    rw [hpc] at hold
    unfold pump_tx
    split
    · exact .of_pc (by simp) (by simp)
    · exact .of_tx rfl fun p hp => hold p (List.mem_cons_of_mem _ hp)

omit [LawfulEntity E] in
/-- A node that handles a message runs no pump. -/
theorem Took.pc_eq {i : Fin n} {nd nd' : Node m E F} {msg : ControlToNode n}
    {msgs : List ControlToArbiter} (h : Took i nd msg nd' msgs) : nd'.pc = nd.pc := by
  cases h with
  | gdb_step _ _ hstep => cases hstep <;> rfl
  | _ => rfl

/-- Handling a message may drive ports, in a reset or in a gdb step. -/
theorem Took.grew {cfg : Config n m} {i : Fin n} {nd nd' : Node m E F} {msg : ControlToNode n}
    {msgs : List ControlToArbiter} (h : Took i nd msg nd' msgs) (e : Fin m) :
    Grew cfg nd nd' e := by
  have htodo : nd'.pc.tx_todo = nd.pc.tx_todo := by rw [h.pc_eq]
  apply grew_of_extends cfg e htodo
  cases h with
  | reset =>
    have htimeless := LawfulEntity.reset_timeless nd.sim.entity
    exact htimeless.ports.mono (Nat.le_refl _) (Nat.le_of_eq htimeless.now_eq.symm)
  | gdb_step nd₁ msgs hstep =>
    -- The instruction may drive frames; the halt before it drives none.
    have hports : (Entity.ports nd.sim.entity).Extends (Entity.ports nd₁.sim.entity)
        nd.now nd₁.now := by
      cases hstep with
      | stopped _ _ _ hspec => exact hspec.ports
      | silent _ _ hspec => exact hspec.ports
    have hnow := halt_now nd nd₁.sim
    unfold halt_if_running at hnow ⊢
    split
    · exact hports
    · exact hports
  | start a =>
    unfold started
    split
    · exact OutPorts.Extends.refl _ _ _
    · exact OutPorts.Extends.refl _ _ _
  | cluster_stop reason =>
    unfold halt_if_running
    split
    · exact OutPorts.Extends.refl _ _ _
    · exact OutPorts.Extends.refl _ _ _
  | gdb_other board =>
    unfold halt_if_running
    split
    · exact OutPorts.Extends.refl _ _ _
    · exact OutPorts.Extends.refl _ _ _
  | _ => exact OutPorts.Extends.refl _ _ _

omit [LawfulEntity E] in
/-- The lanes change only when a stopped node handles a reset. -/
theorem take_lanes {cfg : Config n m} {i : Fin n} {t : Take} {msg : ControlToNode n}
    {lanes lanes' : Lanes m F} {nd nd' : Node m E F} {out : List Report} (hlive : nd.Live)
    (h : nd.take cfg i t msg lanes = some (lanes', nd', out)) :
    (lanes' = lanes ∧ ¬(msg = .Reset ∧ nd.state = .Stopped)) ∨
      (msg = .Reset ∧ nd.state = .Stopped ∧ lanes' = discard_rx cfg i lanes) := by
  unfold take at h
  split at h
  case h_2 => cases h
  -- Only a reset of a stopped node throws frames away.
  cases msg with
  | Reset =>
    rcases hlive.state_cases with hs | hs <;>
      simp only [note_startup, note_handled, hs, NodeState.on_message, apply_effect] at h <;>
      cases h
    · exact .inr ⟨rfl, hs, rfl⟩
    · exact .inl ⟨rfl, by simp [hs]⟩
  | GdbStep board =>
    simp only [note_startup, note_handled, hlive.on_gdb_step, apply_effect] at h
    split at h
    · cases h
    · rename_i heq
      split at heq
      · obtain ⟨⟨nd₁, msgs⟩, -, hres⟩ := Option.map_eq_some_iff.mp heq
        cases hres
        cases h
        exact .inl ⟨rfl, by simp⟩
      · cases heq
        cases h
        exact .inl ⟨rfl, by simp⟩
  | _ =>
    rcases hlive.state_cases with hs | hs <;>
      simp only [note_startup, note_handled, hs, NodeState.on_message, apply_effect] at h <;>
      cases h <;> exact .inl ⟨rfl, by simp⟩

end Node

/-! ### Steps of the cluster -/

/-- The drives that the source of `e` has yet to publish on it. -/
def unsent (cfg : Config n m) (s : Cluster n m E F) (e : Fin m) : List (Drive F) :=
  (s.spoke (cfg.edge e).src).unsent cfg e

/-- Every drive of the source of `e` on the port of `e`. -/
def made (cfg : Config n m) (s : Cluster n m E F) (e : Fin m) : List (Drive F) :=
  (s.spoke (cfg.edge e).src).made cfg e

/-- The board whose control drain the step is. -/
def taker : Step n → Option (Fin n)
  | .take i _ => some i
  | _ => none

/-- The step handles a reset at board `i`. -/
def ResetAt (s : Cluster n m E F) (l : Step n) (i : Fin n) : Prop :=
  taker l = some i ∧ (s.spoke i).state = .Stopped ∧ (s.down i).head? = some .Reset

instance (s : Cluster n m E F) (l : Step n) (i : Fin n) : Decidable (ResetAt s l i) :=
  inferInstanceAs (Decidable
    (taker l = some i ∧ (s.spoke i).state = .Stopped ∧ (s.down i).head? = some .Reset))

/-- The board whose `pump_tx` the step is part of. -/
def publisher : Step n → Option (Fin n)
  | .spoke i .pump_tx => some i
  | _ => none

/-- The step publishes a frame on `e`. -/
def PublishedOn (cfg : Config n m) (s : Cluster n m E F) (l : Step n) (e : Fin m) : Prop :=
  publisher l = some (cfg.edge e).src ∧
    (s.spoke (cfg.edge e).src).pc.tx_todo.head?.map (·.1) = some e

instance (cfg : Config n m) (s : Cluster n m E F) (l : Step n) (e : Fin m) :
    Decidable (PublishedOn cfg s l e) :=
  inferInstanceAs (Decidable (publisher l = some (cfg.edge e).src ∧
    (s.spoke (cfg.edge e).src).pc.tx_todo.head?.map (·.1) = some e))

omit [Entity E F] in
theorem pump_tx_of_publisher {i j : Fin n} {l : Node.Act}
    (h : publisher (.spoke i l) = some j) : l = .pump_tx := by
  cases l <;> first | rfl | cases h

omit [Entity E F] in
theorem src_of_publisher {i j : Fin n} {l : Node.Act}
    (h : publisher (.spoke i l) = some j) : i = j := by
  cases l <;> first | exact Option.some.inj h | cases h

/-- All that a step can do to the edge `e`. -/
inductive EdgeMoved (cfg : Config n m) (s : Cluster n m E F) (l : Step n)
    (s' : Cluster n m E F) (e : Fin m) : Prop where
  | grew (new : List (Drive F)) : s'.env e = s.env e →
      unsent cfg s' e = unsent cfg s e ++ new → made cfg s' e = made cfg s e ++ new →
      (∀ d ∈ new, (s.spoke (cfg.edge e).src).now ≤ d.at_ ∧
        d.at_ ≤ (s'.spoke (cfg.edge e).src).now) →
      ¬ ResetAt s l (cfg.edge e).dst → ¬ PublishedOn cfg s l e → EdgeMoved cfg s l s' e
  | published (d : Drive F) : l = .spoke (cfg.edge e).src .pump_tx →
      PublishedOn cfg s l e →
      unsent cfg s e = d :: unsent cfg s' e → made cfg s' e = made cfg s e →
      s'.env e = (s.env e).send (cfg.edge e).capacity
        ⟨d.value, d.at_, (s.spoke (cfg.edge e).src).now⟩ → EdgeMoved cfg s l s' e
  | delivered (frame : Frame F) (lane : Lane F) : l = .spoke (cfg.edge e).dst .pump_rx →
      (s.env e).receive (s.spoke (cfg.edge e).dst).now = some (frame, lane) →
      s'.env e = lane → unsent cfg s' e = unsent cfg s e → made cfg s' e = made cfg s e →
      (s'.spoke (cfg.edge e).dst).sim.entity = Entity.receive
        (s.spoke (cfg.edge e).dst).sim.entity (cfg.edge e).dst_port frame.value →
      EdgeMoved cfg s l s' e
  | discarded : ResetAt s l (cfg.edge e).dst → s'.env e = (s.env e).discard →
      unsent cfg s' e = unsent cfg s e → made cfg s' e = made cfg s e →
      (s'.spoke (cfg.edge e).dst).sim.entity =
        Entity.reset (s.spoke (cfg.edge e).dst).sim.entity → EdgeMoved cfg s l s' e

/-- The pumps of every board hold its own lanes only. -/
def AllPumpsOwn (cfg : Config n m) (s : Cluster n m E F) : Prop :=
  ∀ i, (s.spoke i).PumpsOwn cfg i

variable {cfg : Config n m} {s s' : Cluster n m E F} {l : Step n}

/-- What a guest has driven is never taken back. -/
theorem EdgeMoved.made_prefix {e : Fin m} (h : EdgeMoved cfg s l s' e) :
    made cfg s e <+: made cfg s' e := by
  cases h with
  | grew new _ _ hmade => exact ⟨new, hmade.symm⟩
  | published _ _ _ _ hmade => exact hmade ▸ List.prefix_rfl
  | delivered _ _ _ _ _ _ hmade => exact hmade ▸ List.prefix_rfl
  | discarded _ _ _ hmade => exact hmade ▸ List.prefix_rfl

/-- What is published is the oldest drive that was still to be published. -/
theorem EdgeMoved.unsent_of_published {e : Fin m} (h : EdgeMoved cfg s l s' e)
    (hpub : PublishedOn cfg s l e) : ∃ d, unsent cfg s e = d :: unsent cfg s' e := by
  cases h with
  | grew _ _ _ _ _ _ hno => exact absurd hpub hno
  | published d _ _ hunsent => exact ⟨d, hunsent⟩
  | delivered _ _ hl =>
    subst hl
    cases hpub.1
  | discarded hreset =>
    -- A reset is taken, and what is taken publishes nothing.
    cases l with
    | spoke _ _ => cases hreset.1
    | hub | deliver | take => cases hpub.1

theorem AllPumpsOwn.initial (h : Initial cfg s) : AllPumpsOwn cfg s := by
  intro i
  apply Node.PumpsOwn.of_pc
  · intro todo
    rw [(h.spoke i).pc_eq]
    nofun
  · intro todo
    rw [(h.spoke i).pc_eq]
    nofun

variable [LawfulEntity E]

omit [LawfulEntity E] in
theorem AllPumpsOwn.moved (h : AllPumpsOwn cfg s) (hm : Moved cfg s l s') :
    AllPumpsOwn cfg s' := by
  intro j
  cases hm with
  | hub | deliver => exact h j
  | act i l lanes nd msgs hact hacted =>
    by_cases hj : j = i
    · subst hj
      simpa using (h j).acted hact
    · rw [Star.Net.move_spoke_ne _ _ _ _ _ hj]
      exact h j
  | take i t msg rest lanes nd msgs hdown htake hpc htook =>
    by_cases hj : j = i
    · subst hj
      have hpc' : nd.pc = .drain := htook.pc_eq.trans hpc
      apply Node.PumpsOwn.of_pc
      · intro todo
        simp [hpc']
      · intro todo
        simp [hpc']
    · rw [Star.Net.move_spoke_ne _ _ _ _ _ hj]
      exact h j

theorem allPumpsOwn_of_reachable {ok : Guard (Cluster n m E F) (Step n)}
    (h : Reachable (system cfg) ok s) : AllPumpsOwn cfg s :=
  invariant_of_moved (fun _ => AllPumpsOwn.initial) (fun _ _ _ hs _ _ hm => hs.moved hm) h

omit [LawfulEntity E] in
/-- A step of a board that is not the source of `e` leaves its drives alone. -/
theorem unsent_move_ne {i : Fin n} {e : Fin m} (hne : (cfg.edge e).src ≠ i) (lanes : Lanes m F)
    (nd : Node m E F) (rest : List (ControlToNode n)) (out : List Report) :
    unsent cfg (s.move i lanes nd rest out) e = unsent cfg s e ∧
      made cfg (s.move i lanes nd rest out) e = made cfg s e := by
  simp only [unsent, made, Star.Net.move_spoke_ne _ _ _ _ _ hne, and_self]

theorem Moved.edge (hm : Moved cfg s l s') (hwf : ClusterWf s) (hown : AllPumpsOwn cfg s)
    {e : Fin m} (hwired : (cfg.edge e).wired) : EdgeMoved cfg s l s' e := by
  have hsame {l : Step n} {s' : Cluster n m E F} (henv : s'.env e = s.env e)
      (hunsent : unsent cfg s' e = unsent cfg s e ∧ made cfg s' e = made cfg s e)
      (hreset : ¬ ResetAt s l (cfg.edge e).dst) (hpub : ¬ PublishedOn cfg s l e) :
      EdgeMoved cfg s l s' e :=
    .grew [] henv (by rw [hunsent.1, List.append_nil]) (by rw [hunsent.2, List.append_nil])
      nofun hreset hpub
  cases hm with
  | hub | deliver =>
    refine hsame rfl ⟨rfl, rfl⟩ ?_ ?_
    · intro hreset
      cases hreset.1
    · intro hpub
      cases hpub.1
  | act i l lanes nd msgs hact hacted =>
    have hno : ¬ ResetAt s (.spoke i l) (cfg.edge e).dst := by
      intro hreset
      cases hreset.1
    by_cases hsrc : (cfg.edge e).src = i
    · -- The source of the edge moves: it drives ports, or publishes a frame.
      subst hsrc
      cases Node.act_traffic hact with
      | grew _ _ hhead hgrew =>
        obtain ⟨new, hunsent, hmade, hat⟩ := hgrew e rfl hwired
        refine .grew new rfl ?_ ?_ ?_ hno ?_
        · simpa [unsent] using hunsent
        · simpa [made] using hmade
        · simpa using hat
        · intro hpub
          have hempty := hpub.2
          rw [hhead (pump_tx_of_publisher hpub.1)] at hempty
          cases hempty
      -- A board does not receive on an edge that it is the source of.
      | received e' k rest frame lane _ hpc hrecv hsim hgrew =>
        have hne : e ≠ e' := by
          intro heq
          subst heq
          exact cfg.edge_ne e ((hown _).rx _ hpc _ List.mem_cons_self).1.symm
        obtain ⟨new, hunsent, hmade, hat⟩ := hgrew e
        refine .grew new (Function.update_of_ne hne _ _) ?_ ?_ ?_ hno nofun
        · simpa [unsent] using hunsent
        · simpa [made] using hmade
        · simpa using hat
      | sent e' d rest hpc =>
        by_cases he : e' = e
        · subst he
          refine .published d rfl ⟨rfl, by rw [hpc]; rfl⟩ ?_ ?_ (Function.update_self _ _ _)
          · simp [unsent, Node.unsent, hpc]
          · simp [made, Node.made]
        · refine .grew [] (Function.update_of_ne (Ne.symm he) _ _) ?_ ?_ nofun hno ?_
          · simp [unsent, Node.unsent, hpc, he]
          · simp [made, Node.made]
          · intro hpub
            have hhead := hpub.2
            rw [hpc] at hhead
            exact he (Option.some.inj hhead)
    · have hkeep := unsent_move_ne (s := s) hsrc lanes nd (s.down i) (nd.stamp msgs)
      have hpub : ¬ PublishedOn cfg s (.spoke i l) e := fun hpub =>
        hsrc (src_of_publisher hpub.1).symm
      cases Node.act_traffic hact with
      | grew => exact hsame rfl hkeep hno hpub
      | received e' k rest frame lane _ hpc hrecv hsim hgrew =>
        by_cases he : e' = e
        · subst he
          obtain rfl : (cfg.edge e').dst = i := ((hown i).rx _ hpc _ List.mem_cons_self).1
          refine .delivered frame lane rfl hrecv (Function.update_self _ _ _) hkeep.1 hkeep.2 ?_
          simp [hsim]
        · exact hsame (Function.update_of_ne (Ne.symm he) _ _) hkeep hno nofun
      | sent e' d rest hpc =>
        have hne : e ≠ e' := by
          intro heq
          subst heq
          exact hsrc ((hown i).tx (e, d) (by rw [hpc]; exact List.mem_cons_self)).1
        exact hsame (Function.update_of_ne hne _ _) hkeep hno hpub
  | take i t msg rest lanes nd msgs hdown htake hpc htook =>
    by_cases hsrc : (cfg.edge e).src = i
    · subst hsrc
      have hne := cfg.edge_ne e
      obtain ⟨new, hunsent, hmade, hat⟩ : Node.Grew cfg _ _ e := htook.grew e
      have henv : lanes e = s.env e := by
        rcases Node.take_lanes (hwf.node _).live htake with ⟨rfl, -⟩ | ⟨-, -, rfl⟩
        · rfl
        · exact if_neg fun h => hne h.1.symm
      refine .grew new henv ?_ ?_ ?_ ?_ nofun
      · simpa [unsent] using hunsent
      · simpa [made] using hmade
      · simpa using hat
      · intro hreset
        exact hne (Option.some.inj hreset.1)
    · have hkeep := unsent_move_ne (s := s) hsrc lanes nd rest (nd.stamp msgs)
      rcases Node.take_lanes (hwf.node _).live htake with ⟨rfl, hno⟩ | ⟨rfl, hstate, rfl⟩
      · refine hsame rfl hkeep ?_ nofun
        rintro ⟨ht, hstopped, hhead⟩
        cases ht
        rw [hdown] at hhead
        cases hhead
        exact hno ⟨rfl, hstopped⟩
      · by_cases hdst : (cfg.edge e).dst = i
        · subst hdst
          refine .discarded ⟨rfl, hstate, by rw [hdown]; rfl⟩
            (if_pos ⟨rfl, hwired⟩) hkeep.1 hkeep.2 ?_
          cases htook with
          | reset => simp
          | reset_ignored hrun =>
            rw [hstate] at hrun
            cases hrun
        · refine hsame (if_neg fun h => hdst h.1) hkeep ?_ nofun
          intro hreset
          exact hdst (Option.some.inj hreset.1).symm

end Rl78Sim
