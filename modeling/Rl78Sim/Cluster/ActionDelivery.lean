import Rl78Sim.Cluster.ActionBus

/-! # What Becomes of an Action Request

    The requests for a board keep their order, and each is applied at most once.
    While the buffers have room and the board is not reset with requests left,
    none is lost. A turn of a node that has come to its end is a call of
    `service_actions` on the samples that it has taken.
-/

namespace Rl78Sim

open Transition Relay

variable {cfg : ActionNetConfig}

/-- The request is for the board. -/
def HoldRequest.is_for (board : HashedId) (req : HoldRequest) : Bool :=
  req.board_hash == board.toNat

namespace ActionNet

/-- The requests for a board that its node has not kept yet. -/
def under_way (s : ActionNet) (board : HashedId) : List HoldRequest :=
  (s.a2n board ++ s.s2a).filter (HoldRequest.is_for board)

/-- The requests for a board that it has not applied. -/
def rest (s : ActionNet) (board : HashedId) : List HoldRequest :=
  (s.node board).node.pending ++ s.under_way board

/-- Every node knows its own hash. -/
def Named (s : ActionNet) : Prop := ∀ board, (s.node board).node.board_hash = board.toNat

/-- The buffers have room for the board, the arbiter does not fail, and the
    board is not reset with requests left. -/
def Room (board : HashedId) (s : ActionNet) : BusStep → Prop
  | .server l => (s.invoked l).isSome = true → s.s2a.length < action_recv_cap
  | .forward sent => sent = true ∧ (s.a2n board).length < action_recv_cap
  | .reset other => other = board → (s.node board).node.pending = []
  | _ => True

instance (board : HashedId) (s : ActionNet) (l : BusStep) : Decidable (Room board s l) :=
  match l with
  | .server l => inferInstanceAs
      (Decidable ((s.invoked l).isSome = true → s.s2a.length < action_recv_cap))
  | .forward sent => inferInstanceAs
      (Decidable (sent = true ∧ (s.a2n board).length < action_recv_cap))
  | .reset other => inferInstanceAs
      (Decidable (other = board → (s.node board).node.pending = []))
  | .take_id | .set_running .. | .service .. | .try_request .. | .drained .. | .apply .. =>
    .isTrue trivial

/-! ### One node -/

theorem receive_pending (nd : BusNode) (taken : Nat) (req : HoldRequest) :
    (nd.receive taken req).node.pending =
      nd.node.pending ++ [req].filter fun req => req.board_hash == nd.node.board_hash := by
  unfold BusNode.receive
  by_cases h : req.board_hash == nd.node.board_hash
  · simp [h]
  · simp [h]

theorem drained_pending (nd : BusNode) (now : Nat) :
    (nd.drained now).node.pending = nd.node.pending := by
  unfold BusNode.drained
  split <;> rfl

/-- The first request of the queue is the one that is applied. -/
theorem apply_pending (nd : BusNode) :
    nd.node.pending.take 1 ++ nd.apply.node.pending = nd.node.pending := by
  unfold BusNode.apply
  cases h : nd.node.pending with
  | nil => simp [h]
  | cons req rest => rfl

theorem node_board_hash (nd : BusNode) :
    (∀ taken req, (nd.receive taken req).node.board_hash = nd.node.board_hash) ∧
      (∀ now, (nd.drained now).node.board_hash = nd.node.board_hash) ∧
      nd.apply.node.board_hash = nd.node.board_hash := by
  refine ⟨fun taken req => ?_, fun now => ?_, ?_⟩
  · unfold BusNode.receive
    dsimp only
    split <;> rfl
  · unfold BusNode.drained
    split <;> rfl
  · unfold BusNode.apply
    split <;> rfl

/-! ### One step -/

variable {s s' : ActionNet}

/-- What a step does to the nodes: nothing, or it replaces one. -/
theorem set_node_self (s : ActionNet) (board : HashedId) (nd : BusNode) :
    (s.set_node board nd).node board = nd := Function.update_self ..

theorem set_node_ne (s : ActionNet) {board other : HashedId} (nd : BusNode) (h : other ≠ board) :
    (s.set_node board nd).node other = s.node other := Function.update_of_ne h ..

theorem Named.set_node (h : s.Named) {board : HashedId} {nd : BusNode}
    (hnd : nd.node.board_hash = (s.node board).node.board_hash) : (s.set_node board nd).Named := by
  intro other
  by_cases hother : other = board
  · rw [hother, set_node_self, hnd, h board]
  · rw [s.set_node_ne nd hother, h other]

theorem try_request_cases {board : HashedId} (h : s.step cfg (.try_request board) = some s') :
    ∃ taken req rest, (s.node board).pc = .drain taken ∧ s.a2n board = req :: rest ∧
      taken < action_recv_cap ∧
      s' = { s.set_node board ((s.node board).receive taken req) with
        a2n := Function.update s.a2n board rest } := by
  simp only [step] at h
  split at h
  · rename_i taken req rest hpc hring
    split at h
    · rename_i hlt
      cases h
      exact ⟨taken, req, rest, hpc, hring, hlt, rfl⟩
    · cases h
  · cases h

theorem drained_cases {board : HashedId} {now : Nat}
    (h : s.step cfg (.drained board now) = some s') :
    ∃ taken, (s.node board).pc = .drain taken ∧
      (taken = action_recv_cap ∨ (s.a2n board).isEmpty = true) ∧
      s' = s.set_node board ((s.node board).drained now) := by
  simp only [step] at h
  split at h
  · rename_i taken hpc
    split at h
    · rename_i hend
      cases h
      exact ⟨taken, hpc, hend, rfl⟩
    · cases h
  · cases h

theorem forward_cases {sent : Bool} (h : s.step cfg (.forward sent) = some s') :
    ∃ req rest, s.s2a = req :: rest ∧ s.server.gone = false ∧
      s' = (if sent then
          { s with
            s2a := rest
            a2n := fun board => Ring.push action_recv_cap (s.a2n board) req }
        else { s with s2a := rest, server := { s.server with gone := true } }) := by
  simp only [step] at h
  split at h
  · cases h
  · rename_i hgone
    split at h
    · cases h
    · rename_i req rest hs2a
      refine ⟨req, rest, hs2a, Bool.not_eq_true _ ▸ hgone, ?_⟩
      cases sent <;> exact (Option.some.inj h).symm

theorem named_step {l : BusStep} (h : s.Named) (hstep : s.step cfg l = some s') : s'.Named := by
  cases l with
  | server step =>
    simp only [ActionNet.step, Option.map_eq_some_iff] at hstep
    obtain ⟨server, -, rfl⟩ := hstep
    exact h
  | take_id =>
    cases hstep
    exact h
  | forward sent =>
    obtain ⟨req, rest, -, -, rfl⟩ := forward_cases hstep
    cases sent <;> exact h
  | set_running board running =>
    simp only [ActionNet.step, Option.ite_none_right_eq_some, Option.some.injEq] at hstep
    obtain ⟨-, rfl⟩ := hstep
    exact h.set_node rfl
  | reset board =>
    simp only [ActionNet.step, Option.ite_none_right_eq_some, Option.some.injEq] at hstep
    obtain ⟨-, rfl⟩ := hstep
    exact h.set_node rfl
  | service board =>
    simp only [ActionNet.step, Option.ite_none_right_eq_some, Option.some.injEq] at hstep
    obtain ⟨-, rfl⟩ := hstep
    exact h.set_node rfl
  | try_request board =>
    obtain ⟨taken, req, rest, -, -, -, rfl⟩ := try_request_cases hstep
    exact h.set_node ((node_board_hash _).1 taken req)
  | drained board now =>
    obtain ⟨taken, -, -, rfl⟩ := drained_cases hstep
    exact h.set_node ((node_board_hash _).2.1 now)
  | apply board =>
    simp only [ActionNet.step, Option.ite_none_right_eq_some, Option.some.injEq] at hstep
    obtain ⟨-, rfl⟩ := hstep
    exact h.set_node (node_board_hash _).2.2

/-- A node that keeps its requests. -/
theorem rest_set_node {board : HashedId} {nd : BusNode}
    (h : nd.node.pending = (s.node board).node.pending) (other : HashedId) :
    (s.set_node board nd).rest other = s.rest other := by
  unfold rest
  by_cases hother : other = board
  · rw [hother, set_node_self, h]
    rfl
  · rw [s.set_node_ne nd hother]
    rfl

/-- What a step does to the requests for a board: what is applied in it, and
    what then is left. -/
def StepPasses (s : ActionNet) (l : BusStep) (s' : ActionNet) (board : HashedId)
    (fed : List HoldRequest) : Prop :=
  Passed (Room board s l) fed (s.rest board)
    (fed ++ (s.queues l).filter (HoldRequest.is_for board)) (s.applies board l ++ s'.rest board)

variable {l : BusStep} {board : HashedId} {fed : List HoldRequest}

theorem StepPasses.of_eq (hqueues : s.queues l = []) (happlies : s.applies board l = [])
    (h : s'.rest board = s.rest board) : StepPasses s l s' board fed := by
  rw [StepPasses, hqueues, happlies, h]
  exact Passed.put (List.sublist_append_left ..) fun _ => (List.append_nil _).symm

/-- The server queues a request at most. -/
theorem server_passes {step : ServerStep F64} {server : ServerSim} :
    StepPasses s (.server step)
      { s with
        server := server
        s2a := (s.invoked step).elim s.s2a (Ring.push action_recv_cap s.s2a) } board fed := by
  cases hinvoked : s.invoked step with
  | none =>
    refine StepPasses.of_eq ?_ rfl ?_
    · show (s.invoked step).toList = []
      rw [hinvoked]
      rfl
    · rfl
  | some req =>
    have hqueues : s.queues (.server step) = [req] := by
      show (s.invoked step).toList = [req]
      rw [hinvoked]
      rfl
    rw [StepPasses, hqueues]
    refine Passed.put ?_ fun hroom => ?_
    · show ((s.node board).node.pending ++ (s.a2n board ++ Ring.push _ s.s2a req).filter _).Sublist
        ((s.node board).node.pending ++ (s.a2n board ++ s.s2a).filter _ ++ _)
      rw [List.append_assoc, ← List.filter_append, List.append_assoc]
      exact (((Ring.push_sublist ..).append_left _).filter _).append_left _
    · have hlt : s.s2a.length < action_recv_cap := hroom (by rw [hinvoked]; rfl)
      show (s.node board).node.pending ++ (s.a2n board ++ Ring.push _ s.s2a req).filter _ =
        (s.node board).node.pending ++ (s.a2n board ++ s.s2a).filter _ ++ _
      rw [List.append_assoc, ← List.filter_append, List.append_assoc, Ring.push_of_lt hlt]

/-- Every request goes to every node. -/
theorem forward_passes {sent : Bool} (hstep : s.step cfg (.forward sent) = some s') :
    StepPasses s (.forward sent) s' board fed := by
  obtain ⟨req, rest, hs2a, -, rfl⟩ := forward_cases hstep
  have hrest : s.rest board = (s.node board).node.pending ++
      (s.a2n board ++ req :: rest).filter (HoldRequest.is_for board) := by
    rw [← hs2a]
    rfl
  rw [StepPasses, hrest]
  cases sent with
  | false =>
    refine Passed.put ?_ fun hsafe => by cases hsafe.1
    exact ((((List.sublist_cons_self ..).append_left _).filter _).append_left _).trans
      (List.sublist_append_left ..)
  | true =>
    refine Passed.put ?_ fun hsafe => ?_
    · exact (((push_sublist_append ..).filter _).append_left _).trans
        (List.sublist_append_left ..)
    · show (s.node board).node.pending ++ (Ring.push _ (s.a2n board) req ++ rest).filter _ = _ ++ []
      rw [push_eq_append hsafe.2, List.append_nil]

/-- A sample is kept by the node that it is for. -/
theorem try_request_passes (hnamed : s.Named) {other : HashedId}
    (hstep : s.step cfg (.try_request other) = some s') :
    StepPasses s (.try_request other) s' board fed := by
  obtain ⟨taken, req, rest, -, hring, -, rfl⟩ := try_request_cases hstep
  refine StepPasses.of_eq rfl rfl ?_
  by_cases h : board = other
  · subst h
    show ((s.set_node board _).node board).node.pending ++
        (Function.update s.a2n board rest board ++ s.s2a).filter _ =
      (s.node board).node.pending ++ (s.a2n board ++ s.s2a).filter _
    have hfirst : ((req :: (rest ++ s.s2a)).filter (HoldRequest.is_for board)) =
        [req].filter (HoldRequest.is_for board) ++
          (rest ++ s.s2a).filter (HoldRequest.is_for board) := List.filter_append [req] _
    rw [set_node_self, receive_pending, Function.update_self, hring, List.cons_append, hfirst,
      List.append_assoc, hnamed board]
    rfl
  · show ((s.set_node other _).node board).node.pending ++
        (Function.update s.a2n other rest board ++ s.s2a).filter _ = _
    rw [s.set_node_ne _ h, Function.update_of_ne h]
    rfl

/-- The first request of the queue is applied. -/
theorem apply_passes {other : HashedId} :
    StepPasses s (.apply other) (s.set_node other (s.node other).apply) board fed := by
  by_cases h : board = other
  · subst h
    have happlies : s.applies board (.apply board) = (s.node board).node.pending.take 1 :=
      if_pos rfl
    have hline : s.applies board (.apply board) ++
        (s.set_node board (s.node board).apply).rest board = s.rest board := by
      rw [happlies]
      show _ ++ (((s.set_node board _).node board).node.pending ++ s.under_way board) = _
      rw [set_node_self, ← List.append_assoc, apply_pending]
      rfl
    rw [StepPasses, hline]
    exact Passed.put (List.sublist_append_left ..) fun _ => (List.append_nil _).symm
  · refine StepPasses.of_eq rfl (if_neg (Ne.symm h)) ?_
    show ((s.set_node other _).node board).node.pending ++ _ = _
    rw [s.set_node_ne _ h]
    rfl

/-- A reset drops what the node has kept. -/
theorem reset_passes {other : HashedId} :
    StepPasses s (.reset other) (s.set_node other (s.node other).reset) board fed := by
  by_cases h : board = other
  · subst h
    have hrest : (s.set_node board (s.node board).reset).rest board = s.under_way board := by
      show ((s.set_node board _).node board).node.pending ++ s.under_way board = _
      rw [set_node_self]
      rfl
    rw [StepPasses, hrest]
    refine Passed.put ?_ fun hsafe => ?_
    · exact (List.sublist_append_right ..).trans (List.sublist_append_left ..)
    · show _ = (s.node board).node.pending ++ s.under_way board ++ []
      rw [hsafe rfl, List.append_nil]
      rfl
  · refine StepPasses.of_eq rfl rfl ?_
    show ((s.set_node other _).node board).node.pending ++ _ = _
    rw [s.set_node_ne _ h]
    rfl

theorem step_passes (hnamed : s.Named) (hstep : s.step cfg l = some s') (board : HashedId)
    (fed : List HoldRequest) : StepPasses s l s' board fed := by
  cases l with
  | server step =>
    simp only [ActionNet.step, Option.map_eq_some_iff] at hstep
    obtain ⟨server, -, rfl⟩ := hstep
    exact server_passes
  | take_id =>
    cases hstep
    exact StepPasses.of_eq rfl rfl rfl
  | forward sent => exact forward_passes hstep
  | set_running other running =>
    simp only [ActionNet.step, Option.ite_none_right_eq_some, Option.some.injEq] at hstep
    obtain ⟨-, rfl⟩ := hstep
    refine StepPasses.of_eq rfl rfl (rest_set_node ?_ board)
    rfl
  | reset other =>
    simp only [ActionNet.step, Option.ite_none_right_eq_some, Option.some.injEq] at hstep
    obtain ⟨-, rfl⟩ := hstep
    exact reset_passes
  | service other =>
    simp only [ActionNet.step, Option.ite_none_right_eq_some, Option.some.injEq] at hstep
    obtain ⟨-, rfl⟩ := hstep
    refine StepPasses.of_eq rfl rfl (rest_set_node ?_ board)
    rfl
  | try_request other => exact try_request_passes hnamed hstep
  | drained other now =>
    obtain ⟨taken, -, -, rfl⟩ := drained_cases hstep
    exact StepPasses.of_eq rfl rfl (rest_set_node (drained_pending _ _) board)
  | apply other =>
    simp only [ActionNet.step, Option.ite_none_right_eq_some, Option.some.injEq] at hstep
    obtain ⟨-, rfl⟩ := hstep
    exact apply_passes

end ActionNet

end Rl78Sim
