import Rl78Sim.Cluster.ActionDelivery

/-! # Runs of the Action Bus

    The requests that a board applies are, in order, a part of those that were
    queued for it, and no request is applied twice. They are all of them when
    the buffers have room and nothing is under way any more.
-/

namespace Rl78Sim

open Transition Relay

variable {cfg : ActionNetConfig}

namespace ActionNet

variable {s s' : ActionNet × BusHistory} {l : BusStep} {board : HashedId}

/-- Nothing is assumed of a step. -/
def AnyBus (_ : ActionNet × BusHistory) (_ : BusStep) : Prop := True

instance (s : ActionNet × BusHistory) (l : BusStep) : Decidable (AnyBus s l) := .isTrue trivial

/-- What a board has applied, and what is left of its requests. -/
def line (s : ActionNet × BusHistory) (board : HashedId) : List HoldRequest :=
  s.2.applied board ++ s.1.rest board

/-- The requests that have been queued for a board. -/
def asked (s : ActionNet × BusHistory) (board : HashedId) : List HoldRequest :=
  s.2.queued.filter (HoldRequest.is_for board)

/-! ### Order -/

theorem action_step_cases (h : (action_net cfg).step s l = some s') :
    s.1.step cfg l = some s'.1 ∧ s'.2 = BusHistory.record s.1 l s'.1 s.2 :=
  System.logged_step_cases h

theorem named_of_reachable {ok : Guard (ActionNet × BusHistory) BusStep}
    (h : Reachable (action_net cfg) ok s) : s.1.Named := by
  induction h with
  | init hi =>
    rw [hi.1]
    exact fun _ => rfl
  | step l _ _ hstep ih => exact named_step ih (action_step_cases hstep).1

theorem action_passes (hnamed : s.1.Named) (hstep : (action_net cfg).step s l = some s')
    (board : HashedId) : Passed (Room board s.1 l) (asked s board) (line s board)
      (asked s' board) (line s' board) := by
  obtain ⟨hact, hlog⟩ := action_step_cases hstep
  have hpass := (step_passes hnamed hact board (asked s board)).after (s.2.applied board)
  have hasked : asked s' board =
      asked s board ++ (s.1.queues l).filter (HoldRequest.is_for board) := by
    rw [asked, hlog]
    exact List.filter_append ..
  have hline : line s' board =
      s.2.applied board ++ (s.1.applies board l ++ s'.1.rest board) := by
    rw [line, hlog]
    exact List.append_assoc ..
  rw [hasked, hline]
  exact hpass

theorem line_of_init (h : (action_net cfg).init s) (board : HashedId) : line s board = [] := by
  obtain ⟨net, hist⟩ := s
  obtain rfl : net = .new cfg := h.1
  obtain rfl : hist = .new (.new cfg) := h.2
  rfl

/-! ### Request ids -/

/-- The id of a request is the counter, which then goes on. -/
theorem queue_invoke_id {server : ServerSim} {request : InvokeActionRequest F64}
    {sent : Except String Unit}
    (hlt : (server.queue_invoke request sent).1.next_request_id < u64_max) :
    server.next_request_id ≤ (server.queue_invoke request sent).1.next_request_id ∧
      ((server.queue_invoke request sent).2 = .ok () →
        server.next_request_id < (server.queue_invoke request sent).1.next_request_id) := by
  revert hlt
  unfold ServerSim.queue_invoke
  split
  · exact fun _ => ⟨le_rfl, fun h => by cases h⟩
  · split
    · exact fun _ => ⟨le_rfl, fun h => by cases h⟩
    · split
      · exact fun _ => ⟨le_rfl, fun h => by cases h⟩
      · split
        · exact fun _ => ⟨le_rfl, fun h => by cases h⟩
        · dsimp only
          split
          · exact fun h => ⟨(lt_saturating_succ h).le, fun herr => by cases herr⟩
          · exact fun h => ⟨(lt_saturating_succ h).le, fun _ => lt_saturating_succ h⟩

theorem server_ids {server : ServerSim} {step : ServerStep F64} {net : ActionNet}
    (hstep : net.server.next cfg.server step = some server)
    (hlt : server.next_request_id < u64_max) :
    net.server.next_request_id ≤ server.next_request_id ∧
      ∀ req, net.invoked step = some req → req.request_id = net.server.next_request_id ∧
        net.server.next_request_id < server.next_request_id := by
  cases step with
  | invoke request sent =>
    simp only [ServerSim.next, Option.ite_none_right_eq_some, Option.some.injEq] at hstep
    obtain ⟨-, rfl⟩ := hstep
    obtain ⟨hle, hok⟩ := queue_invoke_id hlt
    refine ⟨hle, fun req hreq => ?_⟩
    unfold invoked at hreq
    dsimp only at hreq
    split at hreq
    · rename_i hresult
      cases hreq
      exact ⟨rfl, hok hresult⟩
    · cases hreq
  | publish running virtual_time_ns stop_reason peers =>
    simp only [ServerSim.next] at hstep
    split at hstep
    · cases hstep
    · cases hstep
      exact ⟨le_rfl, fun req hreq => by cases hreq⟩
  | exit =>
    simp only [ServerSim.next] at hstep
    split at hstep
    · cases hstep
    · cases hstep
      exact ⟨le_rfl, fun req hreq => by cases hreq⟩
  | begin_poll =>
    simp only [ServerSim.next, Option.ite_none_right_eq_some, Option.some.injEq] at hstep
    obtain ⟨-, rfl⟩ := hstep
    exact ⟨le_rfl, fun req hreq => by cases hreq⟩
  | try_status fails =>
    simp only [ServerSim.next, Option.ite_none_right_eq_some] at hstep
    obtain ⟨-, hstep⟩ := hstep
    split at hstep <;> cases hstep <;> exact ⟨le_rfl, fun req hreq => by cases hreq⟩
  | inboxes catalog ready =>
    simp only [ServerSim.next, Option.ite_none_right_eq_some, Option.some.injEq] at hstep
    obtain ⟨-, rfl⟩ := hstep
    exact ⟨le_rfl, fun req hreq => by cases hreq⟩
  | try_wait fails =>
    simp only [ServerSim.next, Option.ite_none_right_eq_some] at hstep
    obtain ⟨-, hstep⟩ := hstep
    split at hstep <;> cases hstep <;> exact ⟨le_rfl, fun req hreq => by cases hreq⟩
  | command sent =>
    simp only [ServerSim.next, Option.ite_none_right_eq_some, Option.some.injEq] at hstep
    obtain ⟨-, rfl⟩ := hstep
    exact ⟨le_rfl, fun req hreq => by cases hreq⟩
  | step board_id sent =>
    simp only [ServerSim.next, Option.ite_none_right_eq_some, Option.some.injEq] at hstep
    obtain ⟨-, rfl⟩ := hstep
    exact ⟨le_rfl, fun req hreq => by cases hreq⟩

/-- The queued requests have rising ids below the counter. -/
structure Issued (s : ActionNet × BusHistory) : Prop where
  rising : (s.2.queued.map HoldRequest.request_id).Pairwise (· < ·)
  below : ∀ req ∈ s.2.queued, req.request_id < s.1.server.next_request_id

theorem Issued.grow (h : Issued s) (hqueued : s'.2.queued = s.2.queued)
    (hle : s.1.server.next_request_id ≤ s'.1.server.next_request_id) : Issued s' := by
  refine ⟨by rw [hqueued]; exact h.rising, fun req hreq => ?_⟩
  rw [hqueued] at hreq
  exact (h.below req hreq).trans_le hle

theorem Issued.add (h : Issued s) {req : HoldRequest} (hqueued : s'.2.queued = s.2.queued ++ [req])
    (hid : req.request_id = s.1.server.next_request_id)
    (hlt : s.1.server.next_request_id < s'.1.server.next_request_id) : Issued s' := by
  refine ⟨?_, fun other hother => ?_⟩
  · rw [hqueued, List.map_append, List.pairwise_append]
    refine ⟨h.rising, List.pairwise_singleton _ _, fun a ha b hb => ?_⟩
    obtain ⟨old, hold, rfl⟩ := List.mem_map.mp ha
    rw [List.map_singleton, List.mem_singleton] at hb
    rw [hb, hid]
    exact h.below old hold
  · rw [hqueued] at hother
    rcases List.mem_append.mp hother with hold | hnew
    · exact (h.below other hold).trans hlt
    · rw [List.mem_singleton.mp hnew, hid]
      exact hlt

/-- Only the server and its jobs move the counter. -/
theorem counter_cases {net net' : ActionNet} (hstep : net.step cfg l = some net') :
    (∃ step server, l = .server step ∧ net.server.next cfg.server step = some server ∧
      net'.server = server) ∨
    (l = .take_id ∧
      net'.server.next_request_id = saturating_add net.server.next_request_id 1) ∨
    (net'.server.next_request_id = net.server.next_request_id ∧ net.queues l = []) := by
  cases l with
  | server step =>
    simp only [ActionNet.step, Option.map_eq_some_iff] at hstep
    obtain ⟨server, hserver, rfl⟩ := hstep
    exact .inl ⟨step, server, rfl, hserver, rfl⟩
  | take_id =>
    cases hstep
    exact .inr (.inl ⟨rfl, rfl⟩)
  | forward sent =>
    obtain ⟨req, rest, -, -, rfl⟩ := forward_cases hstep
    cases sent <;> exact .inr (.inr ⟨rfl, rfl⟩)
  | set_running board running =>
    simp only [ActionNet.step, Option.ite_none_right_eq_some, Option.some.injEq] at hstep
    obtain ⟨-, rfl⟩ := hstep
    exact .inr (.inr ⟨rfl, rfl⟩)
  | reset board =>
    simp only [ActionNet.step, Option.ite_none_right_eq_some, Option.some.injEq] at hstep
    obtain ⟨-, rfl⟩ := hstep
    exact .inr (.inr ⟨rfl, rfl⟩)
  | service board =>
    simp only [ActionNet.step, Option.ite_none_right_eq_some, Option.some.injEq] at hstep
    obtain ⟨-, rfl⟩ := hstep
    exact .inr (.inr ⟨rfl, rfl⟩)
  | try_request board =>
    obtain ⟨taken, req, rest, -, -, -, rfl⟩ := try_request_cases hstep
    exact .inr (.inr ⟨rfl, rfl⟩)
  | drained board now =>
    obtain ⟨taken, -, -, rfl⟩ := drained_cases hstep
    exact .inr (.inr ⟨rfl, rfl⟩)
  | apply board =>
    simp only [ActionNet.step, Option.ite_none_right_eq_some, Option.some.injEq] at hstep
    obtain ⟨-, rfl⟩ := hstep
    exact .inr (.inr ⟨rfl, rfl⟩)

theorem issued_step (h : s.1.server.next_request_id < u64_max → Issued s)
    (hstep : (action_net cfg).step s l = some s')
    (hlt : s'.1.server.next_request_id < u64_max) : Issued s' := by
  obtain ⟨hact, hlog⟩ := action_step_cases hstep
  have hqueued : s'.2.queued = s.2.queued ++ s.1.queues l := by rw [hlog]; rfl
  rcases counter_cases hact with ⟨step, server, rfl, hserver, hsame⟩ | ⟨rfl, hnext⟩ |
    ⟨hsame, hnone⟩
  · rw [hsame] at hlt
    obtain ⟨hle, hids⟩ := server_ids hserver hlt
    have hold := h (hle.trans_lt hlt)
    replace hqueued : s'.2.queued = s.2.queued ++ (s.1.invoked step).toList := hqueued
    cases hinvoked : s.1.invoked step with
    | none =>
      rw [hinvoked] at hqueued
      exact hold.grow (hqueued.trans (List.append_nil _)) (hsame ▸ hle)
    | some req =>
      rw [hinvoked] at hqueued
      obtain ⟨hid, hless⟩ := hids req hinvoked
      exact hold.add hqueued hid (hsame ▸ hless)
  · have hle : s.1.server.next_request_id ≤ s'.1.server.next_request_id := by
      rw [hnext] at hlt ⊢
      unfold saturating_add at hlt ⊢
      omega
    exact (h (hle.trans_lt hlt)).grow (hqueued.trans (List.append_nil _)) hle
  · rw [hnone, List.append_nil] at hqueued
    exact (h (hsame ▸ hlt)).grow hqueued hsame.ge

theorem issued_of_reachable {ok : Guard (ActionNet × BusHistory) BusStep}
    (h : Reachable (action_net cfg) ok s) (hlt : s.1.server.next_request_id < u64_max) :
    Issued s := by
  induction h with
  | init hi =>
    have hnone : ∀ hist : BusHistory, hist = .new (.new cfg) → hist.queued = [] := by
      rintro _ rfl
      rfl
    have hqueued := hnone _ hi.2
    exact ⟨by rw [hqueued]; exact List.Pairwise.nil, by rw [hqueued]; exact List.forall_mem_nil _⟩
  | step l _ _ hstep ih => exact issued_step ih hstep hlt

/-! ### A turn of a node -/

/-- Time does not go back, and a turn takes so many samples at most. -/
def Bounded (nd : ActionNode) (a : ActionNode.Act) : Prop :=
  ActionNode.NonDecreasing nd a ∧
    match a with
    | .service _ _ received => received.length ≤ action_recv_cap
    | .reset => True

/-- A node that has taken `received` in its turn. -/
structure Draining (before : ActionNode) (received : List HoldRequest) (taken : Nat)
    (node : ActionNode) : Prop where
  count : received.length = taken
  bound : taken ≤ action_recv_cap
  node : node = { before with pending := before.queue received }

/-- A node that is in the loop over its queue: what it has to do yet ends where
    the whole loop does. -/
structure Applying (before : ActionNode) (received : List HoldRequest) (node : ActionNode) :
    Prop where
  bound : received.length ≤ action_recv_cap
  time : before.now ≤ node.now
  board_hash : node.board_hash = before.board_hash
  replies : ∃ done, node.replies = before.replies ++ done ∧
    ActionNode.apply_all (before.devices.poll_actions node.now) node.now (before.queue received) =
      ((ActionNode.apply_all node.devices node.now node.pending).1,
        done ++ (ActionNode.apply_all node.devices node.now node.pending).2)

/-- Where a node is in the turn that it has begun. -/
inductive InTurn (before : ActionNode) (received : List HoldRequest) : BusNode → Prop where
  | drain {nd : BusNode} (taken : Nat) (hpc : nd.pc = .drain taken)
      (hnode : Draining before received taken nd.node) : InTurn before received nd
  | apply {nd : BusNode} (hpc : nd.pc = .apply) (hrunning : nd.running = true)
      (hnode : Applying before received nd.node) : InTurn before received nd

variable {before : ActionNode} {received : List HoldRequest} {nd : BusNode}

theorem queue_append (before : ActionNode) {received : List HoldRequest} (req : HoldRequest)
    (h : received.length < action_recv_cap) :
    before.queue (received ++ [req]) =
      before.queue received ++ [req].filter fun req => req.board_hash == before.board_hash := by
  have hlong : (received ++ [req]).length ≤ action_recv_cap := by
    rw [List.length_append]
    exact h
  unfold ActionNode.queue
  rw [List.take_of_length_le h.le, List.take_of_length_le hlong, List.filter_append,
    List.append_assoc]

theorem Draining.receive {taken : Nat} {req : HoldRequest}
    (h : Draining before received taken nd.node) (hlt : taken < action_recv_cap) :
    InTurn before (received ++ [req]) (nd.receive taken req) := by
  refine .drain (taken + 1) rfl ⟨?_, hlt, ?_⟩
  · rw [List.length_append, h.count]
    rfl
  · have hqueue := queue_append before req (h.count ▸ hlt)
    unfold BusNode.receive
    rw [hqueue, h.node]
    by_cases hboard : (req.board_hash == before.board_hash) = true
    · simp [hboard]
    · simp [hboard]

/-- The turn of a node that stands ends with the samples kept. -/
theorem Draining.stand {taken : Nat} (h : Draining before received taken nd.node) (now : Nat)
    (hrunning : nd.running = false) :
    (nd.drained now).node = before.service_actions false now received ∧
      (nd.drained now).pc = .control := by
  unfold BusNode.drained
  rw [hrunning, h.node]
  exact ⟨rfl, rfl⟩

theorem Draining.run {taken : Nat} (h : Draining before received taken nd.node) {now : Nat}
    (hrunning : nd.running = true) (htime : before.now ≤ now) :
    InTurn before received (nd.drained now) := by
  have hdrained : nd.drained now =
      { nd with
        node := { nd.node with devices := nd.node.devices.poll_actions now, now := now }
        pc := .apply } := by
    unfold BusNode.drained
    rw [if_pos hrunning]
  rw [hdrained]
  refine .apply rfl hrunning ⟨h.count.trans_le h.bound, htime, by rw [h.node], [], ?_, ?_⟩
  · rw [h.node, List.append_nil]
  · rw [h.node]
    rfl

/-- One request less to apply. -/
theorem Applying.next {req : HoldRequest} {rest : List HoldRequest}
    (h : Applying before received nd.node) (hpc : nd.pc = .apply) (hrunning : nd.running = true)
    (hpending : nd.node.pending = req :: rest) : InTurn before received nd.apply := by
  have happly : nd.apply = { nd with
      node := { nd.node with
        devices := (nd.node.devices.apply_action nd.node.now req).1
        pending := rest
        replies := nd.node.replies ++
          [(req.request_id, .of_result (nd.node.devices.apply_action nd.node.now req).2)] } } := by
    unfold BusNode.apply
    rw [hpending]
  obtain ⟨done, hreplies, hall⟩ := h.replies
  rw [happly]
  refine .apply hpc hrunning ⟨h.bound, h.time, h.board_hash, done ++ [(req.request_id,
    .of_result (nd.node.devices.apply_action nd.node.now req).2)], ?_, ?_⟩
  · show nd.node.replies ++ _ = _
    rw [hreplies, List.append_assoc]
  · rw [hpending] at hall
    rw [List.append_assoc]
    exact hall

/-- With nothing left to apply, the turn was a call of `service_actions`. -/
theorem Applying.finish (h : Applying before received nd.node) (hpending : nd.node.pending = []) :
    nd.apply.node = before.service_actions true nd.node.now received ∧
      nd.apply.pc = .control := by
  have happly : nd.apply = { nd with pc := .control } := by
    unfold BusNode.apply
    rw [hpending]
  obtain ⟨done, hreplies, hall⟩ := h.replies
  rw [hpending] at hall
  rw [happly]
  refine ⟨?_, rfl⟩
  have hservice : before.service_actions true nd.node.now received =
      { before with
        devices := nd.node.devices
        pending := []
        replies := before.replies ++ done
        now := nd.node.now } := by
    unfold ActionNode.service_actions
    rw [hall]
    simp [ActionNode.apply_all]
  rw [hservice, ← hreplies, ← hpending, ← h.board_hash]

/-! ### Runs of a node -/

variable {id_hash : String → Nat}

variable (id_hash) in
/-- A node between two turns, or in one: it was brought there, or to the start of
    the turn, by a run of turns. -/
inductive ByTurns (before : ActionNode) (received : List HoldRequest) (nd : BusNode) :
    Prop where
  | control (hpc : nd.pc = .control) (hreach : Reachable (ActionNode.runs id_hash) Bounded nd.node)
  | busy (hturn : InTurn before received nd)
      (hreach : Reachable (ActionNode.runs id_hash) Bounded before)

theorem ByTurns.at_control (h : ByTurns id_hash before received nd) (hpc : nd.pc = .control) :
    Reachable (ActionNode.runs id_hash) Bounded nd.node := by
  cases h with
  | control _ hreach => exact hreach
  | busy hturn _ =>
    cases hturn with
    | drain taken hdrain _ =>
      rw [hpc] at hdrain
      cases hdrain
    | apply happly _ _ =>
      rw [hpc] at happly
      cases happly

theorem ByTurns.draining (h : ByTurns id_hash before received nd) {taken : Nat}
    (hpc : nd.pc = .drain taken) :
    Draining before received taken nd.node ∧
      Reachable (ActionNode.runs id_hash) Bounded before := by
  cases h with
  | control hcontrol _ =>
    rw [hpc] at hcontrol
    cases hcontrol
  | busy hturn hreach =>
    cases hturn with
    | drain other hdrain hnode =>
      cases hpc.symm.trans hdrain
      exact ⟨hnode, hreach⟩
    | apply happly _ _ =>
      rw [hpc] at happly
      cases happly

theorem ByTurns.applying (h : ByTurns id_hash before received nd) (hpc : nd.pc = .apply) :
    (nd.running = true ∧ Applying before received nd.node) ∧
      Reachable (ActionNode.runs id_hash) Bounded before := by
  cases h with
  | control hcontrol _ =>
    rw [hpc] at hcontrol
    cases hcontrol
  | busy hturn hreach =>
    cases hturn with
    | drain taken hdrain _ =>
      rw [hpc] at hdrain
      cases hdrain
    | apply _ hrunning hnode => exact ⟨⟨hrunning, hnode⟩, hreach⟩

theorem ByTurns.service (h : ByTurns id_hash before received nd) (hpc : nd.pc = .control) :
    ByTurns id_hash nd.node [] { nd with pc := .drain 0 } := by
  refine .busy (.drain 0 rfl ⟨rfl, Nat.zero_le _, ?_⟩) (h.at_control hpc)
  have hqueue : nd.node.queue [] = nd.node.pending := List.append_nil _
  rw [hqueue]

theorem ByTurns.receive (h : ByTurns id_hash before received nd) {taken : Nat}
    (hpc : nd.pc = .drain taken) (hlt : taken < action_recv_cap) (req : HoldRequest) :
    ByTurns id_hash before (received ++ [req]) (nd.receive taken req) := by
  obtain ⟨hnode, hreach⟩ := h.draining hpc
  exact .busy (hnode.receive hlt) hreach

theorem ByTurns.drained (h : ByTurns id_hash before received nd) {taken : Nat}
    (hpc : nd.pc = .drain taken) {now : Nat} (htime : nd.node.now ≤ now) :
    ByTurns id_hash before received (nd.drained now) := by
  obtain ⟨hnode, hreach⟩ := h.draining hpc
  rw [hnode.node] at htime
  cases hrunning : nd.running with
  | false =>
    obtain ⟨hturn, hcontrol⟩ := hnode.stand now hrunning
    refine .control hcontrol (.step (.service false now received) hreach ⟨htime, ?_⟩
      (congrArg some ?_))
    · exact hnode.count.trans_le hnode.bound
    · exact hturn.symm
  | true => exact .busy (hnode.run hrunning htime) hreach

theorem ByTurns.apply (h : ByTurns id_hash before received nd) (hpc : nd.pc = .apply) :
    ByTurns id_hash before received nd.apply := by
  obtain ⟨⟨hrunning, hnode⟩, hreach⟩ := h.applying hpc
  cases hpending : nd.node.pending with
  | nil =>
    obtain ⟨hturn, hcontrol⟩ := hnode.finish hpending
    refine .control hcontrol (.step (.service true nd.node.now received) hreach ?_ ?_)
    · exact ⟨hnode.time, hnode.bound⟩
    · exact congrArg some hturn.symm
  | cons req rest => exact .busy (hnode.next hpc hrunning hpending) hreach

variable (id_hash) in
/-- What the history has of a board. -/
def Turning (board : HashedId) (s : ActionNet × BusHistory) : Prop :=
  ByTurns id_hash (s.2.before board) (s.2.received board) (s.1.node board)

/-- A step of another process. -/
theorem Turning.other (h : Turning id_hash board s) (hnode : s'.1.node board = s.1.node board)
    (hbefore : s'.2.before board = s.2.before board)
    (hreceived : s'.2.received board = s.2.received board) : Turning id_hash board s' := by
  rw [Turning, hnode, hbefore, hreceived]
  exact h

/-- The virtual time of a board does not go back. -/
def Timely (s : ActionNet × BusHistory) : BusStep → Prop
  | .drained board now => (s.1.node board).node.now ≤ now
  | _ => True

instance (s : ActionNet × BusHistory) (l : BusStep) : Decidable (Timely s l) :=
  match l with
  | .drained board now => inferInstanceAs (Decidable ((s.1.node board).node.now ≤ now))
  | .server _ | .take_id | .forward _ | .set_running _ _ | .reset _ | .service _
  | .try_request _ | .apply _ => .isTrue trivial

theorem turning_step (h : Turning id_hash board s) (htime : Timely s l)
    (hstep : (action_net cfg).step s l = some s') : Turning id_hash board s' := by
  obtain ⟨hact, hlog⟩ := action_step_cases hstep
  obtain ⟨net', hist'⟩ := s'
  obtain rfl : hist' = BusHistory.record s.1 l net' s.2 := hlog
  replace hact : s.1.step cfg l = some net' := hact
  cases l with
  | server step =>
    simp only [ActionNet.step, Option.map_eq_some_iff] at hact
    obtain ⟨server, -, rfl⟩ := hact
    exact h.other rfl rfl rfl
  | take_id =>
    cases hact
    exact h.other rfl rfl rfl
  | forward sent =>
    obtain ⟨req, rest, -, -, rfl⟩ := forward_cases hact
    cases sent <;> exact h.other rfl rfl rfl
  | set_running other running =>
    simp only [ActionNet.step, Option.ite_none_right_eq_some, Option.some.injEq] at hact
    obtain ⟨⟨-, hpc⟩, rfl⟩ := hact
    by_cases hother : board = other
    · subst hother
      refine ByTurns.control ?_ ?_
      · rw [set_node_self]
        exact hpc
      · rw [set_node_self]
        exact h.at_control hpc
    · exact h.other (set_node_ne _ _ hother) rfl rfl
  | reset other =>
    simp only [ActionNet.step, Option.ite_none_right_eq_some, Option.some.injEq] at hact
    obtain ⟨⟨-, hpc⟩, rfl⟩ := hact
    by_cases hother : board = other
    · subst hother
      refine ByTurns.control ?_ ?_
      · rw [set_node_self]
        exact hpc
      · rw [set_node_self]
        exact .step .reset (h.at_control hpc) ⟨trivial, trivial⟩ rfl
    · exact h.other (set_node_ne _ _ hother) rfl rfl
  | service other =>
    simp only [ActionNet.step, Option.ite_none_right_eq_some, Option.some.injEq] at hact
    obtain ⟨⟨-, hpc⟩, rfl⟩ := hact
    by_cases hother : board = other
    · subst hother
      have hturn := ByTurns.service h hpc
      rw [Turning, set_node_self]
      simpa only [BusHistory.record, Function.update_self] using hturn
    · exact h.other (set_node_ne _ _ hother) (Function.update_of_ne hother ..)
        (Function.update_of_ne hother ..)
  | try_request other =>
    obtain ⟨taken, req, rest, hpc, hring, hlt, rfl⟩ := try_request_cases hact
    by_cases hother : board = other
    · subst hother
      have hturn := ByTurns.receive h hpc hlt req
      have hnode : ({ s.1.set_node board ((s.1.node board).receive taken req) with
          a2n := Function.update s.1.a2n board rest } : ActionNet).node board =
            (s.1.node board).receive taken req := set_node_self ..
      rw [Turning, hnode]
      simpa only [BusHistory.record, Function.update_self, hring, List.take_succ_cons,
        List.take_zero] using hturn
    · exact h.other (set_node_ne _ _ hother) rfl (Function.update_of_ne hother ..)
  | drained other now =>
    obtain ⟨taken, hpc, -, rfl⟩ := drained_cases hact
    by_cases hother : board = other
    · subst hother
      rw [Turning, set_node_self]
      exact ByTurns.drained h hpc htime
    · exact h.other (set_node_ne _ _ hother) rfl rfl
  | apply other =>
    simp only [ActionNet.step, Option.ite_none_right_eq_some, Option.some.injEq] at hact
    obtain ⟨hpc, rfl⟩ := hact
    by_cases hother : board = other
    · subst hother
      rw [Turning, set_node_self]
      exact ByTurns.apply h hpc
    · exact h.other (set_node_ne _ _ hother) rfl rfl

/-- The devices that the nodes are built with. -/
def Registered (id_hash : String → Nat) (cfg : ActionNetConfig) : Prop :=
  ∀ board, ActionNode.Init id_hash ((new cfg).node board).node

theorem turning_of_reachable (hcfg : Registered id_hash cfg)
    (h : Reachable (action_net cfg) Timely s) (board : HashedId) : Turning id_hash board s := by
  refine h.invariant (fun t hi => ?_) fun t l t' ih hok hstep => turning_step ih hok hstep
  obtain ⟨net, hist⟩ := t
  obtain rfl : net = .new cfg := hi.1
  exact .control rfl (.init (hcfg board))

/-! ### Main results -/

/-- One board with one switch. -/
def lone_bus : ActionNetConfig where
  server := ⟨fun _ => 0, plant_row 1⟩
  devices _ hash :=
    if hash = 3 then some (.hold_switch ⟨"sw1", 3, 4, Hold.new String.length⟩) else none

/-- A press of the switch for two milliseconds. -/
def press : InvokeActionRequest F64 := ⟨0, 3, 4, [(12, .finite 2)]⟩

/-- Two presses, and another job of the server between them. -/
def pair_run : List BusStep :=
  [.server .begin_poll, .server (.try_status true), .server (.inboxes [⟨0, 3, 4⟩] true),
    .server (.try_wait true), .server (.invoke press (.ok ())), .take_id,
    .server (.invoke press (.ok ())), .forward true, .forward true, .set_running 0 true,
    .service 0, .try_request 0, .try_request 0, .drained 0 5, .apply 0, .apply 0, .apply 0]

theorem init_lone_bus : (action_net lone_bus).init (.new lone_bus, .new (.new lone_bus)) :=
  ⟨rfl, rfl⟩

/-- In every run, what a board has applied is, in order, a part of what has been
    queued for it, and no request has been applied twice as long as the counter
    of the server has not run out. -/
theorem actions_in_order (h : Reachable (action_net cfg) AnyBus s) (board : HashedId) :
    (s.2.applied board).Sublist (s.2.queued.filter (HoldRequest.is_for board)) ∧
      (s.1.server.next_request_id < u64_max →
        ((s.2.applied board).map HoldRequest.request_id).Pairwise (· < ·)) := by
  have hline : (line s board).Sublist (asked s board) :=
    line_sublist (fun _ hi => line_of_init hi board)
      (fun _ _ _ hreach _ hstep => action_passes (named_of_reachable hreach) hstep board) h
  have happlied : (s.2.applied board).Sublist (asked s board) :=
    (List.sublist_append_left ..).trans hline
  refine ⟨happlied, fun hlt => ?_⟩
  exact (issued_of_reachable h hlt).rising.sublist ((happlied.trans List.filter_sublist).map _)

theorem actions_in_order_pair : ∃ s : ActionNet × BusHistory,
    Reachable (action_net lone_bus) AnyBus s ∧
      (s.2.applied 0).map HoldRequest.request_id = [1, 3] ∧
      (s.2.applied 0).Sublist (s.2.queued.filter (HoldRequest.is_for 0)) := by
  obtain ⟨s, hs, hids⟩ : ∃ s : ActionNet × BusHistory, Reachable (action_net lone_bus) AnyBus s ∧
      (s.2.applied 0).map HoldRequest.request_id = [1, 3] :=
    Reachable.exists_of_exec pair_run init_lone_bus (by decide +kernel)
  exact ⟨s, hs, hids, (actions_in_order hs 0).1⟩

/-- The steps have room for a board. -/
def RoomFor (board : HashedId) (s : ActionNet × BusHistory) (l : BusStep) : Prop :=
  Room board s.1 l

instance (board : HashedId) (s : ActionNet × BusHistory) (l : BusStep) :
    Decidable (RoomFor board s l) :=
  inferInstanceAs (Decidable (Room board s.1 l))

/-- While the buffers have room for a board and it is not reset with requests
    left, every request that is queued for it is applied, kept by its node, or
    on its way, in the order in which it was queued. -/
theorem actions_all_applied (h : Reachable (action_net cfg) (RoomFor board) s) :
    s.2.applied board ++ ((s.1.node board).node.pending ++ s.1.under_way board) =
      s.2.queued.filter (HoldRequest.is_for board) := by
  have hpasses (t : ActionNet × BusHistory) (l : BusStep) (t' : ActionNet × BusHistory)
      (hreach : Reachable (action_net cfg) (RoomFor board) t) (_ : RoomFor board t l)
      (hstep : (action_net cfg).step t l = some t') :
      Passed (Room board t.1 l) (asked t board) (line t board) (asked t' board) (line t' board) :=
    action_passes (named_of_reachable hreach) hstep board
  refine line_eq (fun t hi => ?_) hpasses (fun _ _ hok => hok) h
  rw [line_of_init hi]
  obtain ⟨net, hist⟩ := t
  obtain rfl : hist = .new (.new cfg) := hi.2
  rfl

theorem actions_all_applied_pair : ∃ s : ActionNet × BusHistory,
    Reachable (action_net lone_bus) (RoomFor 0) s ∧
      (s.2.applied 0).map HoldRequest.request_id = [1, 3] ∧
      s.2.applied 0 ++ ((s.1.node 0).node.pending ++ s.1.under_way 0) =
        s.2.queued.filter (HoldRequest.is_for 0) := by
  obtain ⟨s, hs, hids⟩ : ∃ s : ActionNet × BusHistory,
      Reachable (action_net lone_bus) (RoomFor 0) s ∧
        (s.2.applied 0).map HoldRequest.request_id = [1, 3] :=
    Reachable.exists_of_exec pair_run init_lone_bus (by decide +kernel)
  exact ⟨s, hs, hids, actions_all_applied hs⟩

/-- Between two turns, a node has come where a run of the node alone comes, in
    which every turn is one call of `service_actions`, of 128 samples at most and
    at times that do not go back, however the messages, the other nodes and the
    requests came in between. -/
theorem node_runs_turns (hcfg : Registered id_hash cfg)
    (h : Reachable (action_net cfg) Timely s) (hpc : (s.1.node board).pc = .control) :
    Reachable (ActionNode.runs id_hash) Bounded (s.1.node board).node :=
  (turning_of_reachable hcfg h board).at_control hpc

theorem node_runs_turns_pair : ∃ s : ActionNet × BusHistory,
    Reachable (action_net lone_bus) Timely s ∧
      (s.1.node 0).node.replies = [(1, .Applied), (3, .Busy)] ∧
      Reachable (ActionNode.runs String.length) Bounded (s.1.node 0).node := by
  have hregistered : Registered String.length lone_bus := by
    refine fun board => ⟨rfl, rfl, rfl, fun hash sw hsw => ?_⟩
    replace hsw : (if hash = 3 then some (BoardDevice.hold_switch
      ⟨"sw1", 3, 4, Hold.new String.length⟩) else none) = some (.hold_switch sw) := hsw
    split at hsw
    · rename_i heq
      cases hsw
      exact ⟨"sw1", rfl, heq.symm⟩
    · cases hsw
  obtain ⟨s, hs, hpc, hreplies⟩ : ∃ s : ActionNet × BusHistory,
      Reachable (action_net lone_bus) Timely s ∧ (s.1.node 0).pc = .control ∧
        (s.1.node 0).node.replies = [(1, .Applied), (3, .Busy)] :=
    Reachable.exists_of_exec pair_run init_lone_bus (by decide +kernel)
  exact ⟨s, hs, hreplies, node_runs_turns hregistered hs hpc⟩

end ActionNet

end Rl78Sim
