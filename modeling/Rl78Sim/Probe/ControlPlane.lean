import Rl78Sim.Cluster.Arbiter
import Rl78Sim.Cluster.StatusWire
import Rl78Sim.Probe.Moves

/-! # The Control Plane

    The messages by which the server moves the arbiter, and the arbiter the
    nodes: host commands, watches and queries one way, control messages and
    queries the other. Every one of these channels overwrites its oldest
    message when it is full, and its reader takes the messages at its own pace.

    Every send is a step of its own. What an operation has still to send is
    part of the state, so that a reader may come in between.
-/

namespace Rl78Sim

open Transition

/-- `subscriber_max_buffer_size` of the host command service. -/
def command_buffer : Nat := 16

/-- The arbiter, the commands that it has not read yet, and the probe network
    with the channels to the nodes. `watches` and `queries` are what the job of
    the server has still to send, `controls` what the arbiter has. -/
structure ControlPlane (n : Nat) where
  arbiter : Arbiter n
  commands : List (HostCommand n)
  net : ProbeNet n
  watches : List (ProbeWatchWire n)
  queries : List (ProbeQueryWire n)
  controls : List (ControlToNode n)

/-- What happens. `command` is a job that publishes a host command; a report of
    any node may arrive in `sync_recv`. -/
inductive PlaneAct (n : Nat) where
  | command (cmd : HostCommand n)
  | server (act : ServerAct n)
  | send_watch
  | send_query
  | read_command
  | forward_watch
  | sync_begin
  | sync_recv (i : Fin n) (r : Report)
  | sync_finish
  | send_control
  | hub (act : HubAct n)
  | node (i : Fin n) (act : NodeProbeAct)

namespace ControlPlane

variable {n : Nat}

/-- What a job of the server sends. -/
def server_sends (catalog : ProbeCatalog n) (server : ProbeServer n) :
    ServerAct n → List (ProbeWatchWire n) × List (ProbeQueryWire n)
  | .put_watch probes =>
    match catalog.resolve_probes probes with
    | some ids => (server.put_watch catalog ids).2
    | none => ([], [])
  | .clear_watch => ((server.clear_watch catalog).2, [])
  | .query_samples probe range =>
    match catalog.resolve_probes [probe] with
    | some [id] => ([], (server.query_samples catalog id range).2)
    | _ => ([], [])
  | _ => ([], [])

/-- The server does the job, and its messages are still to be sent. -/
def server_step (catalog : ProbeCatalog n) (s : ControlPlane n) (act : ServerAct n) :
    Option (ControlPlane n) :=
  (s.net.server_step catalog act).map fun net =>
    { s with
      net := { net with watch_s2a := s.net.watch_s2a, query_s2a := s.net.query_s2a }
      watches := (server_sends catalog s.net.server act).1
      queries := (server_sends catalog s.net.server act).2 }

/-- The arbiter acts on what it has read. -/
def arbiter_step (s : ControlPlane n) (act : Arbiter.Act n) : Option (ControlPlane n) :=
  (s.arbiter.act act).map fun (arbiter, out) => { s with arbiter := arbiter, controls := out }

def step (catalog : ProbeCatalog n) (s : ControlPlane n) : PlaneAct n → Option (ControlPlane n)
  | .command cmd =>
    -- The worker thread runs one job after the other.
    match s.net.server.call, s.watches, s.queries with
    | .none, [], [] => some { s with commands := Ring.push command_buffer s.commands cmd }
    | _, _, _ => none
  | .server act =>
    match s.watches, s.queries with
    | [], [] => s.server_step catalog act
    | _, _ => none
  | .send_watch =>
    match s.watches with
    | watch :: rest =>
      some { s with
        net := { s.net with watch_s2a := Ring.push watch_buffer s.net.watch_s2a watch }
        watches := rest }
    | [] => none
  | .send_query =>
    match s.watches, s.queries with
    | [], query :: rest =>
      some { s with
        net := { s.net with query_s2a := Ring.push watch_buffer s.net.query_s2a query }
        queries := rest }
    | _, _ => none
  | .read_command =>
    match s.controls, s.net.hub.held, s.commands with
    | [], none, cmd :: rest =>
      ({ s with commands := rest } : ControlPlane n).arbiter_step (.host cmd)
    | _, _, _ => none
  | .forward_watch =>
    match s.controls, s.net.hub.held, s.net.watch_s2a with
    | [], none, watch :: rest =>
      ({ s with net := { s.net with watch_s2a := rest } } : ControlPlane n).arbiter_step
        (.watch watch.board_hash watch.count watch.probe_ids)
    | _, _, _ => none
  | .sync_begin =>
    match s.controls, s.net.hub.held with
    | [], none => s.arbiter_step .sync_begin
    | _, _ => none
  | .sync_recv i r => (s.arbiter.sync_recv i r).map fun arbiter => { s with arbiter := arbiter }
  | .sync_finish =>
    match s.controls with
    | [] => s.arbiter_step .sync_finish
    | _ => none
  | .send_control =>
    match s.controls with
    | msg :: rest =>
      some { s with
        net := { s.net with
          ctrl_a2n := ProbeNet.broadcast ProbeNet.a2n_buffer s.net.ctrl_a2n msg }
        controls := rest }
    | [] => none
  | .hub act =>
    -- Watches go through `forward_watch`, and the arbiter decides on its own
    -- what it publishes.
    match s.controls, s.arbiter.pc, act with
    | _, _, .control _ => none
    | _, _, .forward_watch => none
    | [], .host, _ => (s.net.hub_step act).map fun net => { s with net := net }
    | _, _, _ => none
  | .node i act => (s.net.node_step i act).map fun net => { s with net := net }

/-- The control plane after the Ready barrier. Startup records may still be in
    flight. -/
structure Initial (catalog : ProbeCatalog n) (s : ControlPlane n) : Prop where
  arbiter_eq : ∃ margin_ns, s.arbiter = .new n margin_ns
  commands_eq : s.commands = []
  net : ProbeNet.Ready catalog s.net
  startup : ∀ i, ∀ msg ∈ s.net.ctrl_a2n i, ∃ margin_ns threshold_ns,
    msg = .StartupRecord margin_ns threshold_ns
  buffered : ∀ i, (s.net.ctrl_a2n i).length ≤ ProbeNet.a2n_buffer
  idle : s.watches = [] ∧ s.queries = [] ∧ s.controls = []

def system (catalog : ProbeCatalog n) : System (ControlPlane n) (PlaneAct n) where
  init := Initial catalog
  step := step catalog

/-! ### Messages that are lost -/

/-- A control message that a node must not miss. -/
def needed : ControlToNode n → Bool
  | .StartupRecord _ _ => false
  | .Allowed _ => false
  | _ => true

/-- A message on one of the channels; those to a node are with the node. -/
inductive PlaneMsg (n : Nat) where
  | command (cmd : HostCommand n)
  | watch (msg : ProbeWatchWire n)
  | query (msg : ProbeQueryWire n)
  | control (i : Fin n) (msg : ControlToNode n)
  | asked (i : Fin n) (msg : ProbeQueryWire n)
  deriving DecidableEq

/-- The messages that a step overwrites before they are read. -/
def overwritten (s : ControlPlane n) : PlaneAct n → List (PlaneMsg n)
  | .command _ => (Ring.dropped command_buffer s.commands).map .command
  | .send_watch => (Ring.dropped watch_buffer s.net.watch_s2a).map .watch
  | .send_query => (Ring.dropped watch_buffer s.net.query_s2a).map .query
  | .send_control => (List.finRange n).flatMap fun i =>
    ((Ring.dropped ProbeNet.a2n_buffer (s.net.ctrl_a2n i)).filter needed).map (.control i)
  | .hub .forward_query => (List.finRange n).flatMap fun i =>
    (Ring.dropped watch_buffer (s.net.query_a2n i)).map (.asked i)
  | _ => []

/-- The control plane with a history of the messages lost. -/
def lossy (catalog : ProbeCatalog n) : System (ControlPlane n × List (PlaneMsg n)) (PlaneAct n) :=
  (system catalog).logged [] fun s act _ lost => lost ++ s.overwritten act

/-! ### Room -/

/-- Of the messages that do not fit any more, the oldest ones, none is needed. -/
def Spare (q out : List (ControlToNode n)) : Prop :=
  ∀ msg ∈ (q ++ out).take ((q ++ out).length - ProbeNet.a2n_buffer), needed msg = false

/-- There is room for what a step of the arbiter publishes. -/
def Takes (s : ControlPlane n) (act : Arbiter.Act n) : Prop :=
  ∀ arbiter out, s.arbiter.act act = some (arbiter, out) → ∀ i, Spare (s.net.ctrl_a2n i) out

/-- An operation begins only when the channels have room for all that it sends. -/
def Room (catalog : ProbeCatalog n) (s : ControlPlane n) : PlaneAct n → Prop
  | .command _ => s.commands.length + 1 ≤ command_buffer
  | .server act =>
    s.net.watch_s2a.length + (server_sends catalog s.net.server act).1.length ≤ watch_buffer ∧
      s.net.query_s2a.length + (server_sends catalog s.net.server act).2.length ≤ watch_buffer
  | .read_command => ∀ cmd ∈ s.commands.take 1, s.Takes (.host cmd)
  | .forward_watch => ∀ watch ∈ s.net.watch_s2a.take 1,
    s.Takes (.watch watch.board_hash watch.count watch.probe_ids)
  | .sync_finish => s.Takes .sync_finish
  | .hub .forward_query => ∀ i, (s.net.query_a2n i).length + 1 ≤ watch_buffer
  | _ => True

/-- What is queued and what is still to be sent have room together. -/
structure Safe (s : ControlPlane n) : Prop where
  commands : s.commands.length ≤ command_buffer
  watches : s.net.watch_s2a.length + s.watches.length ≤ watch_buffer
  queries : s.net.query_s2a.length + s.queries.length ≤ watch_buffer
  controls : ∀ i, (s.net.ctrl_a2n i).length ≤ ProbeNet.a2n_buffer ∧
    Spare (s.net.ctrl_a2n i) s.controls
  asked : ∀ i, (s.net.query_a2n i).length ≤ watch_buffer

theorem spare_nil {q : List (ControlToNode n)} (hq : q.length ≤ ProbeNet.a2n_buffer) :
    Spare q [] := by
  intro msg hmsg
  rw [List.append_nil, Nat.sub_eq_zero_of_le hq] at hmsg
  cases hmsg

/-- Reading the oldest message makes room. -/
theorem spare_read {msg : ControlToNode n} {rest out : List (ControlToNode n)}
    (h : Spare (msg :: rest) out) : Spare rest out := by
  intro x hx
  apply h x
  by_cases hfull : ProbeNet.a2n_buffer ≤ (rest ++ out).length
  · have hone : (msg :: rest ++ out).length - ProbeNet.a2n_buffer =
        (rest ++ out).length - ProbeNet.a2n_buffer + 1 := by
      rw [List.cons_append, List.length_cons]
      omega
    rw [hone, List.cons_append, List.take_succ_cons]
    exact List.mem_cons_of_mem _ hx
  · rw [Nat.sub_eq_zero_of_le (by omega)] at hx
    cases hx

/-- There is room for all when what the first one overwrites is not needed, and
    there is room for the rest. -/
theorem spare_cons {q : List (ControlToNode n)} (hq : q.length ≤ ProbeNet.a2n_buffer)
    {msg : ControlToNode n} {out : List (ControlToNode n)} :
    Spare q (msg :: out) ↔ (Ring.dropped ProbeNet.a2n_buffer q).filter needed = [] ∧
      Spare (Ring.push ProbeNet.a2n_buffer q msg) out := by
  unfold Ring.push Ring.dropped
  by_cases hroom : q.length < ProbeNet.a2n_buffer
  · rw [if_pos hroom, if_pos hroom]
    unfold Spare
    rw [List.append_assoc]
    exact ⟨fun h => ⟨rfl, h⟩, fun h => h.2⟩
  · rw [if_neg hroom, if_neg hroom]
    cases q with
    | nil => exact absurd (by decide : 0 < ProbeNet.a2n_buffer) hroom
    | cons y tl =>
      have hfull : tl.length + 1 = ProbeNet.a2n_buffer := by
        rw [List.length_cons] at hq hroom
        omega
      -- The oldest message is the first of those that do not fit.
      have hover : (y :: tl ++ msg :: out).length - ProbeNet.a2n_buffer = out.length + 1 := by
        simp only [List.cons_append, List.length_cons, List.length_append]
        omega
      have hleft : (tl ++ [msg] ++ out).length - ProbeNet.a2n_buffer = out.length := by
        simp only [List.length_append, List.length_singleton]
        omega
      unfold Spare
      rw [hover, List.tail_cons, hleft, List.cons_append, List.take_succ_cons,
        List.append_assoc, List.singleton_append]
      simp

/-! ### Steps -/

/-- The reader of a channel takes its oldest message, or leaves it alone. -/
inductive Read {α : Type} (q : List α) : List α → Prop where
  | left : Read q q
  | taken (x : α) (rest : List α) : q = x :: rest → Read q rest

theorem Read.length_le {α : Type} {q q' : List α} (h : Read q q') : q'.length ≤ q.length := by
  cases h with
  | left => exact Nat.le_refl _
  | taken x rest hq =>
    rw [hq, List.length_cons]
    omega

theorem Read.spare {q q' out : List (ControlToNode n)} (h : Read q q') (hs : Spare q out) :
    Spare q' out := by
  cases h with
  | left => exact hs
  | taken x rest hq =>
    rw [hq] at hs
    exact spare_read hs

/-- One of several channels is read. -/
theorem read_update {α : Type} {q : Fin n → List α} {i : Fin n} {x : α} {rest : List α}
    (h : q i = x :: rest) (j : Fin n) : Read (q j) (Function.update q i rest j) := by
  by_cases hj : j = i
  · subst hj
    rw [Function.update_self]
    exact .taken x rest h
  · rw [Function.update_of_ne hj]
    exact .left

/-- The server touches none of the channels to the nodes. -/
theorem server_channels {catalog : ProbeCatalog n} {net net' : ProbeNet n} {act : ServerAct n}
    (h : net.server_step catalog act = some net') :
    net'.ctrl_a2n = net.ctrl_a2n ∧ net'.query_a2n = net.query_a2n := by
  have hmove := ProbeNet.server_move h
  cases hmove <;> exact ⟨rfl, rfl⟩

/-- In `ProbeNet` a job sends all its messages in one step. -/
theorem server_sends_all {catalog : ProbeCatalog n} {net net' : ProbeNet n} {act : ServerAct n}
    (h : net.server_step catalog act = some net') :
    net'.watch_s2a =
        Ring.push_all watch_buffer net.watch_s2a (server_sends catalog net.server act).1 ∧
      net'.query_s2a =
        Ring.push_all watch_buffer net.query_s2a (server_sends catalog net.server act).2 := by
  cases act with
  | put_watch probes =>
    simp only [ProbeNet.server_step] at h
    split at h
    · rename_i ids _ hids
      cases h
      simp only [server_sends, hids, and_self]
    · cases h
  | query_samples probe range =>
    simp only [ProbeNet.server_step] at h
    split at h
    · rename_i id _ hid
      cases h
      simp only [server_sends, hid, Ring.push_all, List.foldl_nil, and_self]
    · cases h
  | _ =>
    have hmove := ProbeNet.server_move h
    cases hmove
    exact ⟨rfl, rfl⟩

/-- A node reads from its own channels. -/
theorem node_channels {net net' : ProbeNet n} {i : Fin n} {act : NodeProbeAct}
    (h : net.node_step i act = some net') :
    net'.watch_s2a = net.watch_s2a ∧ net'.query_s2a = net.query_s2a ∧
      (∀ j, Read (net.ctrl_a2n j) (net'.ctrl_a2n j)) ∧
      ∀ j, Read (net.query_a2n j) (net'.query_a2n j) := by
  have hmove := ProbeNet.node_move h
  cases hmove with
  | take_control msg rest nd records hsending hqueue =>
    exact ⟨rfl, rfl, read_update hqueue, fun _ => .left⟩
  | take_query io_ok query rest hsending hqueue =>
    exact ⟨rfl, rfl, fun _ => .left, read_update hqueue⟩
  | send_reply => exact ⟨rfl, rfl, fun _ => .left, fun _ => .left⟩
  | take_csv => exact ⟨rfl, rfl, fun _ => .left, fun _ => .left⟩
  | send_chunk => exact ⟨rfl, rfl, fun _ => .left, fun _ => .left⟩
  | ingest_and_emit => exact ⟨rfl, rfl, fun _ => .left, fun _ => .left⟩

/-- The arbiter passes on queries and replies. -/
theorem hub_channels {net net' : ProbeNet n} {act : HubAct n}
    (h : net.hub_step act = some net') (hcontrol : ∀ msg, act ≠ .control msg)
    (hwatch : act ≠ .forward_watch) :
    net'.watch_s2a = net.watch_s2a ∧ net'.ctrl_a2n = net.ctrl_a2n ∧
      Read net.query_s2a net'.query_s2a ∧
      ((act ≠ .forward_query ∧ net'.query_a2n = net.query_a2n) ∨
        ∃ query, act = .forward_query ∧
          net'.query_a2n = ProbeNet.broadcast watch_buffer net.query_a2n query) := by
  have hmove := ProbeNet.hub_move h
  cases hmove with
  | forward_watch => exact absurd rfl hwatch
  | control msg => exact absurd rfl (hcontrol msg)
  | forward_query query rest hheld hqueue =>
    exact ⟨rfl, rfl, .taken query rest hqueue, .inr ⟨query, rfl, rfl⟩⟩
  | take_reply => exact ⟨rfl, rfl, .left, .inl ⟨nofun, rfl⟩⟩
  | publish_reply => exact ⟨rfl, rfl, .left, .inl ⟨nofun, rfl⟩⟩
  | forward_csv => exact ⟨rfl, rfl, .left, .inl ⟨nofun, rfl⟩⟩
  | forward_chunk => exact ⟨rfl, rfl, .left, .inl ⟨nofun, rfl⟩⟩
  | take_sample => exact ⟨rfl, rfl, .left, .inl ⟨nofun, rfl⟩⟩
  | publish_sample => exact ⟨rfl, rfl, .left, .inl ⟨nofun, rfl⟩⟩

/-- One case for every way in which a step can go. -/
inductive PlaneMove (catalog : ProbeCatalog n) (s : ControlPlane n) :
    PlaneAct n → ControlPlane n → Prop where
  | command (cmd : HostCommand n) :
      PlaneMove catalog s (.command cmd) { s with
        commands := Ring.push command_buffer s.commands cmd }
  | server (act : ServerAct n) (net : ProbeNet n) : s.watches = [] → s.queries = [] →
      s.net.server_step catalog act = some net →
      PlaneMove catalog s (.server act) { s with
        net := { net with watch_s2a := s.net.watch_s2a, query_s2a := s.net.query_s2a }
        watches := (server_sends catalog s.net.server act).1
        queries := (server_sends catalog s.net.server act).2 }
  | send_watch (watch : ProbeWatchWire n) (rest : List (ProbeWatchWire n)) :
      s.watches = watch :: rest →
      PlaneMove catalog s .send_watch { s with
        net := { s.net with watch_s2a := Ring.push watch_buffer s.net.watch_s2a watch }
        watches := rest }
  | send_query (query : ProbeQueryWire n) (rest : List (ProbeQueryWire n)) : s.watches = [] →
      s.queries = query :: rest →
      PlaneMove catalog s .send_query { s with
        net := { s.net with query_s2a := Ring.push watch_buffer s.net.query_s2a query }
        queries := rest }
  | read_command (cmd : HostCommand n) (rest : List (HostCommand n)) (arbiter : Arbiter n)
      (out : List (ControlToNode n)) : s.controls = [] → s.commands = cmd :: rest →
      s.arbiter.act (.host cmd) = some (arbiter, out) →
      PlaneMove catalog s .read_command { s with
        arbiter := arbiter, commands := rest, controls := out }
  | forward_watch (watch : ProbeWatchWire n) (rest : List (ProbeWatchWire n))
      (arbiter : Arbiter n) (out : List (ControlToNode n)) : s.controls = [] →
      s.net.watch_s2a = watch :: rest →
      s.arbiter.act (.watch watch.board_hash watch.count watch.probe_ids) = some (arbiter, out) →
      PlaneMove catalog s .forward_watch { s with
        arbiter := arbiter, net := { s.net with watch_s2a := rest }, controls := out }
  | sync_begin (arbiter : Arbiter n) : s.controls = [] →
      PlaneMove catalog s .sync_begin { s with arbiter := arbiter, controls := [] }
  | sync_recv (i : Fin n) (r : Report) (arbiter : Arbiter n) :
      PlaneMove catalog s (.sync_recv i r) { s with arbiter := arbiter }
  | sync_finish (arbiter : Arbiter n) (out : List (ControlToNode n)) : s.controls = [] →
      s.arbiter.act .sync_finish = some (arbiter, out) →
      PlaneMove catalog s .sync_finish { s with arbiter := arbiter, controls := out }
  | send_control (msg : ControlToNode n) (rest : List (ControlToNode n)) :
      s.controls = msg :: rest →
      PlaneMove catalog s .send_control { s with
        net := { s.net with
          ctrl_a2n := ProbeNet.broadcast ProbeNet.a2n_buffer s.net.ctrl_a2n msg }
        controls := rest }
  | hub (act : HubAct n) (net : ProbeNet n) : (∀ msg, act ≠ .control msg) →
      act ≠ .forward_watch → s.net.hub_step act = some net →
      PlaneMove catalog s (.hub act) { s with net := net }
  | node (i : Fin n) (act : NodeProbeAct) (net : ProbeNet n) : s.net.node_step i act = some net →
      PlaneMove catalog s (.node i act) { s with net := net }

theorem arbiter_step_some {s s' : ControlPlane n} {act : Arbiter.Act n}
    (h : s.arbiter_step act = some s') :
    ∃ arbiter out, s.arbiter.act act = some (arbiter, out) ∧
      s' = { s with arbiter := arbiter, controls := out } := by
  obtain ⟨⟨arbiter, out⟩, hact, rfl⟩ := Option.map_eq_some_iff.mp h
  exact ⟨arbiter, out, hact, rfl⟩

theorem plane_move {catalog : ProbeCatalog n} {s s' : ControlPlane n} {act : PlaneAct n}
    (h : step catalog s act = some s') : PlaneMove catalog s act s' := by
  cases act with
  | command cmd =>
    simp only [step] at h
    split at h
    · cases h
      exact .command cmd
    · cases h
  | server act =>
    simp only [step] at h
    split at h
    · rename_i hwatches hqueries
      obtain ⟨net, hnet, rfl⟩ := Option.map_eq_some_iff.mp h
      exact .server act net hwatches hqueries hnet
    · cases h
  | send_watch =>
    simp only [step] at h
    split at h
    · rename_i watch rest hwatches
      cases h
      exact .send_watch watch rest hwatches
    · cases h
  | send_query =>
    simp only [step] at h
    split at h
    · rename_i query rest hwatches hqueries
      cases h
      exact .send_query query rest hwatches hqueries
    · cases h
  | read_command =>
    simp only [step] at h
    split at h
    · rename_i cmd rest hcontrols _ hcommands
      obtain ⟨arbiter, out, hact, rfl⟩ := arbiter_step_some h
      exact .read_command cmd rest arbiter out hcontrols hcommands hact
    · cases h
  | forward_watch =>
    simp only [step] at h
    split at h
    · rename_i watch rest hcontrols _ hqueue
      obtain ⟨arbiter, out, hact, rfl⟩ := arbiter_step_some h
      exact .forward_watch watch rest arbiter out hcontrols hqueue hact
    · cases h
  | sync_begin =>
    simp only [step] at h
    split at h
    · rename_i hcontrols _
      obtain ⟨arbiter, out, hact, rfl⟩ := arbiter_step_some h
      simp only [Arbiter.act] at hact
      split at hact
      · cases hact
        exact .sync_begin _ hcontrols
      · cases hact
    · cases h
  | sync_recv i r =>
    obtain ⟨arbiter, -, rfl⟩ := Option.map_eq_some_iff.mp h
    exact .sync_recv i r arbiter
  | sync_finish =>
    simp only [step] at h
    split at h
    · rename_i hcontrols
      obtain ⟨arbiter, out, hact, rfl⟩ := arbiter_step_some h
      exact .sync_finish arbiter out hcontrols hact
    · cases h
  | send_control =>
    simp only [step] at h
    split at h
    · rename_i msg rest hcontrols
      cases h
      exact .send_control msg rest hcontrols
    · cases h
  | hub act =>
    simp only [step] at h
    split at h
    · cases h
    · cases h
    · rename_i act _ _ _ _ _ hcontrol hwatch
      obtain ⟨net, hnet, rfl⟩ := Option.map_eq_some_iff.mp h
      refine .hub act net ?_ ?_ hnet
      · rintro msg rfl
        exact hcontrol msg rfl
      · rintro rfl
        exact hwatch rfl
    · cases h
  | node i act =>
    obtain ⟨net, hnet, rfl⟩ := Option.map_eq_some_iff.mp h
    exact .node i act net hnet

/-! ### Safety -/

theorem overwritten_control {s : ControlPlane n} :
    s.overwritten .send_control = [] ↔
      ∀ i, (Ring.dropped ProbeNet.a2n_buffer (s.net.ctrl_a2n i)).filter needed = [] := by
  simp only [overwritten, List.flatMap_eq_nil_iff, List.map_eq_nil_iff, List.mem_finRange,
    true_implies]

theorem overwritten_asked {s : ControlPlane n} :
    s.overwritten (.hub .forward_query) = [] ↔
      ∀ i, Ring.dropped watch_buffer (s.net.query_a2n i) = [] := by
  simp only [overwritten, List.flatMap_eq_nil_iff, List.map_eq_nil_iff, List.mem_finRange,
    true_implies]

/-- With room for what begins, a step loses nothing and leaves room for what is
    still to be sent. -/
theorem safe_move {catalog : ProbeCatalog n} {s s' : ControlPlane n} {act : PlaneAct n}
    (hs : Safe s) (hroom : Room catalog s act) (h : PlaneMove catalog s act s') :
    Safe s' ∧ s.overwritten act = [] := by
  cases h with
  | command cmd =>
    refine ⟨{ hs with commands := ?_ }, ?_⟩
    · show (Ring.push command_buffer s.commands cmd).length ≤ command_buffer
      rw [Ring.length_push_of_lt hroom]
      exact hroom
    · show (Ring.dropped command_buffer s.commands).map PlaneMsg.command = []
      rw [Ring.dropped_of_lt hroom, List.map_nil]
  | server act net hwatches hqueries hnet =>
    obtain ⟨hctrl, hasked⟩ := server_channels hnet
    refine ⟨⟨hs.commands, hroom.1, hroom.2, ?_, ?_⟩, rfl⟩
    · intro i
      show (net.ctrl_a2n i).length ≤ ProbeNet.a2n_buffer ∧ Spare (net.ctrl_a2n i) s.controls
      rw [hctrl]
      exact hs.controls i
    · intro i
      show (net.query_a2n i).length ≤ watch_buffer
      rw [hasked]
      exact hs.asked i
  | send_watch watch rest hwatches =>
    have hfits := hs.watches
    rw [hwatches, List.length_cons] at hfits
    have hfree : s.net.watch_s2a.length < watch_buffer := by omega
    refine ⟨{ hs with watches := ?_ }, ?_⟩
    · show (Ring.push watch_buffer s.net.watch_s2a watch).length + rest.length ≤ watch_buffer
      rw [Ring.length_push_of_lt hfree]
      omega
    · show (Ring.dropped watch_buffer s.net.watch_s2a).map PlaneMsg.watch = []
      rw [Ring.dropped_of_lt hfree, List.map_nil]
  | send_query query rest hwatches hqueries =>
    have hfits := hs.queries
    rw [hqueries, List.length_cons] at hfits
    have hfree : s.net.query_s2a.length < watch_buffer := by omega
    refine ⟨{ hs with queries := ?_ }, ?_⟩
    · show (Ring.push watch_buffer s.net.query_s2a query).length + rest.length ≤ watch_buffer
      rw [Ring.length_push_of_lt hfree]
      omega
    · show (Ring.dropped watch_buffer s.net.query_s2a).map PlaneMsg.query = []
      rw [Ring.dropped_of_lt hfree, List.map_nil]
  | read_command cmd rest arbiter out hcontrols hcommands hact =>
    -- `controls` was empty: what the arbiter publishes now is all of it.
    have hcmd : cmd ∈ s.commands.take 1 := by
      rw [hcommands]
      exact List.mem_singleton.mpr rfl
    have hshort := hs.commands
    rw [hcommands, List.length_cons] at hshort
    refine ⟨⟨?_, hs.watches, hs.queries, ?_, hs.asked⟩, rfl⟩
    · show rest.length ≤ command_buffer
      omega
    · intro i
      exact ⟨(hs.controls i).1, hroom cmd hcmd arbiter out hact i⟩
  | forward_watch watch rest arbiter out hcontrols hqueue hact =>
    have hwatch : watch ∈ s.net.watch_s2a.take 1 := by
      rw [hqueue]
      exact List.mem_singleton.mpr rfl
    have hshort := hs.watches
    rw [hqueue, List.length_cons] at hshort
    refine ⟨⟨hs.commands, ?_, hs.queries, ?_, hs.asked⟩, rfl⟩
    · show rest.length + s.watches.length ≤ watch_buffer
      omega
    · intro i
      exact ⟨(hs.controls i).1, hroom watch hwatch arbiter out hact i⟩
  | sync_begin arbiter hcontrols =>
    refine ⟨{ hs with controls := ?_ }, rfl⟩
    intro i
    exact ⟨(hs.controls i).1, spare_nil (hs.controls i).1⟩
  | sync_recv i r arbiter => exact ⟨{ hs with }, rfl⟩
  | sync_finish arbiter out hcontrols hact =>
    refine ⟨{ hs with controls := ?_ }, rfl⟩
    intro i
    exact ⟨(hs.controls i).1, hroom arbiter out hact i⟩
  | send_control msg rest hcontrols =>
    -- Every node has a queue of its own, and they differ in what is left.
    have hspare : ∀ i, Spare (s.net.ctrl_a2n i) (msg :: rest) := by
      intro i
      rw [← hcontrols]
      exact (hs.controls i).2
    refine ⟨{ hs with controls := ?_ }, ?_⟩
    · intro i
      refine ⟨?_, ((spare_cons (hs.controls i).1).mp (hspare i)).2⟩
      exact Ring.length_push_le (by decide) (hs.controls i).1
    · rw [overwritten_control]
      intro i
      exact ((spare_cons (hs.controls i).1).mp (hspare i)).1
  | hub act net hcontrol hwatch hnet =>
    -- Queries move from one channel to those of the nodes; nothing else that
    -- counts is touched.
    obtain ⟨hwatches, hctrl, hqueries, hasked⟩ := hub_channels hnet hcontrol hwatch
    have hshort := hqueries.length_le
    have hsafe : ∀ hq : ∀ i, (net.query_a2n i).length ≤ watch_buffer,
        Safe { s with net := net } := by
      intro hq
      refine ⟨hs.commands, ?_, ?_, ?_, hq⟩
      · show net.watch_s2a.length + s.watches.length ≤ watch_buffer
        rw [hwatches]
        exact hs.watches
      · have hfits := hs.queries
        show net.query_s2a.length + s.queries.length ≤ watch_buffer
        omega
      · intro i
        show (net.ctrl_a2n i).length ≤ ProbeNet.a2n_buffer ∧ Spare (net.ctrl_a2n i) s.controls
        rw [hctrl]
        exact hs.controls i
    rcases hasked with ⟨hother, hasked⟩ | ⟨query, rfl, hasked⟩
    · constructor
      · apply hsafe
        rw [hasked]
        exact hs.asked
      · cases act <;> first | rfl | exact absurd rfl hother
    · constructor
      · apply hsafe
        intro i
        rw [hasked]
        show (Ring.push watch_buffer (s.net.query_a2n i) query).length ≤ watch_buffer
        rw [Ring.length_push_of_lt (hroom i)]
        exact hroom i
      · rw [overwritten_asked]
        intro i
        exact Ring.dropped_of_lt (hroom i)
  | node i act net hnet =>
    obtain ⟨hwatches, hqueries, hctrl, hasked⟩ := node_channels hnet
    refine ⟨⟨hs.commands, ?_, ?_, ?_, ?_⟩, rfl⟩
    · show net.watch_s2a.length + s.watches.length ≤ watch_buffer
      rw [hwatches]
      exact hs.watches
    · show net.query_s2a.length + s.queries.length ≤ watch_buffer
      rw [hqueries]
      exact hs.queries
    · intro j
      exact ⟨le_trans (hctrl j).length_le (hs.controls j).1, (hctrl j).spare (hs.controls j).2⟩
    · intro j
      exact le_trans (hasked j).length_le (hs.asked j)

theorem safe_init {catalog : ProbeCatalog n} {s : ControlPlane n} (h : Initial catalog s) :
    Safe s := by
  obtain ⟨hwatches, hqueries, hcontrols⟩ := h.idle
  constructor
  · rw [h.commands_eq]
    exact Nat.zero_le _
  · rw [h.net.watch_eq, hwatches]
    exact Nat.zero_le _
  · rw [h.net.query_s2a_eq, hqueries]
    exact Nat.zero_le _
  · intro i
    rw [hcontrols]
    exact ⟨h.buffered i, spare_nil (h.buffered i)⟩
  · intro i
    rw [h.net.query_a2n_eq i]
    exact Nat.zero_le _

/-- `Safe`, and nothing has been lost. -/
def Whole (s : ControlPlane n × List (PlaneMsg n)) : Prop := Safe s.1 ∧ s.2 = []

theorem whole_step (catalog : ProbeCatalog n) :
    Inductive (lossy catalog) (fun s act => Room catalog s.1 act) Whole := by
  rintro s act s' ⟨hs, hlost⟩ hroom hstep
  obtain ⟨hmove, hlog⟩ := System.logged_step_cases hstep
  obtain ⟨hsafe, hkept⟩ := safe_move hs hroom (plane_move hmove)
  exact ⟨hsafe, by rw [hlog, hlost, hkept, List.append_nil]⟩

/-! ### The sends of an operation -/

/-- The sends that an operation goes on with. -/
def publishes : PlaneAct n → Bool
  | .send_watch => true
  | .send_query => true
  | .send_control => true
  | _ => false

/-- Nothing is lost if all readers pause until everything has been sent. -/
def Kept (catalog : ProbeCatalog n) (s : ControlPlane n × List (PlaneMsg n)) : Prop :=
  ∀ t, Path (lossy catalog) (fun _ act => publishes act) s t → t.2 = []

theorem Whole.kept {catalog : ProbeCatalog n} {s : ControlPlane n × List (PlaneMsg n)}
    (h : Whole s) : Kept catalog s := by
  intro t hpath
  have hroom : Path (lossy catalog) (fun s act => Room catalog s.1 act) s t := by
    refine hpath.mono ?_
    intro s act hact
    cases act <;> trivial
  exact (hroom.invariant (whole_step catalog) h).2

section kept

variable {catalog : ProbeCatalog n} {s s' : ControlPlane n} {lost : List (PlaneMsg n)}

theorem lossy_step {act : PlaneAct n} (h : step catalog s act = some s') :
    (lossy catalog).step (s, lost) act = some (s', lost ++ s.overwritten act) := by
  show (step catalog s act).map _ = _
  rw [h]
  rfl

theorem Kept.lost_eq (h : Kept catalog (s, lost)) : lost = [] := h _ (.refl _)

theorem Kept.step {act : PlaneAct n} (h : Kept catalog (s, lost))
    (hstep : step catalog s act = some s') (hact : publishes act = true) :
    Kept catalog (s', lost ++ s.overwritten act) ∧ s.overwritten act = [] := by
  have hnext : Kept catalog (s', lost ++ s.overwritten act) := by
    intro t hpath
    have hone : Path (lossy catalog) (fun _ act => publishes act) (s, lost)
        (s', lost ++ s.overwritten act) := .single hact (lossy_step hstep)
    exact h t (hone.trans hpath)
  exact ⟨hnext, (List.append_eq_nil_iff.mp hnext.lost_eq).2⟩

/-- All watches fit. -/
theorem Kept.watches {watches : List (ProbeWatchWire n)} (h : Kept catalog (s, lost))
    (hwatches : s.watches = watches) (hshort : s.net.watch_s2a.length ≤ watch_buffer) :
    s.net.watch_s2a.length + watches.length ≤ watch_buffer ∧
      ∃ t lost', Kept catalog (t, lost') ∧ t.watches = [] ∧ t.queries = s.queries ∧
        t.net.query_s2a = s.net.query_s2a := by
  induction watches generalizing s lost with
  | nil => exact ⟨hshort, s, lost, h, hwatches, rfl, rfl⟩
  | cons watch rest ih =>
    have hstep : ControlPlane.step catalog s .send_watch = some { s with
        net := { s.net with watch_s2a := Ring.push watch_buffer s.net.watch_s2a watch }
        watches := rest } := by
      simp only [ControlPlane.step, hwatches]
    obtain ⟨hnext, hnone⟩ := h.step hstep rfl
    have hfree : s.net.watch_s2a.length < watch_buffer :=
      Ring.lt_of_dropped (by decide) (List.map_eq_nil_iff.mp hnone)
    obtain ⟨hfits, t, lost', ht⟩ := ih hnext rfl (Ring.length_push_le (by decide) hshort)
    rw [Ring.length_push_of_lt hfree] at hfits
    refine ⟨?_, t, lost', ht⟩
    rw [List.length_cons]
    omega

/-- All queries fit, once the watches are sent. -/
theorem Kept.queries {queries : List (ProbeQueryWire n)} (h : Kept catalog (s, lost))
    (hwatches : s.watches = []) (hqueries : s.queries = queries)
    (hshort : s.net.query_s2a.length ≤ watch_buffer) :
    s.net.query_s2a.length + queries.length ≤ watch_buffer := by
  induction queries generalizing s lost with
  | nil => exact hshort
  | cons query rest ih =>
    have hstep : ControlPlane.step catalog s .send_query = some { s with
        net := { s.net with query_s2a := Ring.push watch_buffer s.net.query_s2a query }
        queries := rest } := by
      simp only [ControlPlane.step, hwatches, hqueries]
    obtain ⟨hnext, hnone⟩ := h.step hstep rfl
    have hfree : s.net.query_s2a.length < watch_buffer :=
      Ring.lt_of_dropped (by decide) (List.map_eq_nil_iff.mp hnone)
    have hfits := ih hnext hwatches rfl (Ring.length_push_le (by decide) hshort)
    rw [Ring.length_push_of_lt hfree] at hfits
    rw [List.length_cons]
    omega

/-- The control messages fit, up to some that are not needed. -/
theorem Kept.controls {controls : List (ControlToNode n)} (h : Kept catalog (s, lost))
    (hcontrols : s.controls = controls)
    (hshort : ∀ i, (s.net.ctrl_a2n i).length ≤ ProbeNet.a2n_buffer) (i : Fin n) :
    Spare (s.net.ctrl_a2n i) controls := by
  induction controls generalizing s lost with
  | nil => exact spare_nil (hshort i)
  | cons msg rest ih =>
    have hstep : ControlPlane.step catalog s .send_control = some { s with
        net := { s.net with
          ctrl_a2n := ProbeNet.broadcast ProbeNet.a2n_buffer s.net.ctrl_a2n msg }
        controls := rest } := by
      simp only [ControlPlane.step, hcontrols]
    obtain ⟨hnext, hnone⟩ := h.step hstep rfl
    have hshort' : ∀ j, (Ring.push ProbeNet.a2n_buffer (s.net.ctrl_a2n j) msg).length ≤
        ProbeNet.a2n_buffer := by
      intro j
      exact Ring.length_push_le (by decide) (hshort j)
    have hrest := ih hnext rfl hshort'
    exact (spare_cons (hshort i)).mpr ⟨overwritten_control.mp hnone i, hrest⟩

/-- What begins without room loses a message while the readers pause. -/
theorem Kept.room {act : PlaneAct n} (hs : Safe s) (hmove : PlaneMove catalog s act s')
    (h : Kept catalog (s', lost ++ s.overwritten act)) : Room catalog s act := by
  have hnone := (List.append_eq_nil_iff.mp h.lost_eq).2
  cases hmove with
  | command cmd => exact Ring.lt_of_dropped (by decide) (List.map_eq_nil_iff.mp hnone)
  | server act net hwatches hqueries hnet =>
    have hshort : s.net.watch_s2a.length ≤ watch_buffer :=
      le_trans (Nat.le_add_right _ _) hs.watches
    -- The watches are sent first, and the queries wait.
    obtain ⟨hfits, t, lost', ht, hsent, hleft, hqueue⟩ := h.watches rfl hshort
    refine ⟨hfits, ?_⟩
    have hshort : t.net.query_s2a.length ≤ watch_buffer := by
      rw [hqueue]
      exact le_trans (Nat.le_add_right _ _) hs.queries
    have hfits := ht.queries hsent hleft hshort
    rw [hqueue] at hfits
    exact hfits
  | read_command cmd rest arbiter out hcontrols hcommands hact =>
    intro cmd' hcmd arbiter' out' hact' i
    rw [hcommands] at hcmd
    obtain rfl := List.mem_singleton.mp hcmd
    obtain ⟨rfl, rfl⟩ := Prod.mk.inj (Option.some.inj (hact.symm.trans hact'))
    exact h.controls rfl (fun j => (hs.controls j).1) i
  | forward_watch watch rest arbiter out hcontrols hqueue hact =>
    intro watch' hwatch arbiter' out' hact' i
    rw [hqueue] at hwatch
    obtain rfl := List.mem_singleton.mp hwatch
    obtain ⟨rfl, rfl⟩ := Prod.mk.inj (Option.some.inj (hact.symm.trans hact'))
    exact h.controls rfl (fun j => (hs.controls j).1) i
  | sync_finish arbiter out hcontrols hact =>
    intro arbiter' out' hact' i
    obtain ⟨rfl, rfl⟩ := Prod.mk.inj (Option.some.inj (hact.symm.trans hact'))
    exact h.controls rfl (fun j => (hs.controls j).1) i
  | hub act net hcontrol hwatch hnet =>
    cases act with
    | forward_query =>
      intro i
      exact Ring.lt_of_dropped (by decide) (overwritten_asked.mp hnone i)
    | _ => trivial
  | send_watch => trivial
  | send_query => trivial
  | sync_begin => trivial
  | sync_recv => trivial
  | send_control => trivial
  | node => trivial

end kept

/-- While every operation begins with room for all that it sends, no message is
    overwritten before it is read, however slow the readers are; and an
    operation that begins without that room loses one if the readers pause. -/
theorem keeps_messages {catalog : ProbeCatalog n} {s : ControlPlane n × List (PlaneMsg n)}
    (h : Reachable (lossy catalog) (fun s act => Room catalog s.1 act) s) :
    s.2 = [] ∧ ∀ act s', (lossy catalog).step s act = some s' →
      (Room catalog s.1 act ↔ Kept catalog s') := by
  have hwhole : Whole s :=
    h.invariant (fun s hi => ⟨safe_init hi.1, hi.2⟩) (whole_step catalog)
  refine ⟨hwhole.2, ?_⟩
  intro act s' hstep
  obtain ⟨hmove, hlog⟩ := System.logged_step_cases hstep
  constructor
  · -- The room of an operation covers all its sends.
    intro hroom
    exact (whole_step catalog s act s' hwhole hroom hstep).kept
  · -- One send after the other finds a place, so there was room for all.
    intro hkept
    have heq : s' = (s'.1, s.2 ++ s.1.overwritten act) := Prod.ext rfl hlog
    rw [heq] at hkept
    exact hkept.room hwhole.1 (plane_move hmove)

/-- The control plane before the first operation, with empty logs. -/
def ready (catalog : ProbeCatalog n) : ControlPlane n where
  arbiter := .new n 1000
  commands := []
  net := .start fun i => .filled (catalog.of_board i) []
  watches := []
  queries := []
  controls := []

theorem initial_ready (catalog : ProbeCatalog n) : Initial catalog (ready catalog) := by
  have hlog : ∀ i, (ProbeLog.filled (catalog.of_board i) []).Quiet ∧
      (ProbeLog.filled (catalog.of_board i) []).history = [] ∧
      (ProbeLog.filled (catalog.of_board i) []).catalog = catalog.of_board i := by
    intro i
    refine ProbeLog.quiet_filled ?_ nofun
    unfold ProbeCatalog.of_board
    rw [List.map_map]
    exact (catalog.points.filter_sublist.map _).nodup catalog.nodup
  refine ⟨⟨1000, rfl⟩, rfl, ProbeNet.ready_start (fun i => (hlog i).1) fun i => (hlog i).2.2, ?_,
    ?_, rfl, rfl, rfl⟩
  · intro i msg hmsg
    cases hmsg
  · intro i
    exact Nat.zero_le _

/-- A start of one board, read by the arbiter and not sent yet. -/
theorem keeps_messages_start :
    ∃ s, Reachable (lossy ProbeNet.uart_catalog)
        (fun s act => Room ProbeNet.uart_catalog s.1 act) s ∧
      s.1.controls = [.Start 1000] ∧
      s.2 = [] ∧ ∀ act s', (lossy ProbeNet.uart_catalog).step s act = some s' →
        (Room ProbeNet.uart_catalog s.1 act ↔ Kept ProbeNet.uart_catalog s') := by
  have hready : Reachable (lossy ProbeNet.uart_catalog)
      (fun s act => Room ProbeNet.uart_catalog s.1 act) (ready ProbeNet.uart_catalog, []) :=
    .init ⟨initial_ready _, rfl⟩
  have hfits : Room ProbeNet.uart_catalog (ready ProbeNet.uart_catalog)
      (.command (.Start none)) := by
    show 0 + 1 ≤ command_buffer
    decide
  have hqueued := hready.step (.command (.Start none)) hfits rfl
  have hread := hqueued.step .read_command (by
    intro cmd hcmd arbiter out hact i
    obtain rfl := List.mem_singleton.mp hcmd
    obtain ⟨-, rfl⟩ := Prod.mk.inj (Option.some.inj hact)
    exact nofun) rfl
  exact ⟨_, hread, rfl, keeps_messages hread⟩

/-- 33 boards, and a probe of the first one. -/
def row_catalog : ProbeCatalog 33 where
  points := [⟨1, 0, 7, .Uart, one_lt_u64⟩]
  nodup := by decide
  boards := by decide

/-- A watch of the probe is one message for every board, and the message with
    the probe is overwritten by the last one. -/
theorem watch_overwritten :
    (plant_row 33).validate (fun _ => .ok ()) = .ok () ∧ (plant_row 33).boards.length = 33 ∧
      ∃ s, Reachable (lossy row_catalog) (fun _ _ => True) s ∧
        s.2 = [.watch (.new 0 [1])] := by
  have hinit : (lossy row_catalog).init (ready row_catalog, []) :=
    ⟨initial_ready row_catalog, rfl⟩
  refine ⟨plant_row_valid (by decide), rfl, ?_⟩
  exact Reachable.exists_of_exec
    (.server (.put_watch [⟨0, 7⟩]) :: List.replicate 33 .send_watch) hinit (by decide +kernel)

end ControlPlane

end Rl78Sim
