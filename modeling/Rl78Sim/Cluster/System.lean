import Rl78Sim.Framework.Star
import Rl78Sim.Cluster.ArbiterSteps
import Rl78Sim.Cluster.NodeSteps

/-! # The Cluster

    The arbiter is the hub of a star and the nodes are its spokes; the edges of
    the data plane are what the spokes share. Control channels are reliable
    and first-in first-out for each subscriber, and a message may stay in
    flight for any time.
-/

namespace Rl78Sim

open Transition

variable {n m : Nat} {E F : Type} [Entity E F]

/-- The state of a cluster. -/
abbrev Cluster (n m : Nat) (E F : Type) :=
  Star.Net (Fin n) (Arbiter n) (Node m E F) (Lanes m F) (ControlToNode n) Report

/-- A step of a cluster. -/
abbrev Step (n : Nat) := Star.Label (Fin n) (Arbiter.Act n) Node.Act Node.Take

/-- The local steps of the arbiter and of the nodes. -/
def protocol (cfg : Config n m) :
    Star.Protocol (Fin n) (Arbiter n) (Node m E F) (Lanes m F) (ControlToNode n) Report
      (Arbiter.Act n) Node.Act Node.Take where
  hub_act l a := a.act l
  hub_take i r a := a.sync_recv i r
  spoke_act i l lanes nd := nd.act cfg i lanes l
  spoke_take i t msg lanes nd := nd.take cfg i t msg lanes

/-! ### Initial states -/

/-- A node that has sent `Ready`. Its ports were cleared after the reset. -/
structure Node.Initial (cfg : Config n m) (nd : Node m E F) : Prop where
  state_eq : nd.state = .Stopped
  thr_eq : nd.headroom_threshold_ns = cfg.headroom_threshold_ns
  allowed_ns_eq : nd.allowed_ns = 0
  last_eq : nd.last_time_report = none
  pc_eq : nd.pc = .drain
  handled_eq : nd.handled = 0
  sim_eq : nd.sim = Simulator.new nd.sim.entity
  now_eq : nd.sim.now = 0
  ports_eq : Entity.ports nd.sim.entity = OutPorts.empty

/-- The cluster right after the Ready barrier. Startup records and their
    answers may still be in flight. -/
structure Initial (cfg : Config n m) (s : Cluster n m E F) : Prop where
  hub_eq : s.hub = Arbiter.new n cfg.margin_ns
  spoke (i : Fin n) : (s.spoke i).Initial cfg
  down (i : Fin n) : ∀ msg ∈ s.down i,
    msg = .StartupRecord cfg.margin_ns cfg.headroom_threshold_ns
  up (i : Fin n) : ∀ r ∈ s.up i, r = ⟨.Ready, 0⟩
  env_eq : ∀ e, s.env e = Lane.empty

/-- A node of the freshly started cluster, around its entity. -/
def Node.boot (cfg : Config n m) (entity : E) (has_inspect has_actions : Bool) :
    Node m E F where
  sim := Simulator.new entity
  state := .Stopped
  headroom_threshold_ns := cfg.headroom_threshold_ns
  allowed_ns := 0
  last_time_report := none
  has_inspect := has_inspect
  has_actions := has_actions
  pending_actions := []
  pc := .drain
  handled := 0

/-- The freshly started cluster with these entities and no message in flight. -/
def boot (cfg : Config n m) (entity : Fin n → E) : Cluster n m E F where
  hub := Arbiter.new n cfg.margin_ns
  spoke i := Node.boot cfg (entity i) true true
  down _ := []
  up _ := []
  env _ := Lane.empty

theorem boot_initial (cfg : Config n m) (entity : Fin n → E)
    (hnow : ∀ i, Entity.now (entity i) = 0)
    (hports : ∀ i, Entity.ports (entity i) = OutPorts.empty) :
    Initial cfg (boot cfg entity : Cluster n m E F) where
  hub_eq := rfl
  spoke i := ⟨rfl, rfl, rfl, rfl, rfl, rfl, rfl, hnow i, hports i⟩
  down _ _ h := by cases h
  up _ _ h := by cases h
  env_eq _ := rfl

/-- The cluster as a transition system. -/
def system (cfg : Config n m) : System (Cluster n m E F) (Step n) :=
  (protocol cfg).system (Initial cfg)

/-! ### Host commands in a run -/

/-- The step handles a gdb step command. -/
def is_gdb_step : Step n → Bool
  | .hub (.host (.Step _)) => true
  | _ => false

/-- The step handles a reset command. -/
def is_reset : Step n → Bool
  | .hub (.host .Reset) => true
  | _ => false

/-- Runs without gdb steps. -/
def NoGdbStep (_ : Cluster n m E F) (l : Step n) : Prop := is_gdb_step l = false

instance (s : Cluster n m E F) (l : Step n) : Decidable (NoGdbStep s l) :=
  inferInstanceAs (Decidable (is_gdb_step l = false))

/-- All runs. -/
def AnyRun (_ : Cluster n m E F) (_ : Step n) : Prop := True

instance (s : Cluster n m E F) (l : Step n) : Decidable (AnyRun s l) := .isTrue trivial

/-! ### Well-formed nodes -/

/-- What holds of every node at every moment: a running node's simulator takes
    whole quanta and obeys the node's ceiling. -/
structure Node.Wf (nd : Node m E F) : Prop where
  live : nd.Live
  step_once : nd.state = .Running → nd.sim.step_once = false
  allowed : nd.state = .Running → nd.sim.allowed = some nd.allowed_ns
  guest_running : NodePc.guest nd.pc = true → nd.state = .Running

theorem Node.Initial.wf {cfg : Config n m} {nd : Node m E F} (h : nd.Initial cfg) : nd.Wf := by
  refine ⟨⟨?_, ?_⟩, fun hr => ?_, fun hr => ?_, fun hg => ?_⟩
  · rw [h.state_eq]; decide
  · rw [h.sim_eq]; simp [Simulator.new]
  · rw [h.state_eq] at hr; cases hr
  · rw [h.state_eq] at hr; cases hr
  · rw [h.pc_eq] at hg; cases hg

namespace Node

theorem Quiet.live {nd nd' : Node m E F} (h : Quiet nd nd') (hlive : nd.Live) : nd'.Live :=
  ⟨by rw [h.state_eq]; exact hlive.started, by rw [h.sim_state_eq]; exact hlive.not_quit⟩

theorem Quiet.wf {nd nd' : Node m E F} (h : Quiet nd nd') (hwf : nd.Wf)
    (hguest : NodePc.guest nd'.pc = true → nd'.state = .Running) : nd'.Wf := by
  refine ⟨h.live hwf.live, fun hr => ?_, fun hr => ?_, hguest⟩
  · rw [h.step_once_eq]
    exact hwf.step_once (h.state_eq ▸ hr)
  · rw [h.allowed_eq, h.allowed_ns_eq]
    exact hwf.allowed (h.state_eq ▸ hr)

omit [Entity E F] in
/-- A node polls only while it is running. -/
theorem Wf.running_of_poll {nd : Node m E F} (h : nd.Wf) (hpc : nd.pc = .poll) :
    nd.state = .Running :=
  h.guest_running (by rw [hpc]; rfl)

theorem Acted.wf {nd nd' : Node m E F} {l : Act} {msgs : List ControlToArbiter}
    (h : Acted nd l nd' msgs) (hwf : nd.Wf) : nd'.Wf := by
  cases h with
  | quiet _ _ hquiet hguest =>
    refine hquiet.wf hwf fun hg => ?_
    rw [hquiet.state_eq]
    exact (hguest hg).elim hwf.guest_running id
  | polled fuel sim rsp last _ msgs hpc hrun hwait hpoll hspec hrep hquiet =>
    have hstate := hwf.running_of_poll hpc
    have hlive : ({ nd with sim := sim, last_time_report := last } : Node m E F).Live := by
      refine ⟨hwf.live.started, ?_⟩
      cases hspec.outcome with
      | running hs => dsimp only; rw [hs]; decide
      | stopped _ hs => dsimp only; rw [hs]; decide
      | failed _ hs => dsimp only; rw [hs]; decide
    have honce : sim.step_once = false := by
      cases hspec.outcome with
      | running _ ho => rw [ho]; exact hwf.step_once hstate
      | stopped _ _ ho => exact ho
      | failed _ _ ho => exact ho
    refine hquiet.wf ⟨hlive, fun _ => honce, fun hr => ?_, fun _ => hstate⟩
      (fun _ => hquiet.state_eq.trans hstate)
    exact hspec.allowed_eq.trans (hwf.allowed hr)

omit [Entity E F] in
/-- Halting does not make a simulator quit. -/
theorem halt_not_quit {nd : Node m E F} {sim : Simulator E} (h : sim.state ≠ .Quit) :
    (nd.halt_if_running sim).state ≠ .Quit := by
  unfold halt_if_running
  split
  · simp
  · exact h

theorem Took.wf {i : Fin n} {nd nd' : Node m E F} {msg : ControlToNode n}
    {msgs : List ControlToArbiter} (h : Took i nd msg nd' msgs) (hpc : nd.pc = .drain)
    (hwf : nd.Wf) : nd'.Wf := by
  have hdrain {pc : NodePc m F} (hpc : pc = .drain) {p : Prop} :
      NodePc.guest pc = true → p := fun hg => by rw [hpc] at hg; cases hg
  cases h with
  | startup => exact ⟨⟨hwf.live.1, hwf.live.2⟩, hwf.2, hwf.3, hdrain hpc⟩
  | start a =>
    unfold started
    by_cases hrun : nd.state = .Running
    · rw [if_pos hrun]
      exact ⟨⟨by simp, hwf.live.2⟩, fun _ => hwf.step_once hrun, fun _ => rfl, hdrain hpc⟩
    · rw [if_neg hrun]
      exact ⟨⟨by simp, by simp⟩, fun _ => rfl, fun _ => rfl, hdrain hpc⟩
  | allowed a => exact ⟨⟨hwf.live.1, hwf.live.2⟩, hwf.2, fun _ => rfl, hdrain hpc⟩
  | cluster_stop reason =>
    exact ⟨⟨by simp, halt_not_quit hwf.live.2⟩, by simp, by simp, hdrain hpc⟩
  | reset hs =>
    exact ⟨⟨hwf.live.1, hwf.live.2⟩, hwf.2, hwf.3, hdrain hpc⟩
  | reset_ignored => exact hwf
  | watch => exact hwf
  | gdb_other => exact ⟨⟨by simp, halt_not_quit hwf.live.2⟩, by simp, by simp, hdrain hpc⟩
  | gdb_step nd₁ msgs hstep =>
    have hpc₁ : nd₁.pc = .drain := by cases hstep <;> exact hpc
    exact ⟨⟨by simp, halt_not_quit hstep.keeps.2⟩, by simp, by simp, hdrain hpc₁⟩

end Node

/-! ### Clocks only move forward -/

namespace Node

theorem Quiet.now {nd nd' : Node m E F} (h : Quiet nd nd') : nd'.now = nd.now := h.now_eq

theorem Acted.now_le {nd nd' : Node m E F} {l : Act} {msgs : List ControlToArbiter}
    (h : Acted nd l nd' msgs) : nd.now ≤ nd'.now := by
  cases h with
  | quiet _ _ hquiet => exact Nat.le_of_eq hquiet.now.symm
  | polled _ sim _ last _ _ _ _ _ _ hspec _ hquiet =>
    exact hquiet.now ▸ hspec.now_le

/-- Halting or starting the simulator takes no virtual time. -/
theorem halt_now (nd : Node m E F) (sim : Simulator E) :
    (nd.halt_if_running sim).now = sim.now := by
  unfold halt_if_running
  split <;> rfl

theorem started_now (nd : Node m E F) (a : Nat) : (nd.started a).now = nd.sim.now := by
  unfold started
  split <;> rfl

theorem Stepped.now_le {nd nd' : Node m E F} {msgs : List ControlToArbiter}
    (h : Stepped nd nd' msgs) : nd.now ≤ nd'.now := by
  cases h with
  | stopped _ _ _ hspec => exact hspec.now_le
  | silent _ _ hspec => exact hspec.now_le

theorem Took.now_le [LawfulEntity E] {i : Fin n} {nd nd' : Node m E F} {msg : ControlToNode n}
    {msgs : List ControlToArbiter} (h : Took i nd msg nd' msgs) : nd.now ≤ nd'.now := by
  cases h with
  | start a => exact Nat.le_of_eq (started_now nd a).symm
  | cluster_stop => exact Nat.le_of_eq (halt_now nd nd.sim).symm
  | reset =>
    exact Nat.le_of_eq (LawfulEntity.reset_timeless nd.sim.entity).now_eq.symm
  | gdb_other => exact Nat.le_of_eq (halt_now nd nd.sim).symm
  | gdb_step nd₁ _ hstep =>
    exact Nat.le_trans hstep.now_le (Nat.le_of_eq (halt_now nd nd₁.sim).symm)
  | _ => exact Nat.le_refl _

end Node

/-! ### Inversion of a cluster step -/

/-- All nodes are well formed, and all peers are past the Ready barrier. -/
structure ClusterWf (s : Cluster n m E F) : Prop where
  node (i : Fin n) : (s.spoke i).Wf
  peer (i : Fin n) : s.hub.peers i ≠ .AwaitingReady

/-- All that a step of the cluster can do. -/
inductive Moved (cfg : Config n m) (s : Cluster n m E F) : Step n → Cluster n m E F → Prop where
  | hub (l : Arbiter.Act n) (a : Arbiter n) (out : List (ControlToNode n)) :
      s.hub.Effect l a out →
      Moved cfg s (.hub l) { s with hub := a, down := fun i => s.down i ++ out }
  | deliver (i : Fin n) (r : Report) (rest : List Report) (a : Arbiter n) :
      s.up i = r :: rest → s.hub.Recv i r.handled r.msg a →
      Moved cfg s (.deliver i) { s with hub := a, up := Function.update s.up i rest }
  | act (i : Fin n) (l : Node.Act) (lanes : Lanes m F) (nd : Node m E F)
      (msgs : List ControlToArbiter) :
      (s.spoke i).act cfg i s.env l = some (lanes, nd, nd.stamp msgs) →
      (s.spoke i).Acted l nd msgs →
      Moved cfg s (.spoke i l) (s.move i lanes nd (s.down i) (nd.stamp msgs))
  | take (i : Fin n) (t : Node.Take) (msg : ControlToNode n) (rest : List (ControlToNode n))
      (lanes : Lanes m F) (nd : Node m E F) (msgs : List ControlToArbiter) :
      s.down i = msg :: rest →
      (s.spoke i).take cfg i t msg s.env = some (lanes, nd, nd.stamp msgs) →
      (s.spoke i).pc = .drain → (s.spoke i).Took i msg nd msgs →
      Moved cfg s (.take i t) (s.move i lanes nd rest (nd.stamp msgs))

variable [LawfulEntity E]

theorem step_moved {cfg : Config n m} {s s' : Cluster n m E F} {l : Step n}
    (hwf : ClusterWf s) (h : (system cfg).step s l = some s') : Moved cfg s l s' := by
  rcases (protocol cfg).step_cases h with ⟨a, hub, out, rfl, hact, rfl⟩ |
    ⟨i, msg, rest, hub, rfl, hup, htake, rfl⟩ | ⟨i, a, env, sp, out, rfl, hact, rfl⟩ |
    ⟨i, a, msg, rest, env, sp, out, rfl, hdown, htake, rfl⟩
  · exact .hub a hub out (Arbiter.act_effect hact)
  · exact .deliver i msg rest hub hup (Arbiter.sync_recv_cases (hwf.peer i) htake)
  · have hact : (s.spoke i).act cfg i s.env a = some (env, sp, out) := hact
    obtain ⟨msgs, rfl, hacted⟩ := Node.act_cases hact
    exact .act i a env sp msgs hact hacted
  · have htake : (s.spoke i).take cfg i a msg s.env = some (env, sp, out) := htake
    obtain ⟨hpc, msgs, rfl, htook⟩ := Node.take_cases (hwf.node i).live htake
    exact .take i a msg rest env sp msgs hdown htake hpc htook

theorem inductive_clusterWf {cfg : Config n m} {ok : Guard (Cluster n m E F) (Step n)} :
    Inductive (system cfg) ok ClusterWf := by
  intro s l s' hwf _ hstep
  cases step_moved hwf hstep with
  | hub _ _ _ heff => exact ⟨hwf.node, heff.peers_ready hwf.peer⟩
  | deliver _ _ _ _ _ hrecv => exact ⟨hwf.node, hrecv.peers_ready hwf.peer⟩
  | act i _ _ nd _ _ hacted =>
    refine ⟨fun j => ?_, hwf.peer⟩
    by_cases hj : j = i
    · subst hj
      simpa using hacted.wf (hwf.node j)
    · rw [Star.Net.move_spoke_ne _ _ _ _ _ hj]
      exact hwf.node j
  | take i _ _ _ _ nd _ _ _ hpc htook =>
    refine ⟨fun j => ?_, hwf.peer⟩
    by_cases hj : j = i
    · subst hj
      simpa using htook.wf hpc (hwf.node j)
    · rw [Star.Net.move_spoke_ne _ _ _ _ _ hj]
      exact hwf.node j

omit [LawfulEntity E] in
theorem Initial.wf {cfg : Config n m} {s : Cluster n m E F} (h : Initial cfg s) : ClusterWf s :=
  ⟨fun i => (h.spoke i).wf, fun i => by rw [h.hub_eq]; simp [Arbiter.new]⟩

/-- Reachable states are well formed. -/
theorem wf_of_reachable {cfg : Config n m} {ok : Guard (Cluster n m E F) (Step n)}
    {s : Cluster n m E F} (h : Reachable (system cfg) ok s) : ClusterWf s :=
  h.invariant (fun _ (hi : Initial cfg _) => hi.wf) inductive_clusterWf

/-- An invariant may be proved for steps between well-formed nodes only. -/
theorem invariant_of_moved {cfg : Config n m} {ok : Guard (Cluster n m E F) (Step n)}
    {Inv : Cluster n m E F → Prop} (hinit : ∀ s, Initial cfg s → Inv s)
    (hmoved : ∀ s l s', Inv s → ClusterWf s → ok s l → Moved cfg s l s' → Inv s')
    {s : Cluster n m E F} (h : Reachable (system cfg) ok s) : Inv s :=
  (h.strengthen fun _ => wf_of_reachable).invariant hinit
    fun s l s' hs hok hstep => hmoved s l s' hs hok.2 hok.1 (step_moved hok.2 hstep)

/-- The same along a path. -/
theorem path_invariant_of_moved {cfg : Config n m} {ok : Guard (Cluster n m E F) (Step n)}
    {Inv : Cluster n m E F → Prop}
    (hmoved : ∀ s l s', Inv s → ClusterWf s → ok s l → Moved cfg s l s' → Inv s')
    {s t : Cluster n m E F} (h : Path (system cfg) ok s t) (hwf : ClusterWf s) (hs : Inv s) :
    Inv t :=
  (h.strengthen inductive_clusterWf hwf).invariant
    (fun s l s' hs hok hstep => hmoved s l s' hs hok.2 hok.1 (step_moved hok.2 hstep)) hs

/-- Every clock is monotone. -/
theorem Moved.now_le {cfg : Config n m} {s s' : Cluster n m E F} {l : Step n}
    (h : Moved cfg s l s') (j : Fin n) : (s.spoke j).now ≤ (s'.spoke j).now := by
  cases h with
  | hub | deliver => exact Nat.le_refl _
  | act i _ _ nd _ _ hacted =>
    by_cases hj : j = i
    · subst hj
      simpa using hacted.now_le
    · rw [Star.Net.move_spoke_ne _ _ _ _ _ hj]
  | take i _ _ _ _ nd _ _ _ _ htook =>
    by_cases hj : j = i
    · subst hj
      simpa using htook.now_le
    · rw [Star.Net.move_spoke_ne _ _ _ _ _ hj]

/-! ### The link rule of the cluster -/

/-- What has to be shown for a property of the control link of one board. -/
structure LinkRule (ok : Guard (Cluster n m E F) (Step n))
    (L : Star.Link (Fin n) (Arbiter n) (Node m E F) (ControlToNode n) Report) : Prop where
  hub (s : Cluster n m E F) (l : Arbiter.Act n) (a : Arbiter n) (out : List (ControlToNode n))
    (i : Fin n) :
    ok s (.hub l) → s.hub.Effect l a out → L i s.hub (s.spoke i) (s.down i) (s.up i) →
      L i a (s.spoke i) (s.down i ++ out) (s.up i)
  deliver (s : Cluster n m E F) (i : Fin n) (r : Report) (rest : List Report) (a : Arbiter n) :
    ok s (.deliver i) → s.up i = r :: rest → s.hub.Recv i r.handled r.msg a →
      L i s.hub (s.spoke i) (s.down i) (r :: rest) → L i a (s.spoke i) (s.down i) rest
  deliver_other (s : Cluster n m E F) (i j : Fin n) (r : Report) (rest : List Report)
    (a : Arbiter n) :
    j ≠ i → ok s (.deliver i) → s.up i = r :: rest → s.hub.Recv i r.handled r.msg a →
      L j s.hub (s.spoke j) (s.down j) (s.up j) → L j a (s.spoke j) (s.down j) (s.up j)
  act (s : Cluster n m E F) (i : Fin n) (l : Node.Act) (nd : Node m E F)
    (msgs : List ControlToArbiter) :
    ok s (.spoke i l) → (s.spoke i).Wf → (s.spoke i).Acted l nd msgs →
      L i s.hub (s.spoke i) (s.down i) (s.up i) →
      L i s.hub nd (s.down i) (s.up i ++ nd.stamp msgs)
  take (s : Cluster n m E F) (i : Fin n) (t : Node.Take) (msg : ControlToNode n)
    (rest : List (ControlToNode n)) (nd : Node m E F) (msgs : List ControlToArbiter) :
    ok s (.take i t) → (s.spoke i).Wf → s.down i = msg :: rest →
      (s.spoke i).Took i msg nd msgs →
      L i s.hub (s.spoke i) (msg :: rest) (s.up i) →
      L i s.hub nd rest (s.up i ++ nd.stamp msgs)

/-- The link rule, for runs in which the nodes are well formed. -/
theorem LinkRule.inductive {cfg : Config n m} {ok : Guard (Cluster n m E F) (Step n)}
    {L : Star.Link (Fin n) (Arbiter n) (Node m E F) (ControlToNode n) Report}
    (hL : LinkRule ok L) :
    Inductive (system cfg) (fun s l => ok s l ∧ ClusterWf s) (Star.Net.All L) := by
  refine Star.LinkInductive.inductive
    { hub := ?_, deliver := ?_, deliver_other := ?_, spoke := ?_, take := ?_ }
  · intro s l a out i hok hact hlink
    exact hL.hub s l a out i hok.1 (Arbiter.act_effect hact) hlink
  · intro s i r rest a hok hup hrecv hlink
    exact hL.deliver s i r rest a hok.1 hup (Arbiter.sync_recv_cases (hok.2.peer i) hrecv) hlink
  · intro s i j r rest a hj hok hup hrecv hlink
    exact hL.deliver_other s i j r rest a hj hok.1 hup
      (Arbiter.sync_recv_cases (hok.2.peer i) hrecv) hlink
  · intro s i l lanes nd out hok hact hlink
    obtain ⟨msgs, rfl, hacted⟩ := Node.act_cases hact
    exact hL.act s i l nd msgs hok.1 (hok.2.node i) hacted hlink
  · intro s i t msg rest lanes nd out hok hdown htake hlink
    obtain ⟨hpc, msgs, rfl, htook⟩ := Node.take_cases (hok.2.node i).live htake
    exact hL.take s i t msg rest nd msgs hok.1 (hok.2.node i) hdown htook hlink

/-- A link property that holds initially and obeys the rule is an invariant. -/
theorem LinkRule.invariant {cfg : Config n m} {ok : Guard (Cluster n m E F) (Step n)}
    {L : Star.Link (Fin n) (Arbiter n) (Node m E F) (ControlToNode n) Report}
    (hL : LinkRule ok L) (hinit : ∀ s, Initial cfg s → Star.Net.All L s)
    {s : Cluster n m E F} (h : Reachable (system cfg) ok s) : Star.Net.All L s :=
  (h.strengthen fun _ => wf_of_reachable).invariant hinit hL.inductive

/-- A link property that obeys the rule is carried along every path. -/
theorem LinkRule.along {cfg : Config n m} {ok : Guard (Cluster n m E F) (Step n)}
    {L : Star.Link (Fin n) (Arbiter n) (Node m E F) (ControlToNode n) Report}
    (hL : LinkRule ok L) {s t : Cluster n m E F} (h : Path (system cfg) ok s t)
    (hwf : ClusterWf s) (hs : Star.Net.All L s) : Star.Net.All L t :=
  (h.strengthen inductive_clusterWf hwf).invariant hL.inductive hs

/-- A link property that obeys the rule may be used as a guard along a path. -/
theorem LinkRule.strengthen {cfg : Config n m} {ok : Guard (Cluster n m E F) (Step n)}
    {L : Star.Link (Fin n) (Arbiter n) (Node m E F) (ControlToNode n) Report}
    (hL : LinkRule ok L) {s t : Cluster n m E F} (h : Path (system cfg) ok s t)
    (hwf : ClusterWf s) (hs : Star.Net.All L s) :
    Path (system cfg) (fun s l => ok s l ∧ Star.Net.All L s) s t :=
  ((h.strengthen inductive_clusterWf hwf).strengthen hL.inductive hs).mono
    fun _ _ hok => ⟨hok.1.1, hok.2⟩

end Rl78Sim
