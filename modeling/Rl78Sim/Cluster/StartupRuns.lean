import Rl78Sim.Cluster.Startup

/-! # Runs of the Startup

    `Inv` is the invariant of a cluster that comes up, and `Moved` lists all
    that a step does where it holds. From the two follow the main results: what
    comes out of the barrier is a state that the running cluster can reach,
    `await_ready` gives up only for boards whose answers it has not taken, and
    no late board leaves it without a way to complete.
-/

namespace Rl78Sim

open Transition

variable {n m : Nat} {E F : Type} [Entity E F]

namespace Startup

/-! ### The invariant -/

/-- What holds of a cluster that comes up, at every moment. -/
structure Inv (cfg : Config n m) (ready_timeout_ns : Nat) (s : Startup n m E F) : Prop where
  node (i : Fin n) : (s.net.spoke i).Unstarted cfg
  down (i : Fin n) : ∀ msg ∈ s.net.down i, msg = startup_record cfg
  up (i : Fin n) : ∀ r ∈ s.net.up i, r = ⟨.Ready, 0⟩
  env_eq (e : Fin m) : s.net.env e = Lane.empty
  peer (i : Fin n) : s.net.hub.peers i = .AwaitingReady ∨ s.net.hub.peers i = .Ready
  /-- An answer is on its way or has been taken. -/
  answered (i : Fin n) : (s.net.spoke i).state = .Stopped ↔
    s.net.hub.peers i = .Ready ∨ s.net.up i ≠ []
  closed (i : Fin n) : s.opened i = false → (s.net.spoke i).state = .AwaitingStartup
  timeout_eq : s.net.hub.ready_timeout_ns = ready_timeout_ns
  deadline : s.net.hub.pc ≠ .publish → s.net.hub.pc ≠ .failed →
    ready_timeout_ns ≤ s.net.hub.deadline
  complete : s.net.hub.pc = .complete → ∀ i, s.net.hub.peers i = .Ready
  timeout (missing : List (Fin n)) : s.net.hub.pc = .timeout missing →
    missing = s.net.hub.ready_timeout ∧ s.net.hub.deadline ≤ s.net.hub.clock ∧
      ¬∀ i, s.net.hub.peers i = .Ready

theorem Initial.inv {cfg : Config n m} {ready_timeout_ns : Nat} {s : Startup n m E F}
    (h : Initial ready_timeout_ns s) : Inv cfg ready_timeout_ns s where
  node i := (h.spoke i).unstarted
  down i msg hmsg := by
    rw [h.down_eq] at hmsg
    cases hmsg
  up i r hr := by
    rw [h.up_eq] at hr
    cases hr
  env_eq := h.env_eq
  peer i := .inl (by rw [h.hub_eq]; rfl)
  answered i := by
    rw [(h.spoke i).state_eq, h.hub_eq, h.up_eq]
    simp [ReadyBarrier.new]
  closed i _ := (h.spoke i).state_eq
  timeout_eq := by rw [h.hub_eq]; rfl
  deadline hpc _ := absurd (by rw [h.hub_eq]; rfl) hpc
  complete hpc := by
    rw [h.hub_eq] at hpc
    cases hpc
  timeout missing hpc := by
    rw [h.hub_eq] at hpc
    cases hpc

/-! ### Inversion of a step -/

/-- The state after node `i` moved. -/
def after (s : Startup n m E F) (i : Fin n) (nd : Node m E F) (rest : List (ControlToNode n))
    (out : List Report) : Startup n m E F :=
  { s with net := s.net.move i s.net.env nd rest out }

/-- The state after the arbiter has taken an answer of board `i`. -/
def taken (s : Startup n m E F) (i : Fin n) (rest : List Report) : Startup n m E F :=
  { s with net := { s.net with
      hub := { s.net.hub with peers := Function.update s.net.hub.peers i .Ready }
      up := Function.update s.net.up i rest } }

/-- All that a step of the startup can do. -/
inductive Moved (cfg : Config n m) (s : Startup n m E F) : Label n → Startup n m E F → Prop where
  | control_open (i : Fin n) : s.opened i = false →
      Moved cfg s (.control_open i) (s.control_open i)
  | hub (l : ReadyBarrier.Act) (b : ReadyBarrier n) (out : List (ControlToNode n)) :
      s.net.hub.Effect (startup_record cfg) l b out →
      Moved cfg s (.net (.hub l))
        { s with net := { s.net with hub := b, down := fun i => s.net.down i ++ out } }
  | deliver (i : Fin n) (rest : List Report) : s.net.hub.pc = .drain →
      s.net.up i = ⟨.Ready, 0⟩ :: rest → Moved cfg s (.net (.deliver i)) (s.taken i rest)
  | act (i : Fin n) (l : Node.Act) (nd : Node m E F) : s.opened i = true →
      (s.net.spoke i).Idled l nd →
      Moved cfg s (.net (.spoke i l)) (s.after i nd (s.net.down i) [])
  | take (i : Fin n) (t : Node.Take) (rest : List (ControlToNode n)) : s.opened i = true →
      (s.net.spoke i).pc = .drain → s.net.down i = startup_record cfg :: rest →
      Moved cfg s (.net (.take i t))
        (s.after i { s.net.spoke i with
          state := .Stopped
          headroom_threshold_ns := cfg.headroom_threshold_ns } rest [⟨.Ready, 0⟩])

variable {cfg : Config n m} {ready_timeout_ns : Nat} {s s' : Startup n m E F}

theorem step_moved {l : Label n} (hinv : Inv cfg ready_timeout_ns s)
    (h : step cfg s l = some s') : Moved cfg s l s' := by
  cases l with
  | control_open i =>
    simp only [step] at h
    split at h <;> cases h
    exact .control_open i (Bool.eq_false_of_not_eq_true ‹_›)
  | net l =>
    simp only [step] at h
    split at h
    case isFalse => cases h
    rename_i hruns
    obtain ⟨net, hstep, rfl⟩ := Option.map_eq_some_iff.mp h
    -- The arbiter moves or takes an answer, or a node moves or takes the record.
    rcases (barrier cfg).step_cases hstep with ⟨a, hub, out, rfl, hact, rfl⟩ |
      ⟨i, r, rest, hub, rfl, hup, htake, rfl⟩ | ⟨i, a, env, nd, out, rfl, hact, rfl⟩ |
      ⟨i, t, msg, rest, env, nd, out, rfl, hdown, htake, rfl⟩
    · exact .hub a hub out (ReadyBarrier.act_effect hact)
    · have hr : r = ⟨.Ready, 0⟩ := hinv.up i r (by rw [hup]; exact List.mem_cons_self ..)
      subst hr
      have htake : s.net.hub.recv i .Ready = some hub := htake
      obtain ⟨hpc, ⟨-, rfl⟩ | ⟨hne, -⟩⟩ := ReadyBarrier.recv_cases htake
      · rw [PeerState.on_ready (hinv.peer i)]
        exact .deliver i rest hpc hup
      · exact absurd rfl hne
    · obtain ⟨rfl, rfl, hidle⟩ := (hinv.node i).act_cases hact
      exact .act i a nd hruns hidle
    · have hmsg : msg = startup_record cfg :=
        hinv.down i msg (by rw [hdown]; exact List.mem_cons_self ..)
      subst hmsg
      have hpc : (s.net.spoke i).pc = .drain := by
        rcases (hinv.node i).pc with hpc | hpc
        · exact hpc
        · simp [barrier, Node.take, hpc] at htake
      cases ((hinv.node i).take_startup t hpc).symm.trans htake
      exact .take i t rest hruns hpc hdown

end Startup

namespace ReadyBarrier

variable {startup : ControlToNode n} {b b' : ReadyBarrier n} {l : Act}
  {out : List (ControlToNode n)}

omit [Entity E F] in
/-- The barrier publishes nothing but the record. -/
theorem Effect.mem_out (h : Effect startup b l b' out) : ∀ msg ∈ out, msg = startup := by
  cases h with
  | again _ _ _ published => cases published <;> simp
  | _ => simp

omit [Entity E F] in
/-- Its peers change when it takes a message. -/
theorem Effect.frame (h : Effect startup b l b' out) :
    b'.peers = b.peers ∧ b'.ready_timeout_ns = b.ready_timeout_ns := by
  cases h <;> exact ⟨rfl, rfl⟩

omit [Entity E F] in
/-- The barrier completes only when all peers are ready, and gives up only
    after its deadline, for the peers that are not. -/
theorem Effect.outcome (h : Effect startup b l b' out) :
    (b'.pc = .complete → ∀ i, b'.peers i = .Ready) ∧
    ∀ missing, b'.pc = .timeout missing →
      missing = b'.ready_timeout ∧ b'.deadline ≤ b'.clock ∧ ¬∀ i, b'.peers i = .Ready := by
  cases h with
  | complete _ _ _ _ _ hall => exact ⟨fun _ => hall, by simp⟩
  | timeout now _ _ _ _ _ hall hlate =>
    refine ⟨by simp, fun missing hpc => ?_⟩
    cases hpc
    exact ⟨rfl, hlate, hall⟩
  | _ => simp

omit [Entity E F] in
/-- The deadline is set once, and not before the timeout has passed. -/
theorem Effect.deadline (h : Effect startup b l b' out)
    (hb : b.pc ≠ .publish → b.pc ≠ .failed → b.ready_timeout_ns ≤ b.deadline)
    (hpc : b'.pc ≠ .failed) : b.ready_timeout_ns ≤ b'.deadline := by
  cases h with
  | publish => exact Nat.le_add_left ..
  | failed => exact absurd rfl hpc
  | _ => exact hb (by simp [*]) (by simp [*])

end ReadyBarrier

namespace Startup

variable {cfg : Config n m} {ready_timeout_ns : Nat} {s s' : Startup n m E F}

/-! ### The invariant is kept -/

theorem Inv.control_open (hinv : Inv cfg ready_timeout_ns s) (i : Fin n) :
    Inv cfg ready_timeout_ns (s.control_open i) where
  node := hinv.node
  down j msg hmsg := by
    by_cases hj : j = i
    · subst hj
      -- What the service has kept are records.
      simp only [Startup.control_open, Function.update_self] at hmsg
      exact hinv.down j msg (List.mem_of_mem_drop hmsg)
    · simp only [Startup.control_open, Function.update_of_ne hj] at hmsg
      exact hinv.down j msg hmsg
  up := hinv.up
  env_eq := hinv.env_eq
  peer := hinv.peer
  answered := hinv.answered
  closed j hj := by
    by_cases hji : j = i
    · subst hji
      simp [Startup.control_open] at hj
    · simp only [Startup.control_open, Function.update_of_ne hji] at hj
      exact hinv.closed j hj
  timeout_eq := hinv.timeout_eq
  deadline := hinv.deadline
  complete := hinv.complete
  timeout := hinv.timeout

theorem Inv.hub (hinv : Inv cfg ready_timeout_ns s) {l : ReadyBarrier.Act} {b : ReadyBarrier n}
    {out : List (ControlToNode n)} (heff : s.net.hub.Effect (startup_record cfg) l b out) :
    Inv cfg ready_timeout_ns ({ s with net := { s.net with
      hub := b
      down := fun i => s.net.down i ++ out } } : Startup n m E F) where
  node := hinv.node
  down i msg hmsg := (List.mem_append.mp hmsg).elim (hinv.down i msg) (heff.mem_out msg)
  up := hinv.up
  env_eq := hinv.env_eq
  peer i := by
    dsimp only
    rw [heff.frame.1]
    exact hinv.peer i
  answered i := by
    dsimp only
    rw [heff.frame.1]
    exact hinv.answered i
  closed := hinv.closed
  timeout_eq := heff.frame.2.trans hinv.timeout_eq
  deadline _ hpc := by
    rw [← hinv.timeout_eq]
    exact heff.deadline (hinv.timeout_eq ▸ hinv.deadline) hpc
  complete := heff.outcome.1
  timeout := heff.outcome.2

theorem Inv.taken (hinv : Inv cfg ready_timeout_ns s) {i : Fin n} {rest : List Report}
    (hpc : s.net.hub.pc = .drain) (hup : s.net.up i = ⟨.Ready, 0⟩ :: rest) :
    Inv cfg ready_timeout_ns (s.taken i rest) where
  node := hinv.node
  down := hinv.down
  up j r hr := by
    by_cases hj : j = i
    · subst hj
      simp only [Startup.taken, Function.update_self] at hr
      exact hinv.up j r (by rw [hup]; exact List.mem_cons_of_mem _ hr)
    · simp only [Startup.taken, Function.update_of_ne hj] at hr
      exact hinv.up j r hr
  env_eq := hinv.env_eq
  peer j := by
    by_cases hj : j = i
    · subst hj
      exact .inr (Function.update_self ..)
    · simp only [Startup.taken, Function.update_of_ne hj]
      exact hinv.peer j
  answered j := by
    by_cases hj : j = i
    · subst hj
      simpa [Startup.taken, hup] using hinv.answered j
    · simp only [Startup.taken, Function.update_of_ne hj]
      exact hinv.answered j
  closed := hinv.closed
  timeout_eq := hinv.timeout_eq
  deadline := hinv.deadline
  -- It takes answers in its drain only.
  complete hc := absurd (hc.symm.trans hpc) (by simp)
  timeout missing ht := absurd (ht.symm.trans hpc) (by simp)

/-- A node that moves without a message. -/
theorem Inv.idled (hinv : Inv cfg ready_timeout_ns s) {i : Fin n} {nd : Node m E F}
    (hnd : nd.Unstarted cfg) (hstate : nd.state = (s.net.spoke i).state) :
    Inv cfg ready_timeout_ns (s.after i nd (s.net.down i) []) where
  node j := by
    by_cases hj : j = i
    · subst hj
      simpa [after] using hnd
    · simp only [after, Star.Net.move_spoke_ne _ _ _ _ _ hj]
      exact hinv.node j
  down j msg hmsg := hinv.down j msg (by simpa [after, Star.Net.move] using hmsg)
  up j r hr := hinv.up j r (by simpa [after, Star.Net.move] using hr)
  env_eq := hinv.env_eq
  peer := hinv.peer
  answered j := by
    have hup : (s.after i nd (s.net.down i) []).net.up = s.net.up := by
      simp [after, Star.Net.move]
    rw [hup]
    by_cases hj : j = i
    · subst hj
      simpa [after, hstate] using hinv.answered j
    · simp only [after, Star.Net.move_spoke_ne _ _ _ _ _ hj]
      exact hinv.answered j
  closed j hopen := by
    by_cases hj : j = i
    · subst hj
      simpa [after, hstate] using hinv.closed j hopen
    · simp only [after, Star.Net.move_spoke_ne _ _ _ _ _ hj]
      exact hinv.closed j hopen
  timeout_eq := hinv.timeout_eq
  deadline := hinv.deadline
  complete := hinv.complete
  timeout := hinv.timeout

/-- A node that answers the record. -/
theorem Inv.take (hinv : Inv cfg ready_timeout_ns s) {i : Fin n}
    {rest : List (ControlToNode n)} (hopen : s.opened i = true)
    (hdown : s.net.down i = startup_record cfg :: rest) :
    Inv cfg ready_timeout_ns (s.after i { s.net.spoke i with
      state := .Stopped
      headroom_threshold_ns := cfg.headroom_threshold_ns } rest [⟨.Ready, 0⟩]) where
  node j := by
    by_cases hj : j = i
    · subst hj
      simpa [after] using (hinv.node j).answered
    · simp only [after, Star.Net.move_spoke_ne _ _ _ _ _ hj]
      exact hinv.node j
  down j msg hmsg := by
    by_cases hj : j = i
    · subst hj
      simp only [after, Star.Net.move_down_self] at hmsg
      exact hinv.down j msg (by rw [hdown]; exact List.mem_cons_of_mem _ hmsg)
    · simp only [after, Star.Net.move_down_ne _ _ _ _ _ hj] at hmsg
      exact hinv.down j msg hmsg
  up j r hr := by
    by_cases hj : j = i
    · subst hj
      simp only [after, Star.Net.move_up_self] at hr
      rcases List.mem_append.mp hr with hr | hr
      · exact hinv.up j r hr
      · exact List.mem_singleton.mp hr
    · simp only [after, Star.Net.move_up_ne _ _ _ _ _ hj] at hr
      exact hinv.up j r hr
  env_eq := hinv.env_eq
  peer := hinv.peer
  answered j := by
    by_cases hj : j = i
    · subst hj
      simp [after]
    · simp only [after, Star.Net.move_spoke_ne _ _ _ _ _ hj, Star.Net.move_up_ne _ _ _ _ _ hj]
      exact hinv.answered j
  closed j hj := by
    have hne : j ≠ i := by
      rintro rfl
      exact absurd (hopen.symm.trans hj) (by simp)
    simp only [after, Star.Net.move_spoke_ne _ _ _ _ _ hne]
    exact hinv.closed j hj
  timeout_eq := hinv.timeout_eq
  deadline := hinv.deadline
  complete := hinv.complete
  timeout := hinv.timeout

variable [LawfulEntity E]

theorem Moved.inv {l : Label n} (h : Moved cfg s l s') (hinv : Inv cfg ready_timeout_ns s) :
    Inv cfg ready_timeout_ns s' := by
  cases h with
  | control_open i => exact hinv.control_open i
  | hub l b out heff => exact hinv.hub heff
  | deliver i rest hpc hup => exact hinv.taken hpc hup
  | act i l nd hopen hidle => exact hinv.idled (hidle.unstarted (hinv.node i)) hidle.state_eq
  | take i t rest hopen hpc hdown => exact hinv.take hopen hdown

theorem inductive_inv {ok : Guard (Startup n m E F) (Label n)} :
    Inductive (system cfg ready_timeout_ns) ok (Inv cfg ready_timeout_ns) := by
  intro s l s' hinv _ hstep
  exact Moved.inv (step_moved hinv hstep) hinv

/-- The invariant holds in every run. -/
theorem inv_of_reachable {ok : Guard (Startup n m E F) (Label n)}
    (h : Reachable (system cfg ready_timeout_ns) ok s) : Inv cfg ready_timeout_ns s :=
  h.invariant (fun _ hs => Initial.inv hs) inductive_inv

end Startup

end Rl78Sim
