import Rl78Sim.Cluster.Guests
import Rl78Sim.Cluster.StartupRuns
import Rl78Sim.Framework.Fins

/-! # What Comes out of the Barrier

    The cluster behind a completed barrier is one that the running cluster can
    reach, so that all that is proved of its runs holds from there on. A
    barrier that gives up names the boards whose answers were not taken. And
    while there is time for one more record, it can still complete.
-/

namespace Rl78Sim

open Transition

variable {n m : Nat} {E F : Type} [Entity E F]

namespace Startup

variable {cfg : Config n m} {ready_timeout_ns : Nat} {s s' : Startup n m E F}

/-! ### The cluster behind the barrier -/

omit [Entity E F] in
theorem after_spoke_self (i : Fin n) (nd : Node m E F) (rest : List (ControlToNode n))
    (out : List Report) : (s.after i nd rest out).net.spoke i = nd :=
  Star.Net.move_spoke_self ..

omit [Entity E F] in
theorem after_spoke_ne {i j : Fin n} (h : j ≠ i) (nd : Node m E F)
    (rest : List (ControlToNode n)) (out : List Report) :
    (s.after i nd rest out).net.spoke j = s.net.spoke j :=
  Star.Net.move_spoke_ne _ _ _ _ _ h

/-- Only an inspect request reaches the entity of a node. -/
theorem Moved.ports {l : Label n} (h : Moved cfg s l s') (hok : Undriven s l) (j : Fin n) :
    Entity.ports (s'.net.spoke j).sim.entity = Entity.ports (s.net.spoke j).sim.entity := by
  cases h with
  | control_open i => rfl
  | hub l b out heff => rfl
  | deliver i rest hpc hup => rfl
  | act i l nd hopen hidle =>
    by_cases hj : j = i
    · subst hj
      rw [after_spoke_self]
      cases hidle with
      | drained => rfl
      | inspect cmd => exact hok j cmd rfl
      | service => rfl
    · rw [after_spoke_ne hj]
  | take i t rest hopen hpc hdown =>
    by_cases hj : j = i
    · subst hj
      rw [after_spoke_self]
    · rw [after_spoke_ne hj]

/-- No board has driven anything yet. -/
theorem ports_of_reachable [LawfulEntity E]
    (h : Reachable (system cfg ready_timeout_ns) Undriven s) (i : Fin n) :
    Entity.ports (s.net.spoke i).sim.entity = OutPorts.empty := by
  have hind : Inductive (system cfg ready_timeout_ns)
      (fun s l => Undriven s l ∧ Inv cfg ready_timeout_ns s) fun s : Startup n m E F =>
        ∀ j, Entity.ports (s.net.spoke j).sim.entity = OutPorts.empty := by
    intro s l s' hports hok hstep j
    exact (Moved.ports (step_moved hok.2 hstep) hok.1 j).trans (hports j)
  have hall := (h.strengthen fun _ => inv_of_reachable).invariant
    (fun s hs j => (hs.spoke j).ports_eq) hind
  exact hall i

/-- The same cluster with every node at the head of its loop. -/
def rewound (cfg : Config n m) (s : Startup n m E F) : Cluster n m E F :=
  { s.cluster cfg with spoke := fun i => { s.net.spoke i with pc := .drain } }

theorem initial_rewound (hinv : Inv cfg ready_timeout_ns s)
    (hready : ∀ i, s.net.hub.peers i = .Ready)
    (hports : ∀ i, Entity.ports (s.net.spoke i).sim.entity = OutPorts.empty) :
    Rl78Sim.Initial cfg (s.rewound cfg) where
  hub_eq := by
    have hpeers : s.net.hub.peers = fun _ => .Ready := funext hready
    simp only [rewound, cluster, hpeers]
    rfl
  spoke i := by
    -- A peer that is ready has taken the record, and is stopped with its threshold.
    have hstopped := (hinv.answered i).mpr (.inl (hready i))
    have hnode := hinv.node i
    have hthr : (s.net.spoke i).headroom_threshold_ns = cfg.headroom_threshold_ns := by
      rcases hnode.state with hstate | ⟨-, hthr⟩
      · rw [hstopped] at hstate
        cases hstate
      · exact hthr
    exact ⟨hstopped, hthr, hnode.allowed_ns_eq, hnode.last_eq, rfl, hnode.handled_eq,
      hnode.sim_eq, hnode.now_eq, hports i⟩
  down := hinv.down
  up := hinv.up
  env_eq := hinv.env_eq

/-- Nodes that have looked at their empty control queue: they are at the head
    of their loop, or where they are in `s`. -/
structure Rewound (cfg : Config n m) (s : Startup n m E F) (t : Cluster n m E F) : Prop where
  hub : t.hub = (s.cluster cfg).hub
  down : t.down = s.net.down
  up : t.up = s.net.up
  env : t.env = s.net.env
  spoke (i : Fin n) : t.spoke i = s.net.spoke i ∨ t.spoke i = { s.net.spoke i with pc := .drain }

/-- A node gets from the head of its loop to where it is. -/
theorem Rewound.forward (hinv : Inv cfg ready_timeout_ns s) (i : Fin n) {t : Cluster n m E F}
    (h : Rewound cfg s t) : ∃ t', Path (Rl78Sim.system cfg) Rl78Sim.AnyRun t t' ∧
      Rewound cfg s t' ∧ t'.spoke i = s.net.spoke i ∧
      ∀ j, t.spoke j = s.net.spoke j → t'.spoke j = s.net.spoke j := by
  rcases h.spoke i with heq | hback
  · exact ⟨t, .refl t, h, heq, fun _ hj => hj⟩
  · rcases (hinv.node i).pc with hpc | hpc
    · refine ⟨t, .refl t, h, hback.trans ?_, fun _ hj => hj⟩
      rw [← hpc]
    · -- The node has found its queue empty, and is served next.
      have hforward : { t.spoke i with pc := .service } = s.net.spoke i := by
        rw [hback, ← hpc]
      have hstep : (Rl78Sim.system cfg).step t (.spoke i .drained) =
          some (t.move i t.env (s.net.spoke i) (t.down i) []) := by
        have hact : (t.spoke i).act cfg i t.env .drained =
            some (t.env, s.net.spoke i, []) := by
          rw [← hforward, hback]
          rfl
        show ((t.spoke i).act cfg i t.env .drained).map _ = _
        rw [hact]
        rfl
      refine ⟨_, Path.single trivial hstep, ⟨h.hub, ?_, ?_, h.env, fun j => ?_⟩,
        Star.Net.move_spoke_self .., fun j hj => ?_⟩
      · rw [← h.down]
        exact Function.update_eq_self ..
      · rw [← h.up]
        simp [Star.Net.move]
      · by_cases hj : j = i
        · subst hj
          exact .inl (Star.Net.move_spoke_self ..)
        · rw [Star.Net.move_spoke_ne _ _ _ _ _ hj]
          exact h.spoke j
      · by_cases hji : j = i
        · subst hji
          exact Star.Net.move_spoke_self ..
        · rw [Star.Net.move_spoke_ne _ _ _ _ _ hji]
          exact hj

theorem path_rewound (hinv : Inv cfg ready_timeout_ns s) :
    Path (Rl78Sim.system cfg) Rl78Sim.AnyRun (s.rewound cfg) (s.cluster cfg) := by
  obtain ⟨t, hpath, ht, hall, -⟩ := Path.exists_forall
    (P := fun i (t : Cluster n m E F) => t.spoke i = s.net.spoke i)
    (fun i t ht => Rewound.forward hinv i ht) (List.finRange n)
    (s := s.rewound cfg) ⟨rfl, rfl, rfl, rfl, fun _ => .inr rfl⟩
  have heq : t = s.cluster cfg := by
    obtain ⟨hub, spoke, down, up, env⟩ := t
    have hspoke : spoke = s.net.spoke := funext fun i => hall i (List.mem_finRange i)
    obtain ⟨rfl, rfl, rfl, rfl, -⟩ := ht
    rw [hspoke]
    rfl
  exact heq ▸ hpath

/-- What comes out of a completed barrier is a state of the running cluster. -/
theorem startup_reaches_cluster [LawfulEntity E]
    (h : Reachable (system cfg ready_timeout_ns) Undriven s)
    (hcomplete : s.net.hub.pc = .complete) :
    Reachable (Rl78Sim.system cfg) Rl78Sim.AnyRun (s.cluster cfg) := by
  have hinv := inv_of_reachable h
  have hinit := initial_rewound hinv (hinv.complete hcomplete) (ports_of_reachable h)
  exact (Reachable.init hinit).of_path (path_rewound hinv)

/-! ### Giving up -/

/-- No board runs before the barrier is complete. A barrier that completes has
    the answers of all boards; one that gives up has waited for the timeout,
    and names exactly the boards whose answers it has not taken: they never
    got the record, or their answers are still on the way. -/
theorem startup_outcome [LawfulEntity E]
    (h : Reachable (system cfg ready_timeout_ns) AnyRun s) :
    (∀ i, (s.net.spoke i).state ≠ .Running ∧ (s.net.spoke i).now = 0) ∧
    (s.net.hub.pc = .complete → ∀ i, s.opened i = true ∧ (s.net.spoke i).state = .Stopped ∧
      (s.net.spoke i).headroom_threshold_ns = cfg.headroom_threshold_ns) ∧
    ∀ missing, s.net.hub.pc = .timeout missing →
      missing ≠ [] ∧ ready_timeout_ns ≤ s.net.hub.clock ∧
      ∀ i, (i ∈ missing ↔ s.net.hub.peers i ≠ .Ready) ∧
        (i ∉ missing → s.opened i = true ∧ (s.net.spoke i).state = .Stopped) ∧
        (i ∈ missing → (s.net.spoke i).state = .AwaitingStartup ∨ s.net.up i ≠ []) := by
  have hinv := inv_of_reachable h
  have hready : ∀ i, s.net.hub.peers i = .Ready →
      s.opened i = true ∧ (s.net.spoke i).state = .Stopped ∧
        (s.net.spoke i).headroom_threshold_ns = cfg.headroom_threshold_ns := by
    intro i hi
    have hstopped := (hinv.answered i).mpr (.inl hi)
    refine ⟨?_, hstopped, ?_⟩
    · by_contra hclosed
      have hstate := hinv.closed i (Bool.eq_false_of_not_eq_true hclosed)
      rw [hstopped] at hstate
      cases hstate
    · rcases (hinv.node i).state with hstate | ⟨-, hthr⟩
      · rw [hstopped] at hstate
        cases hstate
      · exact hthr
  refine ⟨fun i => ⟨(hinv.node i).not_running, (hinv.node i).now_eq⟩,
    fun hcomplete i => hready i (hinv.complete hcomplete i), fun missing hpc => ?_⟩
  obtain ⟨rfl, hlate, hall⟩ := hinv.timeout missing hpc
  have hmem : ∀ i, i ∈ s.net.hub.ready_timeout ↔ s.net.hub.peers i ≠ .Ready := by
    intro i
    simp [ReadyBarrier.ready_timeout]
  -- A board is missing exactly if its answer has not been taken.
  refine ⟨fun hnil => hall fun i => ?_, ?_, fun i => ⟨hmem i, fun hi => ?_, fun hi => ?_⟩⟩
  · have hi := (hmem i).not.mp (by simp [hnil])
    exact not_not.mp hi
  · exact Nat.le_trans (hinv.deadline (by rw [hpc]; simp) (by rw [hpc]; simp)) hlate
  · obtain ⟨hopen, hstopped, -⟩ := hready i (not_not.mp ((hmem i).not.mp hi))
    exact ⟨hopen, hstopped⟩
  · rcases (hinv.node i).state with hstate | ⟨hstopped, -⟩
    · exact .inl hstate
    · rcases (hinv.answered i).mp hstopped with hp | hup
      · exact absurd hp ((hmem i).mp hi)
      · exact .inr hup

/-! ### The way to a complete barrier -/

/-- Every node waits for a message at the head of its loop. -/
def Listening (s : Startup n m E F) : Prop :=
  ∀ i, s.opened i = true ∧ (s.net.spoke i).pc = .drain

/-- The state after the arbiter has moved. -/
def acted (s : Startup n m E F) (b : ReadyBarrier n) (out : List (ControlToNode n)) :
    Startup n m E F :=
  { s with net := { s.net with hub := b, down := fun i => s.net.down i ++ out } }

/-- A step that is not an inspect request drives no port. -/
theorem path_step [LawfulEntity E] {l : Label n} (hinv : Inv cfg ready_timeout_ns s)
    (hl : is_inspect l = false) (hstep : step cfg s l = some s') :
    Path (system cfg ready_timeout_ns) Undriven s s' ∧ Inv cfg ready_timeout_ns s' := by
  have hok : NoInspect s l := hl
  have hstep' : (system cfg ready_timeout_ns).step s l = some s' := hstep
  exact ⟨Path.single hok.undriven hstep', Moved.inv (step_moved hinv hstep) hinv⟩

/-- A step of the arbiter. -/
theorem path_hub [LawfulEntity E] (hinv : Inv cfg ready_timeout_ns s) {l : ReadyBarrier.Act}
    {b : ReadyBarrier n} {out : List (ControlToNode n)}
    (hact : s.net.hub.act (startup_record cfg) l = some (b, out)) :
    Path (system cfg ready_timeout_ns) Undriven s (s.acted b out) ∧
      Inv cfg ready_timeout_ns (s.acted b out) := by
  have hnet : (barrier cfg).step s.net (.hub l) = some (s.acted b out).net := by
    show (s.net.hub.act (startup_record cfg) l).map _ = _
    rw [hact]
    rfl
  have hstep : step cfg s (.net (.hub l)) = some (s.acted b out) := by
    simp only [step, runs, if_true, hnet]
    rfl
  exact path_step hinv rfl hstep

/-- An open node gets to the head of its loop. -/
theorem path_drain [LawfulEntity E] (hinv : Inv cfg ready_timeout_ns s) (i : Fin n)
    (hopen : s.opened i = true) : ∃ t, Path (system cfg ready_timeout_ns) Undriven s t ∧
      Inv cfg ready_timeout_ns t ∧ t.net.hub = s.net.hub ∧ t.opened = s.opened ∧
      (t.net.spoke i).pc = .drain ∧ ∀ j, j ≠ i → t.net.spoke j = s.net.spoke j := by
  rcases (hinv.node i).pc with hpc | hpc
  · exact ⟨s, .refl s, hinv, rfl, rfl, hpc, fun _ _ => rfl⟩
  · obtain ⟨pending, hact⟩ : ∃ pending, (s.net.spoke i).act cfg i s.net.env (.service []) =
        some (s.net.env, { s.net.spoke i with pending_actions := pending, pc := .drain }, []) :=
      (hinv.node i).act_service hpc []
    have hstep : step cfg s (.net (.spoke i (.service []))) =
        some (s.after i { s.net.spoke i with pending_actions := pending, pc := .drain }
          (s.net.down i) []) := by
      have hnet : (barrier cfg).step s.net (.spoke i (.service [])) =
          some (s.net.move i s.net.env
            { s.net.spoke i with pending_actions := pending, pc := .drain } (s.net.down i) []) := by
        show ((s.net.spoke i).act cfg i s.net.env (.service [])).map _ = _
        rw [hact]
        rfl
      simp only [step, runs, hopen, if_true, hnet]
      rfl
    obtain ⟨hpath, hinv'⟩ := path_step hinv rfl hstep
    refine ⟨_, hpath, hinv', rfl, rfl, ?_, fun j hj => ?_⟩
    · rw [after_spoke_self]
    · rw [after_spoke_ne hj]

/-- All nodes get to listen, with the arbiter where it is. -/
theorem path_listening [LawfulEntity E] (hinv : Inv cfg ready_timeout_ns s) :
    ∃ t, Path (system cfg ready_timeout_ns) Undriven s t ∧ Inv cfg ready_timeout_ns t ∧
      t.net.hub = s.net.hub ∧ Listening t := by
  have hserve : ∀ (i : Fin n) (t : Startup n m E F),
      Inv cfg ready_timeout_ns t ∧ t.net.hub = s.net.hub →
      ∃ t', Path (system cfg ready_timeout_ns) Undriven t t' ∧
        (Inv cfg ready_timeout_ns t' ∧ t'.net.hub = s.net.hub) ∧
        (t'.opened i = true ∧ (t'.net.spoke i).pc = .drain) ∧
        ∀ j, t.opened j = true ∧ (t.net.spoke j).pc = .drain →
          t'.opened j = true ∧ (t'.net.spoke j).pc = .drain := by
    rintro i t ⟨ht, hhub⟩
    -- It opens its channel, if it has not done so, and then comes to listen.
    obtain ⟨u, hpath, hu, huhub, hopen, hkeep, hspoke⟩ : ∃ u : Startup n m E F,
        Path (system cfg ready_timeout_ns) Undriven t u ∧ Inv cfg ready_timeout_ns u ∧
        u.net.hub = t.net.hub ∧ u.opened i = true ∧
        (∀ j, t.opened j = true → u.opened j = true) ∧ u.net.spoke = t.net.spoke := by
      cases hopen : t.opened i with
      | true => exact ⟨t, .refl t, ht, rfl, hopen, fun _ hj => hj, rfl⟩
      | false =>
        have hstep : step cfg t (.control_open i) = some (t.control_open i) := by
          simp [step, hopen]
        obtain ⟨hpath, hinv'⟩ := path_step ht rfl hstep
        refine ⟨_, hpath, hinv', rfl, Function.update_self .., fun j hj => ?_, rfl⟩
        by_cases hji : j = i
        · subst hji
          exact Function.update_self ..
        · exact (Function.update_of_ne hji _ _).trans hj
    obtain ⟨v, hpath', hv, hvhub, hvopen, hpc, hother⟩ := path_drain hu i hopen
    refine ⟨v, hpath.trans hpath', ⟨hv, hvhub.trans (huhub.trans hhub)⟩,
      ⟨by rw [hvopen]; exact hopen, hpc⟩, fun j hj => ⟨by rw [hvopen]; exact hkeep j hj.1, ?_⟩⟩
    by_cases hji : j = i
    · subst hji
      exact hpc
    · rw [hother j hji, hspoke]
      exact hj.2
  obtain ⟨t, hpath, ⟨ht, hhub⟩, hall, -⟩ :=
    Path.exists_forall hserve (List.finRange n) ⟨hinv, rfl⟩
  exact ⟨t, hpath, ht, hhub, fun i => hall i (List.mem_finRange i)⟩

/-- For every board an answer was taken or is on its way, or a record is. -/
structure Collecting (s : Startup n m E F) : Prop where
  pc : s.net.hub.pc = .drain
  listening : s.Listening
  moving (i : Fin n) :
    s.net.hub.peers i = .Ready ∨ s.net.up i ≠ [] ∨ s.net.down i ≠ []

/-- The arbiter takes an answer. -/
theorem path_taken [LawfulEntity E] (hinv : Inv cfg ready_timeout_ns s) (h : s.Collecting)
    {i : Fin n} (hup : s.net.up i ≠ []) : ∃ t, Path (system cfg ready_timeout_ns) Undriven s t ∧
      Inv cfg ready_timeout_ns t ∧ t.Collecting ∧ t.net.hub.peers i = .Ready ∧
      ∀ j, s.net.hub.peers j = .Ready → t.net.hub.peers j = .Ready := by
  obtain ⟨r, rest, hr⟩ := List.exists_cons_of_ne_nil hup
  have hmsg : r = ⟨.Ready, 0⟩ := hinv.up i r (by rw [hr]; exact List.mem_cons_self ..)
  subst hmsg
  have hrecv : s.net.hub.recv i .Ready =
      some { s.net.hub with peers := Function.update s.net.hub.peers i .Ready } := by
    simp only [ReadyBarrier.recv, h.pc, PeerState.on_ready (hinv.peer i)]
  have hstep : step cfg s (.net (.deliver i)) = some (s.taken i rest) := by
    have hnet : (barrier cfg).step s.net (.deliver i) = some (s.taken i rest).net := by
      simp only [Star.Protocol.step, hr]
      show (s.net.hub.recv i .Ready).map _ = _
      rw [hrecv]
      rfl
    simp only [step, runs, if_true, hnet]
    rfl
  have hpeer : (s.taken i rest).net.hub.peers i = .Ready := Function.update_self ..
  have hother : ∀ j, j ≠ i →
      (s.taken i rest).net.hub.peers j = s.net.hub.peers j ∧
      (s.taken i rest).net.up j = s.net.up j :=
    fun j hj => ⟨Function.update_of_ne hj _ _, Function.update_of_ne hj _ _⟩
  obtain ⟨hpath, hinv'⟩ := path_step hinv rfl hstep
  refine ⟨_, hpath, hinv', ⟨h.pc, h.listening, fun j => ?_⟩, hpeer, fun j hj => ?_⟩
  · by_cases hji : j = i
    · subst hji
      exact .inl hpeer
    · rw [(hother j hji).1, (hother j hji).2]
      exact h.moving j
  · by_cases hji : j = i
    · subst hji
      exact hpeer
    · rw [(hother j hji).1]
      exact hj

/-- A listening node takes a record and answers it. -/
theorem path_answered [LawfulEntity E] (hinv : Inv cfg ready_timeout_ns s) (h : s.Collecting)
    {i : Fin n} (hdown : s.net.down i ≠ []) : ∃ t,
      Path (system cfg ready_timeout_ns) Undriven s t ∧ Inv cfg ready_timeout_ns t ∧
      t.Collecting ∧ t.net.hub = s.net.hub ∧ t.net.up i ≠ [] := by
  obtain ⟨msg, rest, hr⟩ := List.exists_cons_of_ne_nil hdown
  have hmsg : msg = startup_record cfg := hinv.down i msg (by rw [hr]; exact List.mem_cons_self ..)
  subst hmsg
  obtain ⟨hopen, hpc⟩ := h.listening i
  have htake : (s.net.spoke i).take cfg i ⟨0, 0⟩ (startup_record cfg) s.net.env = some (s.net.env,
      { s.net.spoke i with
        state := .Stopped
        headroom_threshold_ns := cfg.headroom_threshold_ns }, [⟨.Ready, 0⟩]) :=
    (hinv.node i).take_startup ⟨0, 0⟩ hpc
  have hstep : step cfg s (.net (.take i ⟨0, 0⟩)) =
      some (s.after i { s.net.spoke i with
        state := .Stopped
        headroom_threshold_ns := cfg.headroom_threshold_ns } rest [⟨.Ready, 0⟩]) := by
    have hnet : (barrier cfg).step s.net (.take i ⟨0, 0⟩) =
        some (s.net.move i s.net.env { s.net.spoke i with
          state := .Stopped
          headroom_threshold_ns := cfg.headroom_threshold_ns } rest [⟨.Ready, 0⟩]) := by
      simp only [Star.Protocol.step, hr]
      show ((s.net.spoke i).take cfg i ⟨0, 0⟩ (startup_record cfg) s.net.env).map _ = _
      rw [htake]
      rfl
    simp only [step, runs, hopen, if_true, hnet]
    rfl
  obtain ⟨hpath, hinv'⟩ := path_step hinv rfl hstep
  have hup : (s.net.move i s.net.env { s.net.spoke i with
      state := .Stopped
      headroom_threshold_ns := cfg.headroom_threshold_ns } rest [⟨.Ready, 0⟩]).up i ≠ [] := by
    rw [Star.Net.move_up_self]
    simp
  refine ⟨_, hpath, hinv', ⟨h.pc, fun j => ⟨(h.listening j).1, ?_⟩, fun j => ?_⟩, rfl, hup⟩
  · by_cases hj : j = i
    · subst hj
      rw [after_spoke_self]
      exact hpc
    · rw [after_spoke_ne hj]
      exact (h.listening j).2
  · by_cases hj : j = i
    · subst hj
      exact .inr (.inl hup)
    · simp only [after, Star.Net.move_up_ne _ _ _ _ _ hj, Star.Net.move_down_ne _ _ _ _ _ hj]
      exact h.moving j

/-- All answers get taken. -/
theorem path_collected [LawfulEntity E] (hinv : Inv cfg ready_timeout_ns s) (h : s.Collecting) :
    ∃ t, Path (system cfg ready_timeout_ns) Undriven s t ∧ Inv cfg ready_timeout_ns t ∧
      t.net.hub.pc = .drain ∧ ∀ i, t.net.hub.peers i = .Ready := by
  have hserve : ∀ (i : Fin n) (t : Startup n m E F), Inv cfg ready_timeout_ns t ∧ t.Collecting →
      ∃ t', Path (system cfg ready_timeout_ns) Undriven t t' ∧
        (Inv cfg ready_timeout_ns t' ∧ t'.Collecting) ∧ t'.net.hub.peers i = .Ready ∧
        ∀ j, t.net.hub.peers j = .Ready → t'.net.hub.peers j = .Ready := by
    rintro i t ⟨ht, hcol⟩
    rcases hcol.moving i with hready | hup | hdown
    · exact ⟨t, .refl t, ⟨ht, hcol⟩, hready, fun _ hj => hj⟩
    · obtain ⟨u, hpath, hu, hucol, hready, hkeep⟩ := path_taken ht hcol hup
      exact ⟨u, hpath, ⟨hu, hucol⟩, hready, hkeep⟩
    · obtain ⟨u, hpath, hu, hucol, hhub, hup⟩ := path_answered ht hcol hdown
      obtain ⟨v, hpath', hv, hvcol, hready, hkeep⟩ := path_taken hu hucol hup
      exact ⟨v, hpath.trans hpath', ⟨hv, hvcol⟩, hready, fun j hj => hkeep j (hhub ▸ hj)⟩
  obtain ⟨t, hpath, ⟨ht, hcol⟩, hall, -⟩ :=
    Path.exists_forall hserve (List.finRange n) ⟨hinv, h⟩
  exact ⟨t, hpath, ht, hcol.pc, fun i => hall i (List.mem_finRange i)⟩

/-- The arbiter finds no more messages. -/
theorem path_drained [LawfulEntity E] (hinv : Inv cfg ready_timeout_ns s)
    (hpc : s.net.hub.pc = .drain) : ∃ t, Path (system cfg ready_timeout_ns) Undriven s t ∧
      Inv cfg ready_timeout_ns t ∧ t.net.hub = { s.net.hub with pc := .turn } := by
  have hact : s.net.hub.act (startup_record cfg) .drained =
      some ({ s.net.hub with pc := .turn }, []) := by
    simp only [ReadyBarrier.act, hpc]
  obtain ⟨hpath, hinv'⟩ := path_hub hinv hact
  exact ⟨_, hpath, hinv', rfl⟩

/-- The arbiter turns its loop at the time `now`. -/
theorem path_turn [LawfulEntity E] (hinv : Inv cfg ready_timeout_ns s)
    (hpc : s.net.hub.pc = .turn) {now : Nat} (hnow : s.net.hub.clock ≤ now)
    {b : ReadyBarrier n} {out : List (ControlToNode n)}
    (hturn : s.net.hub.turn (startup_record cfg) now now now true = (b, out)) :
    Path (system cfg ready_timeout_ns) Undriven s (s.acted b out) ∧
      Inv cfg ready_timeout_ns (s.acted b out) := by
  have hact : s.net.hub.act (startup_record cfg) (.turn now now now true) = some (b, out) := by
    simp only [ReadyBarrier.act, hpc]
    rw [if_pos ⟨hnow, Nat.le_refl _, Nat.le_refl _⟩, hturn]
  exact path_hub hinv hact

/-- With the answers of all boards the barrier completes. -/
theorem path_complete [LawfulEntity E] (hinv : Inv cfg ready_timeout_ns s)
    (hpc : s.net.hub.pc = .turn) (hall : ∀ i, s.net.hub.peers i = .Ready) :
    ∃ t, Path (system cfg ready_timeout_ns) Undriven s t ∧ t.net.hub.pc = .complete := by
  have hturn : s.net.hub.turn (startup_record cfg) s.net.hub.clock s.net.hub.clock
      s.net.hub.clock true = ({ s.net.hub with pc := .complete }, []) := if_pos hall
  exact ⟨_, (path_turn hinv hpc (Nat.le_refl _) hturn).1, rfl⟩

/-- With time for one more record, every board that waits for it gets one. -/
theorem path_again [LawfulEntity E] (hinv : Inv cfg ready_timeout_ns s) (hlisten : s.Listening)
    (hpc : s.net.hub.pc = .turn) (hall : ¬∀ i, s.net.hub.peers i = .Ready)
    (htime : max s.net.hub.clock (s.net.hub.last_startup + startup_period_ns + 1) <
      s.net.hub.deadline) :
    ∃ t, Path (system cfg ready_timeout_ns) Undriven s t ∧ Inv cfg ready_timeout_ns t ∧
      t.Collecting := by
  -- It is the first moment at which the arbiter publishes again.
  obtain ⟨now, hnow⟩ : ∃ now,
      now = max s.net.hub.clock (s.net.hub.last_startup + startup_period_ns + 1) := ⟨_, rfl⟩
  rw [← hnow] at htime
  have hwait : ∃ i, s.net.hub.peers i = .AwaitingReady := by
    obtain ⟨i, hi⟩ := not_forall.mp hall
    exact ⟨i, (hinv.peer i).resolve_right hi⟩
  have hdue : startup_period_ns < now - s.net.hub.last_startup := by omega
  have hturn : s.net.hub.turn (startup_record cfg) now now now true =
      ({ s.net.hub with clock := now, last_startup := now, pc := .drain },
        [startup_record cfg]) := by
    unfold ReadyBarrier.turn
    rw [if_neg hall, if_neg (by omega), if_pos ⟨hdue, hwait⟩, if_pos rfl]
  obtain ⟨hpath, hinv'⟩ := path_turn hinv hpc (by omega) hturn
  exact ⟨_, hpath, hinv', rfl, hlisten, fun i => .inr (.inr (by simp [acted]))⟩

/-- While there is time for one more record, the barrier can complete, whatever
    records have gone past their boards and however few the service keeps. -/
theorem startup_can_complete [LawfulEntity E]
    (h : Reachable (system cfg ready_timeout_ns) AnyRun s)
    (hpc : s.net.hub.pc = .turn ∨ s.net.hub.pc = .drain)
    (htime : max s.net.hub.clock (s.net.hub.last_startup + startup_period_ns + 1) <
      s.net.hub.deadline) :
    ∃ t, Path (system cfg ready_timeout_ns) Undriven s t ∧ t.net.hub.pc = .complete := by
  have hinv := inv_of_reachable h
  -- The arbiter gets to the head of its loop, and then every node to its own.
  obtain ⟨u, hsu, hu, huhub⟩ : ∃ u, Path (system cfg ready_timeout_ns) Undriven s u ∧
      Inv cfg ready_timeout_ns u ∧ u.net.hub = { s.net.hub with pc := .turn } := by
    rcases hpc with hpc | hpc
    · exact ⟨s, .refl s, hinv, by rw [← hpc]⟩
    · exact path_drained hinv hpc
  obtain ⟨v, huv, hv, hvhub, hlisten⟩ := path_listening hu
  have hhub : v.net.hub = { s.net.hub with pc := .turn } := hvhub.trans huhub
  have hsv := hsu.trans huv
  -- With an answer missing it takes one more record, which finds all boards listening.
  by_cases hall : ∀ i, v.net.hub.peers i = .Ready
  · obtain ⟨t, hvt, hcomplete⟩ := path_complete hv (by rw [hhub]) hall
    exact ⟨t, hsv.trans hvt, hcomplete⟩
  · obtain ⟨w, hvw, hw, hcol⟩ := path_again hv hlisten (by rw [hhub]) hall
      (by rw [hhub]; exact htime)
    obtain ⟨x, hwx, hx, hxpc, hready⟩ := path_collected hw hcol
    obtain ⟨y, hxy, hy, hyhub⟩ := path_drained hx hxpc
    obtain ⟨t, hyt, hcomplete⟩ := path_complete hy (by rw [hyhub])
      (by rw [hyhub]; exact hready)
    exact ⟨t, (((hsv.trans hvw).trans hwx).trans hxy).trans hyt, hcomplete⟩

/-! ### A board that comes late -/

/-- What the control service keeps for a late board. -/
def history_size : Nat := 16

/-- Two plants before the arbiter waits for them. -/
def booting (ready_timeout_ns : Nat) : Startup 2 0 Guest Nat where
  net := {
    hub := ReadyBarrier.new 2 ready_timeout_ns
    spoke := fun _ =>
      { Node.boot (unwired 1000 100) (GuestKind.plant 1000 false).guest true true with
        state := .AwaitingStartup
        headroom_threshold_ns := 0 }
    down := fun _ => []
    up := fun _ => []
    env := fun _ => Lane.empty }
  opened := fun _ => false
  history := fun _ => history_size

theorem initial_booting (ready_timeout_ns : Nat) :
    Initial ready_timeout_ns (booting ready_timeout_ns) where
  hub_eq := rfl
  spoke _ := ⟨rfl, rfl, rfl, rfl, rfl, rfl, rfl, rfl, rfl, rfl⟩
  down_eq _ := rfl
  up_eq _ := rfl
  env_eq _ := rfl
  opened_eq _ := rfl

/-- Board 1 opens its channel after the first record. Only board 0 answers it. -/
def late_start : List (Label 2) :=
  [.control_open 0, .net (.hub (.publish 0 0)), .control_open 1, .net (.take 0 ⟨0, 0⟩),
    .net (.hub (.turn 0 0 0 true)), .net (.deliver 0)]

/-- Both boards have answered, and board 0 is about to serve requests. -/
theorem startup_reaches_cluster_late : ∃ s : Startup 2 0 Guest Nat,
    s.net.hub.pc = .complete ∧ s.net.hub.last_startup = 60000000 ∧
      Reachable (Rl78Sim.system (unwired 1000 100)) Rl78Sim.AnyRun
        (s.cluster (unwired 1000 100)) := by
  obtain ⟨s, hreach, hpc, hlast⟩ : ∃ s : Startup 2 0 Guest Nat,
      Reachable (system (unwired 1000 100) 1000000000) NoInspect s ∧
        s.net.hub.pc = .complete ∧ s.net.hub.last_startup = 60000000 :=
    Reachable.exists_of_exec (late_start ++ [.net (.hub .drained), .net (.spoke 0 .drained),
        .net (.hub (.turn 60000000 60000000 60000000 true)), .net (.take 1 ⟨0, 0⟩),
        .net (.deliver 1), .net (.hub .drained),
        .net (.hub (.turn 60000000 60000000 60000000 true))])
      (initial_booting 1000000000) (by decide +kernel)
  exact ⟨s, hpc, hlast,
    startup_reaches_cluster (hreach.mono fun _ _ => NoInspect.undriven) hpc⟩

/-- Board 1 has not got the record in time. -/
theorem startup_outcome_timeout : ∃ s : Startup 2 0 Guest Nat,
    s.net.hub.pc = .timeout [1] ∧ 40000000 ≤ s.net.hub.clock ∧
      s.net.hub.peers 0 = .Ready ∧ (s.net.spoke 0).state = .Stopped ∧
      s.net.hub.peers 1 ≠ .Ready ∧
      ((s.net.spoke 1).state = .AwaitingStartup ∨ s.net.up 1 ≠ []) := by
  obtain ⟨s, hreach, hpc⟩ : ∃ s : Startup 2 0 Guest Nat,
      Reachable (system (unwired 1000 100) 40000000) AnyRun s ∧
        s.net.hub.pc = .timeout [1] :=
    Reachable.exists_of_exec (late_start ++ [.net (.hub .drained),
        .net (.hub (.turn 40000000 40000000 40000000 true))])
      (initial_booting 40000000) (by decide +kernel)
  obtain ⟨-, hclock, hmissing⟩ := (startup_outcome hreach).2.2 [1] hpc
  have htaken := (hmissing 0).1.not.mp (by decide)
  exact ⟨s, hpc, hclock, not_not.mp htaken, ((hmissing 0).2.1 (by decide)).2,
    (hmissing 1).1.mp (by decide), (hmissing 1).2.2 (by decide)⟩

/-- Board 1 has not answered the first record, and can still answer the next. -/
theorem startup_can_complete_late : ∃ s t : Startup 2 0 Guest Nat,
    s.net.hub.peers 1 = .AwaitingReady ∧ (s.net.spoke 1).state = .AwaitingStartup ∧
      Path (system (unwired 1000 100) 1000000000) Undriven s t ∧ t.net.hub.pc = .complete := by
  obtain ⟨s, hreach, hpc, hpeer, hstate, htime⟩ : ∃ s : Startup 2 0 Guest Nat,
      Reachable (system (unwired 1000 100) 1000000000) AnyRun s ∧ s.net.hub.pc = .drain ∧
        s.net.hub.peers 1 = .AwaitingReady ∧ (s.net.spoke 1).state = .AwaitingStartup ∧
        max s.net.hub.clock (s.net.hub.last_startup + startup_period_ns + 1) <
          s.net.hub.deadline :=
    Reachable.exists_of_exec late_start (initial_booting 1000000000) (by decide +kernel)
  obtain ⟨t, hpath, hcomplete⟩ := startup_can_complete hreach (.inr hpc) htime
  exact ⟨s, t, hpeer, hstate, hpath, hcomplete⟩

end Startup

end Rl78Sim
