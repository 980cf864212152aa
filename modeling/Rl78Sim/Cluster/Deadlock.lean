import Rl78Sim.Cluster.Progress
import Rl78Sim.Cluster.Topology

/-! # Runs without a Target

    After a start without a target the arbiter keeps every board's last queued
    ceiling at `min(reports) + margin`. A board at rest below its ceiling has
    reported its clock, so at rest every board stands where its report says;
    the board with the least report then stands a margin below its ceiling.
-/

namespace Rl78Sim

open Transition

variable {n m : Nat} {E F : Type} [Entity E F]

/-! ### The arbiter in such a run -/

/-- The step handles a host command. -/
def is_command : Step n → Bool
  | .hub (.host _) => true
  | _ => false

/-- The arbiter takes a stop report. -/
def takes_stop (s : Cluster n m E F) : Step n → Bool
  | .deliver i =>
      match s.up i with
      | ⟨.HostStop _, _⟩ :: _ => true
      | _ => false
  | _ => false

/-- The arbiter runs without a target and has seen no stop report. Its ceiling
    is the one it published last, unless a report has just come in. -/
structure FreeArbiter (a : Arbiter n) : Prop where
  running : a.running = true
  until_cap : a.until_cap = none
  sync {changed : Bool} {cluster_stop gdb_insn : Option (StopReport n)} :
    a.pc = .sync changed cluster_stop gdb_insn → cluster_stop = none ∧ gdb_insn = none
  fresh : a.pc = .sync true none none ∨ a.allowed = a.ceiling.allowed_ns

/-- The message only sets a ceiling or a probe watch. -/
def ControlToNode.steady : ControlToNode n → Bool
  | .Allowed _ => true
  | .ProbeWatch _ _ _ => true
  | _ => false

/-- The ceiling that a node with ceiling `c` has once it handled `q`. -/
def last_ceiling (c : Nat) (q : List (ControlToNode n)) : Nat :=
  q.foldl (fun c msg => msg.ceiling_of.getD c) c

theorem last_ceiling_append (c : Nat) (q out : List (ControlToNode n)) :
    last_ceiling c (q ++ out) = last_ceiling (last_ceiling c q) out :=
  List.foldl_append

namespace Arbiter

/-- Without a command and without a stop report the run goes on, and what is
    published is the arbiter's ceiling. -/
theorem Effect.free {a a' : Arbiter n} {act : Arbiter.Act n} {out : List (ControlToNode n)}
    (h : a.Effect act a' out) (hact : is_command (.hub act) = false) (hfree : FreeArbiter a) :
    FreeArbiter a' ∧ a'.ceiling = a.ceiling ∧ (∀ msg ∈ out, msg.steady = true) ∧
      last_ceiling a.allowed out = a'.allowed := by
  obtain ⟨hrun, hcap, hsync, hfresh⟩ := hfree
  have hnone {v : Nat} : reached_until a.until_cap v = false := by rw [hcap]; rfl
  cases h with
  | watch => exact ⟨⟨hrun, hcap, hsync, hfresh⟩, rfl, by simp [ControlToNode.steady], rfl⟩
  | sync_begin hpc =>
    refine ⟨⟨hrun, hcap, by rintro _ _ _ ⟨⟩; exact ⟨rfl, rfl⟩, .inr ?_⟩, rfl, nofun, rfl⟩
    exact hfresh.resolve_left (by rw [hpc]; nofun)
  | host_stop _ _ _ hpc => cases (hsync hpc).1
  -- Without a step or a target, the round ends in one of the next two ways.
  | catch_up _ _ hpc => cases (hsync hpc).2
  | unchanged changed hpc hsame =>
    refine ⟨⟨hrun, hcap, nofun, .inr ?_⟩, rfl, nofun, rfl⟩
    cases changed with
    | true =>
      have heq := hsame rfl
      rw [hcap] at heq
      exact heq.symm
    | false => exact hfresh.resolve_left (by rw [hpc]; nofun)
  | republish =>
    refine ⟨⟨hrun, hcap, nofun, .inr ?_⟩, rfl, by simp [ControlToNode.steady], rfl⟩
    dsimp only
    rw [hcap]
    rfl
  | until_stop _ _ _ hreach => rw [hnone] at hreach; cases hreach
  | republish_until_stop _ hreach => rw [hnone] at hreach; cases hreach
  | _ => cases hact

theorem Recv.free {a a' : Arbiter n} {i : Fin n} {handled : Nat} {msg : ControlToArbiter}
    (h : a.Recv i handled msg a') (hmsg : ∀ reason, msg ≠ .HostStop reason)
    (hfree : FreeArbiter a) : FreeArbiter a' ∧ a'.allowed = a.allowed := by
  cases h with
  | ready => exact ⟨hfree, rfl⟩
  | time _ _ _ _ hpc =>
    obtain ⟨rfl, rfl⟩ := hfree.sync hpc
    refine ⟨⟨hfree.running, hfree.until_cap, ?_, .inl rfl⟩, rfl⟩
    rintro _ _ _ ⟨⟩
    exact ⟨rfl, rfl⟩
  | insn => exact absurd rfl (hmsg _)
  | stop => exact absurd rfl (hmsg _)

end Arbiter

/-! ### The link of a board -/

/-- The board that handles a ceiling behind which no start is queued, and the
    ceiling. -/
def handles_ceiling (s : Cluster n m E F) : Step n → Option (Fin n × Nat)
  | .take i _ =>
      match s.down i with
      | msg :: rest =>
          if rest.all fun msg => !msg.moves then msg.ceiling_of.map (i, ·) else none
      | [] => none
  | _ => none

/-- A board that handles a ceiling is below it, or has reported its clock. -/
def CeilingGuard (s : Cluster n m E F) (l : Step n) : Prop :=
  ∀ p ∈ handles_ceiling s l, (s.spoke p.1).now < p.2 ∨
    (s.spoke p.1).now ≤ latest s.hub p.1 (s.up p.1)

instance (s : Cluster n m E F) (l : Step n) : Decidable (CeilingGuard s l) :=
  inferInstanceAs (Decidable (∀ p ∈ handles_ceiling s l, (s.spoke p.1).now < p.2 ∨
    (s.spoke p.1).now ≤ latest s.hub p.1 (s.up p.1)))

omit [Entity E F] in
theorem takes_stop_eq_false {s : Cluster n m E F} {i : Fin n} {r : Report} {rest : List Report}
    (h : takes_stop s (.deliver i) = false) (hup : s.up i = r :: rest) (reason : HostStopReason) :
    r.msg ≠ .HostStop reason := by
  obtain ⟨msg, handled⟩ := r
  rintro rfl
  simp [takes_stop, hup] at h

/-- What only sets a ceiling or a watch starts and moves no board. -/
theorem ControlToNode.moves_of_steady {msg : ControlToNode n} (h : msg.steady = true) :
    msg.moves = false := by
  cases msg <;> first | rfl | cases h

/-- No command, and no stop report. -/
def Undisturbed (s : Cluster n m E F) (l : Step n) : Prop :=
  is_command l = false ∧ takes_stop s l = false

instance (s : Cluster n m E F) (l : Step n) : Decidable (Undisturbed s l) :=
  inferInstanceAs (Decidable (_ ∧ _))

/-- The steps of a run without a target. -/
def FreeRun (s : Cluster n m E F) (l : Step n) : Prop := Undisturbed s l ∧ CeilingGuard s l

instance (s : Cluster n m E F) (l : Step n) : Decidable (FreeRun s l) :=
  inferInstanceAs (Decidable (_ ∧ _))

/-- The start of the run is on its way. -/
def RunQueued (allowed : Nat) : List (ControlToNode n) → Prop :=
  Fifo.Followed fun msg post => (∀ msg ∈ post, msg.steady = true) ∧
    ∃ c, msg = .Start c ∧ last_ceiling c post = allowed

/-- The node has handled the start. It is below its ceiling, or has reported its
    clock. -/
structure RunHandled (i : Fin n) (a : Arbiter n) (nd : Node m E F)
    (down : List (ControlToNode n)) (up : List Report) : Prop where
  running : nd.state = .Running
  steady : ∀ msg ∈ down, msg.steady = true
  last : last_ceiling nd.allowed_ns down = a.allowed
  reported : nd.now < nd.allowed_ns ∨ nd.now ≤ latest a i up

/-- The link of a board in a run without a target. -/
def FreeLink (i : Fin n) (a : Arbiter n) (nd : Node m E F) (down : List (ControlToNode n))
    (up : List Report) : Prop :=
  FreeArbiter a ∧ (RunQueued a.allowed down ∨ RunHandled i a nd down up)

section link

variable {nd nd' : Node m E F} {i : Fin n} {a : Arbiter n} {msg : ControlToNode n}
  {down rest : List (ControlToNode n)} {up : List Report} {msgs : List ControlToArbiter}

theorem RunQueued.append {allowed allowed' : Nat} {out : List (ControlToNode n)}
    (h : RunQueued allowed down) (hout : ∀ msg ∈ out, msg.steady = true)
    (hlast : last_ceiling allowed out = allowed') : RunQueued allowed' (down ++ out) := by
  refine Fifo.Followed.append h ?_
  rintro _ post ⟨hpost, c, rfl, hc⟩
  refine ⟨fun msg hmsg => (List.mem_append.mp hmsg).elim (hpost msg) (hout msg), c, rfl, ?_⟩
  rw [last_ceiling_append, hc, hlast]

/-- A step of the node keeps it below a ceiling, or its clock reported. -/
theorem Node.Acted.reported {b : Nat} {l : Node.Act} (hacted : nd.Acted l nd' msgs)
    (hwf : nd.Wf) (hthr : 1 ≤ nd.headroom_threshold_ns)
    (hlast : ∀ v, nd.last_time_report = some v → v ≤ nd.now)
    (hceil : nd.state = .Running → nd.allowed_ns ≤ b)
    (h : nd.now < b ∨ nd.now ≤ latest a i up) :
    nd'.now < b ∨ nd'.now ≤ latest a i (up ++ nd'.stamp msgs) := by
  rcases hacted.times_eq with hnil | hone
  · rw [latest_append_of_times_nil hnil]
    rcases hacted.reports_at hwf hthr hlast hceil with hsame | hbefore | hrep
    · exact hsame ▸ h
    · exact .inl hbefore
    · rw [hnil] at hrep
      cases hrep
  · exact .inr (latest_append_of_times hone ▸ Nat.le_refl _)

/-- Handling a message does the same: a gdb step reports. -/
theorem Node.Took.reported [LawfulEntity E] {b : Nat} (htook : nd.Took i msg nd' msgs)
    (h : nd.now < b ∨ nd.now ≤ latest a i up) :
    nd'.now < b ∨ nd'.now ≤ latest a i (up ++ nd'.stamp msgs) := by
  rcases htook.times_eq with hnil | hone
  · rw [latest_append_of_times_nil hnil]
    exact (htook.now_eq_of_times hnil).symm ▸ h
  · exact .inr (latest_append_of_times hone ▸ Nat.le_refl _)

/-- Handling a message of the run. -/
theorem RunHandled.took [LawfulEntity E] (h : RunHandled i a nd (msg :: rest) up)
    (htook : nd.Took i msg nd' msgs)
    (hguard : ∀ c, msg.ceiling_of = some c → nd.now < c ∨ nd.now ≤ latest a i up) :
    RunHandled i a nd' rest (up ++ nd'.stamp msgs) := by
  have hsteady := h.steady msg List.mem_cons_self
  have hrest (m) (hm : m ∈ rest) : m.steady = true := h.steady m (List.mem_cons_of_mem _ hm)
  have hlast := h.last
  have hreported {b : Nat} (hb : nd.now < b ∨ nd.now ≤ latest a i up) := htook.reported hb
  cases htook with
  | allowed c => exact ⟨h.running, hrest, hlast, hreported (hguard c rfl)⟩
  | watch => exact ⟨h.running, hrest, hlast, hreported h.reported⟩
  | _ => cases hsteady

/-- Handling the start of the run. -/
theorem RunHandled.of_start [LawfulEntity E] {c : Nat} (hrest : ∀ msg ∈ rest, msg.steady = true)
    (hlast : last_ceiling c rest = a.allowed) (htook : nd.Took i (.Start c) nd' msgs)
    (hguard : nd.now < c ∨ nd.now ≤ latest a i up) :
    RunHandled i a nd' rest (up ++ nd'.stamp msgs) := by
  have hreported := htook.reported hguard
  cases htook
  exact ⟨rfl, hrest, hlast, hreported⟩

end link

variable {cfg : Config n m} {s s' : Cluster n m E F}

theorem freeLink_rule [LawfulEntity E] (hthr : 1 ≤ cfg.headroom_threshold_ns) :
    LinkRule (fun s l => FreeRun s l ∧ Star.Net.All (ReportLink cfg) s)
      (FreeLink (n := n) (m := m) (E := E)) where
  hub s l a out i hok heff hlink := by
    obtain ⟨hfree, hceil, hsteady, hlast⟩ := heff.free hok.1.1.1 hlink.1
    refine ⟨hfree, hlink.2.imp (·.append hsteady hlast) fun h => ?_⟩
    refine ⟨h.running, fun msg hmsg => ?_, by rw [last_ceiling_append, h.last, hlast], ?_⟩
    · exact (List.mem_append.mp hmsg).elim (h.steady msg) (hsteady msg)
    · simpa only [latest, hceil] using h.reported
  deliver s i r rest a hok hup hrecv hlink := by
    obtain ⟨hfree, hallowed⟩ := hrecv.free (takes_stop_eq_false hok.1.1.2 hup) hlink.1
    refine ⟨hfree, hallowed ▸ hlink.2.imp_right fun h => ?_⟩
    exact ⟨h.running, h.steady, hallowed ▸ h.last, hrecv.latest_eq ▸ h.reported⟩
  deliver_other s i j r rest a hj hok hup hrecv hlink := by
    obtain ⟨hfree, hallowed⟩ := hrecv.free (takes_stop_eq_false hok.1.1.2 hup) hlink.1
    refine ⟨hfree, hallowed ▸ hlink.2.imp_right fun h => ?_⟩
    exact ⟨h.running, h.steady, hallowed ▸ h.last, hrecv.latest_ne hj _ ▸ h.reported⟩
  act s i l nd msgs hok hwf hacted hlink := by
    have hrep := hok.2 i
    refine ⟨hlink.1, hlink.2.imp_right fun h => ?_⟩
    refine ⟨hacted.state_eq.trans h.running, h.steady, hacted.allowed_ns_eq ▸ h.last, ?_⟩
    rw [hacted.allowed_ns_eq]
    exact hacted.reported hwf (hrep.thr_eq ▸ hthr) (fun _ => hrep.last_le)
      (fun _ => Nat.le_refl _) h.reported
  take s i t msg rest nd msgs hok _ hdown htook hlink := by
    -- The guard speaks of the last ceiling in the queue.
    have hguard (hmoves : ∀ msg ∈ rest, msg.moves = false) (c : Nat)
        (hc : msg.ceiling_of = some c) :
        (s.spoke i).now < c ∨ (s.spoke i).now ≤ latest s.hub i (s.up i) := by
      have hall : rest.all (fun msg => !msg.moves) = true := by simpa using hmoves
      exact hok.1.2 (i, c) (by simp [handles_ceiling, hdown, hall, hc])
    refine ⟨hlink.1, hlink.2.elim (fun h => ?_) fun h => .inr ?_⟩
    · refine h.take.imp_right ?_
      rintro ⟨hrest, c, rfl, hlast⟩
      exact .of_start hrest hlast htook
        (hguard (fun m hm => ControlToNode.moves_of_steady (hrest m hm)) c rfl)
    · exact h.took htook (hguard fun m hm =>
        ControlToNode.moves_of_steady (h.steady m (List.mem_cons_of_mem _ hm)))

/-- The link of every board right after the arbiter broadcast the start. -/
theorem freeLink_of_start (hm : Moved cfg s (.hub (.host (.Start none))) s') :
    Star.Net.All FreeLink s' := by
  cases hm with
  | hub _ a out heff =>
    cases heff with
    | start _ hpc =>
      refine fun i => ⟨⟨rfl, rfl, fun hsync => ?_, .inr rfl⟩, .inl (.send _ ⟨nofun, _, rfl, rfl⟩)⟩
      rw [show _ = ArbiterPc.host from hpc] at hsync
      cases hsync

theorem margin_of_reachable [LawfulEntity E] {ok : Guard (Cluster n m E F) (Step n)}
    (h : Reachable (system cfg) ok s) : s.hub.ceiling.margin_ns = cfg.margin_ns :=
  invariant_of_moved (fun _ hs => by rw [hs.hub_eq]; rfl)
    (fun _ _ _ hs _ _ hm => hm.margin_eq.trans hs) h

/-- A cluster at rest in such a run stands at the end of time. -/
theorem FreeLink.end_of_time (hlink : Star.Net.All FreeLink s)
    (hmargin : 1 ≤ s.hub.ceiling.margin_ns) (hrest : Quiescent s) (i : Fin n) :
    u64_max ≤ (s.spoke i).now := by
  have hn : 0 < n := i.pos
  have hboard (j : Fin n) : s.hub.ceiling.allowed_ns ≤ (s.spoke j).now ∧
      (s.spoke j).now ≤ s.hub.ceiling.reports j := by
    obtain ⟨hfree, hqueued | hhandled⟩ := hlink j
    · rw [hrest.down j] at hqueued
      exact absurd hqueued Fifo.not_followed_nil
    · have hlast := hhandled.last
      have hreported := hhandled.reported
      have hceil := hrest.ceiling j hhandled.running
      rw [hrest.down j] at hlast
      rw [hrest.up j, latest_nil] at hreported
      have hpc := (s.hub.idle_iff.mp hrest.arbiter).1
      have hfresh := hfree.fresh.resolve_left (by rw [hpc]; nofun)
      have hallowed : (s.spoke j).allowed_ns = s.hub.ceiling.allowed_ns := hlast.trans hfresh
      exact ⟨hallowed ▸ hceil, hreported.resolve_left (Nat.not_lt.mpr hceil)⟩
  -- The board with the least report is below the ceiling unless the clock is full.
  obtain ⟨j, hj⟩ := s.hub.ceiling.exists_virtual_time hn
  have hleast := Nat.le_trans (hboard j).1 (hj ▸ (hboard j).2)
  refine Nat.le_trans ?_ (hboard i).1
  unfold TimeCeiling.allowed_ns at hleast ⊢
  unfold saturating_add at hleast ⊢
  omega

/-- On an accepted topology with a positive margin and threshold, a run without
    a target comes to rest only at the end of time. -/
theorem no_deadlock {C Ev M : Type} [Cpu C Ev F] [Model M F]
    {check_spec : String → Except String Unit} {topo : LogicalTopology}
    (haccept : topo.validate check_spec = .ok ()) (hmargin : 1 ≤ topo.margin_ns)
    (hthr : 1 ≤ topo.headroom_threshold_ns)
    {s₀ s₁ s₂ : Cluster topo.boards.length topo.edges.length (Board C Ev M F) F}
    (h₀ : Reachable (system (LogicalTopology.config haccept)) AnyRun s₀)
    (hstart : (system (LogicalTopology.config haccept)).step s₀ (.hub (.host (.Start none))) =
      some s₁)
    (h₁₂ : Path (system (LogicalTopology.config haccept)) FreeRun s₁ s₂)
    (htime : ∃ i, (s₂.spoke i).now < u64_max) : ¬ Quiescent s₂ := by
  intro hrest
  obtain ⟨i, hi⟩ := htime
  have hr₁ : Reachable (system (LogicalTopology.config haccept)) AnyRun s₁ :=
    .step _ h₀ trivial hstart
  have hr₂ : Reachable (system (LogicalTopology.config haccept)) AnyRun s₂ :=
    hr₁.of_path (h₁₂.mono fun _ _ _ => trivial)
  have hlink₁ := freeLink_of_start (step_moved (wf_of_reachable h₀) hstart)
  have hpath := (reportLink_rule FreeRun).strengthen h₁₂ (wf_of_reachable hr₁)
    (reportLink_of_reachable hr₁)
  have hlink₂ := (freeLink_rule hthr).along hpath (wf_of_reachable hr₁) hlink₁
  have hmargin₂ : 1 ≤ s₂.hub.ceiling.margin_ns := margin_of_reachable hr₂ ▸ hmargin
  exact absurd (FreeLink.end_of_time hlink₂ hmargin₂ hrest i) (Nat.not_le.mpr hi)

/-! ### Two boards -/

/-- Two boards without firmware and without an edge. -/
def two_boards (margin_ns headroom_threshold_ns : Nat) : LogicalTopology where
  boards := [⟨"a", "rl78", none, []⟩, ⟨"b", "plant", none, []⟩]
  edges := []
  margin_ns := margin_ns
  headroom_threshold_ns := headroom_threshold_ns
  ready_timeout_ms := 10000

/-- `validate` accepts any margin and any threshold. -/
theorem two_boards_accepted (margin_ns headroom_threshold_ns : Nat) :
    (two_boards margin_ns headroom_threshold_ns).validate (fun _ => .ok ()) = .ok () := rfl

/-- Their cluster. -/
def two_boards_config (margin_ns headroom_threshold_ns : Nat) : Config 2 0 :=
  LogicalTopology.config (two_boards_accepted margin_ns headroom_threshold_ns)

/-- Both boards run to the ceiling of 1000. -/
def ceiling_run : List (Step 2) :=
  receive 0 1 ++ receive 1 1 ++ full_loop 0 ++ full_loop 0 ++ full_loop 1 ++ full_loop 1

theorem no_deadlock_two_boards :
    ∃ s₁ s₂ : GuestCluster 2 0,
      (system (two_boards_config 1000 100)).step (plants (two_boards_config 1000 100) 10000 false)
        (.hub (.host (.Start none))) = some s₁ ∧
      Path (system (two_boards_config 1000 100)) FreeRun s₁ s₂ ∧
      (∀ i, (s₂.spoke i).now = 1000) ∧ ¬ Quiescent s₂ := by
  have hrun : (((system (two_boards_config 1000 100)).step
      (plants (two_boards_config 1000 100) 10000 false) (.hub (.host (.Start none)))).any
        fun s₁ => ((system (two_boards_config 1000 100)).exec FreeRun s₁
          (ceiling_run ++ sync [0, 1] ++ receive 0 1)).any
            fun s₂ => ∀ i, (s₂.spoke i).now = 1000) = true := by
    decide +kernel
  obtain ⟨s₁, hstart, hrest⟩ := (Option.any_eq_true _ _).mp hrun
  obtain ⟨s₂, hexec, hnow⟩ := (Option.any_eq_true _ _).mp hrest
  have hnow := of_decide_eq_true hnow
  have hpath := Path.of_exec hexec
  have htime : (s₂.spoke 0).now < u64_max := by rw [hnow]; decide
  exact ⟨s₁, s₂, hstart, hpath, hnow,
    no_deadlock (two_boards_accepted 1000 100) (by decide) (by decide)
      (.init (initial_plants _ 10000 false)) hstart hpath ⟨(0 : Fin 2), htime⟩⟩

/-- Started and left alone, two boards come to rest below the end of time. -/
def ComesToRest (margin threshold : Nat) : Prop :=
  ∃ s₁ s₂ : GuestCluster 2 0,
    (system (two_boards_config margin threshold)).step
      (plants (two_boards_config margin threshold) 10000 false) (.hub (.host (.Start none))) =
        some s₁ ∧
    Path (system (two_boards_config margin threshold)) Undisturbed s₁ s₂ ∧
    Quiescent s₂ ∧ ∀ i, (s₂.spoke i).now < u64_max

theorem comes_to_rest_of_zero : ∀ p ∈ [(0, 100), (1000, 0)], ComesToRest p.1 p.2 := by
  intro p hp
  have hrun : (((system (two_boards_config p.1 p.2)).step
      (plants (two_boards_config p.1 p.2) 10000 false) (.hub (.host (.Start none)))).any
        fun s₁ => ((system (two_boards_config p.1 p.2)).exec Undisturbed s₁
          (if p.1 = 0 then receive 0 1 ++ receive 1 1 else ceiling_run)).any fun s₂ =>
            (∀ i, s₂.down i = []) ∧ (∀ i, s₂.up i = []) ∧ s₂.hub.pc = .host ∧
            Arbiter.reached_until s₂.hub.until_cap s₂.hub.vt = false ∧
            (∀ i, (s₂.spoke i).allowed_ns ≤ (s₂.spoke i).now) ∧
            ∀ i, (s₂.spoke i).now < u64_max) = true := by
    revert p
    decide +kernel
  obtain ⟨s₁, hstart, hrest⟩ := (Option.any_eq_true _ _).mp hrun
  obtain ⟨s₂, hexec, hend⟩ := (Option.any_eq_true _ _).mp hrest
  obtain ⟨hdown, hup, hpc, hreach, hceil, htime⟩ := of_decide_eq_true hend
  have hidle := s₂.hub.idle_iff.mpr ⟨hpc, hreach⟩
  exact ⟨s₁, s₂, hstart, .of_exec hexec, ⟨⟨hdown, hup, hidle⟩, fun i _ => hceil i⟩, htime⟩

/-- The cluster comes to rest at once or at its first ceiling: with margin zero
    no board may move, and with threshold zero no board reports. -/
theorem deadlock_of_zero : ComesToRest 0 100 ∧ ComesToRest 1000 0 :=
  ⟨comes_to_rest_of_zero (0, 100) (by simp), comes_to_rest_of_zero (1000, 0) (by simp)⟩

end Rl78Sim
