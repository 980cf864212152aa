import Rl78Sim.Cluster.Until
import Rl78Sim.Cluster.Stops

/-! # Stop Reports and Phases

    `Start` and `GdbStep` open a phase: a run, or the wait for one instruction.
    A `HostStop` does not say in which phase its board stopped. The history
    counts do: the arbiter counts the phases it opened and a node those it
    handled, and a report is stamped with the count of its node. The queues are
    first-in first-out, so the two counts differ by what is still queued, and a
    stop report is current unless a phase was opened behind it.
-/

namespace Rl78Sim

open Transition

variable {n m : Nat} {E F : Type}

/-! ### Opening a phase -/

namespace Arbiter

/-- The step broadcasts `Start` or `GdbStep`. -/
def opens_phase (a : Arbiter n) : Act n → Bool
  | .host (.Start until_ns) => !should_stay_stopped until_ns a.vt
  | .host .Reset => true
  | .host (.Step (some _)) => true
  | .sync_finish =>
      match a.pc with
      | .sync _ none (some _) => true
      | _ => false
  | _ => false

/-- The arbiter waits for the instruction of a stepped board. -/
def waits_insn (a : Arbiter n) : Bool :=
  match a.gdb_step with
  | some (.WaitInsn _) => true
  | _ => false

/-- What the drain of `step_time_sync` has found: a stop, and the stop of the
    stepped board. -/
def found (a : Arbiter n) : Option (StopReport n) × Option (StopReport n) :=
  match a.pc with
  | .sync _ cluster_stop gdb_insn => (cluster_stop, gdb_insn)
  | _ => (none, none)

/-- The stop report that `step_time_sync` acts on once the inbox is drained:
    it ends the run, or completes the wait for an instruction. -/
def acts_on (a : Arbiter n) : Option (StopReport n) := a.found.1.or a.found.2

theorem found_sync {a : Arbiter n} {changed : Bool}
    {cluster_stop gdb_insn : Option (StopReport n)}
    (hpc : a.pc = .sync changed cluster_stop gdb_insn) : a.found = (cluster_stop, gdb_insn) := by
  rw [found, hpc]

theorem found_host {a : Arbiter n} (hpc : a.pc = .host) : a.found = (none, none) := by
  rw [found, hpc]

theorem should_stay_stopped_of_le {u : Nat} {a : Arbiter n} (h : u ≤ a.vt) :
    should_stay_stopped (some u) a.vt = true :=
  decide_eq_true h

/-- A step opens one phase or none, and counts it. -/
theorem Effect.opened {a a' : Arbiter n} {act : Act n} {out : List (ControlToNode n)}
    (h : a.Effect act a' out) :
    out.countP ControlToNode.moves = (if a.opens_phase act then 1 else 0) ∧
      a'.broadcasts = a.broadcasts + out.countP ControlToNode.moves := by
  cases h with
  | refuse u _ hu => simp [opens_phase, should_stay_stopped_of_le hu]
  | start_stops u _ hu => simp [opens_phase, should_stay_stopped_of_le hu, ControlToNode.moves]
  | start _ _ hgo => simp [opens_phase, hgo, ControlToNode.moves]
  | host_stop _ _ _ hpc => simp [opens_phase, hpc, ControlToNode.moves, stop_run]
  | catch_up _ _ hpc => simp [opens_phase, hpc, ControlToNode.moves]
  | unchanged _ hpc => simp [opens_phase, hpc]
  | republish hpc => simp [opens_phase, hpc, ControlToNode.moves]
  | until_stop _ hpc => simp [opens_phase, hpc, ControlToNode.moves, stop_run]
  | republish_until_stop hpc => simp [opens_phase, hpc, ControlToNode.moves, stop_run]
  | _ => simp [opens_phase, ControlToNode.moves, stop_run]

/-- An iteration begins and ends with nothing found. -/
theorem Effect.found_eq {a a' : Arbiter n} {act : Act n} {out : List (ControlToNode n)}
    (h : a.Effect act a' out) : a'.found = (none, none) := by
  cases h with
  | watch _ _ _ hpc => exact found_host hpc
  | refuse _ hpc => exact found_host hpc
  | start_stops _ hpc => exact found_host hpc
  | start _ hpc => exact found_host hpc
  | stop hpc => exact found_host hpc
  | stop_idle hpc => exact found_host hpc
  | reset hpc => exact found_host hpc
  | step_unknown hpc => exact found_host hpc
  | step_running _ hpc => exact found_host hpc
  | step_idle _ hpc => exact found_host hpc
  | _ => rfl

theorem Recv.broadcasts_eq {a a' : Arbiter n} {i : Fin n} {handled : Nat}
    {msg : ControlToArbiter} (h : a.Recv i handled msg a') : a'.broadcasts = a.broadcasts := by
  cases h <;> rfl

/-- What the drain has found, it had found before or finds now. -/
theorem Recv.found_cases {a a' : Arbiter n} {i : Fin n} {r : Report}
    (h : a.Recv i r.handled r.msg a') {stop : StopReport n}
    (hstop : a'.found.1 = some stop ∨ a'.found.2 = some stop) :
    (a.found.1 = some stop ∨ a.found.2 = some stop) ∨
      (r.stops = true ∧ stop.handled = r.handled) := by
  obtain ⟨msg, handled⟩ := r
  cases h with
  | ready => exact .inl hstop
  | time _ _ _ _ hpc => exact .inl (by rwa [found_sync hpc])
  | insn _ _ _ _ hpc =>
    rw [found_sync hpc]
    refine hstop.elim (fun h => .inl (.inl h)) fun h => .inr ?_
    cases h
    exact ⟨rfl, rfl⟩
  | stop _ _ _ _ hpc =>
    rw [found_sync hpc]
    refine hstop.elim (fun h => .inr ?_) fun h => .inl (.inr h)
    cases h
    exact ⟨rfl, rfl⟩

end Arbiter

/-! ### Counting phases -/

variable [Entity E F]

theorem Node.Acted.handled_eq {nd nd' : Node m E F} {l : Node.Act} {msgs : List ControlToArbiter}
    (h : nd.Acted l nd' msgs) : nd'.handled = nd.handled := by
  cases h with
  | quiet _ _ hquiet => exact hquiet.handled_eq
  | polled _ _ _ _ _ _ _ _ _ _ _ _ hquiet => exact hquiet.handled_eq

theorem Node.Took.handled_eq {i : Fin n} {nd nd' : Node m E F} {msg : ControlToNode n}
    {msgs : List ControlToArbiter} (h : nd.Took i msg nd' msgs) :
    nd'.handled = nd.handled + if msg.moves then 1 else 0 := by
  cases h with
  | gdb_step _ _ hstep => cases hstep <;> rfl
  | _ => rfl

/-- The phases that the arbiter opened are those that the node handled, and
    those still queued for it. -/
def CountLink (_ : Fin n) (a : Arbiter n) (nd : Node m E F) (down : List (ControlToNode n))
    (_ : List Report) : Prop :=
  a.broadcasts = nd.handled + down.countP ControlToNode.moves

theorem countLink_rule (ok : Guard (Cluster n m E F) (Step n)) : LinkRule ok CountLink where
  hub s l a out i _ heff hlink := by
    simp only [CountLink, List.countP_append] at hlink ⊢
    have hcount := heff.opened.2
    omega
  deliver s i r rest a _ _ hrecv hlink := hrecv.broadcasts_eq.trans hlink
  deliver_other s i j r rest a _ _ _ hrecv hlink := hrecv.broadcasts_eq.trans hlink
  act s i l nd msgs _ _ hacted hlink := by
    rw [CountLink, hacted.handled_eq]
    exact hlink
  take s i t msg rest nd msgs _ _ _ htook hlink := by
    simp only [CountLink, List.countP_cons, htook.handled_eq] at hlink ⊢
    omega

variable {cfg : Config n m} {s s' : Cluster n m E F} {l : Step n}

omit [Entity E F] in
theorem count_of_startup {q : List (ControlToNode n)} {margin_ns thr : Nat}
    (h : ∀ msg ∈ q, msg = .StartupRecord margin_ns thr) :
    q.countP ControlToNode.moves = 0 := by
  refine List.countP_eq_zero.mpr fun msg hmsg => ?_
  rw [h msg hmsg]
  simp [ControlToNode.moves]

theorem Initial.countLink (h : Initial cfg s) : Star.Net.All CountLink s := by
  intro i
  rw [CountLink, h.hub_eq, (h.spoke i).handled_eq, count_of_startup (h.down i)]
  rfl

theorem countLink_of_reachable [LawfulEntity E] {ok : Guard (Cluster n m E F) (Step n)}
    (h : Reachable (system cfg) ok s) : Star.Net.All CountLink s :=
  (countLink_rule ok).invariant (fun _ => Initial.countLink) h

/-! ### Current stop reports -/

/-- What a step of a board publishes, with the messages it leaves queued. -/
structure Publication (n : Nat) where
  board : Fin n
  queued : List (ControlToNode n)
  reports : List Report

/-- The publication of a step. -/
def published (cfg : Config n m) (s : Cluster n m E F) : Step n → Option (Publication n)
  | .spoke i l => ((s.spoke i).act cfg i s.env l).map fun (_, _, out) => ⟨i, s.down i, out⟩
  | .take i t =>
      match s.down i with
      | [] => none
      | msg :: rest =>
          ((s.spoke i).take cfg i t msg s.env).map fun (_, _, out) => ⟨i, rest, out⟩
  | _ => none

omit [Entity E F] in
theorem Node.handled_of_mem {nd : Node m E F} {msgs : List ControlToArbiter} {r : Report}
    (h : r ∈ nd.stamp msgs) : r.handled = nd.handled := by
  obtain ⟨_, -, rfl⟩ := List.mem_map.mp h
  rfl

/-- A report in flight was in flight before or is published now. -/
theorem Moved.mem_up (h : Moved cfg s l s') {i : Fin n} {r : Report} (hr : r ∈ s'.up i) :
    r ∈ s.up i ∨ ∃ out, published cfg s l = some ⟨i, s'.down i, out⟩ ∧ r ∈ out ∧
      r.handled = (s'.spoke i).handled := by
  cases h with
  | hub => exact .inl hr
  | deliver k _ rest _ hup =>
    left
    by_cases hi : i = k
    · subst hi
      rw [hup]
      exact List.mem_cons_of_mem _ (by simpa using hr)
    · simpa [Function.update_of_ne hi] using hr
  | act k _ _ nd msgs hact =>
    by_cases hi : i = k
    · subst hi
      simp only [Star.Net.move_up_self, Star.Net.move_down_self, Star.Net.move_spoke_self] at hr ⊢
      -- A report that is new comes out of this step.
      refine (List.mem_append.mp hr).imp_right fun hnew => ⟨_, ?_, hnew, Node.handled_of_mem hnew⟩
      simp only [published, hact, Option.map_some]
    · rw [Star.Net.move_up_ne _ _ _ _ _ hi] at hr
      exact .inl hr
  | take k _ _ rest _ nd msgs hdown htake =>
    by_cases hi : i = k
    · subst hi
      simp only [Star.Net.move_up_self, Star.Net.move_down_self, Star.Net.move_spoke_self] at hr ⊢
      refine (List.mem_append.mp hr).imp_right fun hnew => ⟨_, ?_, hnew, Node.handled_of_mem hnew⟩
      simp only [published, hdown, htake, Option.map_some]
    · rw [Star.Net.move_up_ne _ _ _ _ _ hi] at hr
      exact .inl hr

/-- What is published goes in flight. -/
theorem Moved.of_published (h : Moved cfg s l s') {p : Publication n}
    (hp : published cfg s l = some p) :
    s'.down p.board = p.queued ∧
      ∀ r ∈ p.reports, r ∈ s'.up p.board ∧ r.handled = (s'.spoke p.board).handled := by
  cases h with
  | hub => cases hp
  | deliver => cases hp
  | act k _ _ nd msgs hact =>
    simp only [published, hact, Option.map_some] at hp
    cases hp
    refine ⟨by simp, fun r hr => ⟨?_, by simpa using Node.handled_of_mem hr⟩⟩
    simpa using .inr hr
  | take k _ _ rest _ nd msgs hdown htake =>
    simp only [published, hdown, htake, Option.map_some] at hp
    cases hp
    refine ⟨by simp, fun r hr => ⟨?_, by simpa using Node.handled_of_mem hr⟩⟩
    simpa using .inr hr

/-- The step opens a phase. -/
def opens_phase (s : Cluster n m E F) : Step n → Bool
  | .hub act => s.hub.opens_phase act
  | _ => false

/-- The step opens no phase over a stop report in flight, and publishes none
    while a phase is queued for its board. -/
def PhaseGuard (cfg : Config n m) (s : Cluster n m E F) (l : Step n) : Prop :=
  (opens_phase s l = true → ∀ i, ∀ r ∈ s.up i, r.stops = false) ∧
    ∀ p ∈ published cfg s l,
      (∃ r ∈ p.reports, r.stops = true) → ∀ msg ∈ p.queued, msg.moves = false

instance (cfg : Config n m) (s : Cluster n m E F) (l : Step n) :
    Decidable (PhaseGuard cfg s l) :=
  inferInstanceAs (Decidable ((opens_phase s l = true → ∀ i, ∀ r ∈ s.up i, r.stops = false) ∧
    ∀ p ∈ published cfg s l,
      (∃ r ∈ p.reports, r.stops = true) → ∀ msg ∈ p.queued, msg.moves = false))

/-- Every stop report in flight is of the phase that was opened last. -/
def CurrentFlight (s : Cluster n m E F) : Prop :=
  ∀ i, ∀ r ∈ s.up i, r.stops = true → r.handled = s.hub.broadcasts

/-- So is every stop report that the drain has found. -/
structure CurrentStops (s : Cluster n m E F) : Prop where
  flight : CurrentFlight s
  found {stop : StopReport n} : s.hub.found.1 = some stop ∨ s.hub.found.2 = some stop →
    stop.handled = s.hub.broadcasts

theorem CurrentFlight.moved (h : CurrentFlight s) (hcount : Star.Net.All CountLink s')
    (hok : PhaseGuard cfg s l) (hm : Moved cfg s l s') : CurrentFlight s' := by
  intro i r hr hstop
  rcases hm.mem_up hr with hold | ⟨out, hpub, hnew, hhandled⟩
  · have hcurrent := h i r hold hstop
    cases hm with
    | hub act a out heff =>
      obtain ⟨hopened, hbroadcasts⟩ := heff.opened
      by_cases hopens : s.hub.opens_phase act = true
      · rw [hok.1 hopens i r hold] at hstop
        cases hstop
      · rw [if_neg hopens] at hopened
        dsimp only
        omega
    | deliver _ _ _ _ _ hrecv => exact hcurrent.trans hrecv.broadcasts_eq.symm
    | act | take => exact hcurrent
  · have hquiet := hok.2 _ hpub ⟨r, hnew, hstop⟩
    have hzero : (s'.down i).countP ControlToNode.moves = 0 :=
      List.countP_eq_zero.mpr fun msg hmsg => by rw [hquiet msg hmsg]; decide
    have hlink := hcount i
    rw [CountLink, hzero] at hlink
    exact hhandled.trans hlink.symm

/-- The guard is exact: a step that breaks it leaves a stop report in flight
    that is not of the phase opened last. -/
theorem CurrentFlight.moved_iff (h : CurrentFlight s) (hcount : Star.Net.All CountLink s')
    (hm : Moved cfg s l s') : CurrentFlight s' ↔ PhaseGuard cfg s l := by
  refine ⟨fun h' => ⟨fun hopens i r hr => ?_, fun p hp hstop msg hmsg => ?_⟩,
    fun hok => h.moved hcount hok hm⟩
  · cases hm with
    | act | take | deliver => cases hopens
    | hub act a out heff =>
      obtain ⟨hopened, hbroadcasts⟩ := heff.opened
      rw [if_pos (show s.hub.opens_phase act = true from hopens)] at hopened
      by_contra hstop
      have hbefore := h i r hr (by simpa using hstop)
      have hafter : r.handled = a.broadcasts := h' i r hr (by simpa using hstop)
      omega
  · obtain ⟨r, hr, hstop⟩ := hstop
    obtain ⟨hqueued, hflight⟩ := hm.of_published hp
    obtain ⟨hup, hhandled⟩ := hflight r hr
    have hlink := hcount p.board
    rw [CountLink, ← h' p.board r hup hstop, hhandled, hqueued] at hlink
    have hzero : p.queued.countP ControlToNode.moves = 0 := by omega
    simpa using List.countP_eq_zero.mp hzero msg hmsg

theorem CurrentStops.moved (h : CurrentStops s) (hcount : Star.Net.All CountLink s')
    (hok : PhaseGuard cfg s l) (hm : Moved cfg s l s') : CurrentStops s' := by
  refine ⟨h.flight.moved hcount hok hm, fun hstop => ?_⟩
  cases hm with
  | hub act a out heff =>
    rw [heff.found_eq] at hstop
    rcases hstop with hstop | hstop <;> cases hstop
  | deliver i r rest a hup hrecv =>
    rcases hrecv.found_cases hstop with hold | ⟨hstops, hhandled⟩
    · exact (h.found hold).trans hrecv.broadcasts_eq.symm
    · have hcurrent := h.flight i r (hup ▸ List.mem_cons_self) hstops
      exact hhandled.trans (hcurrent.trans hrecv.broadcasts_eq.symm)
  | act | take => exact h.found hstop

theorem currentStops_of_reachable [LawfulEntity E]
    (h : Reachable (system cfg) (PhaseGuard cfg) s) : CurrentStops s := by
  induction h with
  | init hi =>
    have hi : Initial cfg _ := hi
    refine ⟨fun i r hr hstop => ?_, fun hstop => ?_⟩
    · rw [hi.up i r hr] at hstop
      cases hstop
    · rw [hi.hub_eq] at hstop
      rcases hstop with hstop | hstop <;> cases hstop
  | step l hpre hok hstep ih =>
    exact ih.moved (countLink_of_reachable (.step l hpre hok hstep)) hok
      (step_moved (wf_of_reachable hpre) hstep)

/-! ### A stop of the host -/

/-- A stop of the host that finds no stepped board waited for leaves none. -/
theorem Arbiter.Effect.stop_noInsn {a a' : Arbiter n} {out : List (ControlToNode n)}
    (h : a.Effect (.host .Stop) a' out) (hheard : a.running = false → a.waits_insn = false) :
    a'.NoInsn := by
  have hidle {b : Arbiter n} (hpc : b.pc = .host) {changed : Bool}
      {cluster_stop gdb_insn : Option (StopReport n)}
      (hsync : b.pc = .sync changed cluster_stop gdb_insn) : gdb_insn = none := by
    rw [hpc] at hsync
    cases hsync
  cases h with
  | stop hpc => exact ⟨nofun, hidle hpc⟩
  | stop_idle hpc hrun =>
    refine ⟨fun b hb => ?_, hidle hpc⟩
    have hwait := hheard hrun
    simp [waits_insn, hb] at hwait

/-- The arbiter waits for no stepped board. -/
def NoneAwaited (s : Cluster n m E F) : Prop := s.hub.NoInsn

theorem NoneAwaited.along [LawfulEntity E] {t : Cluster n m E F} (hs : NoneAwaited s)
    (hwf : ClusterWf s) (h : Path (system cfg) WithinRun s t) : NoneAwaited t := by
  refine path_invariant_of_moved (fun _ _ _ hinsn _ hok hm => ?_) h hwf hs
  cases hm with
  | hub _ _ _ heff => exact (heff.capped (u := 0) hok hinsn).1
  | deliver _ _ _ _ _ hrecv => exact (hrecv.noInsn hinsn).1
  | act | take => exact hinsn

/-- Where no phase is opened over a stop report in flight or queued behind one,
    `step_time_sync` acts on reports of the phase opened last. A stop of the
    host that is handled while the cluster runs, or while no stepped board is
    waited for, is final until the next start, reset or gdb step. -/
theorem stop_report_current {C Ev M : Type} [Cpu C Ev F] [Model M F]
    {s : Cluster n m (Board C Ev M F) F} (h : Reachable (system cfg) AnyRun s) :
    (Reachable (system cfg) (PhaseGuard cfg) s → ∀ s' stop,
      (system cfg).step s (.hub .sync_finish) = some s' → s.hub.acts_on = some stop →
      stop.handled = s.hub.broadcasts) ∧
    ∀ s₁ s₂ s₃ act i out, (system cfg).step s (.hub (.host .Stop)) = some s₁ →
      (s.hub.running = false → s.hub.waits_insn = false) →
      Path (system cfg) WithinRun s₁ s₂ → (system cfg).step s₂ (.hub act) = some s₃ →
      starts_boards (.hub act) = false → s₃.down i = s₂.down i ++ out → ∀ c, .Start c ∉ out := by
  refine ⟨fun hguard s' stop _ hacts => ?_, fun s₁ s₂ s₃ act i out hstop hheard hpath hact => ?_⟩
  · have hfound := Option.or_eq_some_iff.mp hacts
    exact (currentStops_of_reachable hguard).found (hfound.imp_right And.right)
  · intro hquiet hout c hc
    have hwf := wf_of_reachable h
    have hr₁ : Reachable (system cfg) AnyRun s₁ := .step _ h trivial hstop
    have hr₂ : Reachable (system cfg) AnyRun s₂ := hr₁.of_path (hpath.mono fun _ _ _ => trivial)
    have hnone₁ : NoneAwaited s₁ := by
      cases step_moved hwf hstop with
      | hub _ _ _ heff => exact heff.stop_noInsn hheard
    have hnone₂ := hnone₁.along (wf_of_reachable hr₁) hpath
    cases step_moved (wf_of_reachable hr₂) hact with
    | hub _ a out' heff =>
      obtain rfl : out' = out := List.append_cancel_left hout
      cases (heff.capped (u := 0) hquiet hnone₂).2.1 _ hc

/-- Board 0 stops at its breakpoint, and its report ends the run. -/
def breakpoint_run : List (Step 2) :=
  host (.Start none) :: receive 0 1 ++ receive 1 1 ++ poll_loop 0 ++ [.hub .sync_begin, .deliver 0]

theorem stop_report_current_breakpoint :
    ∃ s s' : GuestCluster 2 0,
      Reachable (system (unwired 1000000 100000)) (PhaseGuard (unwired 1000000 100000)) s ∧
      (system (unwired 1000000 100000)).step s (.hub .sync_finish) = some s' ∧
      s.hub.running = true ∧ s'.hub.running = false ∧
      ∃ stop, s.hub.acts_on = some stop ∧ stop.handled = s.hub.broadcasts := by
  obtain ⟨s, s', hs, hstep, hrun, hidle, hsome⟩ : ∃ s s' : GuestCluster 2 0,
      Reachable (system (unwired 1000000 100000)) (PhaseGuard (unwired 1000000 100000)) s ∧
      (system (unwired 1000000 100000)).step s (.hub .sync_finish) = some s' ∧
      s.hub.running = true ∧ s'.hub.running = false ∧ s.hub.acts_on.isSome = true :=
    Reachable.exists_step_of_exec breakpoint_run (initial_guests _ stop_kinds) (by decide +kernel)
  obtain ⟨stop, hacts⟩ := Option.isSome_iff_exists.mp hsome
  have hany : Reachable (system (unwired 1000000 100000)) AnyRun s := hs.mono fun _ _ _ => trivial
  exact ⟨s, s', hs, hstep, hrun, hidle, stop, hacts,
    (stop_report_current hany).1 hs s' stop hstep hacts⟩

/-- Two chips that stop at the same breakpoint. -/
def two_stops (_ : Fin 2) : GuestKind := .chip [] [5]

/-- Both chips stop; the report of board 0 ends the run, and the one of board 1
    is taken in the next. -/
def two_stops_run : List (Step 2) :=
  host (.Start none) :: receive 0 1 ++ receive 1 1 ++ poll_loop 0 ++ poll_loop 1 ++ sync [0] ++
    [host (.Start none), .hub .sync_begin, .deliver 1]

/-- Board 0 makes its step after the host stopped the cluster. -/
def late_step_run : List (Step 2) :=
  receive 0 1 ++ [.hub .sync_begin, .deliver 0, .deliver 0]

/-- The report of the first run ends the second one; and after a stop of the
    host the arbiter starts the catch-up of a gdb step. -/
theorem stale_stop_ends_run :
    (∃ s s' : GuestCluster 2 0, Reachable (system (unwired 1000000 100000)) AnyRun s ∧
      (system (unwired 1000000 100000)).step s (.hub .sync_finish) = some s' ∧
      s.hub.running = true ∧ s'.hub.running = false ∧
      (s.hub.acts_on.any fun stop => stop.handled ≠ s.hub.broadcasts) = true) ∧
    ∃ s s₁ s₂ s₃ : GuestCluster 2 0, Reachable (system (unwired 1000000 100000)) AnyRun s ∧
      (system (unwired 1000000 100000)).step s (.hub (.host .Stop)) = some s₁ ∧
      Path (system (unwired 1000000 100000)) WithinRun s₁ s₂ ∧
      (system (unwired 1000000 100000)).step s₂ (.hub .sync_finish) = some s₃ ∧
      s₂.down 0 = [] ∧ s₃.down 0 = [.Start 10000] := by
  refine ⟨Reachable.exists_step_of_exec two_stops_run (initial_guests _ two_stops)
    (by decide +kernel), ?_⟩
  obtain ⟨s, s₁, hs, hstop, hrest⟩ : ∃ s s₁ : GuestCluster 2 0,
      Reachable (system (unwired 1000000 100000)) AnyRun s ∧
      (system (unwired 1000000 100000)).step s (.hub (.host .Stop)) = some s₁ ∧
      (((system (unwired 1000000 100000)).exec WithinRun s₁ late_step_run).any fun s₂ =>
        ((system (unwired 1000000 100000)).step s₂ (.hub .sync_finish)).any fun s₃ =>
          s₂.down 0 = [] ∧ s₃.down 0 = [.Start 10000]) = true :=
    Reachable.exists_step_of_exec [host (.Step (some 0))] (initial_guests _ stop_kinds)
      (by decide +kernel)
  obtain ⟨s₂, hexec, hrest⟩ := (Option.any_eq_true _ _).mp hrest
  obtain ⟨s₃, hfinish, hsent⟩ := (Option.any_eq_true _ _).mp hrest
  exact ⟨s, s₁, s₂, s₃, hs, hstop, .of_exec hexec, hfinish, of_decide_eq_true hsent⟩

end Rl78Sim
