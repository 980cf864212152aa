import Rl78Sim.Cluster.Phases

/-! # The Session of the Arbiter

    The arbiter by itself, with any commands from the host and any reports from
    the nodes: nothing is assumed of the order in which they come, nor that the
    reports are ones that the nodes would send.

    The variables of `run_host_session` are tied together at the end of every
    loop iteration. Within an iteration a stop report moves a peer before the
    run is ended, so the tie between `running` and the peers is stated with the
    stop that the drain has found. -/

namespace Rl78Sim

open Transition

variable {n m : Nat}

/-- A step of the session: of the arbiter, or a report that it takes. -/
inductive SessionStep (n : Nat) where
  | act (l : Arbiter.Act n)
  | recv (i : Fin n) (r : Report)

/-- The session of a cluster, from the state after the Ready barrier. -/
def session (cfg : Config n m) : System (Arbiter n) (SessionStep n) where
  init a := a = Arbiter.new n cfg.margin_ns
  step a
    | .act l => (a.act l).map Prod.fst
    | .recv i r => a.sync_recv i r

/-- Any commands and any reports. -/
def AnySession (_ : Arbiter n) (_ : SessionStep n) : Prop := True

instance (a : Arbiter n) (l : SessionStep n) : Decidable (AnySession a l) := .isTrue trivial

namespace Arbiter

/-! ### What is published -/

/-- What `write_status` publishes of the arbiter. -/
structure Status where
  running : Bool
  virtual_time_ns : Nat
  stop_reason : Option HostStopReason
  deriving DecidableEq

/-- The status at the end of an iteration: a running cluster has no reason. -/
def status (a : Arbiter n) : Status :=
  ⟨a.running, a.vt, if a.running then none else a.last_stop_reason⟩

/-- The end of an iteration: a status that changed is published, and any
    status when the last one is old. `reported` is what was published last. -/
def report_status (a : Arbiter n) (reported : Status) (due : Bool) : Status :=
  if a.status ≠ reported ∨ due then a.status else reported

/-- What was published last is the status of the arbiter. -/
theorem report_status_eq (a : Arbiter n) (reported : Status) (due : Bool) :
    a.report_status reported due = a.status := by
  unfold report_status
  split
  · rfl
  · rename_i hsame
    by_contra hne
    exact hsame (.inl (Ne.symm hne))

/-! ### The invariant -/

/-- The ties between the variables of the session. -/
structure Tied (a : Arbiter n) : Prop where
  ready : ∀ i, a.peers i ≠ .AwaitingReady
  wait : ∀ b, a.gdb_step = some (.WaitInsn b) → a.running = false
  catch_up : ∀ reason, a.gdb_step = some (.CatchUp reason) →
    a.running = true ∧ a.until_cap.isSome = true
  cap : a.running = false → a.until_cap = none
  reason : a.running = true → a.last_stop_reason = none
  run : a.running = true → ∀ i, a.peers i = .Running ∨ a.found.1.isSome = true
  stand : a.running = false → ∀ i, a.peers i ≠ .Running

theorem tied_new (margin_ns : Nat) : (Arbiter.new n margin_ns).Tied where
  ready i := by simp [Arbiter.new]
  wait b h := by cases h
  catch_up reason h := by cases h
  cap _ := rfl
  reason h := by cases h
  run h := by cases h
  stand _ i := by simp [Arbiter.new]

/-- A peer past the Ready barrier is running after a start. -/
theorem running_of_start {a : Arbiter n} (h : ∀ i, a.peers i ≠ .AwaitingReady) (i : Fin n) :
    (a.peers i).on_start_broadcast = .Running := by
  cases hpeer : a.peers i with
  | AwaitingReady => exact absurd hpeer (h i)
  | _ => rfl

/-- An arbiter that has left the running state for a reason is tied. -/
theorem tied_of_stopped {a : Arbiter n} (hrun : a.running = false) (hcap : a.until_cap = none)
    (hpeers : ∀ i, a.peers i = .Stopped) (hgdb : ∀ reason, a.gdb_step ≠ some (.CatchUp reason)) :
    a.Tied where
  ready i := by rw [hpeers i]; decide
  wait _ _ := hrun
  catch_up reason h := absurd h (hgdb reason)
  cap _ := hcap
  reason h := by rw [hrun] at h; cases h
  run h := by rw [hrun] at h; cases h
  stand _ i := by rw [hpeers i]; decide

/-- An arbiter that has just started the nodes is tied. -/
theorem tied_of_started {a : Arbiter n} (hrun : a.running = true)
    (hpeers : ∀ i, a.peers i = .Running) (hreason : a.last_stop_reason = none)
    (hgdb : a.gdb_step = none ∨
      ∃ reason, a.gdb_step = some (.CatchUp reason) ∧ a.until_cap.isSome = true) : a.Tied where
  ready i := by rw [hpeers i]; decide
  wait b h := by
    rcases hgdb with hnone | ⟨reason, hphase, -⟩
    · rw [hnone] at h
      cases h
    · rw [hphase] at h
      cases h
  catch_up reason h := by
    rcases hgdb with hnone | ⟨_, -, hcap⟩
    · rw [hnone] at h
      cases h
    · exact ⟨hrun, hcap⟩
  cap h := by rw [hrun] at h; cases h
  reason _ := hreason
  run _ i := .inl (hpeers i)
  stand h := by rw [hrun] at h; cases h

/-- The ties do not look at the position in the loop, but for what was found. -/
theorem Tied.of_same {a a' : Arbiter n} (h : a.Tied) (hpeers : a'.peers = a.peers)
    (hgdb : a'.gdb_step = a.gdb_step) (hrun : a'.running = a.running)
    (hcap : a'.until_cap = a.until_cap) (hreason : a'.last_stop_reason = a.last_stop_reason)
    (hfound : a.found.1 = none) : a'.Tied where
  ready i := by rw [hpeers]; exact h.ready i
  wait b hb := by rw [hrun]; exact h.wait b (hgdb ▸ hb)
  catch_up reason hr := by rw [hrun, hcap]; exact h.catch_up reason (hgdb ▸ hr)
  cap hr := by rw [hcap]; exact h.cap (hrun ▸ hr)
  reason hr := by rw [hreason]; exact h.reason (hrun ▸ hr)
  run hr i := by
    rw [hpeers]
    refine .inl ((h.run (hrun ▸ hr) i).resolve_right ?_)
    rw [hfound]
    simp
  stand hr i := by rw [hpeers]; exact h.stand (hrun ▸ hr) i

theorem Effect.tied {a a' : Arbiter n} {act : Act n} {out : List (ControlToNode n)}
    (h : a.Effect act a' out) (htied : a.Tied) : a'.Tied := by
  cases h with
  -- Steps that leave every variable but the position alone.
  | shutdown hpc => exact htied.of_same rfl rfl rfl rfl rfl (by rw [found_host hpc])
  | watch => exact htied
  | sync_begin hpc => exact htied.of_same rfl rfl rfl rfl rfl (by rw [found_host hpc])
  | stop_idle => exact htied
  | step_unknown => exact htied
  | unchanged _ hpc => exact htied.of_same rfl rfl rfl rfl rfl (by rw [found_sync hpc])
  | republish hpc => exact htied.of_same rfl rfl rfl rfl rfl (by rw [found_sync hpc])
  -- Starts.
  | start =>
    exact tied_of_started rfl (running_of_start htied.ready) rfl (.inl rfl)
  | reset => exact tied_of_started rfl (fun _ => rfl) rfl (.inl rfl)
  | catch_up =>
    exact tied_of_started rfl (running_of_start htied.ready) rfl (.inr ⟨_, rfl, rfl⟩)
  -- Stops.
  | start_stops => exact tied_of_stopped rfl rfl (fun _ => rfl) nofun
  | stop | host_stop | until_stop | republish_until_stop =>
    exact tied_of_stopped rfl rfl (fun _ => rfl) nofun
  | step_running => exact tied_of_stopped rfl rfl (fun _ => rfl) nofun
  -- Commands that find the cluster stopped, and leave it so.
  | refuse _ _ _ hrun =>
    have hidle {p : Prop} (h : a.running = true) : p := by
      rw [hrun] at h
      cases h
    exact ⟨htied.ready, nofun, nofun, fun _ => rfl, hidle, hidle, htied.stand⟩
  | step_idle _ _ hrun =>
    exact ⟨htied.ready, fun _ _ => hrun, nofun, htied.cap, htied.reason, htied.run, htied.stand⟩

theorem Recv.tied {a a' : Arbiter n} {i : Fin n} {r : Report}
    (h : a.Recv i r.handled r.msg a') (htied : a.Tied) : a'.Tied := by
  obtain ⟨msg, handled⟩ := r
  have hstopped (j : Fin n) : Function.update a.peers i .Stopped j = .Stopped ∨
      Function.update a.peers i .Stopped j = a.peers j := by
    by_cases hj : j = i
    · subst hj
      exact .inl (Function.update_self _ _ _)
    · exact .inr (Function.update_of_ne hj _ _)
  have hready (j : Fin n) : Function.update a.peers i .Stopped j ≠ .AwaitingReady := by
    rcases hstopped j with h | h <;> rw [h]
    · decide
    · exact htied.ready j
  have hstand (hrun : a.running = false) (j : Fin n) :
      Function.update a.peers i .Stopped j ≠ .Running := by
    rcases hstopped j with h | h <;> rw [h]
    · decide
    · exact htied.stand hrun j
  cases h with
  | ready => exact htied
  | time _ _ _ _ hpc =>
    refine ⟨htied.ready, htied.wait, htied.catch_up, htied.cap, htied.reason, ?_, htied.stand⟩
    intro hrun j
    have hold := htied.run hrun j
    rw [found_sync hpc] at hold
    exact hold
  | insn _ _ _ _ hpc hgdb =>
    -- The stepped board reports while the cluster is stopped.
    have hrun := htied.wait i hgdb
    refine ⟨hready, htied.wait, htied.catch_up, htied.cap, htied.reason, ?_, hstand⟩
    intro h
    have h : a.running = true := h
    rw [hrun] at h
    cases h
  | stop =>
    refine ⟨hready, htied.wait, htied.catch_up, htied.cap, htied.reason, ?_, hstand⟩
    intro _ _
    exact .inr rfl

/-- Once a start was handled, a stopped cluster has a reason. -/
def Explained (a : Arbiter n) : Prop := a.running = false → a.last_stop_reason.isSome = true

theorem Effect.explained {a a' : Arbiter n} {act : Act n} {out : List (ControlToNode n)}
    (h : a.Effect act a' out) (hexp : a.Explained) : a'.Explained := by
  cases h with
  | shutdown | watch | sync_begin | stop_idle | step_unknown | step_idle | unchanged | republish =>
    exact hexp
  | start | reset | catch_up =>
    intro h
    cases h
  | _ =>
    intro _
    rfl

/-- A start explains why the cluster is stopped, if it stays so. -/
theorem Effect.explained_of_start {a a' : Arbiter n} {until_ns : Option Nat}
    {out : List (ControlToNode n)} (h : a.Effect (.host (.Start until_ns)) a' out) :
    a'.Explained := by
  cases h with
  | start =>
    intro h
    cases h
  | _ =>
    intro _
    rfl

theorem Recv.explained {a a' : Arbiter n} {i : Fin n} {handled : Nat} {msg : ControlToArbiter}
    (h : a.Recv i handled msg a') (hexp : a.Explained) : a'.Explained := by
  cases h <;> exact hexp

end Arbiter

/-! ### The session -/

section session

variable {cfg : Config n m} {a a' : Arbiter n} {l : SessionStep n}

theorem session_cases (hready : ∀ i, a.peers i ≠ .AwaitingReady)
    (h : (session cfg).step a l = some a') :
    (∃ act out, l = .act act ∧ a.Effect act a' out) ∨
      ∃ i r, l = .recv i r ∧ a.Recv i r.handled r.msg a' := by
  cases l with
  | act act =>
    obtain ⟨⟨a'', out⟩, hact, rfl⟩ := Option.map_eq_some_iff.mp h
    exact .inl ⟨act, out, rfl, Arbiter.act_effect hact⟩
  | recv i r => exact .inr ⟨i, r, rfl, Arbiter.sync_recv_cases (hready i) h⟩

theorem tied_inductive : Inductive (session cfg) AnySession Arbiter.Tied := by
  intro a l a' htied _ hstep
  rcases session_cases htied.ready hstep with ⟨act, out, rfl, heff⟩ | ⟨i, r, rfl, hrecv⟩
  · exact heff.tied htied
  · exact hrecv.tied htied

theorem tied_of_reachable (h : Reachable (session cfg) AnySession a) : a.Tied := by
  apply h.invariant
  · rintro _ rfl
    exact Arbiter.tied_new cfg.margin_ns
  · exact tied_inductive

/-- A stopped cluster stays explained. -/
theorem explained_inductive :
    Inductive (session cfg) AnySession fun a => a.Tied ∧ a.Explained := by
  intro a l a' hinv hok hstep
  refine ⟨tied_inductive a l a' hinv.1 hok hstep, ?_⟩
  rcases session_cases hinv.1.ready hstep with ⟨act, out, rfl, heff⟩ | ⟨i, r, rfl, hrecv⟩
  · exact heff.explained hinv.2
  · exact hrecv.explained hinv.2

/-- The variables of the session between two commands, and so at the end of
    every iteration; `published` is the status published there. -/
theorem session_tied (h : Reachable (session cfg) AnySession a) (hpc : a.pc = .host)
    (reported : Arbiter.Status) (due : Bool) :
    (a.running = true ↔ ∀ i, a.peers i = .Running) ∧
      (a.running = true → (a.report_status reported due).stop_reason = none ∧
        a.last_stop_reason = none) ∧
      (∀ b, a.gdb_step = some (.WaitInsn b) → a.running = false) ∧
      (∀ reason, a.gdb_step = some (.CatchUp reason) →
        a.running = true ∧ a.until_cap.isSome = true) ∧
      (a.running = false → a.until_cap = none) ∧
      ∀ a₀ a₁ until_ns, Reachable (session cfg) AnySession a₀ →
        (session cfg).step a₀ (.act (.host (.Start until_ns))) = some a₁ →
        Path (session cfg) AnySession a₁ a → a.running = false →
        (a.report_status reported due).stop_reason.isSome = true := by
  have htied := tied_of_reachable h
  have hfound : a.found.1.isSome = false := by rw [Arbiter.found_host hpc]; rfl
  refine ⟨⟨?_, ?_⟩, ?_, htied.wait, htied.catch_up, htied.cap, ?_⟩
  · intro hrun i
    apply (htied.run hrun i).resolve_right
    rw [hfound]
    decide
  · intro hpeers
    -- A topology has a board, which does not run while the arbiter stands.
    by_contra hrun
    exact htied.stand (by simpa using hrun) ⟨0, cfg.boards_pos⟩ (hpeers _)
  · intro hrun
    refine ⟨?_, htied.reason hrun⟩
    rw [Arbiter.report_status_eq]
    simp [Arbiter.status, hrun]
  · intro a₀ a₁ until_ns h₀ hstart hpath hrun
    have htied₀ := tied_of_reachable h₀
    have hinv₁ : a₁.Tied ∧ a₁.Explained := by
      refine ⟨tied_inductive a₀ _ a₁ htied₀ trivial hstart, ?_⟩
      rcases session_cases htied₀.ready hstart with ⟨act, out, heq, heff⟩ | ⟨i, r, heq, -⟩
      · cases heq
        exact heff.explained_of_start
      · cases heq
    have hexp := (hpath.invariant explained_inductive hinv₁).2
    rw [Arbiter.report_status_eq]
    simpa [Arbiter.status, hrun] using hexp hrun

end session

/-- A start, and an iteration that takes a stop report of board 1. -/
def stopped_session : List (SessionStep 2) :=
  [.act (.host (.Start none)), .act .sync_begin, .recv 1 ⟨.HostStop .Breakpoint, 1⟩,
    .act .sync_finish]

theorem session_tied_stop :
    ∃ a : Arbiter 2, Reachable (session (unwired 1000 100)) AnySession a ∧
      a.last_stop_reason = some .Breakpoint ∧ a.running = false ∧ a.until_cap = none ∧
      ¬ ∀ i, a.peers i = .Running := by
  obtain ⟨a, ha, hpc, hreason, hrun⟩ : ∃ a : Arbiter 2,
      Reachable (session (unwired 1000 100)) AnySession a ∧ a.pc = .host ∧
      a.last_stop_reason = some .Breakpoint ∧ a.running = false :=
    Reachable.exists_of_exec stopped_session rfl (by decide +kernel)
  obtain ⟨hpeers, -, -, -, hcap, -⟩ := session_tied ha hpc a.status false
  refine ⟨a, ha, hreason, hrun, hcap hrun, ?_⟩
  intro hall
  rw [hpeers.mpr hall] at hrun
  cases hrun

end Rl78Sim
