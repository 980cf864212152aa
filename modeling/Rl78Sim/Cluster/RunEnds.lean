import Rl78Sim.Cluster.Session

/-! # How a Run Ends

    A start or a gdb step opens a run, and the arbiter ends it when
    `step_time_sync` comes to `SyncStep::Stopped`. A stop report that it takes
    after that ends nothing, but replaces the reason that it publishes. -/

namespace Rl78Sim

variable {n m : Nat}

/-- A history of the arbiter: how many starts and gdb steps it has handled, the
    reason with which it has ended the run of the last of them, and whether a
    later stop has replaced that reason. -/
structure RunLog where
  handled : Nat
  ended : Option HostStopReason
  replaced : Bool
  deriving DecidableEq

namespace RunLog

def new : RunLog := ⟨0, none, false⟩

/-- A start or a gdb step is handled. -/
def opened (log : RunLog) : RunLog := ⟨log.handled + 1, none, false⟩

/-- The arbiter stops with this reason. -/
def stopped (log : RunLog) (reason : HostStopReason) : RunLog :=
  match log.ended with
  | none => { log with ended := some reason }
  | some first => { log with replaced := first ≠ reason }

/-- The end of an iteration. -/
def synced (log : RunLog) : Option HostStopReason → RunLog
  | some reason => log.stopped reason
  | none => log

theorem stopped_of_open {log : RunLog} (h : log.ended = none) (reason : HostStopReason) :
    log.stopped reason = { log with ended := some reason } := by
  unfold stopped
  rw [h]

theorem stopped_of_ended {log : RunLog} {first : HostStopReason} (h : log.ended = some first)
    (reason : HostStopReason) : log.stopped reason = { log with replaced := first ≠ reason } := by
  unfold stopped
  rw [h]

theorem synced_handled (log : RunLog) (result : Option HostStopReason) :
    (log.synced result).handled = log.handled := by
  cases result with
  | none => rfl
  | some reason =>
    show (log.stopped reason).handled = log.handled
    cases hended : log.ended with
    | none => rw [stopped_of_open hended]
    | some first => rw [stopped_of_ended hended]

/-- A run is ended once. -/
theorem synced_ended {log : RunLog} {reason : HostStopReason} (h : log.ended = some reason)
    (result : Option HostStopReason) : (log.synced result).ended = some reason := by
  cases result with
  | none => exact h
  | some later =>
    show (log.stopped later).ended = some reason
    rw [stopped_of_ended h]
    exact h

end RunLog

namespace Arbiter

/-- `SyncStep`: what `step_time_sync` comes to once the inbox is drained. -/
def sync_step (a : Arbiter n) : Option HostStopReason :=
  match a.pc with
  | .sync _ (some stop) _ => some stop.reason
  | .sync _ none (some _) => none
  | .sync _ none none => if reached_until a.until_cap a.vt then some a.until_reason else none
  | _ => none

/-- A gdb step waits for its instruction. -/
def waits (a : Arbiter n) : Bool :=
  match a.gdb_step with
  | some (.WaitInsn _) => true
  | _ => false

/-- What the end of an iteration makes of the run. -/
inductive Finished (a : Arbiter n) (a' : Arbiter n) : Prop where
  | stopped (reason : HostStopReason) : a.sync_step = some reason → a'.running = false →
      a'.gdb_step = none → a'.last_stop_reason = some reason → Finished a a'
  | catch_up (changed : Bool) (insn : StopReport n) : a.sync_step = none →
      a.pc = .sync changed none (some insn) → a'.running = true →
      a'.gdb_step = some (.CatchUp insn.reason) → Finished a a'
  | same : a.sync_step = none → a'.running = a.running → a'.gdb_step = a.gdb_step →
      a'.last_stop_reason = a.last_stop_reason → Finished a a'

theorem sync_finish_cases {a a' : Arbiter n} {out : List (ControlToNode n)}
    (h : a.sync_finish = some (a', out)) : a'.pc = .host ∧ Finished a a' := by
  cases effect_sync_finish h with
  | host_stop changed stop gdb_insn hpc =>
    refine ⟨rfl, .stopped stop.reason ?_ rfl rfl rfl⟩
    simp only [sync_step, hpc]
  | catch_up changed insn hpc =>
    refine ⟨rfl, .catch_up changed insn ?_ hpc rfl rfl⟩
    simp only [sync_step, hpc]
  | unchanged changed hpc _ hreach =>
    refine ⟨rfl, .same ?_ rfl rfl rfl⟩
    simp [sync_step, hpc, hreach]
  | republish hpc hreach =>
    refine ⟨rfl, .same ?_ rfl rfl rfl⟩
    simp [sync_step, hpc, hreach]
  | until_stop changed hpc _ hreach =>
    refine ⟨rfl, .stopped a.until_reason ?_ rfl rfl rfl⟩
    simp [sync_step, hpc, hreach]
  | republish_until_stop hpc hreach =>
    refine ⟨rfl, .stopped a.until_reason ?_ rfl rfl rfl⟩
    simp [sync_step, hpc, hreach]

/-- The history is that of the arbiter: the run of the last request is going on,
    waits for its instruction, or has been ended. -/
structure Logged (a : Arbiter n) (log : RunLog) : Prop where
  ready : ∀ i, a.peers i ≠ .AwaitingReady
  insn : ∀ changed stop insn, a.pc = .sync changed stop (some insn) →
    a.gdb_step = some (.WaitInsn insn.board)
  fresh : log.ended = none → log.replaced = false
  going : 0 < log.handled → log.ended = none → a.running = true ∨ a.waits = true
  ended : ∀ reason, log.ended = some reason → a.running = false ∧ a.gdb_step = none ∧
    (log.replaced = false ↔ a.last_stop_reason = some reason)

theorem logged_new (margin_ns : Nat) : (Arbiter.new n margin_ns).Logged RunLog.new where
  ready i := by simp [Arbiter.new]
  insn _ _ _ h := by cases h
  fresh _ := rfl
  going h := by cases h
  ended _ h := by cases h

namespace Logged

variable {a a' : Arbiter n} {log : RunLog}

/-- A step that leaves the run alone. -/
theorem of_same (h : a.Logged log) (hready : ∀ i, a'.peers i ≠ .AwaitingReady)
    (hinsn : ∀ changed stop insn, a'.pc = .sync changed stop (some insn) →
      a'.gdb_step = some (.WaitInsn insn.board))
    (hrun : a'.running = a.running) (hgdb : a'.gdb_step = a.gdb_step)
    (hreason : a'.last_stop_reason = a.last_stop_reason) : a'.Logged log where
  ready := hready
  insn := hinsn
  fresh := h.fresh
  going hpos hended := by
    unfold waits
    rw [hrun, hgdb]
    exact h.going hpos hended
  ended reason hended := by
    rw [hrun, hgdb, hreason]
    exact h.ended reason hended

theorem recv (h : a.Logged log) {i : Fin n} {r : Report} (hrecv : a.sync_recv i r = some a') :
    a'.Logged log := by
  obtain ⟨msg, handled⟩ := r
  have hcases := sync_recv_cases (h.ready i) hrecv
  have hready := hcases.peers_ready h.ready
  cases hcases with
  | ready => exact h
  | time changed stop insn v hpc =>
    refine h.of_same hready ?_ rfl rfl rfl
    rintro changed' stop' insn' ⟨⟩
    exact h.insn _ _ _ hpc
  | insn changed stop insn reason hpc hgdb =>
    refine h.of_same hready ?_ rfl rfl rfl
    rintro changed' stop' insn' ⟨⟩
    exact hgdb
  | stop changed stop insn reason hpc =>
    refine h.of_same hready ?_ rfl rfl rfl
    rintro changed' stop' insn' ⟨⟩
    exact h.insn _ _ _ hpc

/-- A start or a gdb step opens a run. -/
theorem command (h : a.Logged log) {cmd : HostCommand n} {out : List (ControlToNode n)}
    (hcmd : cmd = .Start none ∨ ∃ b, cmd = .Step (some b))
    (hact : a.act (.host cmd) = some (a', out)) : a'.Logged log.opened := by
  have heff := act_effect hact
  have hready := heff.peers_ready h.ready
  rcases hcmd with rfl | ⟨b, rfl⟩
  · cases heff with
    | start _ hpc =>
      refine ⟨hready, ?_, fun _ => rfl, fun _ _ => .inl rfl, nofun⟩
      intro changed stop insn hpc'
      have hpc' : a.pc = .sync changed stop (some insn) := hpc'
      rw [hpc] at hpc'
      cases hpc'
  · have hopen {a' : Arbiter n} (hpc : a'.pc = .host) (hgdb : a'.gdb_step = some (.WaitInsn b))
        (hready : ∀ i, a'.peers i ≠ .AwaitingReady) : a'.Logged log.opened := by
      refine ⟨hready, ?_, fun _ => rfl, ?_, nofun⟩
      · intro changed stop insn hpc'
        rw [hpc] at hpc'
        cases hpc'
      · intro _ _
        right
        unfold waits
        rw [hgdb]
    cases heff with
    | step_running _ hpc => exact hopen hpc rfl hready
    | step_idle _ hpc => exact hopen hpc rfl hready

/-- The end of an iteration. -/
theorem finish (h : a.Logged log) {out : List (ControlToNode n)}
    (hact : a.act .sync_finish = some (a', out)) : a'.Logged (log.synced a.sync_step) := by
  have hready := (act_effect hact).peers_ready h.ready
  obtain ⟨hpc, hfinished⟩ := sync_finish_cases hact
  have hinsn : ∀ changed stop insn, a'.pc = .sync changed stop (some insn) →
      a'.gdb_step = some (.WaitInsn insn.board) := by
    intro changed stop insn hpc'
    rw [hpc] at hpc'
    cases hpc'
  cases hfinished with
  | stopped reason hstep hrun hgdb hreason =>
    rw [hstep]
    show a'.Logged (log.stopped reason)
    cases hended : log.ended with
    | none =>
      rw [RunLog.stopped_of_open hended]
      refine ⟨hready, hinsn, nofun, nofun, ?_⟩
      rintro _ ⟨⟩
      exact ⟨hrun, hgdb, iff_of_true (h.fresh hended) hreason⟩
    | some first =>
      rw [RunLog.stopped_of_ended hended]
      have hopen {p : Prop} (hnone : log.ended = none) : p := by
        rw [hended] at hnone
        cases hnone
      refine ⟨hready, hinsn, hopen, fun _ => hopen, ?_⟩
      intro reason' hsome
      have hsome : log.ended = some reason' := hsome
      rw [hended] at hsome
      cases hsome
      refine ⟨hrun, hgdb, ?_⟩
      rw [hreason]
      constructor
      · intro hsame
        rw [of_not_not (of_decide_eq_false hsame)]
      · rintro ⟨⟩
        exact decide_eq_false (not_not_intro rfl)
  | catch_up changed insn hstep hsync hrun hgdb =>
    rw [hstep]
    have hwait := h.insn _ _ _ hsync
    refine ⟨hready, hinsn, h.fresh, fun _ _ => .inl hrun, ?_⟩
    -- The step had not been ended.
    intro reason hended
    rw [(h.ended reason hended).2.1] at hwait
    cases hwait
  | same hstep hrun hgdb hreason =>
    rw [hstep]
    exact h.of_same hready hinsn hrun hgdb hreason

/-- The other steps of the arbiter. -/
theorem other (h : a.Logged log) {act : Act n} {out : List (ControlToNode n)}
    (hhost : ∀ cmd, act ≠ .host cmd) (hfinish : act ≠ .sync_finish)
    (hact : a.act act = some (a', out)) : a'.Logged log := by
  have heff := act_effect hact
  cases heff with
  | watch => exact h
  | sync_begin => exact h.of_same h.ready nofun rfl rfl rfl
  | shutdown | refuse | start_stops | start | stop | stop_idle | reset | step_unknown |
    step_running | step_idle => exact absurd rfl (hhost _)
  | host_stop | catch_up | unchanged | republish | until_stop | republish_until_stop =>
    exact absurd rfl hfinish

end Logged

end Arbiter

end Rl78Sim
