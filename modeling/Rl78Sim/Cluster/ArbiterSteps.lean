import Rl78Sim.Cluster.Arbiter

/-! # What One Step of the Arbiter Can Do

    `Effect` lists the outcomes of an arbiter step, with their guards and the
    messages broadcast. Every invariant of the cluster is derived from this
    list; the step function itself is not unfolded again.
-/

namespace Rl78Sim

namespace Arbiter

variable {n : Nat}

/-- The outcomes of an arbiter step. -/
inductive Effect (a : Arbiter n) : Act n → Arbiter n → List (ControlToNode n) → Prop where
  | shutdown : a.pc = .host → Effect a (.host .Shutdown) { a with pc := .done } []
  | watch (board : Fin n) (count : Nat) (probe_ids : List Nat) : a.pc = .host →
      Effect a (.watch board count probe_ids) a [.ProbeWatch board count probe_ids]
  | sync_begin : a.pc = .host →
      Effect a .sync_begin { a with pc := .sync false none none } []
  /-- The target of a start is not ahead of the virtual time: stay stopped. -/
  | refuse (u : Nat) : a.pc = .host → u ≤ a.vt → a.running = false →
      Effect a (.host (.Start (some u)))
        { a with
          gdb_step := none
          until_cap := none
          last_stop_reason := some (a.last_stop_reason.getD .Until) } []
  /-- The same while a run is going on: stop it. -/
  | start_stops (u : Nat) : a.pc = .host → u ≤ a.vt → a.running = true →
      Effect a (.host (.Start (some u)))
        { a with
          gdb_step := none
          peers := fun _ => .Stopped
          running := false
          until_cap := none
          last_stop_reason := some (a.last_stop_reason.getD .Until) }
        [.ClusterStop .Until]
  | start (until_ns : Option Nat) : a.pc = .host →
      should_stay_stopped until_ns a.vt = false →
      Effect a (.host (.Start until_ns))
        { a with
          gdb_step := none
          until_cap := until_ns
          allowed := a.ceiling.allowed_ns_until until_ns
          peers := fun i => (a.peers i).on_start_broadcast
          broadcasts := a.broadcasts + 1
          running := true
          last_stop_reason := none }
        [.Start (a.ceiling.allowed_ns_until until_ns)]
  | stop : a.pc = .host → a.running = true →
      Effect a (.host .Stop)
        ({ a with peers := fun _ => .Stopped }.stop_run .ExternalStop)
        [.ClusterStop .ExternalStop]
  | stop_idle : a.pc = .host → a.running = false →
      Effect a (.host .Stop) a []
  | reset : a.pc = .host →
      Effect a (.host .Reset)
        { a with
          gdb_step := none
          until_cap := none
          ceiling := a.ceiling.advance_to (max a.allowed a.vt)
          allowed := (a.ceiling.advance_to (max a.allowed a.vt)).allowed_ns
          peers := fun _ => .Running
          broadcasts := a.broadcasts + 1
          running := true
          last_stop_reason := none }
        [.ClusterStop .ExternalStop, .Reset,
          .Start (a.ceiling.advance_to (max a.allowed a.vt)).allowed_ns]
  /-- The hash of a step resolves to no board. -/
  | step_unknown : a.pc = .host →
      Effect a (.host (.Step none)) a []
  | step_running (board : Fin n) : a.pc = .host → a.running = true →
      Effect a (.host (.Step (some board)))
        { a with
          peers := fun _ => .Stopped
          running := false
          until_cap := none
          last_stop_reason := some .ExternalStop
          broadcasts := a.broadcasts + 1
          gdb_step := some (.WaitInsn board) }
        [.ClusterStop .ExternalStop, .GdbStep board]
  | step_idle (board : Fin n) : a.pc = .host → a.running = false →
      Effect a (.host (.Step (some board)))
        { a with
          broadcasts := a.broadcasts + 1
          gdb_step := some (.WaitInsn board) }
        [.GdbStep board]
  /-- A host stop was reported: stop everything. -/
  | host_stop (changed : Bool) (stop : StopReport n) (gdb_insn : Option (StopReport n)) :
      a.pc = .sync changed (some stop) gdb_insn →
      Effect a .sync_finish
        ({ a with pc := .host, peers := fun _ => .Stopped }.stop_run stop.reason)
        [.ClusterStop stop.reason]
  /-- The stepped board reported its instruction: the others catch up. -/
  | catch_up (changed : Bool) (insn : StopReport n) : a.pc = .sync changed none (some insn) →
      Effect a .sync_finish
        { a with
          pc := .host
          until_cap := some (a.ceiling.reports insn.board)
          allowed := a.ceiling.allowed_ns_until (some (a.ceiling.reports insn.board))
          peers := fun i => (a.peers i).on_start_broadcast
          broadcasts := a.broadcasts + 1
          running := true
          last_stop_reason := none
          gdb_step := some (.CatchUp insn.reason) }
        [.Start (a.ceiling.allowed_ns_until (some (a.ceiling.reports insn.board)))]
  | unchanged (changed : Bool) : a.pc = .sync changed none none →
      (changed = true → a.ceiling.allowed_ns_until a.until_cap = a.allowed) →
      reached_until a.until_cap a.vt = false →
      Effect a .sync_finish { a with pc := .host } []
  | republish : a.pc = .sync true none none →
      reached_until a.until_cap a.vt = false →
      Effect a .sync_finish
        { a with pc := .host, allowed := a.ceiling.allowed_ns_until a.until_cap }
        [.Allowed (a.ceiling.allowed_ns_until a.until_cap)]
  | until_stop (changed : Bool) : a.pc = .sync changed none none →
      (changed = true → a.ceiling.allowed_ns_until a.until_cap = a.allowed) →
      reached_until a.until_cap a.vt = true →
      Effect a .sync_finish
        ({ a with pc := .host, peers := fun _ => .Stopped }.stop_run a.until_reason)
        [.ClusterStop a.until_reason]
  | republish_until_stop : a.pc = .sync true none none →
      reached_until a.until_cap a.vt = true →
      Effect a .sync_finish
        ({ a with
            pc := .host
            allowed := a.ceiling.allowed_ns_until a.until_cap
            peers := fun _ => .Stopped }.stop_run a.until_reason)
        [.Allowed (a.ceiling.allowed_ns_until a.until_cap), .ClusterStop a.until_reason]

theorem effect_apply_start {a : Arbiter n} (until_ns : Option Nat) (hpc : a.pc = .host) :
    Effect a (.host (.Start until_ns)) (a.host_command (.Start until_ns)).1
      (a.host_command (.Start until_ns)).2 := by
  simp only [host_command, apply_start]
  by_cases hstay : should_stay_stopped until_ns a.vt = true
  · obtain ⟨u, rfl, hu⟩ : ∃ u, until_ns = some u ∧ u ≤ a.vt := by
      cases until_ns with
      | none => simp [should_stay_stopped] at hstay
      | some u => exact ⟨u, rfl, by simpa [should_stay_stopped] using hstay⟩
    by_cases hrun : a.running = true
    · simpa [vt, should_stay_stopped, show u ≤ a.ceiling.virtual_time_ns from hu, hrun,
        broadcast_cluster_stop] using Effect.start_stops u hpc hu hrun
    · simpa [vt, should_stay_stopped, show u ≤ a.ceiling.virtual_time_ns from hu, hrun]
        using Effect.refuse u hpc hu (by simpa using hrun)
  · have hgo : should_stay_stopped until_ns a.vt = false := by simpa using hstay
    simpa [vt, show should_stay_stopped until_ns a.ceiling.virtual_time_ns = false from hgo,
      broadcast_start] using Effect.start until_ns hpc hgo

theorem effect_apply_gdb_step {a : Arbiter n} (board : Option (Fin n)) (hpc : a.pc = .host) :
    Effect a (.host (.Step board)) (a.host_command (.Step board)).1
      (a.host_command (.Step board)).2 := by
  cases board with
  | none => exact .step_unknown hpc
  | some board =>
    simp only [host_command, apply_gdb_step]
    by_cases hrun : a.running = true
    · simpa [hrun, broadcast_cluster_stop, publish_gdb_step] using
        Effect.step_running board hpc hrun
    · have hidle : a.running = false := by simpa using hrun
      simpa [hidle, publish_gdb_step] using Effect.step_idle board hpc hidle

theorem effect_host_command {a : Arbiter n} (cmd : HostCommand n) (hpc : a.pc = .host) :
    Effect a (.host cmd) (a.host_command cmd).1 (a.host_command cmd).2 := by
  cases cmd with
  | Shutdown => exact .shutdown hpc
  | Start until_ns => exact effect_apply_start until_ns hpc
  | Stop =>
    by_cases hrun : a.running = true
    · simpa [host_command, hrun, broadcast_cluster_stop] using Effect.stop hpc hrun
    · have hidle : a.running = false := by simpa using hrun
      simpa [host_command, hidle] using Effect.stop_idle hpc hidle
  | Reset => exact .reset hpc
  | Step board => exact effect_apply_gdb_step board hpc

theorem effect_sync_finish {a a' : Arbiter n} {out : List (ControlToNode n)}
    (h : a.sync_finish = some (a', out)) : Effect a .sync_finish a' out := by
  unfold sync_finish at h
  split at h
  · rename_i changed cluster_stop gdb_insn hpc
    split at h
    · cases h
      exact .host_stop _ _ _ hpc
    · cases h
      exact .catch_up _ _ hpc
    · simp only [republish] at h
      -- A ceiling that has risen is sent; either way the target time may be reached.
      by_cases hnew : (changed && a.ceiling.allowed_ns_until a.until_cap != a.allowed) = true
      · have hchanged : changed = true := by
          simp only [Bool.and_eq_true] at hnew
          exact hnew.1
        subst hchanged
        rw [if_pos hnew] at h
        by_cases hreach : reached_until a.until_cap a.ceiling.virtual_time_ns = true
        · simp only [vt, hreach, if_true] at h
          cases h
          exact .republish_until_stop hpc hreach
        · simp only [vt, hreach] at h
          cases h
          exact .republish hpc (Bool.eq_false_iff.mpr hreach)
      · have hsame : changed = true → a.ceiling.allowed_ns_until a.until_cap = a.allowed := by
          intro hchanged
          simpa [hchanged] using hnew
        rw [if_neg hnew] at h
        by_cases hreach : reached_until a.until_cap a.ceiling.virtual_time_ns = true
        · simp only [vt, hreach, if_true] at h
          cases h
          exact .until_stop _ hpc hsame hreach
        · simp only [vt, hreach] at h
          cases h
          exact .unchanged _ hpc hsame (Bool.eq_false_iff.mpr hreach)
  · cases h

theorem act_effect {a a' : Arbiter n} {l : Act n} {out : List (ControlToNode n)}
    (h : a.act l = some (a', out)) : Effect a l a' out := by
  cases l with
  | host cmd =>
    obtain ⟨hpc, heq⟩ : a.pc = .host ∧ a.host_command cmd = (a', out) := by simpa [act] using h
    have heff := effect_host_command cmd hpc
    rw [heq] at heff
    exact heff
  | watch board count probe_ids =>
    obtain ⟨hpc, rfl, rfl⟩ : a.pc = .host ∧ a = a' ∧ [.ProbeWatch board count probe_ids] = out := by
      simpa [act] using h
    exact .watch _ _ _ hpc
  | sync_begin =>
    obtain ⟨hpc, rfl, rfl⟩ : a.pc = .host ∧ { a with pc := .sync false none none } = a' ∧
        [] = out := by
      simpa [act] using h
    exact .sync_begin hpc
  | sync_finish => exact effect_sync_finish h

/-- No step sends a peer back behind the Ready barrier. -/
theorem Effect.peers_ready {a a' : Arbiter n} {l : Act n} {out : List (ControlToNode n)}
    (h : a.Effect l a' out) (hpeers : ∀ i, a.peers i ≠ .AwaitingReady) :
    ∀ i, a'.peers i ≠ .AwaitingReady := by
  have hstart (i : Fin n) : (a.peers i).on_start_broadcast ≠ .AwaitingReady := by
    cases hp : a.peers i with
    | AwaitingReady => exact absurd hp (hpeers i)
    | _ => simp [PeerState.on_start_broadcast]
  cases h with
  | start | catch_up => exact hstart
  | start_stops | stop | step_running | host_stop | until_stop | republish_until_stop | reset =>
    intro i
    simp [stop_run]
  | _ => exact hpeers

/-! ### Receiving one report -/

/-- The outcomes of one turn of the drain, past the Ready barrier. -/
inductive Recv (a : Arbiter n) (i : Fin n) (handled : Nat) :
    ControlToArbiter → Arbiter n → Prop where
  | ready (changed : Bool) (cluster_stop gdb_insn : Option (StopReport n)) :
      a.pc = .sync changed cluster_stop gdb_insn → Recv a i handled .Ready a
  | time (changed : Bool) (cluster_stop gdb_insn : Option (StopReport n)) (v : Nat) :
      a.pc = .sync changed cluster_stop gdb_insn →
      Recv a i handled (.TimeReport v)
        { a with ceiling := a.ceiling.report i v, pc := .sync true cluster_stop gdb_insn }
  | insn (changed : Bool) (cluster_stop gdb_insn : Option (StopReport n))
      (reason : HostStopReason) :
      a.pc = .sync changed cluster_stop gdb_insn → a.gdb_step = some (.WaitInsn i) →
      Recv a i handled (.HostStop reason)
        { a with
          peers := Function.update a.peers i .Stopped
          pc := .sync changed cluster_stop (some ⟨i, reason, handled⟩) }
  | stop (changed : Bool) (cluster_stop gdb_insn : Option (StopReport n))
      (reason : HostStopReason) :
      a.pc = .sync changed cluster_stop gdb_insn → a.gdb_step ≠ some (.WaitInsn i) →
      Recv a i handled (.HostStop reason)
        { a with
          peers := Function.update a.peers i .Stopped
          pc := .sync changed (some ⟨i, reason, handled⟩) gdb_insn }

theorem sync_recv_cases {a a' : Arbiter n} {i : Fin n} {r : Report}
    (hready : a.peers i ≠ .AwaitingReady) (h : a.sync_recv i r = some a') :
    Recv a i r.handled r.msg a' := by
  obtain ⟨msg, handled⟩ := r
  unfold sync_recv at h
  split at h
  case h_2 => cases h
  rename_i changed cluster_stop gdb_insn hpc
  -- A peer whose state does not change is written back unchanged.
  have hkeep {peer : PeerState} (hpeer : a.peers i = peer) :
      Function.update a.peers i peer = a.peers := by
    rw [← hpeer, Function.update_eq_self]
  cases hpeer : a.peers i with
  | AwaitingReady => exact absurd hpeer hready
  | Ready | Running | Stopped =>
    cases msg with
    | Ready =>
      simp only [hpeer, PeerState.on_message, hkeep hpeer] at h
      cases h
      exact .ready _ _ _ hpc
    | TimeReport v =>
      simp only [hpeer, PeerState.on_message, hkeep hpeer] at h
      cases h
      exact .time _ _ _ _ hpc
    | HostStop reason =>
      simp only [hpeer, PeerState.on_message] at h
      by_cases hgdb : a.gdb_step = some (.WaitInsn i)
      · rw [if_pos hgdb] at h
        cases h
        exact .insn _ _ _ _ hpc hgdb
      · rw [if_neg hgdb] at h
        cases h
        exact .stop _ _ _ _ hpc hgdb

theorem Recv.peers_ready {a a' : Arbiter n} {i : Fin n} {handled : Nat}
    {msg : ControlToArbiter} (h : a.Recv i handled msg a')
    (hpeers : ∀ i, a.peers i ≠ .AwaitingReady) : ∀ j, a'.peers j ≠ .AwaitingReady := by
  have hstop (j : Fin n) : Function.update a.peers i .Stopped j ≠ .AwaitingReady := by
    by_cases hj : j = i
    · subst hj
      simp
    · rw [Function.update_of_ne hj]
      exact hpeers j
  cases h with
  | insn | stop => exact hstop
  | _ => exact hpeers

end Arbiter

end Rl78Sim
