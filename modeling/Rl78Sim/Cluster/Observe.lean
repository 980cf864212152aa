import Rl78Sim.Cluster.System

/-! # What a Step Does to Times and Ceilings

    Each lemma of this file says what one step of the cluster can do to one
    observation of it: the ceilings queued for a board, the ceiling it obeys,
    its clock, and the time reports between the board and the arbiter. The
    invariants about virtual time are derived from these lemmas only.
-/

namespace Rl78Sim

open Transition

variable {n m : Nat} {E F : Type}

/-! ### Ceilings and time reports in flight -/

/-- The ceiling that a control message carries. -/
def ControlToNode.ceiling_of : ControlToNode n → Option Nat
  | .Start a => some a
  | .Allowed a => some a
  | _ => none

/-- The virtual times of the time reports in flight. -/
def times (rs : List Report) : List Nat :=
  rs.filterMap fun r =>
    match r.msg with
    | .TimeReport v => some v
    | _ => none

@[simp] theorem times_nil : times [] = [] := rfl

@[simp] theorem times_append (rs rs' : List Report) : times (rs ++ rs') = times rs ++ times rs' :=
  List.filterMap_append

@[simp] theorem times_cons_time (v handled : Nat) (rs : List Report) :
    times (⟨.TimeReport v, handled⟩ :: rs) = v :: times rs := rfl

@[simp] theorem times_cons_ready (handled : Nat) (rs : List Report) :
    times (⟨.Ready, handled⟩ :: rs) = times rs := rfl

@[simp] theorem times_cons_stop (reason : HostStopReason) (handled : Nat) (rs : List Report) :
    times (⟨.HostStop reason, handled⟩ :: rs) = times rs := rfl

/-! ### The arbiter -/

namespace Arbiter

/-- Only a reset touches the reports. -/
theorem Effect.ceiling_cases {a a' : Arbiter n} {l : Act n} {out : List (ControlToNode n)}
    (h : a.Effect l a' out) :
    a'.ceiling = a.ceiling ∨
      (l = .host .Reset ∧ a'.ceiling = a.ceiling.advance_to (max a.allowed a.vt)) := by
  cases h with
  | reset => exact .inr ⟨rfl, rfl⟩
  | _ => exact .inl rfl

/-- Every ceiling that is broadcast is within the margin of every report. -/
theorem Effect.ceiling_le {a a' : Arbiter n} {l : Act n} {out : List (ControlToNode n)}
    (h : a.Effect l a' out) {msg : ControlToNode n} (hmsg : msg ∈ out) {c : Nat}
    (hc : msg.ceiling_of = some c) (j : Fin n) :
    c ≤ a'.ceiling.reports j + a'.ceiling.margin_ns := by
  cases h <;> simp only [List.mem_cons, List.not_mem_nil, or_false] at hmsg
  case start until_ns _ _ =>
    subst hmsg
    cases hc
    exact a.ceiling.allowed_until_le_report until_ns j
  case reset =>
    rcases hmsg with rfl | rfl | rfl <;> cases hc
    exact (a.ceiling.advance_to (max a.allowed a.vt)).allowed_le j
  case catch_up =>
    subst hmsg
    cases hc
    exact a.ceiling.allowed_until_le_report _ j
  case republish =>
    subst hmsg
    cases hc
    exact a.ceiling.allowed_until_le_report _ j
  case republish_until_stop =>
    rcases hmsg with rfl | rfl <;> cases hc
    exact a.ceiling.allowed_until_le_report _ j
  all_goals first
    | (subst hmsg; cases hc)
    | (rcases hmsg with rfl | rfl <;> cases hc)

/-- A `GdbStep` is broadcast for a host step only. -/
theorem Effect.gdb_step_mem {a a' : Arbiter n} {l : Act n} {out : List (ControlToNode n)}
    (h : a.Effect l a' out) {board : Fin n} (hmsg : .GdbStep board ∈ out) :
    l = .host (.Step (some board)) := by
  cases h <;> simp at hmsg
  all_goals subst hmsg; rfl

/-- Only a reset command resets the boards. -/
theorem Effect.reset_mem {a a' : Arbiter n} {l : Act n} {out : List (ControlToNode n)}
    (h : a.Effect l a' out) (hmsg : .Reset ∈ out) : l = .host .Reset := by
  cases h <;> simp at hmsg
  rfl

/-- Taking a report neither starts nor stops a run. -/
theorem Recv.run_eq {a a' : Arbiter n} {i : Fin n} {handled : Nat} {msg : ControlToArbiter}
    (h : a.Recv i handled msg a') :
    a'.running = a.running ∧ a'.until_cap = a.until_cap := by
  cases h <;> exact ⟨rfl, rfl⟩

theorem Recv.margin_eq {a a' : Arbiter n} {i : Fin n} {handled : Nat} {msg : ControlToArbiter}
    (h : a.Recv i handled msg a') : a'.ceiling.margin_ns = a.ceiling.margin_ns := by
  cases h <;> rfl

end Arbiter

/-! ### Nodes -/

variable [Entity E F]

namespace Node

omit [Entity E F] in
theorem MaybeReport.times_eq {nd nd' : Node m E F} {v : Nat} {last : Option Nat}
    {msgs : List ControlToArbiter} (h : MaybeReport nd v last msgs) :
    times (nd'.stamp msgs) = [] ∨ times (nd'.stamp msgs) = [v] := by
  cases h with
  | report => exact .inr rfl
  | skip => exact .inl rfl

omit [Entity E F] in
/-- A node reports its clock, or nothing. -/
theorem Reported.times_eq {nd nd' : Node m E F} {v : Nat} {rsp : Option Response}
    {last : Option Nat} {msgs : List ControlToArbiter} (h : Reported nd v rsp last msgs) :
    times (nd'.stamp msgs) = [] ∨ times (nd'.stamp msgs) = [v] := by
  cases h with
  | running _ _ hmaybe => exact hmaybe.times_eq
  | stopped _ host_reason _ msgs hmaybe =>
    have hstamp : nd'.stamp (msgs ++ [.HostStop host_reason]) =
        nd'.stamp msgs ++ [⟨.HostStop host_reason, nd'.handled⟩] := by simp [stamp]
    rw [hstamp, times_append, times_cons_stop, times_nil, List.append_nil]
    exact hmaybe.times_eq
  | failed => exact .inl rfl

theorem Acted.times_eq {nd nd' : Node m E F} {l : Act} {msgs : List ControlToArbiter}
    (h : Acted nd l nd' msgs) :
    times (nd'.stamp msgs) = [] ∨ times (nd'.stamp msgs) = [nd'.now] := by
  cases h with
  | quiet => exact .inl rfl
  | polled _ sim _ _ _ _ _ _ _ _ _ hrep hquiet =>
    rw [show nd'.now = sim.now from hquiet.now_eq]
    exact hrep.times_eq

theorem Took.times_eq {i : Fin n} {nd nd' : Node m E F} {msg : ControlToNode n}
    {msgs : List ControlToArbiter} (h : Took i nd msg nd' msgs) :
    times (nd'.stamp msgs) = [] ∨ times (nd'.stamp msgs) = [nd'.now] := by
  cases h with
  | startup _ _ out hready =>
    left
    simp only [times, stamp, List.filterMap_map, List.filterMap_eq_nil_iff]
    intro x hx
    rw [hready x hx]
    rfl
  | gdb_step nd₁ _ hstep =>
    cases hstep with
    | stopped sim =>
      right
      have hnow := halt_now nd sim
      simp only [stamp, List.map_cons, List.map_nil, times_cons_time, times_cons_stop, times_nil,
        now]
      rw [hnow]
    | silent => exact .inl rfl
  | _ => exact .inl rfl

/-- A poll obeys the ceiling of the node; nothing else moves the clock. -/
theorem Acted.now_le_ceiling {nd nd' : Node m E F} {l : Act} {msgs : List ControlToArbiter}
    (h : Acted nd l nd' msgs) (hwf : nd.Wf) : nd'.now ≤ max nd.now nd.allowed_ns := by
  cases h with
  | quiet _ _ hquiet => exact hquiet.now ▸ Nat.le_max_left _ _
  | polled _ sim _ _ _ _ hpc _ _ _ hspec _ hquiet =>
    have hstate := hwf.running_of_poll hpc
    rw [show nd'.now = sim.now from hquiet.now_eq]
    exact hspec.le_allowed (hwf.step_once hstate) _ (hwf.allowed hstate)

theorem Acted.allowed_ns_eq {nd nd' : Node m E F} {l : Act} {msgs : List ControlToArbiter}
    (h : Acted nd l nd' msgs) : nd'.allowed_ns = nd.allowed_ns := by
  cases h with
  | quiet _ _ hquiet => exact hquiet.allowed_ns_eq
  | polled _ _ _ _ _ _ _ _ _ _ _ _ hquiet => exact hquiet.allowed_ns_eq

theorem Acted.state_eq {nd nd' : Node m E F} {l : Act} {msgs : List ControlToArbiter}
    (h : Acted nd l nd' msgs) : nd'.state = nd.state := by
  cases h with
  | quiet _ _ hquiet => exact hquiet.state_eq
  | polled _ _ _ _ _ _ _ _ _ _ _ _ hquiet => exact hquiet.state_eq

theorem Acted.max_quantum_eq {nd nd' : Node m E F} {l : Act} {msgs : List ControlToArbiter}
    (h : Acted nd l nd' msgs) : nd'.sim.max_quantum = nd.sim.max_quantum := by
  cases h with
  | quiet _ _ hquiet => exact hquiet.max_quantum_eq
  | polled _ _ _ _ _ _ _ _ _ _ hspec _ hquiet =>
    exact hquiet.max_quantum_eq.trans hspec.max_quantum_eq

theorem Took.max_quantum_eq {i : Fin n} {nd nd' : Node m E F} {msg : ControlToNode n}
    {msgs : List ControlToArbiter} (h : Took i nd msg nd' msgs) :
    nd'.sim.max_quantum = nd.sim.max_quantum := by
  have hhalt (nd : Node m E F) (sim : Simulator E) :
      (nd.halt_if_running sim).max_quantum = sim.max_quantum := by
    unfold halt_if_running
    split <;> rfl
  cases h with
  | start =>
    unfold started
    split <;> rfl
  | cluster_stop => exact hhalt nd nd.sim
  | gdb_other => exact hhalt nd nd.sim
  | gdb_step nd₁ _ hstep =>
    refine (hhalt nd nd₁.sim).trans ?_
    cases hstep with
    | stopped _ _ _ hspec => exact hspec.max_quantum_eq
    | silent _ _ hspec => exact hspec.max_quantum_eq
  | _ => rfl

theorem Took.allowed_ns_cases {i : Fin n} {nd nd' : Node m E F} {msg : ControlToNode n}
    {msgs : List ControlToArbiter} (h : Took i nd msg nd' msgs) :
    nd'.allowed_ns = nd.allowed_ns ∨ msg.ceiling_of = some nd'.allowed_ns := by
  cases h with
  | start => exact .inr rfl
  | allowed => exact .inr rfl
  | gdb_step _ _ hstep => cases hstep <;> exact .inl rfl
  | _ => exact .inl rfl

/-- Only a gdb step moves the clock of a node that handles a message. -/
theorem Took.now_eq [LawfulEntity E] {i : Fin n} {nd nd' : Node m E F} {msg : ControlToNode n}
    {msgs : List ControlToArbiter} (h : Took i nd msg nd' msgs)
    (hmsg : msg ≠ .GdbStep i) : nd'.now = nd.now := by
  cases h with
  | start a => exact started_now nd a
  | cluster_stop => exact halt_now nd nd.sim
  | reset => exact (LawfulEntity.reset_timeless nd.sim.entity).now_eq
  | gdb_other => exact halt_now nd nd.sim
  | gdb_step => exact absurd rfl hmsg
  | _ => rfl

/-- A gdb step that moves the clock reports it. -/
theorem Took.now_eq_of_times [LawfulEntity E] {i : Fin n} {nd nd' : Node m E F}
    {msg : ControlToNode n} {msgs : List ControlToArbiter} (h : Took i nd msg nd' msgs)
    (hnil : times (nd'.stamp msgs) = []) : nd'.now = nd.now := by
  by_cases hmsg : msg = .GdbStep i
  · subst hmsg
    cases h with
    | gdb_other _ hne => exact absurd rfl hne
    | gdb_step nd₁ _ hstep =>
      cases hstep with
      | stopped => cases hnil
      | silent sim _ _ hnow => exact (halt_now nd sim).trans hnow
  · exact h.now_eq hmsg

end Node

/-! ### The cluster -/

section moved

variable {cfg : Config n m} {s s' : Cluster n m E F} {l : Step n}

/-- What is queued for a board was queued before or is broadcast now. -/
theorem Moved.mem_down (h : Moved cfg s l s') {i : Fin n} {msg : ControlToNode n}
    (hmsg : msg ∈ s'.down i) :
    msg ∈ s.down i ∨
      ∃ act out, l = .hub act ∧ s.hub.Effect act s'.hub out ∧ msg ∈ out := by
  cases h with
  | hub act a out heff =>
    rcases List.mem_append.mp hmsg with hold | hnew
    · exact .inl hold
    · exact .inr ⟨act, out, rfl, heff, hnew⟩
  | deliver => exact .inl hmsg
  | act k =>
    by_cases hi : i = k
    · subst hi
      exact .inl (by simpa using hmsg)
    · rw [Star.Net.move_down_ne _ _ _ _ _ hi] at hmsg
      exact .inl hmsg
  | take k _ msg₀ rest _ _ _ hdown =>
    left
    by_cases hi : i = k
    · subst hi
      rw [Star.Net.move_down_self] at hmsg
      rw [hdown]
      exact List.mem_cons_of_mem _ hmsg
    · rwa [Star.Net.move_down_ne _ _ _ _ _ hi] at hmsg

/-- A node obeys its old ceiling or one that was queued for it. -/
theorem Moved.allowed_ns_cases (h : Moved cfg s l s') (i : Fin n) :
    (s'.spoke i).allowed_ns = (s.spoke i).allowed_ns ∨
      ∃ msg ∈ s.down i, msg.ceiling_of = some (s'.spoke i).allowed_ns := by
  cases h with
  | hub | deliver => exact .inl rfl
  | act k _ _ nd _ _ hacted =>
    by_cases hi : i = k
    · subst hi
      rw [Star.Net.move_spoke_self]
      exact .inl hacted.allowed_ns_eq
    · rw [Star.Net.move_spoke_ne _ _ _ _ _ hi]
      exact .inl rfl
  | take k _ msg rest _ nd _ hdown _ _ htook =>
    by_cases hi : i = k
    · subst hi
      rw [Star.Net.move_spoke_self, hdown]
      rcases htook.allowed_ns_cases with heq | hceil
      · exact .inl heq
      · exact .inr ⟨msg, List.mem_cons_self, hceil⟩
    · rw [Star.Net.move_spoke_ne _ _ _ _ _ hi]
      exact .inl rfl

/-- Without a gdb step in its queue, a node's clock obeys its ceiling. -/
theorem Moved.now_le_ceiling [LawfulEntity E] (h : Moved cfg s l s') (hwf : ClusterWf s)
    {i : Fin n} (hstep : .GdbStep i ∉ s.down i) :
    (s'.spoke i).now ≤ max (s.spoke i).now (s.spoke i).allowed_ns := by
  cases h with
  | hub | deliver => exact Nat.le_max_left _ _
  | act k _ _ nd _ _ hacted =>
    by_cases hi : i = k
    · subst hi
      rw [Star.Net.move_spoke_self]
      exact hacted.now_le_ceiling (hwf.node i)
    · rw [Star.Net.move_spoke_ne _ _ _ _ _ hi]
      exact Nat.le_max_left _ _
  | take k _ msg rest _ nd _ hdown _ _ htook =>
    by_cases hi : i = k
    · subst hi
      rw [Star.Net.move_spoke_self]
      refine htook.now_eq ?_ ▸ Nat.le_max_left _ _
      rintro rfl
      exact hstep (hdown ▸ List.mem_cons_self)
    · rw [Star.Net.move_spoke_ne _ _ _ _ _ hi]
      exact Nat.le_max_left _ _

/-- The quantum is a constant of the run. -/
theorem Moved.max_quantum_eq (h : Moved cfg s l s') (i : Fin n) :
    (s'.spoke i).sim.max_quantum = (s.spoke i).sim.max_quantum := by
  cases h with
  | hub | deliver => rfl
  | act k _ _ nd _ _ hacted =>
    by_cases hi : i = k
    · subst hi
      rw [Star.Net.move_spoke_self]
      exact hacted.max_quantum_eq
    · rw [Star.Net.move_spoke_ne _ _ _ _ _ hi]
  | take k _ msg rest _ nd _ hdown _ _ htook =>
    by_cases hi : i = k
    · subst hi
      rw [Star.Net.move_spoke_self]
      exact htook.max_quantum_eq
    · rw [Star.Net.move_spoke_ne _ _ _ _ _ hi]

theorem Moved.margin_eq (h : Moved cfg s l s') :
    s'.hub.ceiling.margin_ns = s.hub.ceiling.margin_ns := by
  cases h with
  | hub _ _ _ heff =>
    rcases heff.ceiling_cases with heq | ⟨-, heq⟩
    · exact congrArg TimeCeiling.margin_ns heq
    · exact (congrArg TimeCeiling.margin_ns heq).trans (TimeCeiling.advance_to_margin _ _)
  | deliver _ _ _ _ _ hrecv => exact hrecv.margin_eq
  | act | take => rfl

/-- What a step does to the time reports of one board: those in flight, and
    the last one the arbiter took. -/
inductive TimesStep (l : Step n) (s s' : Cluster n m E F) (i : Fin n) : Prop where
  | same : times (s'.up i) = times (s.up i) →
      s'.hub.ceiling.reports i = s.hub.ceiling.reports i → TimesStep l s s' i
  | sent : times (s'.up i) = times (s.up i) ++ [(s'.spoke i).now] →
      s'.hub.ceiling.reports i = s.hub.ceiling.reports i → TimesStep l s s' i
  | received : times (s.up i) = s'.hub.ceiling.reports i :: times (s'.up i) →
      (s'.spoke i).now = (s.spoke i).now → TimesStep l s s' i
  | raised : l = .hub (.host .Reset) → times (s'.up i) = times (s.up i) →
      s'.hub.ceiling.reports i =
        max (s.hub.ceiling.reports i) (max s.hub.allowed s.hub.vt) → TimesStep l s s' i

/-- The reports of a board when one of its steps published `out`. -/
theorem timesStep_of_out {i : Fin n} {out : List Report} (hup : s'.up i = s.up i ++ out)
    (hrep : s'.hub.ceiling.reports i = s.hub.ceiling.reports i)
    (hout : times out = [] ∨ times out = [(s'.spoke i).now]) : TimesStep l s s' i := by
  rcases hout with hnil | hone
  · exact .same (by rw [hup, times_append, hnil, List.append_nil]) hrep
  · exact .sent (by rw [hup, times_append, hone]) hrep

theorem Moved.timesStep (h : Moved cfg s l s') (i : Fin n) : TimesStep l s s' i := by
  cases h with
  | hub act a out heff =>
    rcases heff.ceiling_cases with heq | ⟨rfl, heq⟩
    · exact .same rfl (congrArg (fun c => c.reports i) heq)
    · exact .raised rfl rfl (by rw [heq]; exact TimeCeiling.advance_to_reports _ _ _)
  | deliver k r rest a hup hrecv =>
    obtain ⟨msg, handled⟩ := r
    by_cases hi : i = k
    · subst hi
      -- Of the messages only a time report carries a time.
      cases hrecv with
      | ready => exact .same (by simp [hup]) rfl
      | time => exact .received (by simp [hup]) rfl
      | insn => exact .same (by simp [hup]) rfl
      | stop => exact .same (by simp [hup]) rfl
    · have hne : (Function.update s.up k rest) i = s.up i := Function.update_of_ne hi _ _
      refine .same (congrArg times hne) ?_
      cases hrecv with
      | time => exact TimeCeiling.report_ne _ _ hi
      | _ => rfl
  | act k _ _ nd msgs _ hacted =>
    by_cases hi : i = k
    · subst hi
      refine timesStep_of_out (Star.Net.move_up_self _ _ _ _ _ _) rfl ?_
      rw [Star.Net.move_spoke_self]
      exact hacted.times_eq
    · exact .same (congrArg times (Star.Net.move_up_ne _ _ _ _ _ hi)) rfl
  | take k _ _ _ _ nd msgs _ _ _ htook =>
    by_cases hi : i = k
    · subst hi
      refine timesStep_of_out (Star.Net.move_up_self _ _ _ _ _ _) rfl ?_
      rw [Star.Net.move_spoke_self]
      exact htook.times_eq
    · exact .same (congrArg times (Star.Net.move_up_ne _ _ _ _ _ hi)) rfl

end moved

end Rl78Sim
