import Rl78Sim.Framework.Fifo
import Rl78Sim.Cluster.VirtualTime

/-! # Runs with a Target

    After a start with target `u` the arbiter publishes no ceiling past `u`
    before it broadcasts the stop that ends the run, and starts nothing new by
    itself. So a node that handled the start stays at or below `u` until the
    next command that moves boards: while it runs it sees only such ceilings,
    and once it stopped it does not move.
-/

namespace Rl78Sim

open Transition

variable {n m : Nat} {E F : Type} [Entity E F]

/-- The step handles a command that starts or moves boards. -/
def starts_boards : Step n → Bool
  | .hub (.host (.Start _)) => true
  | .hub (.host .Reset) => true
  | .hub (.host (.Step _)) => true
  | _ => false

/-- Steps before the next start, reset or gdb step. -/
def WithinRun (_ : Cluster n m E F) (l : Step n) : Prop := starts_boards l = false

instance (s : Cluster n m E F) (l : Step n) : Decidable (WithinRun s l) :=
  inferInstanceAs (Decidable (starts_boards l = false))

/-! ### Capped queues -/

/-- The message starts or moves a board. -/
def ControlToNode.moves : ControlToNode n → Bool
  | .Start _ => true
  | .GdbStep _ => true
  | _ => false

/-- Up to the first stop in the queue every ceiling is at most `u`; when there
    is no stop, the arbiter still has target `u`. -/
def Capped (u : Nat) (until_cap : Option Nat) : List (ControlToNode n) → Prop
  | [] => until_cap = some u
  | .ClusterStop _ :: _ => True
  | .Allowed a :: rest => a ≤ u ∧ Capped u until_cap rest
  | _ :: rest => Capped u until_cap rest

/-- What is broadcast later only matters when the queue holds no stop. -/
theorem Capped.append {u : Nat} {cap cap' : Option Nat} {out : List (ControlToNode n)}
    (hout : cap = some u → Capped u cap' out) {q : List (ControlToNode n)}
    (h : Capped u cap q) : Capped u cap' (q ++ out) := by
  induction q with
  | nil => exact hout h
  | cons msg q ih =>
    cases msg with
    | ClusterStop => exact trivial
    | Allowed => exact ⟨h.1, ih h.2⟩
    | _ => exact ih h

namespace Arbiter

/-- No stepped board is waited for. -/
structure NoInsn (a : Arbiter n) : Prop where
  phase (b : Fin n) : a.gdb_step ≠ some (.WaitInsn b)
  report {changed : Bool} {cluster_stop gdb_insn : Option (StopReport n)} :
    a.pc = .sync changed cluster_stop gdb_insn → gdb_insn = none

/-- Within a run nothing is started, and no ceiling passes the target. -/
theorem Effect.capped {u : Nat} {a a' : Arbiter n} {act : Arbiter.Act n}
    {out : List (ControlToNode n)} (h : a.Effect act a' out)
    (hact : starts_boards (.hub act) = false) (hinsn : a.NoInsn) :
    a'.NoInsn ∧ (∀ msg ∈ out, msg.moves = false) ∧
      (a.until_cap = some u → Capped u a'.until_cap out) := by
  cases h with
  | shutdown hpc => exact ⟨⟨hinsn.phase, by simp⟩, by simp, id⟩
  | watch _ _ _ hpc => exact ⟨hinsn, by simp [ControlToNode.moves], id⟩
  | sync_begin hpc => exact ⟨⟨hinsn.phase, by rintro _ _ _ ⟨⟩; rfl⟩, by simp, id⟩
  | refuse | start_stops | start | reset | step_unknown | step_running | step_idle => cases hact
  | stop hpc =>
    refine ⟨⟨by simp [stop_run], fun h => ?_⟩, by simp [ControlToNode.moves], fun _ => trivial⟩
    rw [show _ = ArbiterPc.host from hpc] at h
    cases h
  | stop_idle hpc => exact ⟨⟨hinsn.phase, hinsn.report⟩, by simp, id⟩
  | host_stop | until_stop =>
    exact ⟨⟨by simp [stop_run], by simp [stop_run]⟩, by simp [ControlToNode.moves],
      fun _ => trivial⟩
  -- Without an instruction report the round catches nobody up.
  | catch_up _ _ hpc => cases hinsn.report hpc
  | unchanged => exact ⟨⟨hinsn.phase, by simp⟩, by simp, id⟩
  | republish =>
    refine ⟨⟨hinsn.phase, by simp⟩, by simp [ControlToNode.moves], fun hcap => ⟨?_, hcap⟩⟩
    rw [hcap]
    exact a.ceiling.allowed_until_le u
  | republish_until_stop =>
    refine ⟨⟨by simp [stop_run], by simp [stop_run]⟩, by simp [ControlToNode.moves],
      fun hcap => ⟨?_, trivial⟩⟩
    rw [hcap]
    exact a.ceiling.allowed_until_le u

theorem Recv.noInsn {a a' : Arbiter n} {i : Fin n} {handled : Nat} {msg : ControlToArbiter}
    (h : a.Recv i handled msg a') (hinsn : a.NoInsn) :
    a'.NoInsn ∧ a'.until_cap = a.until_cap := by
  cases h with
  | ready => exact ⟨hinsn, rfl⟩
  | time _ _ _ _ hpc =>
    refine ⟨⟨hinsn.phase, ?_⟩, rfl⟩
    rintro _ _ _ ⟨⟩
    exact hinsn.report hpc
  | insn _ _ _ _ _ hgdb => exact absurd hgdb (hinsn.phase i)
  | stop _ _ _ _ hpc =>
    refine ⟨⟨hinsn.phase, ?_⟩, rfl⟩
    rintro _ _ _ ⟨⟩
    exact hinsn.report hpc

end Arbiter

/-! ### The link after a start with a target -/

/-- The start with target `u` is on its way: behind it, the queue is capped. -/
def StartQueued (u : Nat) (cap : Option Nat) : List (ControlToNode n) → Prop :=
  Fifo.Followed fun msg post => (∃ c ≤ u, msg = .Start c) ∧
    (∀ msg ∈ post, msg.moves = false) ∧ Capped u cap post

/-- The node has handled the start: while it runs, its ceiling and its queue
    are capped. -/
structure StartHandled (u : Nat) (cap : Option Nat) (nd : Node m E F)
    (down : List (ControlToNode n)) : Prop where
  quiet : ∀ msg ∈ down, msg.moves = false
  ceiling : nd.state = .Running → nd.allowed_ns ≤ u ∧ Capped u cap down

section link

variable {u : Nat} {cap cap' : Option Nat} {nd nd' : Node m E F} {i : Fin n}
  {msg : ControlToNode n} {down rest out : List (ControlToNode n)}
  {msgs : List ControlToArbiter}

theorem StartQueued.append (h : StartQueued u cap down)
    (hmoves : ∀ msg ∈ out, msg.moves = false) (hout : cap = some u → Capped u cap' out) :
    StartQueued u cap' (down ++ out) := by
  refine Fifo.Followed.append h fun _ post ⟨hstart, hpost, hcap⟩ => ⟨hstart, ?_, hcap.append hout⟩
  exact fun msg hmsg => (List.mem_append.mp hmsg).elim (hpost msg) (hmoves msg)

omit [Entity E F] in
theorem StartHandled.append (h : StartHandled u cap nd down)
    (hmoves : ∀ msg ∈ out, msg.moves = false) (hout : cap = some u → Capped u cap' out) :
    StartHandled u cap' nd (down ++ out) :=
  ⟨fun msg hmsg => (List.mem_append.mp hmsg).elim (h.quiet msg) (hmoves msg),
    fun hrun => ⟨(h.ceiling hrun).1, (h.ceiling hrun).2.append hout⟩⟩

/-- The steps of the node by itself keep its state and its ceiling. -/
theorem StartHandled.acted {l : Node.Act} (h : StartHandled u cap nd down)
    (hacted : nd.Acted l nd' msgs) : StartHandled u cap nd' down :=
  ⟨h.quiet, fun hrun => by
    rw [hacted.allowed_ns_eq]
    exact h.ceiling (hacted.state_eq ▸ hrun)⟩

/-- Handling a message behind the start. -/
theorem StartHandled.took (h : StartHandled u cap nd (msg :: rest))
    (htook : nd.Took i msg nd' msgs) : StartHandled u cap nd' rest := by
  have hmoves := h.quiet msg List.mem_cons_self
  refine ⟨fun m hm => h.quiet m (List.mem_cons_of_mem _ hm), fun hrun => ?_⟩
  cases htook with
  | start | gdb_other | gdb_step => cases hmoves
  | cluster_stop => cases hrun
  | reset hs => rw [show _ = NodeState.Stopped from hs] at hrun; cases hrun
  | allowed c =>
    obtain ⟨-, hc, hcap⟩ := h.ceiling hrun
    exact ⟨hc, hcap⟩
  | startup => exact h.ceiling hrun
  | reset_ignored => exact h.ceiling hrun
  | watch => exact h.ceiling hrun

/-- Handling a message before the start, or the start itself. -/
theorem StartQueued.took (h : StartQueued u cap (msg :: rest))
    (htook : nd.Took i msg nd' msgs) :
    StartQueued u cap rest ∨ StartHandled u cap nd' rest := by
  refine h.take.imp_right ?_
  rintro ⟨⟨c, hc, rfl⟩, hrest, hcap⟩
  cases htook
  exact ⟨hrest, fun _ => ⟨hc, hcap⟩⟩

/-- A node that handled the start does not pass its target. -/
theorem StartHandled.acted_now_le {c : Nat} {l : Node.Act} (h : StartHandled u cap nd down)
    (hwf : nd.Wf) (hacted : nd.Acted l nd' msgs) (hnow : nd.now ≤ max c u) :
    nd'.now ≤ max c u := by
  have hle := hacted.now_le_ceiling hwf
  cases hacted with
  | quiet _ _ hquiet => exact hquiet.now ▸ hnow
  | polled _ _ _ _ _ _ hpc =>
    have hceil := (h.ceiling (hwf.running_of_poll hpc)).1
    omega

theorem StartHandled.took_now_le [LawfulEntity E] {c : Nat}
    (h : StartHandled u cap nd (msg :: rest)) (htook : nd.Took i msg nd' msgs)
    (hnow : nd.now ≤ max c u) : nd'.now ≤ max c u := by
  refine (htook.now_eq ?_).symm ▸ hnow
  rintro rfl
  cases h.quiet _ List.mem_cons_self

end link

/-- Every link since the arbiter handled a start with target `u`. -/
def UntilLink (u : Nat) (_ : Fin n) (a : Arbiter n) (nd : Node m E F)
    (down : List (ControlToNode n)) (_ : List Report) : Prop :=
  a.NoInsn ∧ (StartQueued u a.until_cap down ∨ StartHandled u a.until_cap nd down)

/-- The link of board `i` since its node handled the start at time `c`. -/
def HandledLink (u c : Nat) (i k : Fin n) (a : Arbiter n) (nd : Node m E F)
    (down : List (ControlToNode n)) (_ : List Report) : Prop :=
  a.NoInsn ∧ (k = i → StartHandled u a.until_cap nd down ∧ nd.now ≤ max c u)

theorem untilLink_rule (u : Nat) :
    LinkRule (E := E) (m := m) WithinRun (UntilLink (n := n) u) where
  hub s l a out i hok heff hlink := by
    obtain ⟨hinsn', hmoves, hout⟩ := heff.capped (u := u) hok hlink.1
    exact ⟨hinsn', hlink.2.imp (·.append hmoves hout) (·.append hmoves hout)⟩
  deliver s i r rest a _ _ hrecv hlink := by
    obtain ⟨hinsn', hcap⟩ := hrecv.noInsn hlink.1
    exact ⟨hinsn', hcap ▸ hlink.2⟩
  deliver_other s i j r rest a _ _ _ hrecv hlink := by
    obtain ⟨hinsn', hcap⟩ := hrecv.noInsn hlink.1
    exact ⟨hinsn', hcap ▸ hlink.2⟩
  act s i l nd msgs _ _ hacted hlink := ⟨hlink.1, hlink.2.imp_right (·.acted hacted)⟩
  take s i t msg rest nd msgs _ _ _ htook hlink :=
    ⟨hlink.1, hlink.2.elim (·.took htook) fun h => .inr (h.took htook)⟩

theorem handledLink_rule [LawfulEntity E] (u c : Nat) (i : Fin n) :
    LinkRule (E := E) (m := m) WithinRun (HandledLink u c i) where
  hub s l a out k hok heff hlink := by
    obtain ⟨hinsn', hmoves, hout⟩ := heff.capped (u := u) hok hlink.1
    exact ⟨hinsn', fun hk => ⟨(hlink.2 hk).1.append hmoves hout, (hlink.2 hk).2⟩⟩
  deliver s k r rest a _ _ hrecv hlink := by
    obtain ⟨hinsn', hcap⟩ := hrecv.noInsn hlink.1
    exact ⟨hinsn', hcap ▸ hlink.2⟩
  deliver_other s k j r rest a _ _ _ hrecv hlink := by
    obtain ⟨hinsn', hcap⟩ := hrecv.noInsn hlink.1
    exact ⟨hinsn', hcap ▸ hlink.2⟩
  act s k l nd msgs _ hwf hacted hlink := by
    refine ⟨hlink.1, fun hk => ?_⟩
    obtain ⟨hhandled, hnow⟩ := hlink.2 hk
    exact ⟨hhandled.acted hacted, hhandled.acted_now_le hwf hacted hnow⟩
  take s k t msg rest nd msgs _ _ _ htook hlink := by
    refine ⟨hlink.1, fun hk => ?_⟩
    obtain ⟨hhandled, hnow⟩ := hlink.2 hk
    exact ⟨hhandled.took htook, hhandled.took_now_le htook hnow⟩

/-! ### The target is not overshot -/

variable {cfg : Config n m} {s s' : Cluster n m E F} {u : Nat}

/-- The link of every board right after the arbiter broadcast the start. -/
theorem untilLink_of_start {c : Nat} {i : Fin n}
    (hm : Moved cfg s (.hub (.host (.Start (some u)))) s')
    (hsent : s'.down i = s.down i ++ [.Start c]) : Star.Net.All (UntilLink u) s' := by
  cases hm with
  | hub _ a out heff =>
    have hout : out = [.Start c] := List.append_cancel_left hsent
    cases heff with
    | refuse => cases hout
    | start_stops => cases hout
    | start _ hpc =>
      have hle := s.hub.ceiling.allowed_until_le u
      refine fun j => ⟨⟨nofun, fun hsync => ?_⟩, .inl (.send _ ⟨⟨_, hle, rfl⟩, nofun, rfl⟩)⟩
      rw [show _ = ArbiterPc.host from hpc] at hsync
      cases hsync

/-- Handling the last start in the queue, at the clock's present time. -/
theorem handledLink_of_take {c : Nat} {i : Fin n} {t : Node.Take}
    {rest : List (ControlToNode n)} (hm : Moved cfg s (.take i t) s')
    (h : Star.Net.All (UntilLink u) s) (hdown : s.down i = .Start c :: rest)
    (hlast : ∀ c', .Start c' ∉ rest) : Star.Net.All (HandledLink u (s'.spoke i).now i) s' := by
  intro k
  refine ⟨by cases hm; exact (h k).1, fun hk => ?_⟩
  subst hk
  refine ⟨?_, Nat.le_max_left _ _⟩
  cases hm with
  | take _ _ msg rest' _ nd msgs hdown' _ _ htook =>
    rw [Star.Net.move_spoke_self, Star.Net.move_down_self]
    have hlink := (h k).2
    rw [hdown'] at hlink
    rw [hdown'] at hdown
    obtain ⟨-, rfl⟩ := List.cons.inj hdown
    rcases hlink with hqueued | hhandled
    · refine (hqueued.took htook).resolve_left fun hbehind => ?_
      obtain ⟨_, hmem, _, ⟨c', -, rfl⟩, -⟩ := hbehind.exists_mem
      exact hlast c' hmem
    · exact hhandled.took htook

/-- From the moment a node handles a start with target `u` until the next
    command that moves boards, its clock stays at or below `u`, or where it was. -/
theorem until_not_overshot {C Ev M : Type} [Cpu C Ev F] [Model M F]
    {s₀ s₁ s₂ s₃ s₄ : Cluster n m (Board C Ev M F) F} {i : Fin n} {c : Nat} {t : Node.Take}
    {rest : List (ControlToNode n)} (h₀ : Reachable (system cfg) AnyRun s₀)
    (hstart : (system cfg).step s₀ (.hub (.host (.Start (some u)))) = some s₁)
    (hsent : s₁.down i = s₀.down i ++ [.Start c])
    (h₁₂ : Path (system cfg) WithinRun s₁ s₂)
    (htake : (system cfg).step s₂ (.take i t) = some s₃)
    (hmsg : s₂.down i = .Start c :: rest) (hlast : ∀ c', .Start c' ∉ rest)
    (h₃₄ : Path (system cfg) WithinRun s₃ s₄) :
    (s₄.spoke i).now ≤ max (s₃.spoke i).now u := by
  have hr₁ : Reachable (system cfg) AnyRun s₁ := .step _ h₀ trivial hstart
  have hr₂ : Reachable (system cfg) AnyRun s₂ := hr₁.of_path (h₁₂.mono fun _ _ _ => trivial)
  have hr₃ : Reachable (system cfg) AnyRun s₃ := .step _ hr₂ trivial htake
  have hlink₁ := untilLink_of_start (step_moved (wf_of_reachable h₀) hstart) hsent
  have hlink₂ := (untilLink_rule u).along h₁₂ (wf_of_reachable hr₁) hlink₁
  have hlink₃ := handledLink_of_take (step_moved (wf_of_reachable hr₂) htake) hlink₂ hmsg hlast
  have hlink₄ := (handledLink_rule u _ i).along h₃₄ (wf_of_reachable hr₃) hlink₃
  exact ((hlink₄ i).2 rfl).2

/-- Board 0 runs to the target of 500 while board 1 has not started yet. -/
theorem until_not_overshot_pair :
    ∃ s₁ s₃ s₄ : GuestCluster 2 0,
      (system (unwired 1000 100)).step (plants (unwired 1000 100) 10000 false)
        (.hub (.host (.Start (some 500)))) = some s₁ ∧
      (system (unwired 1000 100)).step s₁ (.take 0 ⟨2, 0⟩) = some s₃ ∧
      Path (system (unwired 1000 100)) WithinRun s₃ s₄ ∧
      (s₃.spoke 0).now < (s₄.spoke 0).now ∧
      (s₄.spoke 0).now ≤ max (s₃.spoke 0).now 500 := by
  have hrun : (((system (unwired 1000 100)).step (plants (unwired 1000 100) 10000 false)
      (.hub (.host (.Start (some 500))))).any fun s₁ =>
        s₁.down 0 = [.Start 500] ∧ ((system (unwired 1000 100)).step s₁ (.take 0 ⟨2, 0⟩)).any
          fun s₃ => ((system (unwired 1000 100)).exec WithinRun s₃
            (full_loop 0 ++ full_loop 0 ++ sync [0])).any
              fun s₄ => (s₃.spoke 0).now < (s₄.spoke 0).now) = true := by
    decide +kernel
  obtain ⟨s₁, hstart, hrest⟩ := (Option.any_eq_true _ _).mp hrun
  obtain ⟨hsent, hrest⟩ := of_decide_eq_true hrest
  obtain ⟨s₃, htake, hrest⟩ := (Option.any_eq_true _ _).mp hrest
  obtain ⟨s₄, hexec, hadv⟩ := (Option.any_eq_true _ _).mp hrest
  have hpath := Path.of_exec hexec
  exact ⟨s₁, s₃, s₄, hstart, htake, hpath, of_decide_eq_true hadv,
    until_not_overshot (.init (initial_plants _ 10000 false)) hstart hsent (.refl s₁) htake
      hsent nofun hpath⟩

end Rl78Sim
