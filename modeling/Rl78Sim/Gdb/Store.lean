import Rl78Sim.Cluster.GuestMoves
import Rl78Sim.Gdb.Backend

/-! # The Breakpoint Store of a Board

    Only an inspect command that the simulator accepts changes the store of a
    board: neither polls nor resets do, nor anything else that the node does. -/

namespace Rl78Sim

open Transition

variable {n m : Nat} {E F α : Type} [Entity E F]

/-! ### What only inspection changes -/

/-- Nothing but an inspect command changes the value. -/
structure Entity.Steady (f : E → α) : Prop where
  poll {fuel : Nat} {e e' : E} {ctx : AdvanceCtx} {r : EntityPoll} :
    Entity.poll fuel e ctx = some (e', r) → f e' = f e
  reset (e : E) : f (Entity.reset e) = f e
  poll_actions (e : E) : f (Entity.poll_actions e) = f e
  apply_action (e : E) (req : ActionRequest) : f (Entity.apply_action e req).1 = f e
  receive (e : E) (port : String) (v : F) : f (Entity.receive e port v) = f e
  drain (e : E) (names : List String) : f (Entity.drain_pending e names) = f e

namespace Entity.Steady

variable {f : E → α} (hf : Entity.Steady f)

include hf

theorem sim_poll {fuel : Nat} {sim sim' : Simulator E} {rsp : Option Response}
    (h : sim.poll fuel = some (sim', rsp)) : f sim'.entity = f sim.entity := by
  rcases Simulator.poll_cases h with ⟨-, rfl, -⟩ | ⟨-, -, r, hpoll, -⟩
  · rfl
  · exact hf.poll hpoll

theorem step_loop {fuel polls : Nat} {sim sim' : Simulator E} {rsp : Option Response}
    (h : Node.step_loop fuel polls sim = some (sim', rsp)) : f sim'.entity = f sim.entity := by
  induction polls generalizing sim with
  | zero =>
    unfold Node.step_loop at h
    split at h
    · cases h
    · rename_i hpoll
      cases h
      exact hf.sim_poll hpoll
    · rename_i hpoll
      cases h
      exact hf.sim_poll hpoll
  | succ polls ih =>
    unfold Node.step_loop at h
    split at h
    · cases h
    · rename_i hpoll
      cases h
      exact hf.sim_poll hpoll
    · rename_i hpoll
      exact (ih h).trans (hf.sim_poll hpoll)

theorem local_step (nd : Node m E F) {nd' : Node m E F} {fuel polls : Nat}
    {out : List ControlToArbiter} (h : nd.perform_local_step fuel polls = some (nd', out)) :
    f nd'.sim.entity = f nd.sim.entity := by
  have hcmd : (nd.sim.command .Step).1.entity = nd.sim.entity := nd.sim.command_entity nofun
  unfold Node.perform_local_step at h
  split at h
  · rename_i sim heq
    rw [heq] at hcmd
    rw [← hcmd]
    split at h
    · cases h
    · rename_i hloop
      cases h
      exact hf.step_loop hloop
    · rename_i hloop
      cases h
      exact hf.step_loop hloop
  · rename_i sim _ _ heq
    rw [heq] at hcmd
    cases h
    exact congrArg f hcmd

theorem service_actions (nd : Node m E F) (requests : List ActionRequest) :
    f (nd.service_actions requests).sim.entity = f nd.sim.entity := by
  unfold Node.service_actions
  split
  · dsimp only
    split
    · have happly (requests : List ActionRequest) (e : E) :
          f (requests.foldl (fun e req => (Entity.apply_action e req).1) e) = f e := by
        induction requests generalizing e with
        | nil => rfl
        | cons req requests ih => exact (ih _).trans (hf.apply_action e req)
      exact (happly _ _).trans (hf.poll_actions _)
    · rfl
  · rfl

/-- A step of a node that serves no inspect request. -/
theorem act {cfg : Config n m} {i : Fin n} {l : Node.Act} {lanes lanes' : Lanes m F}
    {nd nd' : Node m E F} {out : List Report} (hl : ∀ cmd, l ≠ .inspect cmd)
    (h : nd.act cfg i lanes l = some (lanes', nd', out)) :
    f nd'.sim.entity = f nd.sim.entity := by
  cases l with
  | inspect cmd => exact absurd rfl (hl cmd)
  | drained =>
    simp only [Node.act] at h
    split at h <;> cases h
    rfl
  | service requests =>
    simp only [Node.act] at h
    split at h
    case h_2 => cases h
    have hkeep := hf.service_actions nd requests
    split at h <;> cases h
    · exact hkeep
    · exact hkeep
  | pump_rx =>
    simp only [Node.act] at h
    split at h <;> cases h
    unfold Node.pump_rx
    split
    · rfl
    · rfl
    · split
      · rfl
      · exact hf.receive _ _ _
  | poll fuel =>
    obtain ⟨-, -, ⟨-, rfl, -⟩ | ⟨-, -, sim, rsp, nd₁, msgs, hsim, -, hsame, rfl, -⟩⟩ :=
      Node.act_poll h
    · rfl
    -- The report after the poll leaves the entity alone; then its ports are drained.
    · refine (hf.drain _ _).trans ?_
      rw [hsame]
      exact hf.sim_poll hsim
  | pump_tx =>
    simp only [Node.act] at h
    split at h <;> cases h
    unfold Node.pump_tx
    split <;> rfl

/-- One turn of the control drain. -/
theorem take {cfg : Config n m} {i : Fin n} {t : Node.Take} {msg : ControlToNode n}
    {lanes lanes' : Lanes m F} {nd nd' : Node m E F} {out : List Report}
    (h : nd.take cfg i t msg lanes = some (lanes', nd', out)) :
    f nd'.sim.entity = f nd.sim.entity := by
  rcases Node.take_entity h with hentity | hentity | ⟨noted, nd₁, msgs, hsim, hstep, hentity⟩
  · rw [hentity]
  · rw [hentity]
    exact hf.reset _
  · rw [hentity, hf.local_step noted hstep, hsim]

/-- A step of the cluster that serves no request of the board. -/
theorem net_step {cfg : Config n m} {b : Fin n} {s s' : Cluster n m E F} {l : Step n}
    (hl : ∀ cmd, l ≠ .spoke b (.inspect cmd)) (h : (protocol cfg).step s l = some s') :
    f (guest s' b) = f (guest s b) := by
  rcases Star.Protocol.step_cases h with ⟨a, hub, out, rfl, -, rfl⟩ |
    ⟨i, msg, rest, hub, rfl, -, -, rfl⟩ | ⟨i, a, env, nd, out, rfl, hact, rfl⟩ |
    ⟨i, a, msg, rest, env, nd, out, rfl, -, htake, rfl⟩
  · rfl
  · rfl
  · by_cases hi : b = i
    · subst hi
      have hkeep := hf.act (by intro cmd heq; exact hl cmd (by rw [heq])) hact
      simpa [guest] using hkeep
    · simp only [guest, Star.Net.move_spoke_ne _ _ _ _ _ hi]
  · by_cases hi : b = i
    · subst hi
      have hkeep := hf.take htake
      simpa [guest] using hkeep
    · simp only [guest, Star.Net.move_spoke_ne _ _ _ _ _ hi]

end Entity.Steady

/-- A request is served by the simulator of the board. -/
theorem served_sim {cfg : Config n m} {b : Fin n} {net net' : Cluster n m E F}
    {cmd : InspectCommand}
    (h : (protocol cfg).step net (.spoke b (.inspect cmd)) = some net') :
    (net'.spoke b).sim = ((net.spoke b).sim.command (.Inspect cmd)).1 := by
  obtain ⟨⟨env, nd, out⟩, hact, rfl⟩ := Option.map_eq_some_iff.mp h
  have hact : (net.spoke b).act cfg b net.env (.inspect cmd) = some (env, nd, out) := hact
  simp only [Node.act] at hact
  split at hact
  · cases hact
    simp
  · cases hact

/-! ### The store -/

namespace Machine

variable {C Ev : Type} [Cpu C Ev F] {m m' : Machine C Ev F}

omit [Entity E F]

theorem breakpoints_fire {fuel : Nat} {stop : Option StopReason}
    (h : m.fire_due_events fuel = some (m', stop)) : m'.breakpoints = m.breakpoints := by
  induction fuel generalizing m with
  | zero => cases h
  | succ fuel ih =>
    unfold fire_due_events at h
    split at h
    · cases h
      rfl
    · split at h
      · rename_i hcall
        cases h
        exact congrArg (fun r => r.1.breakpoints) hcall.symm
      · rename_i hcall
        exact (ih h).trans (congrArg (fun r => r.1.breakpoints) hcall.symm)

theorem breakpoints_finish {fuel : Nat} {r : EntityPoll}
    (h : m.finish_poll fuel = some (m', r)) : m'.breakpoints = m.breakpoints := by
  unfold finish_poll at h
  obtain ⟨⟨m₁, stop⟩, hfire, heq⟩ := Option.map_eq_some_iff.mp h
  cases stop with
  | none =>
    cases heq
    exact breakpoints_fire hfire
  | some reason =>
    cases heq
    exact breakpoints_fire hfire

theorem breakpoints_idle {fuel budget : Nat} {r : EntityPoll}
    (h : m.idle fuel budget = some (m', r)) : m'.breakpoints = m.breakpoints := by
  unfold idle at h
  split at h
  · cases h
    rfl
  · exact breakpoints_finish (m := m.advance_clock budget) h

theorem breakpoints_quantum {fuel ns_per_insn budget k : Nat} {r : EntityPoll}
    (h : m.quantum fuel ns_per_insn budget k = some (m', r)) : m'.breakpoints = m.breakpoints := by
  have hran : (m.call (Cpu.run_quantum k)).1.breakpoints = m.breakpoints := rfl
  unfold quantum at h
  revert h hran
  generalize m.call (Cpu.run_quantum k) = ran
  intro h hran
  obtain ⟨ran, result⟩ := ran
  dsimp only at h hran
  split at h
  · cases h
    exact hran
  · unfold settle at h
    split at h
    · cases h
      exact hran
    · split at h
      · cases h
        exact hran
      · exact (breakpoints_finish h).trans hran

/-- A poll neither sets nor removes a breakpoint. -/
theorem breakpoints_poll {fuel : Nat} {ctx : AdvanceCtx} {r : EntityPoll}
    (h : m.poll fuel ctx = some (m', r)) : m'.breakpoints = m.breakpoints := by
  unfold poll at h
  split at h
  · cases h
  · rename_i hfire
    cases h
    exact breakpoints_fire hfire
  · rename_i m₁ hfire
    refine Eq.trans ?_ (breakpoints_fire hfire)
    unfold run at h
    dsimp only at h
    split at h
    · exact (breakpoints_idle h).trans rfl
    · split at h
      · cases h
        rfl
      · split at h
        · exact (breakpoints_idle h).trans rfl
        · exact (breakpoints_quantum h).trans rfl

end Machine

namespace Board

variable {C Ev M : Type}

/-- The breakpoints of a board; a plant has none. -/
def breakpoints : Board C Ev M F → List Breakpoint
  | .machine m => m.breakpoints.items
  | .plant _ => []

omit [Entity E F]
variable [Cpu C Ev F] [Model M F]

theorem steady_breakpoints : Entity.Steady (breakpoints : Board C Ev M F → List Breakpoint) where
  poll h := by
    rcases poll_cases h with ⟨m, m', rfl, rfl, hm⟩ | ⟨p, p', rfl, rfl, -⟩
    · exact congrArg BreakpointStore.items (Machine.breakpoints_poll hm)
    · rfl
  reset b := by cases b <;> rfl
  poll_actions b := by cases b <;> rfl
  apply_action b req := by cases b <;> rfl
  receive b port v := by cases b <;> rfl
  drain b names := by cases b <;> rfl

theorem steady_is_plant : Entity.Steady (is_plant : Board C Ev M F → Bool) where
  poll h := by
    rcases poll_cases h with ⟨m, m', rfl, rfl, -⟩ | ⟨p, p', rfl, rfl, -⟩
    · rfl
    · rfl
  reset b := reset_is_plant b
  poll_actions b := by cases b <;> rfl
  apply_action b req := by cases b <;> rfl
  receive b port v := receive_is_plant b port v
  drain b names := by cases b <;> rfl

/-- Clearing leaves no breakpoint. -/
theorem breakpoints_clear (b : Board C Ev M F) :
    (Entity.inspect b .ClearBreakpoints).1.breakpoints = [] := by
  cases b <;> rfl

/-- A board without breakpoints has one only after an insertion. -/
theorem breakpoints_inspect {b : Board C Ev M F} (h : b.breakpoints = []) {cmd : InspectCommand}
    (hcmd : ∀ addr, cmd ≠ .AddBreakpoint addr) : (Entity.inspect b cmd).1.breakpoints = [] := by
  cases b with
  | plant p => rfl
  | machine m =>
    show (m.inspect_command cmd).1.breakpoints.items = []
    have hnone : m.breakpoints.items = [] := h
    cases cmd with
    | AddBreakpoint addr => exact absurd rfl (hcmd addr)
    | RemoveBreakpoint addr =>
      have hremove : (m.breakpoints.remove_at addr).2 = false := by
        unfold BreakpointStore.remove_at
        rw [hnone]
        rfl
      simp only [Machine.inspect_command]
      split <;> rename_i heq <;> rw [heq] at hremove
      · cases hremove
      · exact hnone
    | ClearBreakpoints => rfl
    | ReadReg id =>
      simp only [Machine.inspect_command]
      split <;> exact hnone
    | WriteReg id value =>
      simp only [Machine.inspect_command]
      split <;> exact hnone
    | ReadMem addr len =>
      simp only [Machine.inspect_command]
      split <;> rename_i heq <;>
        exact (congrArg (fun r => r.1.breakpoints.items) heq).symm.trans hnone
    | WriteMem addr data =>
      simp only [Machine.inspect_command]
      split <;> rename_i heq <;>
        exact (congrArg (fun r => r.1.breakpoints.items) heq).symm.trans hnone
    | ReadGdbRegs =>
      simp only [Machine.inspect_command]
      split <;> exact hnone
    | WriteGdbRegs data =>
      simp only [Machine.inspect_command]
      split <;> exact hnone

/-- A machine stays a machine, whatever the cluster does. -/
theorem is_plant_step {cfg : Config n m} {b : Fin n} {s s' : Cluster n m (Board C Ev M F) F}
    {l : Step n} (h : (protocol cfg).step s l = some s') :
    (guest s' b).is_plant = (guest s b).is_plant := by
  by_cases hl : ∃ cmd, l = .spoke b (.inspect cmd)
  · obtain ⟨cmd, rfl⟩ := hl
    show (s'.spoke b).sim.entity.is_plant = _
    rw [served_sim h]
    unfold Simulator.command
    split
    · rfl
    · dsimp only
      split
      · rfl
      · exact call_is_plant (.inspect cmd)
  · refine steady_is_plant.net_step ?_ h
    intro cmd heq
    exact hl ⟨cmd, heq⟩

end Board

end Rl78Sim
