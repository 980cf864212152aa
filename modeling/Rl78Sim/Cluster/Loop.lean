import Rl78Sim.Cluster.Observe
import Rl78Sim.Cluster.Traffic

/-! # Where a Node Stands in Its Loop

    A running node takes the frames of its lanes before each poll, and
    publishes what the guest has driven after it. The lemmas of this file
    follow the position of a node through one iteration, together with its
    clock, its ceiling and the lanes that it takes from.
-/

namespace Rl78Sim

open Transition

variable {n m : Nat} {E F : Type} [Entity E F]

namespace Node

/-- The node is about to look at its control inbox, or has just done so. -/
def NodePc.outside : NodePc m F → Bool
  | .drain => true
  | .service => true
  | _ => false

/-- One step of the loop. Only a poll moves the clock. -/
inductive Looped (cfg : Config n m) (i : Fin n) (lanes lanes' : Lanes m F)
    (nd nd' : Node m E F) : Prop where
  | outside : NodePc.outside nd.pc = true → NodePc.outside nd'.pc = true →
      nd'.now = nd.now → lanes' = lanes → Looped cfg i lanes lanes' nd nd'
  | begin_rx : nd.pc = .service → nd'.pc = .rx (cfg.rx_queue i) → nd'.now = nd.now →
      lanes' = lanes → Looped cfg i lanes lanes' nd nd'
  | skip (p : Fin m × Nat) (rest : List (Fin m × Nat)) : nd.pc = .rx (p :: rest) →
      nd'.pc = .rx rest → (p.2 = 0 ∨ (lanes p.1).ring = []) → nd'.now = nd.now →
      lanes' = lanes → Looped cfg i lanes lanes' nd nd'
  | took (e : Fin m) (k : Nat) (rest : List (Fin m × Nat)) (frame : Frame F) (lane : Lane F) :
      nd.pc = .rx ((e, k + 1) :: rest) → nd'.pc = .rx ((e, k) :: rest) →
      (lanes e).receive nd.now = some (frame, lane) → nd'.now = nd.now →
      lanes' = Function.update lanes e lane → Looped cfg i lanes lanes' nd nd'
  | end_rx : nd.pc = .rx [] → nd'.pc = .poll → nd'.now = nd.now → lanes' = lanes →
      Looped cfg i lanes lanes' nd nd'
  | no_poll : nd.pc = .poll → nd'.pc = .drain → nd'.now = nd.now → lanes' = lanes →
      Looped cfg i lanes lanes' nd nd'
  | polled (fuel : Nat) (sim : Simulator E) (rsp : Option Response)
      (todo : List (Fin m × Drive F)) : nd.pc = .poll → nd'.pc = .tx todo →
      nd.sim.state = .Running → nd.sim.poll fuel = some (sim, rsp) → nd'.now = sim.now →
      (∀ d ∈ (Entity.ports nd'.sim.entity).pending, d.port ∉ cfg.tx_ports i) →
      lanes' = lanes → Looped cfg i lanes lanes' nd nd'
  | sent (e : Fin m) (d : Drive F) (rest : List (Fin m × Drive F)) :
      nd.pc = .tx ((e, d) :: rest) → nd'.pc = .tx rest → nd'.sim = nd.sim →
      lanes' = Function.update lanes e
        ((lanes e).send (cfg.edge e).capacity ⟨d.value, d.at_, nd.now⟩) →
      Looped cfg i lanes lanes' nd nd'
  | end_tx : nd.pc = .tx [] → nd'.pc = .drain → nd'.sim = nd.sim → lanes' = lanes →
      Looped cfg i lanes lanes' nd nd'

theorem act_looped [LawfulEntity E] {cfg : Config n m} {i : Fin n} {l : Act}
    {lanes lanes' : Lanes m F} {nd nd' : Node m E F} {out : List Report}
    (h : nd.act cfg i lanes l = some (lanes', nd', out)) :
    Looped cfg i lanes lanes' nd nd' := by
  cases l with
  | drained =>
    simp only [act] at h
    split at h <;> cases h
    rename_i hpc
    exact .outside (by rw [hpc]; rfl) rfl rfl rfl
  | inspect cmd =>
    simp only [act] at h
    split at h <;> cases h
    rename_i hpc _
    exact .outside (by rw [hpc]; rfl) (by rw [hpc]; rfl) (quiet_command_inspect nd cmd).now_eq rfl
  | service requests =>
    simp only [act] at h
    split at h
    case h_2 => cases h
    rename_i hpc
    have hnow := (quiet_service_actions nd requests).now_eq
    split at h <;> cases h
    · exact .begin_rx hpc rfl hnow rfl
    · exact .outside (by rw [hpc]; rfl) rfl hnow rfl
  | pump_rx =>
    simp only [act] at h
    split at h <;> cases h
    rename_i todo hpc
    unfold pump_rx
    split
    · exact .end_rx hpc rfl rfl rfl
    · rename_i e rest
      exact .skip (e, 0) rest hpc rfl (.inl rfl) rfl rfl
    · rename_i e k rest
      split
      -- Only an empty ring gives no frame.
      · rename_i hrecv
        have hring : (lanes e).ring = [] := by
          unfold Lane.receive at hrecv
          split at hrecv
          · assumption
          · cases hrecv
        exact .skip (e, k + 1) rest hpc rfl (.inr hring) rfl rfl
      · rename_i frame lane hrecv
        exact .took e k rest frame lane hpc rfl hrecv
          (LawfulEntity.receive_timeless nd.sim.entity _ frame.value).now_eq rfl
  | poll fuel =>
    obtain ⟨hpc, rfl, ⟨-, rfl, -⟩ | ⟨-, hrun, sim, rsp, nd₁, msgs, hsim, hreport, -, rfl, -⟩⟩ :=
      act_poll h
    · exact .no_poll hpc rfl rfl rfl
    · obtain ⟨last, msgs', hrep, -⟩ := report_poll_cases (Simulator.poll_spec hrun hsim).outcome
      rw [hrep] at hreport
      cases hreport
      -- What is queued for `pump_tx` is what the poll drove on the edges of the board.
      refine .polled fuel sim rsp _ hpc rfl hrun hsim (LawfulEntity.drain_now _ _) ?_ rfl
      intro d hd
      simp only [begin_tx, LawfulEntity.drain_ports] at hd
      simpa using List.of_mem_filter hd
  | pump_tx =>
    simp only [act] at h
    split at h <;> cases h
    rename_i todo hpc
    unfold pump_tx
    split
    · exact .end_tx hpc rfl rfl rfl
    · rename_i e d rest
      exact .sent e d rest hpc rfl rfl rfl

end Node

/-! ### Steps of the cluster -/

/-- The board that takes the step. -/
def actor : Step n → Option (Fin n)
  | .spoke i _ => some i
  | .take i _ => some i
  | _ => none

/-- What a step does to the place of board `i` in its loop. -/
inductive LoopMoved (cfg : Config n m) (s : Cluster n m E F) (l : Step n)
    (s' : Cluster n m E F) (i : Fin n) : Prop where
  | still : actor l ≠ some i → s'.spoke i = s.spoke i → LoopMoved cfg s l s' i
  | handled : taker l = some i → (s.spoke i).pc = .drain → (s'.spoke i).pc = .drain →
      (s'.spoke i).now = (s.spoke i).now → LoopMoved cfg s l s' i
  | looped (act : Node.Act) : l = .spoke i act →
      Node.Looped cfg i s.env s'.env (s.spoke i) (s'.spoke i) →
      (s'.spoke i).allowed_ns = (s.spoke i).allowed_ns → LoopMoved cfg s l s' i

variable {cfg : Config n m} {s s' : Cluster n m E F} {l : Step n}

/-- Without a gdb step in its queue, a board moves its clock in polls only. -/
theorem Moved.loop [LawfulEntity E] (hm : Moved cfg s l s') {i : Fin n}
    (hstep : .GdbStep i ∉ s.down i) : LoopMoved cfg s l s' i := by
  cases hm with
  | hub | deliver => exact .still nofun rfl
  | act k l lanes nd msgs hact hacted =>
    by_cases hi : i = k
    · subst hi
      refine .looped l rfl ?_ ?_
      · simpa using Node.act_looped hact
      · simpa using hacted.allowed_ns_eq
    · exact .still (fun h => hi (Option.some.inj h).symm) (Star.Net.move_spoke_ne _ _ _ _ _ hi)
  | take k t msg rest lanes nd msgs hdown htake hpc htook =>
    by_cases hi : i = k
    · subst hi
      refine .handled rfl hpc ?_ ?_
      · simpa using htook.pc_eq.trans hpc
      · rw [Star.Net.move_spoke_self]
        apply htook.now_eq
        rintro rfl
        exact hstep (hdown ▸ List.mem_cons_self)
    · exact .still (fun h => hi (Option.some.inj h).symm) (Star.Net.move_spoke_ne _ _ _ _ _ hi)

end Rl78Sim
