import Mathlib.Logic.Relation
import Rl78Sim.Cluster.Traffic
import Rl78Sim.Kernel.Plant

/-! # What a Step Does to the Guest of a Board

    The entity of a board changes in three ways: it takes a frame, it is reset,
    or it works by itself, that is, through polls, inspection, actions and
    drained ports. A property of the guest that its own work keeps is therefore
    followed through a run by looking at deliveries and resets only.
-/

namespace Rl78Sim

open Transition

variable {n m : Nat} {E F : Type} [Entity E F]

/-! ### The work of an entity -/

/-- One call into an entity that neither resets it nor hands it a frame. -/
inductive Entity.Call (e : E) : E → Prop where
  | poll (fuel : Nat) (ctx : AdvanceCtx) (e' : E) (r : EntityPoll) :
      Entity.poll fuel e ctx = some (e', r) → Entity.Call e e'
  | inspect (cmd : InspectCommand) : Entity.Call e (Entity.inspect e cmd).1
  | poll_actions : Entity.Call e (Entity.poll_actions e)
  | apply_action (req : ActionRequest) : Entity.Call e (Entity.apply_action e req).1
  | drain (names : List String) : Entity.Call e (Entity.drain_pending e names)

/-- Any number of such calls. -/
abbrev Entity.Works (e e' : E) : Prop := Relation.ReflTransGen Entity.Call e e'

/-- What every call keeps, all the work of an entity keeps. -/
theorem Entity.Works.keep {α : Type} {f : E → α}
    (hcall : ∀ e e' : E, Entity.Call e e' → f e' = f e) {e e' : E} (h : Entity.Works e e') :
    f e' = f e := by
  induction h with
  | refl => rfl
  | tail _ hlast ih => exact (hcall _ _ hlast).trans ih

namespace Simulator

/-- A command that does not inspect leaves the entity alone. -/
theorem command_entity (sim : Simulator E) {cmd : Command}
    (h : ∀ c, cmd ≠ .Inspect c) : (sim.command cmd).1.entity = sim.entity := by
  unfold command
  split
  · rfl
  · cases cmd with
    | Inspect c => exact absurd rfl (h c)
    | _ => rfl

theorem works_command (sim : Simulator E) (cmd : Command) :
    Entity.Works sim.entity (sim.command cmd).1.entity := by
  unfold command
  split
  · exact .refl
  · cases cmd with
    | Inspect other =>
      dsimp only
      split
      · exact .refl
      · exact .single (.inspect other)
    | _ => exact .refl

theorem works_poll {fuel : Nat} {sim sim' : Simulator E} {rsp : Option Response}
    (h : sim.poll fuel = some (sim', rsp)) : Entity.Works sim.entity sim'.entity := by
  rcases poll_cases h with ⟨-, rfl, -⟩ | ⟨-, -, r, hpoll, -⟩
  · exact .refl
  · exact .single (.poll fuel _ _ r hpoll)

end Simulator

/-! ### Steps of one node -/

namespace Node

theorem works_step_loop {fuel polls : Nat} {sim sim' : Simulator E} {rsp : Option Response}
    (h : step_loop fuel polls sim = some (sim', rsp)) :
    Entity.Works sim.entity sim'.entity := by
  induction polls generalizing sim with
  | zero =>
    unfold step_loop at h
    split at h
    · cases h
    · rename_i hpoll
      cases h
      exact Simulator.works_poll hpoll
    · rename_i hpoll
      cases h
      exact Simulator.works_poll hpoll
  | succ polls ih =>
    unfold step_loop at h
    split at h
    · cases h
    · rename_i hpoll
      cases h
      exact Simulator.works_poll hpoll
    · rename_i hpoll
      exact (Simulator.works_poll hpoll).trans (ih h)

theorem works_local_step (nd : Node m E F) {nd' : Node m E F} {fuel polls : Nat}
    {out : List ControlToArbiter}
    (h : nd.perform_local_step fuel polls = some (nd', out)) :
    Entity.Works nd.sim.entity nd'.sim.entity := by
  have hcmd := nd.sim.works_command .Step
  unfold perform_local_step at h
  split at h
  · rename_i sim heq
    rw [heq] at hcmd
    split at h
    · cases h
    · rename_i hloop
      cases h
      exact hcmd.trans (works_step_loop hloop)
    · rename_i hloop
      cases h
      exact hcmd.trans (works_step_loop hloop)
  · rename_i sim _ _ heq
    rw [heq] at hcmd
    cases h
    exact hcmd

theorem works_service_actions (nd : Node m E F) (requests : List ActionRequest) :
    Entity.Works nd.sim.entity (nd.service_actions requests).sim.entity := by
  unfold service_actions
  split
  · dsimp only
    split
    · have happly (requests : List ActionRequest) (e : E) : Entity.Works e
          (requests.foldl (fun e req => (Entity.apply_action e req).1) e) := by
        induction requests generalizing e with
        | nil => exact .refl
        | cons req requests ih => exact .head (.apply_action req) (ih _)
      exact .head .poll_actions (happly _ _)
    · exact .refl
  · exact .refl

/-- What a step of a node apart from its control drain does to its guest. -/
inductive GuestActed (cfg : Config n m) (nd : Node m E F) (lanes lanes' : Lanes m F) :
    Act → Node m E F → Prop where
  | works (l : Act) (nd' : Node m E F) : Entity.Works nd.sim.entity nd'.sim.entity →
      GuestActed cfg nd lanes lanes' l nd'
  | received (e : Fin m) (k : Nat) (rest : List (Fin m × Nat)) (frame : Frame F)
      (lane : Lane F) (nd' : Node m E F) :
      nd.pc = .rx ((e, k + 1) :: rest) → (lanes e).receive nd.now = some (frame, lane) →
      lanes' e = lane →
      nd'.sim.entity = Entity.receive nd.sim.entity (cfg.edge e).dst_port frame.value →
      GuestActed cfg nd lanes lanes' .pump_rx nd'

theorem act_guest {cfg : Config n m} {i : Fin n} {l : Act} {lanes lanes' : Lanes m F}
    {nd nd' : Node m E F} {out : List Report}
    (h : nd.act cfg i lanes l = some (lanes', nd', out)) :
    GuestActed cfg nd lanes lanes' l nd' := by
  cases l with
  | drained =>
    simp only [act] at h
    split at h <;> cases h
    exact .works _ _ .refl
  | inspect cmd =>
    simp only [act] at h
    split at h <;> cases h
    exact .works _ _ (nd.sim.works_command _)
  | service requests =>
    simp only [act] at h
    split at h
    case h_2 => cases h
    have hworks := works_service_actions nd requests
    split at h <;> cases h
    · exact .works _ _ hworks
    · exact .works _ _ hworks
  | pump_rx =>
    simp only [act] at h
    split at h <;> cases h
    rename_i todo hpc
    unfold pump_rx
    split
    · exact .works _ _ .refl
    · exact .works _ _ .refl
    · rename_i e k rest
      split
      · exact .works _ _ .refl
      · rename_i frame lane hrecv
        exact .received e k rest frame lane _ hpc hrecv (Function.update_self _ _ _) rfl
  | poll fuel =>
    obtain ⟨-, rfl, ⟨-, rfl, -⟩ | ⟨-, -, sim, rsp, nd₁, msgs, hsim, -, hsame, rfl, -⟩⟩ := act_poll h
    · exact .works _ _ .refl
    -- The poll is followed by the drain of the ports.
    · refine .works _ _ (.tail (Simulator.works_poll hsim) ?_)
      show Entity.Call _ (Entity.drain_pending nd₁.sim.entity _)
      rw [hsame]
      exact .drain _
  | pump_tx =>
    simp only [act] at h
    split at h <;> cases h
    unfold pump_tx
    split <;> exact .works _ _ .refl

/-- Following the state leaves the guest alone. -/
theorem works_follow {e : E} (nd : Node m E F) (next : NodeState)
    (h : Entity.Works e nd.sim.entity) :
    Entity.Works e (nd.follow_state next).sim.entity := by
  unfold follow_state
  split
  · exact h.trans (nd.sim.works_command .Start)
  · split
    · exact h.trans (nd.sim.works_command .Stop)
    · exact h

theorem follow_entity (nd : Node m E F) (next : NodeState) :
    (nd.follow_state next).sim.entity = nd.sim.entity := by
  unfold follow_state
  split
  · exact nd.sim.command_entity nofun
  · split
    · exact nd.sim.command_entity nofun
    · rfl

/-- A control message leaves the entity alone, resets it, or has it take a step. -/
theorem take_entity {cfg : Config n m} {i : Fin n} {t : Take} {msg : ControlToNode n}
    {lanes lanes' : Lanes m F} {nd nd' : Node m E F} {out : List Report}
    (h : nd.take cfg i t msg lanes = some (lanes', nd', out)) :
    nd'.sim.entity = nd.sim.entity ∨ nd'.sim.entity = Entity.reset nd.sim.entity ∨
      ∃ (noted nd₁ : Node m E F) (msgs : List ControlToArbiter), noted.sim = nd.sim ∧
        noted.perform_local_step t.fuel t.polls = some (nd₁, msgs) ∧
        nd'.sim.entity = nd₁.sim.entity := by
  unfold take at h
  split at h
  case h_2 => cases h
  -- The notes of a message leave the simulator alone.
  have hsim : ((nd.note_startup msg).note_handled msg).sim = nd.sim := by
    cases msg <;> rfl
  revert h hsim
  generalize (nd.note_startup msg).note_handled msg = noted
  intro h hsim
  dsimp only at h
  split at h
  · cases h
  · rename_i nd₁ out₁ heffect
    cases h
    rw [follow_entity, ← hsim]
    revert heffect
    generalize (noted.state.on_message msg).2 = effect
    intro heffect
    unfold apply_effect at heffect
    split at heffect
    case h_2 =>
      cases heffect
      exact .inl (noted.sim.command_entity nofun)
    case h_3 =>
      cases heffect
      exact .inr (.inl rfl)
    case h_4 =>
      split at heffect
      · obtain ⟨⟨nd₂, msgs⟩, hstep, heq⟩ := Option.map_eq_some_iff.mp heffect
        cases heq
        exact .inr (.inr ⟨noted, _, _, rfl, hstep, rfl⟩)
      · cases heffect
        exact .inl rfl
    all_goals
      cases heffect
      exact .inl rfl

/-- A control message resets the guest, or lets it work. -/
theorem take_guest {cfg : Config n m} {i : Fin n} {t : Take} {msg : ControlToNode n}
    {lanes lanes' : Lanes m F} {nd nd' : Node m E F} {out : List Report} (hlive : nd.Live)
    (h : nd.take cfg i t msg lanes = some (lanes', nd', out)) :
    (Entity.Works nd.sim.entity nd'.sim.entity ∧ ¬(msg = .Reset ∧ nd.state = .Stopped)) ∨
      (msg = .Reset ∧ nd.state = .Stopped ∧
        nd'.sim.entity = Entity.reset nd.sim.entity) := by
  unfold take at h
  split at h
  case h_2 => cases h
  cases msg with
  | Reset =>
    rcases hlive.state_cases with hs | hs <;>
      simp only [note_startup, note_handled, hs, NodeState.on_message, apply_effect] at h <;>
      cases h
    · refine .inr ⟨rfl, hs, ?_⟩
      rw [← hs, follow_same { nd with
        last_time_report := none
        pending_actions := []
        sim := { nd.sim with entity := Entity.reset nd.sim.entity } }]
    · exact .inl ⟨works_follow nd _ .refl, by simp [hs]⟩
  | GdbStep board =>
    simp only [note_startup, note_handled, hlive.on_gdb_step, apply_effect] at h
    split at h
    · cases h
    · rename_i heq
      cases h
      split at heq
      · obtain ⟨⟨nd₁, msgs⟩, hstep, hres⟩ := Option.map_eq_some_iff.mp heq
        cases hres
        have hworks : Entity.Works nd.sim.entity nd₁.sim.entity :=
          works_local_step { nd with handled := nd.handled + 1 } hstep
        exact .inl ⟨works_follow _ _ hworks, by simp⟩
      · cases heq
        exact .inl ⟨works_follow _ _ .refl, by simp⟩
  -- A start and a new ceiling reach the simulator around the guest only.
  | Start a =>
    simp only [note_startup, note_handled, hlive.on_start, apply_effect] at h
    cases h
    exact .inl ⟨works_follow _ _ (nd.sim.works_command _), by simp⟩
  | Allowed a =>
    simp only [note_startup, note_handled, hlive.on_allowed, apply_effect] at h
    cases h
    exact .inl ⟨works_follow _ _ (nd.sim.works_command _), by simp⟩
  | _ =>
    rcases hlive.state_cases with hs | hs <;>
      simp only [note_startup, note_handled, hs, NodeState.on_message, apply_effect] at h <;>
      cases h <;> exact .inl ⟨works_follow _ _ .refl, by simp⟩

end Node

/-! ### Steps of the cluster -/

/-- The guest of a board. -/
abbrev guest (s : Cluster n m E F) (i : Fin n) : E := (s.spoke i).sim.entity

/-- All that a step can do to the guest of board `i`. -/
inductive GuestMoved (cfg : Config n m) (s : Cluster n m E F) (l : Step n)
    (s' : Cluster n m E F) (i : Fin n) : Prop where
  | works : Entity.Works (guest s i) (guest s' i) → ¬ ResetAt s l i → GuestMoved cfg s l s' i
  | received (e : Fin m) (frame : Frame F) (lane : Lane F) : l = .spoke i .pump_rx →
      (cfg.edge e).dst = i → (cfg.edge e).wired →
      (s.env e).receive (s.spoke i).now = some (frame, lane) → s'.env e = lane →
      guest s' i = Entity.receive (guest s i) (cfg.edge e).dst_port frame.value →
      GuestMoved cfg s l s' i
  | reset : ResetAt s l i → guest s' i = Entity.reset (guest s i) → GuestMoved cfg s l s' i

variable {cfg : Config n m} {s s' : Cluster n m E F} {l : Step n}

theorem Moved.guest [LawfulEntity E] (hm : Moved cfg s l s') (hwf : ClusterWf s)
    (hown : AllPumpsOwn cfg s) (i : Fin n) : GuestMoved cfg s l s' i := by
  cases hm with
  | hub | deliver =>
    refine .works .refl ?_
    intro hreset
    cases hreset.1
  | act j l lanes nd msgs hact hacted =>
    have hno : ¬ ResetAt s (.spoke j l) i := by
      intro hreset
      cases hreset.1
    by_cases hi : i = j
    · subst hi
      cases Node.act_guest hact with
      | works _ _ hworks => exact .works (by simpa [Rl78Sim.guest] using hworks) hno
      | received e k rest frame lane _ hpc hrecv henv hentity =>
        -- A node pumps only the edges that end at it.
        obtain ⟨hdst, hwired⟩ := (hown i).rx _ hpc (e, k + 1) List.mem_cons_self
        exact .received e frame lane rfl hdst hwired hrecv henv
          (by simpa [Rl78Sim.guest] using hentity)
    · refine .works ?_ hno
      simp only [Rl78Sim.guest, Star.Net.move_spoke_ne _ _ _ _ _ hi]
      exact .refl
  | take j t msg rest lanes nd msgs hdown htake hpc htook =>
    by_cases hi : i = j
    · subst hi
      rcases Node.take_guest (hwf.node i).live htake with
        ⟨hworks, hno⟩ | ⟨rfl, hstate, hentity⟩
      · refine .works (by simpa [Rl78Sim.guest] using hworks) ?_
        rintro ⟨-, hstopped, hhead⟩
        rw [hdown] at hhead
        exact hno ⟨Option.some.inj hhead, hstopped⟩
      · refine .reset ⟨rfl, hstate, by rw [hdown]; rfl⟩ ?_
        simpa [Rl78Sim.guest] using hentity
    · refine .works ?_ ?_
      · simp only [Rl78Sim.guest, Star.Net.move_spoke_ne _ _ _ _ _ hi]
        exact .refl
      · intro hreset
        exact hi (Option.some.inj hreset.1).symm

/-! ### What a board is -/

namespace Board

variable {C Ev M : Type}

def is_plant : Board C Ev M F → Bool
  | .machine _ => false
  | .plant _ => true

omit [Entity E F]
variable [Cpu C Ev F] [Model M F]

theorem call_is_plant {b b' : Board C Ev M F} (h : Entity.Call b b') :
    b'.is_plant = b.is_plant := by
  cases h with
  | poll fuel ctx _ r hpoll =>
    rcases poll_cases hpoll with ⟨m, m', rfl, rfl, -⟩ | ⟨p, p', rfl, rfl, -⟩ <;> rfl
  | inspect cmd => cases b <;> rfl
  | poll_actions => cases b <;> rfl
  | apply_action req => cases b <;> rfl
  | drain names => cases b <;> rfl

theorem receive_is_plant (b : Board C Ev M F) (port : String) (v : F) :
    is_plant (Entity.receive b port v) = b.is_plant := by
  cases b <;> rfl

theorem reset_is_plant (b : Board C Ev M F) : is_plant (Entity.reset b) = b.is_plant := by
  cases b <;> rfl

end Board

/-- A machine stays a machine, and a plant a plant. -/
theorem GuestMoved.is_plant {C Ev M : Type} [Cpu C Ev F] [Model M F] {cfg : Config n m}
    {s s' : Cluster n m (Board C Ev M F) F} {l : Step n} {i : Fin n}
    (hm : GuestMoved cfg s l s' i) :
    (Rl78Sim.guest s' i).is_plant = (Rl78Sim.guest s i).is_plant := by
  cases hm with
  | works hworks => exact hworks.keep fun _ _ hcall => Board.call_is_plant hcall
  | received _ _ _ _ _ _ _ _ heq =>
    rw [heq]
    exact Board.receive_is_plant _ _ _
  | reset _ heq =>
    rw [heq]
    exact Board.reset_is_plant _

end Rl78Sim
