import Rl78Sim.Kernel.Clock

/-! # Commands, Responses and Simulation Entities

    The vocabulary between the simulator and what it runs: the commands of the
    control plane, the responses, why a run stopped, and the interface
    `Entity` that a machine and a plant both implement.
-/

namespace Rl78Sim

/-- `BusError`. -/
inductive BusError where
  | Unmapped (addr len : Nat)
  | OutOfRange (addr offset len : Nat)
  | ReadOnly (addr : Nat)
  | NotLoadable (addr : Nat)
  deriving DecidableEq

/-- `StopReason`: why a quantum or a command stopped the guest. `Halt` is
    guest-local idle and leaves the simulator running. -/
inductive StopReason where
  | Halt
  | ExternalStop
  | Step
  | Breakpoint (id : Nat)
  | Unmapped (addr : Nat) (write : Bool)
  deriving DecidableEq

/-- The commands that inspect or change a stopped guest. -/
inductive InspectCommand where
  | ReadReg (id : Nat)
  | WriteReg (id value : Nat)
  | ReadMem (addr len : Nat)
  | WriteMem (addr : Nat) (data : List Nat)
  | AddBreakpoint (addr : Nat)
  | RemoveBreakpoint (addr : Nat)
  | ClearBreakpoints
  | ReadGdbRegs
  | WriteGdbRegs (data : List Nat)
  deriving DecidableEq

/-- `Command`: the lifecycle commands, and every other one as `Inspect`. -/
inductive Command where
  | Start
  | Step
  | Stop
  | Quit
  | SetAllowed (tick : Nat)
  | NotifyHalt (reason : StopReason)
  | Inspect (cmd : InspectCommand)
  deriving DecidableEq

/-- `InspectResult`. -/
inductive InspectResult where
  | Ok
  | Reg (id value : Nat)
  | Mem (addr : Nat) (data : List Nat)
  | Breakpoint (id : Nat)
  | GdbRegs (data : List Nat) (pc : Nat)
  deriving DecidableEq

/-- `SimError`. -/
inductive SimError where
  | Running
  | UnknownRegister (id : Nat)
  | UnknownBreakpoint (addr : Nat)
  | Bus (err : BusError)
  | InstructionPeriodExceedsQuantum (period max_quantum : Nat)
  | Unsupported
  deriving DecidableEq

/-- `Response`. -/
inductive Response where
  | Started
  | Stopped (reason : StopReason)
  | Quit
  | Inspect (result : InspectResult)
  | Error (err : SimError)
  deriving DecidableEq

/-- `AdvanceCtx`: the budget of one `Entity::poll`. -/
structure AdvanceCtx where
  budget : Nat
  max_quantum : Nat
  step_once : Bool

/-- `EntityPoll`: what one `Entity::poll` did. -/
inductive EntityPoll where
  | NoProgress
  | Progressed
  | Done (rsp : Response)
  deriving DecidableEq

/-- `ActionFailure`. -/
inductive ActionFailure where
  | NotFoundDevice
  | NotFoundAction
  | Busy
  | BadParam
  deriving DecidableEq

/-- A host action request already routed to this board: device, action and
    the raw parameters (a hash and a value, kept abstract). -/
structure ActionRequest where
  request_id : Nat
  device_hash : Nat
  action_hash : Nat
  params : List (Nat × Int)
  deriving DecidableEq

/-! ### Board-edge out-ports -/

/-- One value the guest drove on the board-edge out-port `port`. `at_` is a
    history stamp: the virtual time of the drive. -/
structure Drive (F : Type) where
  port : String
  value : F
  at_ : Nat

/-- The out-ports of a board. `pending` is what `OutPort::drain_pending` hands
    to the data plane, in drive order over all ports; `driven` is a history
    variable that keeps every drive. -/
structure OutPorts (F : Type) where
  pending : List (Drive F)
  driven : List (Drive F)

namespace OutPorts

variable {F : Type}

def empty : OutPorts F := ⟨[], []⟩

/-- `OutPort::on_input`, for the drives made at virtual time `now`. -/
def on_input (p : OutPorts F) (now : Nat) (drives : List (String × F)) : OutPorts F :=
  let stamped := drives.map fun d => ⟨d.1, d.2, now⟩
  ⟨p.pending ++ stamped, p.driven ++ stamped⟩

/-- `OutPort::drain_pending` on each of the ports named. -/
def drain_pending (p : OutPorts F) (names : List String) : OutPorts F :=
  { p with pending := p.pending.filter fun d => d.port ∉ names }

@[simp] theorem drain_pending_driven (p : OutPorts F) (names : List String) :
    (p.drain_pending names).driven = p.driven := rfl

end OutPorts

/-! ### The entity interface -/

/-- `Entity`: something a simulator can start, poll and reset, together with
    its board-edge ports. `poll` takes fuel for the loop that fires due
    events, and is `none` when the loop has not ended within it. `retired` is
    a history variable, the number of guest instructions retired so far. -/
class Entity (E : Type) (F : outParam Type) where
  poll : Nat → E → AdvanceCtx → Option (E × EntityPoll)
  reset : E → E
  now : E → Nat
  inspect : E → InspectCommand → E × Response
  poll_actions : E → E
  apply_action : E → ActionRequest → E × Option ActionFailure
  receive : E → String → F → E
  ports : E → OutPorts F
  drain_pending : E → List String → E
  retired : E → Nat

/-- `Extends p p' lo hi`: `p'` is `p` with further drives made between virtual
    times `lo` and `hi`. -/
def OutPorts.Extends {F : Type} (p p' : OutPorts F) (lo hi : Nat) : Prop :=
  ∃ new : List (Drive F), p'.pending = p.pending ++ new ∧ p'.driven = p.driven ++ new ∧
    ∀ d ∈ new, lo ≤ d.at_ ∧ d.at_ ≤ hi

theorem OutPorts.Extends.refl {F : Type} (p : OutPorts F) (lo hi : Nat) :
    p.Extends p lo hi :=
  ⟨[], by simp⟩

theorem OutPorts.Extends.trans {F : Type} {p q r : OutPorts F} {lo hi : Nat}
    (hpq : p.Extends q lo hi) (hqr : q.Extends r lo hi) : p.Extends r lo hi := by
  obtain ⟨new₁, hpend₁, hdriven₁, hat₁⟩ := hpq
  obtain ⟨new₂, hpend₂, hdriven₂, hat₂⟩ := hqr
  refine ⟨new₁ ++ new₂, by simp [hpend₁, hpend₂], by simp [hdriven₁, hdriven₂], ?_⟩
  intro d hd
  rcases List.mem_append.mp hd with h | h
  · exact hat₁ d h
  · exact hat₂ d h

theorem OutPorts.Extends.mono {F : Type} {p q : OutPorts F} {lo hi lo' hi' : Nat}
    (h : p.Extends q lo hi) (hlo : lo' ≤ lo) (hhi : hi ≤ hi') : p.Extends q lo' hi' := by
  obtain ⟨new, hpend, hdriven, hat⟩ := h
  exact ⟨new, hpend, hdriven, fun d hd =>
    ⟨Nat.le_trans hlo (hat d hd).1, Nat.le_trans (hat d hd).2 hhi⟩⟩

theorem OutPorts.extends_on_input {F : Type} (p : OutPorts F) (now : Nat)
    (drives : List (String × F)) : p.Extends (p.on_input now drives) now now := by
  refine ⟨drives.map fun d => ⟨d.1, d.2, now⟩, rfl, rfl, ?_⟩
  intro d hd
  obtain ⟨_, _, rfl⟩ := List.mem_map.mp hd
  exact ⟨Nat.le_refl _, Nat.le_refl _⟩

/-- An operation that leaves time and the retired count alone and may drive
    out-ports at the current time. -/
structure Entity.Timeless {E F : Type} [Entity E F] (e e' : E) : Prop where
  now_eq : now e' = now e
  retired_eq : retired e' = retired e
  ports : (ports e).Extends (Entity.ports e') (now e) (now e)

/-- What every entity guarantees of its clock, its retired count and its
    ports, whatever the guest does. -/
class LawfulEntity (E : Type) {F : outParam Type} [Entity E F] : Prop where
  now_le_max (e : E) : Entity.now e ≤ u64_max
  poll_now_le {fuel : Nat} {e e' : E} {ctx : AdvanceCtx} {r : EntityPoll} :
    Entity.poll fuel e ctx = some (e', r) → Entity.now e ≤ Entity.now e'
  /-- Only a single step may pass the budget. -/
  poll_le_budget {fuel : Nat} {e e' : E} {ctx : AdvanceCtx} {r : EntityPoll} :
    Entity.poll fuel e ctx = some (e', r) → ctx.step_once = false →
      Entity.now e' ≤ Entity.now e + ctx.budget
  poll_noProgress {fuel : Nat} {e e' : E} {ctx : AdvanceCtx} :
    Entity.poll fuel e ctx = some (e', .NoProgress) → Entity.now e' = Entity.now e
  poll_error {fuel : Nat} {e e' : E} {ctx : AdvanceCtx} {err : SimError} :
    Entity.poll fuel e ctx = some (e', .Done (.Error err)) → Entity.now e' = Entity.now e
  poll_done {fuel : Nat} {e e' : E} {ctx : AdvanceCtx} {rsp : Response} :
    Entity.poll fuel e ctx = some (e', .Done rsp) →
      (∃ reason, rsp = .Stopped reason) ∨ (∃ err, rsp = .Error err)
  poll_retired {fuel : Nat} {e e' : E} {ctx : AdvanceCtx} {r : EntityPoll} :
    Entity.poll fuel e ctx = some (e', r) → ctx.step_once = true →
      Entity.retired e' ≤ Entity.retired e + 1
  poll_noProgress_retired {fuel : Nat} {e e' : E} {ctx : AdvanceCtx} :
    Entity.poll fuel e ctx = some (e', .NoProgress) → Entity.retired e' = Entity.retired e
  poll_ports {fuel : Nat} {e e' : E} {ctx : AdvanceCtx} {r : EntityPoll} :
    Entity.poll fuel e ctx = some (e', r) →
      (Entity.ports e).Extends (Entity.ports e') (Entity.now e) (Entity.now e')
  /-- A poll that drives a port covers at most one quantum. -/
  poll_drive_quantum {fuel : Nat} {e e' : E} {ctx : AdvanceCtx} {r : EntityPoll} :
    Entity.poll fuel e ctx = some (e', r) → ctx.step_once = false →
      (Entity.ports e').driven = (Entity.ports e).driven ∨
        Entity.now e' ≤ Entity.now e + ctx.max_quantum
  reset_timeless (e : E) : Entity.Timeless e (Entity.reset e)
  inspect_timeless (e : E) (cmd : InspectCommand) :
    Entity.Timeless e (Entity.inspect e cmd).1
  poll_actions_timeless (e : E) : Entity.Timeless e (Entity.poll_actions e)
  apply_action_timeless (e : E) (req : ActionRequest) :
    Entity.Timeless e (Entity.apply_action e req).1
  receive_timeless (e : E) (port : String) (frame : F) :
    Entity.Timeless e (Entity.receive e port frame)
  drain_now (e : E) (names : List String) :
    Entity.now (Entity.drain_pending e names) = Entity.now e
  drain_retired (e : E) (names : List String) :
    Entity.retired (Entity.drain_pending e names) = Entity.retired e
  drain_ports (e : E) (names : List String) :
    Entity.ports (Entity.drain_pending e names) = (Entity.ports e).drain_pending names

end Rl78Sim
