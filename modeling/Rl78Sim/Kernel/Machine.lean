import Rl78Sim.Kernel.Entity
import Rl78Sim.Kernel.Event

/-! # Machines

    A machine is a system-on-chip, its breakpoint table, its event queue and
    its clock. The chip (instruction core, bus and devices together) is a type
    parameter `C`: the class `Cpu` lists what the kernel calls on it. A chip
    operation reads the current time, and may schedule or cancel events and
    drive board-edge out-ports.
-/

namespace Rl78Sim

/-! ### Breakpoints -/

/-- `Breakpoint`. -/
structure Breakpoint where
  id : Nat
  addr : Nat
  enabled : Bool
  deriving DecidableEq

/-- `BreakpointStore`. -/
structure BreakpointStore where
  next_id : Nat
  items : List Breakpoint
  deriving DecidableEq

namespace BreakpointStore

def new : BreakpointStore := ⟨0, []⟩

/-- `BreakpointStore::insert`. -/
def insert (b : BreakpointStore) (addr : Nat) : BreakpointStore × Nat :=
  let id := b.next_id + 1
  (⟨id, b.items ++ [⟨id, addr, true⟩]⟩, id)

/-- `BreakpointStore::remove_at`: `true` iff a breakpoint was dropped. -/
def remove_at (b : BreakpointStore) (addr : Nat) : BreakpointStore × Bool :=
  let kept := b.items.filter fun bp => bp.addr != addr
  ({ b with items := kept }, kept.length != b.items.length)

/-- `BreakpointStore::clear`. -/
def clear (b : BreakpointStore) : BreakpointStore := { b with items := [] }

end BreakpointStore

/-! ### The chip interface -/

/-- `Quantum`, the result of `Core::run_quantum(max)`. The core executes up to
    `max` instructions. -/
structure Quantum (max : Nat) where
  instructions : Nat
  stop : Option StopReason
  le_max : instructions ≤ max

/-- What one call into the chip leaves behind: the chip, the event queue, the
    out-port drives in order, and the value returned. -/
structure ChipStep (C Ev F α : Type) where
  soc : C
  events : EventQueue Ev
  drives : List (String × F)
  result : α

/-- A call into the chip at a virtual time. -/
abbrev ChipOp (C Ev F α : Type) := Nat → C → EventQueue Ev → ChipStep C Ev F α

/-- `UnmappedAccess`, as reported by `MemoryBus::take_trap`. -/
structure UnmappedAccess where
  addr : Nat
  write : Bool

/-- `Cpu` and its `Core`, with the bus and the devices of the board. -/
class Cpu (C : Type) (Ev F : outParam Type) where
  instruction_period : C → Option Nat
  run_quantum (max : Nat) : ChipOp C Ev F (Quantum max)
  /-- `SimEvent::fire`; the result is `EventCtx::stop`. -/
  fire : Ev → ChipOp C Ev F (Option StopReason)
  take_trap : C → C × Option UnmappedAccess
  reset : ChipOp C Ev F Unit
  read_reg : C → Nat → Except SimError Nat
  write_reg : C → Nat → Nat → C × Except SimError Unit
  read_mem : Nat → Nat → ChipOp C Ev F (Except BusError (List Nat))
  write_mem : Nat → List Nat → ChipOp C Ev F (Except BusError Unit)
  sync_breakpoints : C → List Breakpoint → C
  read_gdb_registers : C → Except SimError (List Nat)
  pc : C → Nat
  write_gdb_registers : C → List Nat → C × Except SimError Unit
  /-- `Device::poll` on every device. -/
  poll_actions : ChipOp C Ev F Unit
  apply_action : ActionRequest → ChipOp C Ev F (Option ActionFailure)
  /-- `SourcePort::drive` on the in-port named. -/
  drive_in : String → F → ChipOp C Ev F Unit

/-! ### The machine -/

/-- `Machine`. `ports` are the board-edge out-ports its devices drive;
    `retired` is a history variable. -/
structure Machine (C Ev F : Type) where
  soc : C
  events : EventQueue Ev
  clock : VirtualClock
  breakpoints : BreakpointStore
  last_insn_at : Nat
  last_insn_le : last_insn_at ≤ clock.now
  ports : OutPorts F
  retired : Nat

namespace Machine

variable {C Ev F : Type}

/-- `Machine::new`. -/
def new (soc : C) : Machine C Ev F where
  soc := soc
  events := EventQueue.new
  clock := VirtualClock.new
  breakpoints := BreakpointStore.new
  last_insn_at := 0
  last_insn_le := Nat.zero_le _
  ports := OutPorts.empty
  retired := 0

/-- Call into the chip at the machine's current time. -/
def call {α : Type} (m : Machine C Ev F) (op : ChipOp C Ev F α) : Machine C Ev F × α :=
  let out := op m.clock.now m.soc m.events
  ({ m with
      soc := out.soc
      events := out.events
      ports := m.ports.on_input m.clock.now out.drives }, out.result)

@[simp] theorem call_clock {α : Type} (m : Machine C Ev F) (op : ChipOp C Ev F α) :
    (m.call op).1.clock = m.clock := rfl

@[simp] theorem call_last_insn_at {α : Type} (m : Machine C Ev F) (op : ChipOp C Ev F α) :
    (m.call op).1.last_insn_at = m.last_insn_at := rfl

@[simp] theorem call_retired {α : Type} (m : Machine C Ev F) (op : ChipOp C Ev F α) :
    (m.call op).1.retired = m.retired := rfl

theorem call_ports {α : Type} (m : Machine C Ev F) (op : ChipOp C Ev F α) :
    m.ports.Extends (m.call op).1.ports m.clock.now m.clock.now :=
  OutPorts.extends_on_input _ _ _

/-- `Machine::advance_clock`. -/
def advance_clock (m : Machine C Ev F) (delta : Nat) : Machine C Ev F :=
  { m with
      clock := m.clock.advance delta
      last_insn_le := Nat.le_trans m.last_insn_le (m.clock.le_advance delta) }

@[simp] theorem advance_clock_now (m : Machine C Ev F) (delta : Nat) :
    (m.advance_clock delta).clock.now = saturating_add m.clock.now delta := rfl

@[simp] theorem advance_clock_retired (m : Machine C Ev F) (delta : Nat) :
    (m.advance_clock delta).retired = m.retired := rfl

@[simp] theorem advance_clock_ports (m : Machine C Ev F) (delta : Nat) :
    (m.advance_clock delta).ports = m.ports := rfl

/-- The accounting of a quantum that retired `instructions`: the instruction
    clock moves on, and the virtual clock reaches at least `target`. -/
def charge (m : Machine C Ev F) (ns_per_insn instructions target : Nat) : Machine C Ev F :=
  let elapsed := saturating_mul ns_per_insn instructions
  let last := saturating_add m.last_insn_at elapsed
  let clock_delta := max last target - m.clock.now
  { m with
      clock := m.clock.advance clock_delta
      last_insn_at := last
      last_insn_le := by
        refine le_saturating_add ?_ (saturating_add_le_max _ _)
        show last ≤ m.clock.now + (max last target - m.clock.now)
        omega
      retired := m.retired + instructions }

section poll

variable [Cpu C Ev F]

/-- `Machine::fire_due_events`. -/
def fire_due_events : Nat → Machine C Ev F → Option (Machine C Ev F × Option StopReason)
  | 0, _ => none
  | fuel + 1, m =>
      match m.events.pop_due m.clock.now with
      | (events, none) => some ({ m with events := events }, none)
      | (events, some (_, event)) =>
          match ({ m with events := events } : Machine C Ev F).call (Cpu.fire event) with
          | (m, some stop) => some (m, some stop)
          | (m, none) => fire_due_events fuel m

/-- The tail of a poll: fire what is now due. -/
def finish_poll (fuel : Nat) (m : Machine C Ev F) : Option (Machine C Ev F × EntityPoll) :=
  (fire_due_events fuel m).map fun
    | (m, some stop) => (m, .Done (.Stopped stop))
    | (m, none) => (m, .Progressed)

/-- No instruction fits: only the clock moves, by `budget_ns`. -/
def idle (fuel : Nat) (m : Machine C Ev F) (budget_ns : Nat) :
    Option (Machine C Ev F × EntityPoll) :=
  if budget_ns = 0 then some (m, .NoProgress)
  else finish_poll fuel (m.advance_clock budget_ns)

/-- The instruction budget of one quantum. -/
def max_instructions (m : Machine C Ev F) (ctx : AdvanceCtx) (ns_per_insn budget_ns : Nat) :
    Nat :=
  if ctx.step_once then 1
  else min ((saturating_add m.clock.now budget_ns - m.last_insn_at) / ns_per_insn) u32_max

/-- The end of a quantum: a trapped access stops before the core's own stop,
    and that before a stop requested by an event. -/
def settle (fuel : Nat) (m : Machine C Ev F) (stop : Option StopReason) :
    Option (Machine C Ev F × EntityPoll) :=
  match Cpu.take_trap m.soc with
  | (soc, some access) =>
      some ({ m with soc := soc }, .Done (.Stopped (.Unmapped access.addr access.write)))
  | (soc, none) =>
      match stop with
      | some reason => some ({ m with soc := soc }, .Done (.Stopped reason))
      | none => finish_poll fuel { m with soc := soc }

/-- Run one quantum of at least one instruction and account for it. -/
def quantum (fuel : Nat) (m : Machine C Ev F) (ns_per_insn budget_ns : Nat) (n : Nat) :
    Option (Machine C Ev F × EntityPoll) :=
  match m.call (Cpu.run_quantum n) with
  | (ran, result) =>
      if result.instructions = 0 ∧ result.stop = none then some (ran, .NoProgress)
      else
        settle fuel
          (ran.charge ns_per_insn result.instructions (saturating_add ran.clock.now budget_ns))
          result.stop

/-- What bounds one poll: the next deadline, the quantum and the budget. -/
def budget_ns (m : Machine C Ev F) (ctx : AdvanceCtx) : Nat :=
  min (min ((m.events.next_deadline.2.getD u64_max) - m.clock.now) ctx.max_quantum) ctx.budget

/-- The instruction period; a zero period counts as a stopped clock. -/
def period (m : Machine C Ev F) : Option Nat :=
  (Cpu.instruction_period m.soc).filter fun tick => tick ≠ 0

/-- `Machine::poll` once the events already due have fired. -/
def run (fuel : Nat) (m : Machine C Ev F) (ctx : AdvanceCtx) :
    Option (Machine C Ev F × EntityPoll) :=
  let budget := m.budget_ns ctx
  let m := { m with events := m.events.next_deadline.1 }
  match m.period with
  | none => m.idle fuel budget
  | some ns_per_insn =>
      if ctx.max_quantum < ns_per_insn then
        some (m, .Done (.Error (.InstructionPeriodExceedsQuantum ns_per_insn ctx.max_quantum)))
      else
        match m.max_instructions ctx ns_per_insn budget with
        | 0 => m.idle fuel budget
        | n + 1 => m.quantum fuel ns_per_insn budget (n + 1)

/-- `Machine::poll`. -/
def poll (fuel : Nat) (m : Machine C Ev F) (ctx : AdvanceCtx) :
    Option (Machine C Ev F × EntityPoll) :=
  match fire_due_events fuel m with
  | none => none
  | some (m, some stop) => some (m, .Done (.Stopped stop))
  | some (m, none) => m.run fuel ctx

/-- `Machine::reset`: the clock is kept. -/
def reset (m : Machine C Ev F) : Machine C Ev F :=
  let m := (m.call Cpu.reset).1
  { m with last_insn_at := m.clock.now, last_insn_le := Nat.le_refl _ }

/-- `Machine::sync_breakpoints`. -/
def sync_breakpoints (m : Machine C Ev F) : Machine C Ev F :=
  { m with soc := Cpu.sync_breakpoints m.soc m.breakpoints.items }

/-- `Machine::inspect_command`. -/
def inspect_command (m : Machine C Ev F) : InspectCommand → Machine C Ev F × Response
  | .ReadReg id =>
      match Cpu.read_reg m.soc id with
      | .ok value => (m, .Inspect (.Reg id value))
      | .error err => (m, .Error err)
  | .WriteReg id value =>
      match Cpu.write_reg m.soc id value with
      | (soc, .ok ()) => ({ m with soc := soc }, .Inspect .Ok)
      | (soc, .error err) => ({ m with soc := soc }, .Error err)
  | .ReadMem addr len =>
      match m.call (Cpu.read_mem addr len) with
      | (m, .ok data) => (m, .Inspect (.Mem addr data))
      | (m, .error err) => (m, .Error (.Bus err))
  | .WriteMem addr data =>
      match m.call (Cpu.write_mem addr data) with
      | (m, .ok ()) => (m, .Inspect .Ok)
      | (m, .error err) => (m, .Error (.Bus err))
  | .AddBreakpoint addr =>
      match m.breakpoints.insert addr with
      | (store, id) =>
          (({ m with breakpoints := store } : Machine C Ev F).sync_breakpoints,
            .Inspect (.Breakpoint id))
  | .RemoveBreakpoint addr =>
      match m.breakpoints.remove_at addr with
      | (store, true) =>
          (({ m with breakpoints := store } : Machine C Ev F).sync_breakpoints, .Inspect .Ok)
      | (_, false) => (m, .Error (.UnknownBreakpoint addr))
  | .ClearBreakpoints =>
      (({ m with breakpoints := m.breakpoints.clear } : Machine C Ev F).sync_breakpoints,
        .Inspect .Ok)
  | .ReadGdbRegs =>
      match Cpu.read_gdb_registers m.soc with
      | .ok data => (m, .Inspect (.GdbRegs data (Cpu.pc m.soc)))
      | .error err => (m, .Error err)
  | .WriteGdbRegs data =>
      match Cpu.write_gdb_registers m.soc data with
      | (soc, .ok ()) => ({ m with soc := soc }, .Inspect .Ok)
      | (soc, .error err) => ({ m with soc := soc }, .Error err)

instance : Entity (Machine C Ev F) F where
  poll := poll
  reset := reset
  now m := m.clock.now
  inspect := inspect_command
  poll_actions m := (m.call Cpu.poll_actions).1
  apply_action m req := m.call (Cpu.apply_action req)
  receive m port frame := (m.call (Cpu.drive_in port frame)).1
  ports := ports
  drain_pending m names := { m with ports := m.ports.drain_pending names }
  retired := retired

end poll

end Machine

end Rl78Sim
