import Rl78Sim.Kernel.Machine
import Rl78Sim.Kernel.MemoryMap

/-! # A Chip and Its Bus

    `Machine` owns the bus beside the chip: the core, the events and the devices
    reach memory through the public functions of `MemoryBus` alone. Of its record
    of unmapped accesses they see nothing, and only `Machine::poll` takes the
    trap. What a call leaves in the two fields therefore adds to what was there,
    and nothing else depends on it. -/

namespace Rl78Sim

/-! ### What a call asks of the bus -/

/-- What a call of the chip changes besides the bus: the core with its
    peripherals and devices, the event queue and the drives so far. -/
structure Parts (K Ev F : Type) where
  cpu : K
  events : EventQueue Ev
  drives : List (String × F)

/-- A call of the chip, from one access to the bus to the next. What the core does
    through the host pointer of RAM or ROM is an access here as well. -/
inductive BusUse (P α : Type) where
  | done (parts : P) (value : α)
  | access (parts : P) (op : Op) (addr : Nat) (buf : List UInt8)
      (next : P → Except BusError Unit → List UInt8 → BusUse P α)

/-- A stop that an event asks for: `SimEvent::fire` reports no unmapped access. -/
abbrev EventStop := { stop : Option StopReason // ∀ addr write, stop ≠ some (.Unmapped addr write) }

/-- `Cpu` and its `Core` with the devices of the board, apart from the bus.
    `D` are the devices on the bus that are neither RAM nor ROM. -/
class Core (K D : Type) (Ev F : outParam Type) where
  instruction_period : K → Option Nat
  run_quantum (max now : Nat) : Parts K Ev F → BusUse (Parts K Ev F) (Quantum max)
  fire (event : Ev) (now : Nat) : Parts K Ev F → BusUse (Parts K Ev F) EventStop
  /-- `Device::reset` of every device, then `Cpu::reset`. -/
  reset (now : Nat) : Parts K Ev F → BusUse (Parts K Ev F) Unit
  read_reg : K → Nat → Except SimError Nat
  write_reg : K → Nat → Nat → K × Except SimError Unit
  sync_breakpoints : K → List Breakpoint → K
  read_gdb_registers : K → Except SimError (List Nat)
  pc : K → Nat
  write_gdb_registers : K → List Nat → K × Except SimError Unit
  poll_actions (now : Nat) : Parts K Ev F → Parts K Ev F
  apply_action (req : ActionRequest) (now : Nat) :
    Parts K Ev F → Parts K Ev F × Option ActionFailure
  drive_in (port : String) (frame : F) (now : Nat) : Parts K Ev F → Parts K Ev F
  /-- An access to a device that is neither RAM nor ROM; its state is shared with
      the peripherals. -/
  mmio (device : D) (op : Op) (offset now : Nat) (buf : List UInt8) :
    Parts K Ev F → Parts K Ev F × Except BusError Unit × List UInt8

/-- `MemoryMapped` for RAM and, with `rom`, for ROM. -/
def Bytes.serve (rom : Bool) (op : Op) (offset : Nat) (buf : List UInt8) (data : Bytes) :
    Except BusError Unit × List UInt8 × Bytes :=
  match op, rom with
  | .read, _ => ((copied_from data offset buf).1, (copied_from data offset buf).2, data)
  | .write, false => ((copied_into data offset buf).1, buf, (copied_into data offset buf).2)
  | .write, true => (.error (.ReadOnly offset), buf, data)
  | .load, false => (.error (.NotLoadable offset), buf, data)
  | .load, true => ((copied_into data offset buf).1, buf, (copied_into data offset buf).2)

/-- RAM serves an access as it does on the memory map. -/
theorem Bytes.serve_ram {D : Type} [MemoryMapped D] (op : Op) (offset : Nat) (buf : List UInt8)
    (data : Bytes) : (Device.Ram data : Device D).serve op offset buf =
      ((data.serve false op offset buf).1, (data.serve false op offset buf).2.1,
        .Ram (data.serve false op offset buf).2.2) := by
  cases op <;> rfl

theorem Bytes.serve_rom {D : Type} [MemoryMapped D] (op : Op) (offset : Nat) (buf : List UInt8)
    (data : Bytes) : (Device.Rom data : Device D).serve op offset buf =
      ((data.serve true op offset buf).1, (data.serve true op offset buf).2.1,
        .Rom (data.serve true op offset buf).2.2) := by
  cases op <;> rfl

/-- What one access returns, with the parts and the bus afterwards. -/
structure Accessed (K D Ev F : Type) where
  parts : Parts K Ev F
  result : Except BusError Unit
  buf : List UInt8
  bus : MemoryBus D

variable {K D Ev F α : Type} [Core K D Ev F]

namespace Soc

/-- `MemoryBus::read`, `write` and `load`, as the parts of the chip call them. -/
def access (now : Nat) (parts : Parts K Ev F) (op : Op) (addr : Nat) (buf : List UInt8)
    (bus : MemoryBus D) : Accessed K D Ev F :=
  match bus.resolve addr buf.length with
  | .error (.Unmapped _ _) =>
    ⟨parts, .error (.Unmapped addr buf.length), buf, bus.unmapped addr buf.length op.is_write⟩
  | .error err => ⟨parts, .error err, buf, bus⟩
  | .ok (dev_idx, offset) =>
    match bus.device_mut dev_idx with
    | some (.Ram data) =>
      let (res, buf', data') := data.serve false op offset buf
      ⟨parts, rewrite_result res addr, buf', bus.put_device dev_idx (.Ram data')⟩
    | some (.Rom data) =>
      let (res, buf', data') := data.serve true op offset buf
      ⟨parts, rewrite_result res addr, buf', bus.put_device dev_idx (.Rom data')⟩
    | some (.Mmio device) =>
      let (parts', res, buf') := Core.mmio device op offset now buf parts
      ⟨parts', rewrite_result res addr, buf', bus⟩
    -- `device_mut` panics: a bus that was built has a device there
    | none => ⟨parts, .error (.Unmapped addr buf.length), buf, bus⟩

/-- On RAM, ROM and unmapped space the access is the one of the memory map. -/
theorem access_eq [MemoryMapped D] {bus : MemoryBus D} {op : Op} {addr : Nat} {buf : List UInt8}
    {served : Served D} (h : bus.access op addr buf = some served)
    (hplain : ∀ k off d, bus.resolve addr buf.length = .ok (k, off) →
      bus.device_mut k ≠ some (.Mmio d)) (now : Nat) (parts : Parts K Ev F) :
    access now parts op addr buf bus = ⟨parts, served.result, served.buf, served.bus⟩ := by
  unfold MemoryBus.access at h
  unfold access
  cases hres : bus.resolve addr buf.length with
  | error err =>
    rw [hres] at h
    cases err <;> (cases h; rfl)
  | ok at_ =>
    obtain ⟨k, off⟩ := at_
    rw [hres] at h
    obtain ⟨d, hdev, rfl⟩ := Option.map_eq_some_iff.mp h
    dsimp only
    rw [hdev]
    cases d with
    | Ram data => rw [Bytes.serve_ram]
    | Rom data => rw [Bytes.serve_rom]
    | Mmio device => exact absurd hdev (hplain k off device hres)

/-- Run a call of the chip on the bus. -/
def exec (now : Nat) : BusUse (Parts K Ev F) α → MemoryBus D → Parts K Ev F × α × MemoryBus D
  | .done parts value, bus => (parts, value, bus)
  | .access parts op addr buf next, bus =>
    let done := access now parts op addr buf bus
    exec now (next done.parts done.result done.buf) done.bus

end Soc

/-- The core with its peripherals and devices, and the bus. -/
structure Soc (K D : Type) where
  cpu : K
  bus : MemoryBus D

namespace Soc

/-- A call that may access the bus. -/
def bus_op (f : Nat → Parts K Ev F → BusUse (Parts K Ev F) α) : ChipOp (Soc K D) Ev F α :=
  fun now soc events =>
    let (parts, value, bus) := exec now (f now ⟨soc.cpu, events, []⟩) soc.bus
    ⟨⟨parts.cpu, bus⟩, parts.events, parts.drives, value⟩

/-- A call that is not given the bus. -/
def part_op (f : Nat → Parts K Ev F → Parts K Ev F × α) : ChipOp (Soc K D) Ev F α :=
  fun now soc events =>
    let (parts, value) := f now ⟨soc.cpu, events, []⟩
    ⟨⟨parts.cpu, soc.bus⟩, parts.events, parts.drives, value⟩

/-- `Machine::read_mem`, into a buffer of zeros. -/
def read_mem (addr len : Nat) : Parts K Ev F → BusUse (Parts K Ev F) (Except BusError (List Nat)) :=
  fun parts => .access parts .read addr (List.replicate len 0) fun parts res buf =>
    .done parts (res.map fun _ => buf.map UInt8.toNat)

/-- `Machine::write_mem`. -/
def write_mem (addr : Nat) (data : List Nat) :
    Parts K Ev F → BusUse (Parts K Ev F) (Except BusError Unit) :=
  fun parts => .access parts .write addr (data.map UInt8.ofNat) fun parts res _ => .done parts res

/-- `UnmappedAccess`, as the machine reports it. -/
def reported (trap : UnmappedRecord) : UnmappedAccess := ⟨trap.addr, trap.write⟩

instance : Cpu (Soc K D) Ev F where
  instruction_period soc := Core.instruction_period D soc.cpu
  run_quantum max := bus_op fun now => Core.run_quantum D max now
  fire event := fun now soc events =>
    let step := bus_op (fun now => Core.fire D event now) now soc events
    { step with result := step.result.val }
  take_trap soc := ({ soc with bus := { soc.bus with trap := none } }, soc.bus.trap.map reported)
  reset := bus_op fun now => Core.reset D now
  read_reg soc := Core.read_reg D soc.cpu
  write_reg soc id value :=
    let (cpu, res) := Core.write_reg D soc.cpu id value
    ({ soc with cpu := cpu }, res)
  read_mem addr len := bus_op fun _ => read_mem addr len
  write_mem addr data := bus_op fun _ => write_mem addr data
  sync_breakpoints soc items := { soc with cpu := Core.sync_breakpoints D soc.cpu items }
  read_gdb_registers soc := Core.read_gdb_registers D soc.cpu
  pc soc := Core.pc D soc.cpu
  write_gdb_registers soc data :=
    let (cpu, res) := Core.write_gdb_registers D soc.cpu data
    ({ soc with cpu := cpu }, res)
  poll_actions := part_op fun now parts => (Core.poll_actions D now parts, ())
  apply_action req := part_op fun now => Core.apply_action D req now
  drive_in port frame := part_op fun now parts => (Core.drive_in D port frame now parts, ())

end Soc

end Rl78Sim
