import Rl78Sim.Kernel.Plant

/-! # Analog Devices

    The level DAC of the minimal board, which turns the level of a pad into a
    held voltage, and the first-order lag of the minimal plant, which latches
    the voltage of its in-port `vin`. Voltages are whole microvolts.
-/

namespace Rl78Sim

/-- What crosses a board edge. -/
inductive Signal (U : Type) where
  | Uart (frame : U)
  | Analog (uv : Int)

/-! ### The level DAC -/

/-- `DigitalLevel`. -/
inductive DigitalLevel where
  | Low
  | High
  | HiZ
  deriving DecidableEq

/-- `HIGH_UV`. -/
def high_uv : Int := 5000000

/-- `LevelDac`: the last voltage that it drove. -/
structure LevelDac where
  last : Int
  deriving DecidableEq

namespace LevelDac

/-- `LevelDac::new`. -/
def new : LevelDac := ⟨0⟩

/-- `convert`: the level `HiZ` keeps the last voltage. -/
def convert (dac : LevelDac) : DigitalLevel → LevelDac × Int
  | .High => (⟨high_uv⟩, high_uv)
  | .Low => (⟨0⟩, 0)
  | .HiZ => (dac, dac.last)

end LevelDac

/-! ### The minimal board -/

/-- What the microcontroller of the board drives: its UART, and its pad. -/
inductive PadDrive (U : Type) where
  | Uart (frame : U)
  | Pin (level : DigitalLevel)

/-- The microcontroller `C` and the DAC that its pad is wired to. -/
structure DacBoard (C : Type) where
  part : C
  dac : LevelDac

namespace DacBoard

variable {C Ev U : Type}

/-- The out-ports of the board. -/
def uart0_tx : String := "uart0_tx"

def dac0 : String := "dac0"

/-- Drives of the microcontroller, in order: the UART leaves the board, and a
    level goes through the DAC. -/
def wire : LevelDac → List (String × PadDrive U) → LevelDac × List (String × Signal U)
  | dac, [] => (dac, [])
  | dac, (_, .Uart frame) :: rest =>
      let (dac, out) := wire dac rest
      (dac, (uart0_tx, .Uart frame) :: out)
  | dac, (_, .Pin level) :: rest =>
      let (dac, uv) := dac.convert level
      let (dac, out) := wire dac rest
      (dac, (dac0, .Analog uv) :: out)

/-- A call into the microcontroller. -/
def part_op {α : Type} (op : ChipOp C Ev (PadDrive U) α) : ChipOp (DacBoard C) Ev (Signal U) α :=
  fun now board events =>
    let out := op now board.part events
    let (dac, drives) := wire board.dac out.drives
    ⟨⟨out.soc, dac⟩, out.events, drives, out.result⟩

variable [Cpu C Ev (PadDrive U)]

/-- `g23_machine`. A reset resets the devices before the microcontroller, and
    `LevelDac::reset` drives the held voltage again. -/
instance : Cpu (DacBoard C) Ev (Signal U) where
  instruction_period board := Cpu.instruction_period board.part
  run_quantum max := part_op (Cpu.run_quantum max)
  fire ev := part_op (Cpu.fire ev)
  take_trap board :=
    let (part, trap) := Cpu.take_trap board.part
    ({ board with part := part }, trap)
  reset now board events :=
    let out := part_op (Cpu.reset (C := C)) now board events
    { out with drives := (dac0, .Analog board.dac.last) :: out.drives }
  read_reg board := Cpu.read_reg board.part
  write_reg board id value :=
    let (part, r) := Cpu.write_reg board.part id value
    ({ board with part := part }, r)
  read_mem addr len := part_op (Cpu.read_mem addr len)
  write_mem addr data := part_op (Cpu.write_mem addr data)
  sync_breakpoints board bps := { board with part := Cpu.sync_breakpoints board.part bps }
  read_gdb_registers board := Cpu.read_gdb_registers board.part
  pc board := Cpu.pc board.part
  write_gdb_registers board data :=
    let (part, r) := Cpu.write_gdb_registers board.part data
    ({ board with part := part }, r)
  poll_actions := part_op Cpu.poll_actions
  apply_action req := part_op (Cpu.apply_action req)
  drive_in port frame :=
    match frame with
    | .Uart frame => part_op (Cpu.drive_in port (.Uart frame))
    | .Analog _ => fun _ board events => ⟨board, events, [], ()⟩

end DacBoard

/-! ### The minimal plant -/

/-- `FirstOrderLag`: the input latch and the output. `U` is what the UARTs of
    its cluster carry. -/
structure FirstOrderLag (U : Type) where
  u_uv : Int
  y_uv : Int
  deriving DecidableEq

/-- The floating-point step of the lag, from `u_uv` and `y_uv` to `y_uv`. -/
class LagStep where
  euler : Int → Int → Int

namespace FirstOrderLag

variable {U : Type}

/-- The ports of the plant. -/
def vin : String := "vin"

def vout : String := "vout"

/-- `DT`, one millisecond. -/
def dt : Nat := 1000000

/-- `FirstOrderLag::attach`. -/
def attach : FirstOrderLag U := ⟨0, 0⟩

instance [LagStep] : Model (FirstOrderLag U) (Signal U) where
  dt _ := dt
  reset _ := (⟨0, 0⟩, [(vout, .Analog 0)])
  step lag :=
    let y_uv := LagStep.euler lag.u_uv lag.y_uv
    ({ lag with y_uv := y_uv }, [(vout, .Analog y_uv)])
  drive_in port frame lag :=
    match frame with
    | .Analog uv => if port = vin then ({ lag with u_uv := uv }, []) else (lag, [])
    | .Uart _ => (lag, [])

end FirstOrderLag

end Rl78Sim
