import Rl78Sim.Hw.DirectMap
import Rl78Sim.Kernel.Machine
import Rl78Sim.Probe.Record

/-! # Translated Code and the Bus

    A quantum runs translated code. Where the direct map has a host pointer, the
    code may read and write the memory behind it; everything else goes through
    the callbacks to the bus. An error of the bus is latched, the translator is
    asked to return, and the quantum stops for the first error that came up in
    it.
-/

namespace Rl78Sim

/-! ### Why a quantum stops -/

/-- `TlibExit`. -/
inductive TlibExit where
  | Interrupt
  | Wfi
  | Debug
  | Watchpoint
  | ReturnRequest
  deriving DecidableEq

/-- `TlibExit::from_raw`. -/
def TlibExit.from_raw (code : Int) : Option TlibExit :=
  if code = 0x10000 then some .Interrupt
  else if code = 0x10001 then some .Wfi
  else if code = 0x10002 then some .Debug
  else if code = 0x10004 then some .Watchpoint
  else if code = 0x10005 then some .ReturnRequest
  else none

/-- `map_tlib_exit`. -/
def map_tlib_exit (exit : Int) (breakpoint_at_pc : Option Nat) : Option StopReason :=
  match TlibExit.from_raw exit with
  | some .Debug => some (.Breakpoint (breakpoint_at_pc.getD 0))
  | some .Wfi => some .Halt
  | some .Interrupt | some .ReturnRequest | some .Watchpoint | none => none

/-- `PendingStop`. -/
structure PendingStop where
  reason : Option StopReason
  deriving DecidableEq

/-- `PendingStop::request`. -/
def PendingStop.request (pending : PendingStop) (reason : StopReason) : PendingStop :=
  if pending.reason.isNone then ⟨some reason⟩ else pending

/-- `resolve_after_tlib_execute`: the stop, and what is pending then. -/
def resolve_after_tlib_execute (pending : PendingStop) (exit : Int)
    (breakpoint_at_pc : Option Nat) : Option StopReason × PendingStop :=
  (pending.reason.or (map_tlib_exit exit breakpoint_at_pc), ⟨none⟩)

/-- What `latch_bus_error` makes of an error. -/
def bus_stop (write : Bool) : BusError → StopReason
  | .Unmapped addr _ => .Unmapped addr write
  | .ReadOnly addr => .Unmapped addr true
  | .OutOfRange addr _ _ => .Unmapped addr write
  | .NotLoadable addr => .Unmapped addr true

/-! ### Words -/

/-- The widths of the callbacks. -/
inductive IoWidth where
  | byte
  | word
  | double_word
  | quad_word
  deriving DecidableEq

/-- `width_len`. -/
def IoWidth.len : IoWidth → Nat
  | .byte => 1
  | .word => 2
  | .double_word => 4
  | .quad_word => 8

/-! ### The engine -/

/-- The host side of the translator, with the bus that is bound to it. -/
structure Rl78Engine (D : Type) where
  callbacks : CallbackState
  bus : MemoryBus D
  return_request : Bool
  pending : PendingStop
  breakpoints : List Breakpoint

/-- `request_callback_stop`. -/
def CallbackState.request_callback_stop (s : CallbackState) (reason : StopReason) :
    CallbackState :=
  if s.stop.isNone then { s with stop := some reason } else s

namespace Rl78Engine

variable {D : Type} [MemoryMapped D]

/-- `latch_bus_error`, and the request to return that follows it. -/
def fault (e : Rl78Engine D) (write : Bool) (err : BusError) : Rl78Engine D :=
  { e with
    callbacks := e.callbacks.request_callback_stop (bus_stop write err)
    return_request := true }

/-- `rl78_host_read_byte` and its siblings, with `io_read`. A read before there
    is a bus returns 0. -/
def host_read (e : Rl78Engine D) (addr : Nat) (width : IoWidth) : Option (Nat × Rl78Engine D) :=
  if e.callbacks.io_bus then
    (e.bus.read addr (List.replicate width.len 0)).map fun served =>
      match served.result with
      | .ok () => (from_le_bytes served.buf % 256 ^ width.len, { e with bus := served.bus })
      | .error err => (0, { e with bus := served.bus }.fault false err)
  else some (0, e)

/-- `rl78_host_write_byte` and its siblings, with `io_write`. -/
def host_write (e : Rl78Engine D) (addr : Nat) (width : IoWidth) (value : Nat) :
    Option (Rl78Engine D) :=
  if e.callbacks.io_bus then
    (e.bus.write addr (to_le_bytes width.len value)).map fun served =>
      match served.result with
      | .ok () => { e with bus := served.bus }
      | .error err => { e with bus := served.bus }.fault true err
  else some { e with return_request := true }

/-- A load through the host pointer of the address. It is undefined where the
    pointer leads out of the buffer. -/
def direct_load (e : Rl78Engine D) (addr : Nat) (width : IoWidth) : Option Nat :=
  (e.callbacks.find_host addr).bind fun p =>
    ((e.bus.device_mut p.device).bind Device.host_ptr).bind fun bytes =>
      if p.offset + width.len ≤ bytes.length then
        some (from_le_bytes ((bytes.drop p.offset).take width.len) % 256 ^ width.len)
      else none

/-- A store through the host pointer of the address. It asks no device, so it
    writes to a ROM as to a RAM. -/
def direct_store (e : Rl78Engine D) (addr : Nat) (width : IoWidth) (value : Nat) :
    Option (Rl78Engine D) :=
  let buf := to_le_bytes width.len value
  (e.callbacks.find_host addr).bind fun p =>
    (e.bus.device_mut p.device).bind fun d =>
      match d with
      | .Ram data =>
        if p.offset + buf.length ≤ data.data.length then
          some { e with bus :=
            e.bus.put_device p.device (.Ram (copied_into data p.offset buf).2) }
        else none
      | .Rom data =>
        if p.offset + buf.length ≤ data.data.length then
          some { e with bus :=
            e.bus.put_device p.device (.Rom (copied_into data p.offset buf).2) }
        else none
      | .Mmio _ => none

end Rl78Engine

/-! ### Quanta -/

/-- What translated code does in a quantum, until `tlib_execute` returns. What
    comes next may depend on what was loaded. An access is made through the host
    pointer if it is `direct`. -/
inductive GuestCode where
  | done (exit : Int) (instructions pc : Nat)
  | load (addr : Nat) (width : IoWidth) (direct : Bool) (next : Nat → GuestCode)
  | store (addr : Nat) (width : IoWidth) (value : Nat) (direct : Bool) (next : GuestCode)

/-- How `tlib_execute` returned. -/
structure TlibReturn where
  exit : Int
  instructions : Nat
  pc : Nat

/-- The outcome of `run_quantum`. -/
structure QuantumEnd where
  instructions : Nat
  stop : Option StopReason
  deriving DecidableEq

/-- `breakpoint_id_at_pc`. -/
def breakpoint_id_at_pc (breakpoints : List Breakpoint) (pc : Nat) : Option Nat :=
  (breakpoints.find? fun bp => bp.enabled && bp.addr == pc).map Breakpoint.id

namespace Rl78Engine

variable {D : Type} [MemoryMapped D]

/-- `tlib_execute`. -/
def tlib_execute : GuestCode → Rl78Engine D → Option (TlibReturn × Rl78Engine D)
  | .done exit instructions pc, e => some (⟨exit, instructions, pc⟩, e)
  | .load addr width true next, e =>
    (e.direct_load addr width).bind fun value => tlib_execute (next value) e
  | .load addr width false next, e =>
    (e.host_read addr width).bind fun (value, e') => tlib_execute (next value) e'
  | .store addr width value true next, e =>
    (e.direct_store addr width value).bind fun e' => tlib_execute next e'
  | .store addr width value false next, e =>
    (e.host_write addr width value).bind fun e' => tlib_execute next e'

/-- `run_quantum`. A request to return is over when `tlib_execute` has returned. -/
def run_quantum (code : GuestCode) (e : Rl78Engine D) : Option (QuantumEnd × Rl78Engine D) :=
  (tlib_execute code e).map fun (ret, e') =>
    let pending := e'.callbacks.stop.elim e'.pending e'.pending.request
    let (stop, pending) := resolve_after_tlib_execute pending ret.exit
      (breakpoint_id_at_pc e'.breakpoints ret.pc)
    (⟨ret.instructions, stop⟩,
      { e' with
        callbacks := e'.callbacks.take_callback_stop
        return_request := false
        pending := pending })

/-- Quanta, one after the other. -/
def run_quanta : List GuestCode → Rl78Engine D → Option (List QuantumEnd × Rl78Engine D)
  | [], e => some ([], e)
  | code :: rest, e =>
    (e.run_quantum code).bind fun (q, e') =>
      (e'.run_quanta rest).map fun (qs, e'') => (q :: qs, e'')

end Rl78Engine

end Rl78Sim
