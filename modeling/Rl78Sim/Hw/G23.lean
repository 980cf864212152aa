import Rl78Sim.Hw.UnitEvents
import Rl78Sim.Kernel.Soc

/-! # The G23 Core

    The clock generator, the serial and the timer array unit, the converter and
    the semihosting window, wired to everything else on the board: the
    instruction engine, the ports, the interrupt controller and the devices. Of
    the latter only their use of the bus and of the wires is known here; none of
    them schedules an event. What a read of a register answers is left to them,
    but for the data registers of the serial array unit, whose read changes its
    state. -/

namespace Rl78Sim

open SauUnit TauUnit

/-! ### Semihosting -/

/-- `SemihostingUnit`. -/
structure SemihostingUnit where
  data_addr : BitVec 32

/-- `SemihostingEvent`: it prints the text at `data_addr`. -/
structure SemihostingEvent where
  data_addr : BitVec 32

namespace SemihostingUnit

/-- `SemihostingUnit::new`. -/
def new : SemihostingUnit := ⟨0⟩

/-- `SemihostingUnit::write_ctrl`. -/
def write_ctrl {Ev : Type} (book : SemihostingEvent → Ev) (ctl : EventCtl Ev) (s : SemihostingUnit)
    (offset : Nat) (value : BitVec 16) : SemihostingUnit × EventCtl Ev :=
  match offset with
  | 0x00 => (⟨(s.data_addr &&& 0xFFFF0000#32) ||| value.setWidth 32⟩, ctl)
  | 0x02 => (⟨(s.data_addr &&& 0x0000FFFF#32) ||| value.setWidth 32 <<< 16⟩, ctl)
  | 0x04 => (s, (ctl.schedule ctl.now (book ⟨s.data_addr⟩)).1)
  | _ => (s, ctl)

/-- `Resettable::reset`. -/
def reset (_ : SemihostingUnit) : SemihostingUnit := ⟨0⟩

end SemihostingUnit

/-! ### Events -/

/-- The events of the core that are neither of the serial nor of the timer array
    unit. -/
inductive CoreEvent where
  | adc (ev : AdcComplete)
  | semihosting (ev : SemihostingEvent)

/-- An event of the queue that the units share. -/
abbrev G23Event := SauEvent (TauEvent CoreEvent)

namespace G23Event

/-- The same event, as the timer array unit sees it. -/
def for_tau : G23Event → TauEvent (SauEvent CoreEvent)
  | .tx_done ch => .other (.tx_done ch)
  | .other (.expire ev) => .expire ev
  | .other (.other ev) => .other (.other ev)

def of_tau : TauEvent (SauEvent CoreEvent) → G23Event
  | .other (.tx_done ch) => .tx_done ch
  | .expire ev => .other (.expire ev)
  | .other (.other ev) => .other (.other ev)

theorem of_tau_for_tau (ev : G23Event) : of_tau (for_tau ev) = ev := by
  rcases ev with ch | (ev | ev) <;> rfl

theorem for_tau_of_tau (ev : TauEvent (SauEvent CoreEvent)) : for_tau (of_tau ev) = ev := by
  rcases ev with ev | (ch | ev) <;> rfl

/-- The event of a completion of the converter. -/
def adc (ev : AdcComplete) : G23Event := .other (.other (.adc ev))

/-- The event of a print. -/
def semihosting (ev : SemihostingEvent) : G23Event := .other (.other (.semihosting ev))

/-- The event prints. -/
def is_print : G23Event → Bool
  | .other (.other (.semihosting _)) => true
  | _ => false

end G23Event

/-! ### Units and wires -/

/-- The units of the core that schedule events, and the clock generator. -/
structure Units where
  clock : ClockGenerator
  sau : SauUnit
  tau : TauUnit
  adc : AdcUnit
  semihosting : SemihostingUnit

namespace Units

/-- `Rl78G23Core::new`. -/
def new : Units := ⟨.new, .new, .new, .new, .new⟩

/-- The clock of the units. -/
def f_clk (units : Units) : Hertz := units.clock.f_clk

end Units

/-- A wire into a unit is driven. -/
inductive UnitSignal where
  | uart (channel : Nat) (frame : UartFrame)
  | analog (channel : Nat) (uv : Int)

/-- `SauUnit::on_rx` and `AdcUnit::on_channel`. -/
def Units.drive (units : Units) : UnitSignal → Units
  | .uart channel frame => { units with sau := units.sau.receive units.f_clk channel frame }
  | .analog channel uv => { units with adc := units.adc.set_voltage channel uv }

/-- What the rest of the board does when it is called: it may drive wires into the
    units, seeing what they do then, and board-edge ports. -/
inductive WireUse (K F : Type) where
  | done (rest : K) (drives : List (String × F))
  | drive (signal : UnitSignal) (next : Units → WireUse K F)

def WireUse.run {K F : Type} : WireUse K F → Units → Units × K × List (String × F)
  | .done rest drives, units => (units, rest, drives)
  | .drive signal next, units => (next (units.drive signal)).run (units.drive signal)

/-- The windows of `Rl78G23Core::memory_map`; `W` are those of the ports and of the
    interrupt controller. -/
inductive Window (W : Type) where
  | ClockSfr
  | ClockOscDiv
  | ClockHoco
  | ClockTrim
  | SauSdr01
  | SauSdr23
  | SauCtrl
  | TauTdr01
  | TauTdr27
  | TauCtrl
  | TauTis
  | AdcAdcr
  | AdcAdm
  | AdcExt
  | Semihosting
  | other (w : W)

/-- What is reset besides the units. -/
inductive ResetPart where
  | devices
  | gpio
  | irq
  | engine

/-- The rest of the board. -/
class Rest (K : Type) (W F : outParam Type) where
  /-- `Rl78Cpu::run_quantum`: the guest runs on the engine. -/
  run_quantum (max now : Nat) : K → BusUse K (Quantum max)
  /-- The lines that the units have driven, as `old` and `new` tell; `sent` is a
      frame on `tx_out`. -/
  wires (now : Nat) (old new : Units) (sent : Option (Fin sau_channels × UartFrame)) : K →
    WireUse K F
  reset (part : ResetPart) (now : Nat) (units : Units) : K → WireUse K F
  read_reg : K → Nat → Except SimError Nat
  write_reg : K → Nat → Nat → K × Except SimError Unit
  sync_breakpoints : K → List Breakpoint → K
  read_gdb_registers : K → Except SimError (List Nat)
  pc : K → Nat
  write_gdb_registers : K → List Nat → K × Except SimError Unit
  poll_actions (now : Nat) : K → WireUse K F
  apply_action (req : ActionRequest) (now : Nat) : K → WireUse K F × Option ActionFailure
  drive_in (port : String) (frame : F) (now : Nat) : K → WireUse K F
  /-- An access to a window of its own. -/
  mmio (w : W) (op : Op) (offset now : Nat) (buf : List UInt8) :
    K → WireUse K F × Except BusError Unit × List UInt8
  /-- What a read in a window of a unit answers. -/
  answer (w : Window W) (units : Units) (offset len : Nat) : K → Except BusError (List UInt8)

/-- The chip and the board. `host_limit` is the end of the RAM or ROM that an
    address lies in; `printed` is a history variable. -/
structure G23 (K : Type) where
  units : Units
  rest : K
  host_limit : Nat → Option Nat
  printed : List (List UInt8)

namespace G23

variable {K W F α : Type} [Rest K W F]

abbrev GParts (K F : Type) := Parts (G23 K) G23Event F

/-- `EventCtl`, as the units hold it. -/
def ctl (now : Nat) (parts : GParts K F) : EventCtl G23Event :=
  ⟨⟨min now u64_max, Nat.min_le_right _ _⟩, parts.events⟩

/-- The rest of the board has been called. -/
def wired (parts : GParts K F) (use : WireUse K F) : GParts K F :=
  let (units, rest, drives) := use.run parts.cpu.units
  ⟨{ parts.cpu with units := units, rest := rest }, parts.events, parts.drives ++ drives⟩

/-- A unit has finished, and its lines are driven. -/
def put (now : Nat) (parts : GParts K F) (units : Units) (events : EventQueue G23Event)
    (sent : Option (Fin sau_channels × UartFrame)) : GParts K F :=
  wired ⟨{ parts.cpu with units := units }, events, parts.drives⟩
    (Rest.wires now parts.cpu.units units sent parts.cpu.rest)

/-! ### What the units do -/

def clock_op (now : Nat) (f : ClockGenerator → ClockGenerator) (parts : GParts K F) : GParts K F :=
  put now parts { parts.cpu.units with clock := f parts.cpu.units.clock } parts.events none

def sau_op (now : Nat)
    (f : Hertz → EventCtl G23Event → SauUnit → SauUnit × EventCtl G23Event)
    (parts : GParts K F) : GParts K F :=
  let units := parts.cpu.units
  let (sau, ctl) := f units.f_clk (ctl now parts) units.sau
  put now parts { units with sau := sau } ctl.events none

/-- The timer array unit finds its own events in the queue, and those of others. -/
def tau_ctl (now : Nat) (parts : GParts K F) : EventCtl (TauEvent (SauEvent CoreEvent)) :=
  ⟨(ctl now parts).clock, parts.events.map G23Event.for_tau⟩

def tau_op (now : Nat)
    (f : Hertz → EventCtl (TauEvent (SauEvent CoreEvent)) → TauUnit →
      TauUnit × EventCtl (TauEvent (SauEvent CoreEvent)))
    (parts : GParts K F) : GParts K F :=
  let units := parts.cpu.units
  let (tau, ctl) := f units.f_clk (tau_ctl now parts) units.tau
  put now parts { units with tau := tau } (ctl.events.map G23Event.of_tau) none

def adc_op (now : Nat) (f : Hertz → EventCtl G23Event → AdcUnit → AdcUnit × EventCtl G23Event)
    (parts : GParts K F) : GParts K F :=
  let units := parts.cpu.units
  let (adc, ctl) := f units.f_clk (ctl now parts) units.adc
  put now parts { units with adc := adc } ctl.events none

def semihosting_op (now : Nat)
    (f : EventCtl G23Event → SemihostingUnit → SemihostingUnit × EventCtl G23Event)
    (parts : GParts K F) : GParts K F :=
  let units := parts.cpu.units
  let (semihosting, ctl) := f (ctl now parts) units.semihosting
  put now parts { units with semihosting := semihosting } ctl.events none

/-! ### Windows -/

def oob (offset len : Nat) : BusError := .OutOfRange offset offset len

/-- `write_word_reg`: the word that is written. -/
def word_write (offset size : Nat) : List UInt8 → Option (BitVec 16)
  | [lo, hi] => if offset % 2 = 0 ∧ saturating_add offset 2 ≤ size then
      some (BitVec.ofNat 16 (lo.toNat + 256 * hi.toNat)) else none
  | _ => none

/-- `write_u8_window`: the bytes that are written. -/
def byte_writes (offset size : Nat) : List UInt8 → Option (List (Nat × BitVec 8))
  | [b] => if offset < size then some [(offset, b.toBitVec)] else none
  | [b, b'] => if saturating_add offset 2 ≤ size then
      some [(offset, b.toBitVec), (offset + 1, b'.toBitVec)] else none
  | _ => none

/-- A write in a window of words. -/
def write_word_reg (offset size : Nat) (buf : List UInt8) (write16 : BitVec 16 → GParts K F)
    (parts : GParts K F) : GParts K F × Except BusError Unit :=
  match word_write offset size buf with
  | some value => (write16 value, .ok ())
  | none => (parts, .error (oob offset buf.length))

/-- A write in a window of the clock generator. -/
def write_u8_window (now offset size : Nat) (buf : List UInt8)
    (write8 : ClockGenerator → Nat → BitVec 8 → ClockGenerator) (parts : GParts K F) :
    GParts K F × Except BusError Unit :=
  match byte_writes offset size buf with
  | some writes =>
    (clock_op now (fun g => writes.foldl (fun g w => write8 g w.1 w.2) g) parts, .ok ())
  | none => (parts, .error (oob offset buf.length))

/-- `SauSdrMmio::write`. -/
def write_sdr (base now offset : Nat) (buf : List UInt8) (parts : GParts K F) :
    GParts K F × Except BusError Unit :=
  write_word_reg offset 4 buf
    (fun value => sau_op now (fun f_clk ctl u =>
      u.write_sdr f_clk ctl (Fin.ofNat sau_channels (base + offset / 2)) value) parts) parts

/-- `SauCtrlMmio::write`. -/
def write_sau_ctrl (now offset : Nat) (buf : List UInt8) (parts : GParts K F) :
    GParts K F × Except BusError Unit :=
  write_word_reg offset 0x40 buf
    (fun value => sau_op now (fun _ ctl u => u.write_ctrl ctl offset value) parts) parts

/-- `TauTdrMmio::write`. -/
def write_tdr (base size now offset : Nat) (buf : List UInt8) (parts : GParts K F) :
    GParts K F × Except BusError Unit :=
  write_word_reg offset size buf
    (fun value => tau_op now (fun _ ctl t =>
      (t.write_tdr (Fin.ofNat tau_channels (base + offset / 2)) value, ctl)) parts) parts

/-- `TauCtrlMmio::write`. -/
def write_tau_ctrl (now offset : Nat) (buf : List UInt8) (parts : GParts K F) :
    GParts K F × Except BusError Unit :=
  write_word_reg offset 0x40 buf
    (fun value => tau_op now (fun f_clk ctl t => t.write_ctrl f_clk ctl offset value) parts) parts

/-- `TauTisMmio::write`: the registers of the noise filter are left out. -/
def write_tis (offset : Nat) (buf : List UInt8) (parts : GParts K F) :
    GParts K F × Except BusError Unit :=
  if buf.length ≠ 1 ∨ 2 ≤ offset then (parts, .error (oob offset buf.length)) else (parts, .ok ())

/-- `AdcMmio::write` in `AdcWindow::Adcr`. -/
def write_adcr (offset : Nat) (buf : List UInt8) (parts : GParts K F) :
    GParts K F × Except BusError Unit :=
  match offset, buf.length with
  | 0, 2 | 1, 1 => (parts, .ok ())
  | _, len => (parts, .error (oob offset len))

def write_register (now : Nat) (reg : AdcUnit.Register) (value : UInt8) (parts : GParts K F) :
    GParts K F × Except BusError Unit :=
  (adc_op now (fun f_clk ctl a => a.write G23Event.adc f_clk ctl reg value.toBitVec) parts, .ok ())

/-- `AdcUnit::write_adm_window`. -/
def write_adm (now offset : Nat) (buf : List UInt8) (parts : GParts K F) :
    GParts K F × Except BusError Unit :=
  match offset, buf with
  | 0, [value] => write_register now .Adm0 value parts
  | 1, [value] => write_register now .Ads value parts
  | 2, [value] => write_register now .Adm1 value parts
  | _, _ => (parts, .error (oob offset buf.length))

/-- `AdcUnit::write_ext_window`; the window has `0x18` bytes. -/
def write_ext (now offset : Nat) (buf : List UInt8) (parts : GParts K F) :
    GParts K F × Except BusError Unit :=
  match offset, buf with
  | 0, [value] => write_register now .Adm2 value parts
  | 1, [value] => write_register now .Adul value parts
  | 2, [value] => write_register now .Adll value parts
  | 3, [value] => write_register now .Adtes value parts
  | 0x10, [_, _] | 0x12, [_, _] | 0x14, [_, _] | 0x16, [_, _] => (parts, .ok ())
  | o, [_] => if o < 0x18 then (parts, .ok ()) else (parts, .error (oob offset 1))
  | _, _ => (parts, .error (oob offset buf.length))

/-- `SemihostingMmio::write`. -/
def write_semihosting (now offset : Nat) (buf : List UInt8) (parts : GParts K F) :
    GParts K F × Except BusError Unit :=
  match buf with
  | [lo, hi] =>
    (semihosting_op now (fun ctl s => s.write_ctrl G23Event.semihosting ctl offset
      (BitVec.ofNat 16 (lo.toNat + 256 * hi.toNat))) parts, .ok ())
  | _ => (parts, .error (.Unmapped offset buf.length))

/-- `MemoryMapped::write` of a window of the units. -/
def write_window (w : Window W) (now offset : Nat) (buf : List UInt8) (parts : GParts K F) :
    GParts K F × Except BusError Unit :=
  match w with
  | .ClockSfr => write_u8_window now offset 8 buf ClockGenerator.write_sfr parts
  | .ClockOscDiv => write_u8_window now offset 2 buf ClockGenerator.write_osc_div parts
  | .ClockHoco => write_u8_window now offset 9 buf ClockGenerator.write_hoco parts
  | .ClockTrim => write_u8_window now offset 4 buf ClockGenerator.write_trim parts
  | .SauSdr01 => write_sdr 0 now offset buf parts
  | .SauSdr23 => write_sdr 2 now offset buf parts
  | .SauCtrl => write_sau_ctrl now offset buf parts
  | .TauTdr01 => write_tdr 0 4 now offset buf parts
  | .TauTdr27 => write_tdr 2 0x0C now offset buf parts
  | .TauCtrl => write_tau_ctrl now offset buf parts
  | .TauTis => write_tis offset buf parts
  | .AdcAdcr => write_adcr offset buf parts
  | .AdcAdm => write_adm now offset buf parts
  | .AdcExt => write_ext now offset buf parts
  | .Semihosting => write_semihosting now offset buf parts
  | .other _ => (parts, .ok ())

/-- `SauSdrMmio::read`: the read of a word, or of one byte of it. -/
def read_sdr (base now offset : Nat) (buf : List UInt8) (parts : GParts K F) :
    GParts K F × Except BusError Unit × List UInt8 :=
  let ch := Fin.ofNat sau_channels (base + offset / 2)
  let word := (parts.cpu.units.sau.read_sdr ch).2
  let bytes := [UInt8.ofBitVec (word.setWidth 8), UInt8.ofBitVec ((word >>> 8).setWidth 8)]
  let parts' := sau_op now (fun _ ctl u => ((u.read_sdr ch).1, ctl)) parts
  match buf with
  | [_, _] => if offset % 2 = 0 ∧ saturating_add offset 2 ≤ 4 then (parts', .ok (), bytes)
      else (parts, .error (oob offset 2), buf)
  | [_] => if offset < 4 then (parts', .ok (), [bytes.getD (offset % 2) 0])
      else (parts, .error (oob offset 1), buf)
  | _ => (parts, .error (oob offset buf.length), buf)

/-- `MemoryMapped::read` of a window of the units. -/
def read_window (w : Window W) (now offset : Nat) (buf : List UInt8) (parts : GParts K F) :
    GParts K F × Except BusError Unit × List UInt8 :=
  match w with
  | .SauSdr01 => read_sdr 0 now offset buf parts
  | .SauSdr23 => read_sdr 2 now offset buf parts
  | w =>
    match Rest.answer w parts.cpu.units offset buf.length parts.cpu.rest with
    | .ok data => (parts, .ok (), data)
    | .error err => (parts, .error err, buf)

/-- An access to a window. -/
def mmio (w : Window W) (op : Op) (offset now : Nat) (buf : List UInt8) (parts : GParts K F) :
    GParts K F × Except BusError Unit × List UInt8 :=
  match w, op with
  | .other w, op =>
    let (use, res, buf') := Rest.mmio w op offset now buf parts.cpu.rest
    (wired parts use, res, buf')
  | w, .read => read_window w now offset buf parts
  | w, .write =>
    let (parts, res) := write_window w now offset buf parts
    (parts, res, buf)
  | _, .load => (parts, .error (.NotLoadable offset), buf)

/-! ### The guest, the events and the reset -/

/-- The engine runs; between two accesses it sees nothing of the units. -/
def guest : BusUse K α → GParts K F → BusUse (GParts K F) α
  | .done rest value, parts => .done { parts with cpu := { parts.cpu with rest := rest } } value
  | .access rest op addr buf next, parts =>
    .access { parts with cpu := { parts.cpu with rest := rest } } op addr buf
      fun parts res buf => guest (next parts.cpu.rest res buf) parts

/-- `guest_cstring`, and `eprint!`: the text up to the first zero byte. -/
def print (ev : SemihostingEvent) (parts : GParts K F) : BusUse (GParts K F) Unit :=
  match parts.cpu.host_limit ev.data_addr.toNat with
  | none => .done parts ()
  | some limit =>
    .access parts .read ev.data_addr.toNat (List.replicate (limit - ev.data_addr.toNat) 0)
      fun parts res buf =>
        match res with
        | .error _ => .done parts ()
        | .ok () =>
          if buf.contains 0 then
            .done { parts with cpu := { parts.cpu with
              printed := parts.cpu.printed ++ [buf.takeWhile fun b => b ≠ 0] } } ()
          else .done parts ()

/-- `SauTxDone::fire`. -/
def fire_tx_done (ch : Fin sau_channels) (now : Nat) (parts : GParts K F) : GParts K F :=
  let units := parts.cpu.units
  let (sau, ctl, frame) := units.sau.fire ch units.f_clk (ctl now parts)
  put now parts { units with sau := sau } ctl.events (frame.map fun frame => (ch, frame))

/-- `SimEvent::fire`; no event of the core asks for a stop. -/
def fire (event : G23Event) (now : Nat) (parts : GParts K F) : BusUse (GParts K F) Unit :=
  match event with
  | .tx_done ch => .done (fire_tx_done ch now parts) ()
  | .other (.expire ev) =>
    .done (tau_op now (fun f_clk ctl t =>
      ((t.fire ev f_clk ctl).unit, (t.fire ev f_clk ctl).ctl)) parts) ()
  | .other (.other (.adc ev)) =>
    .done (adc_op now (fun f_clk ctl a => a.fire G23Event.adc ev f_clk ctl) parts) ()
  | .other (.other (.semihosting ev)) => print ev parts

/-- A call of the chip that asks for no stop. -/
def no_stop : BusUse (GParts K F) Unit → BusUse (GParts K F) EventStop
  | .done parts _ => .done parts ⟨none, nofun⟩
  | .access parts op addr buf next =>
    .access parts op addr buf fun parts res buf => no_stop (next parts res buf)

def reset_part (part : ResetPart) (now : Nat) (parts : GParts K F) : GParts K F :=
  wired parts (Rest.reset part now parts.cpu.units parts.cpu.rest)

def reset_sau (now : Nat) : GParts K F → GParts K F := sau_op now fun _ ctl u => u.reset ctl

def reset_tau (now : Nat) : GParts K F → GParts K F := tau_op now fun _ ctl t => t.reset ctl

def reset_adc (now : Nat) : GParts K F → GParts K F := adc_op now fun _ ctl a => a.reset ctl

def reset_semihosting (now : Nat) : GParts K F → GParts K F :=
  semihosting_op now fun ctl s => (s.reset, ctl)

/-- `OPTION_BYTE_ADDR`. -/
def option_byte_addr : Nat := 0x000C2

/-- `R7F100Gxl::reset`, once the option byte has been read. -/
def reset_core (option : Option (BitVec 8)) (now : Nat) (parts : GParts K F) : GParts K F :=
  let parts := clock_op now (fun g => { g with option_byte := option }) parts
  let parts := clock_op now ClockGenerator.reset parts
  let parts := reset_sau now parts
  let parts := reset_tau now parts
  let parts := reset_part .gpio now parts
  let parts := reset_adc now parts
  let parts := reset_part .irq now parts
  let parts := reset_semihosting now parts
  reset_part .engine now parts

/-- `Machine::reset`: the devices, and then the chip. -/
def reset (now : Nat) (parts : GParts K F) : BusUse (GParts K F) Unit :=
  .access (reset_part .devices now parts) .read option_byte_addr [0] fun parts res buf =>
    let option := match res with
      | .ok () => buf.head?.map UInt8.toBitVec
      | .error _ => none
    .done (reset_core option now parts) ()

instance : Core (G23 K) (Window W) G23Event F where
  instruction_period chip := chip.units.f_clk.period
  run_quantum max now parts := guest (Rest.run_quantum max now parts.cpu.rest) parts
  fire event now parts := no_stop (fire event now parts)
  reset := reset
  read_reg chip := Rest.read_reg chip.rest
  write_reg chip id value :=
    let (rest, res) := Rest.write_reg chip.rest id value
    ({ chip with rest := rest }, res)
  sync_breakpoints chip items := { chip with rest := Rest.sync_breakpoints chip.rest items }
  read_gdb_registers chip := Rest.read_gdb_registers chip.rest
  pc chip := Rest.pc chip.rest
  write_gdb_registers chip data :=
    let (rest, res) := Rest.write_gdb_registers chip.rest data
    ({ chip with rest := rest }, res)
  poll_actions now parts := wired parts (Rest.poll_actions now parts.cpu.rest)
  apply_action req now parts :=
    let (use, failure) := Rest.apply_action req now parts.cpu.rest
    (wired parts use, failure)
  drive_in port frame now parts := wired parts (Rest.drive_in port frame now parts.cpu.rest)
  mmio := mmio

end G23

end Rl78Sim
