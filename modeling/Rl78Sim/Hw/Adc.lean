import Rl78Sim.Hw.ClockGenerator
import Rl78Sim.Kernel.Records

/-! # The A/D Converter

    A conversion that is started schedules its completion; in continuous mode,
    and within a scan, each completion schedules the next one. The completion is
    recorded, so that a new start, a stop and a reset cancel it. The queue is
    shared with other devices: `book` is the event of the queue for a
    completion. Reads, which change nothing, are left out. -/

namespace Rl78Sim

/-- `SOURCE_NUM`. -/
abbrev adc_sources : Nat := 27

/-- `SCAN_CHANNELS`. -/
abbrev scan_channels : Nat := 4

/-- `REF_UV`. -/
def ref_uv : Nat := 5000000

/-- `i64::MAX`. -/
def i64_max : Nat := 9223372036854775807

namespace Adc

inductive ConvertMode where
  | Select
  | Scan
  deriving DecidableEq

inductive TriggerMode where
  | Software
  | HardwareNowait
  | HardwareWait

inductive OperationMode where
  | Continuous
  | Oneshot
  deriving DecidableEq

inductive HwTrigger where
  | Tau
  | Rtc
  | Itl32
  | Elcl

inductive ReferenceVoltage where
  | Vdd
  | Port
  | Internal
  | Discharge

inductive ReferenceGnd where
  | Vss
  | Port

inductive Resolution where
  | Bits8
  | Bits10
  | Bits12

/-- `InputSource`. `Ani` takes the number of the variant: `Ani0` to `Ani14` are 0
    to 14, and `Ani16` to `Ani26` are 15 to 25. -/
inductive InputSource where
  | Ani (slot : Fin 26)
  | Tscap
  | Sensor
  | Internal

inductive TestTarget where
  | Normal
  | GndRef
  | VddRef

end Adc

open Adc

/-- `AdcUnit`. `irq_out` counts the drives of the interrupt line. -/
structure AdcUnit where
  conversion_running : Bool
  comparator_enabled : Bool
  convert_mode : ConvertMode
  lv : BitVec 8
  fr : BitVec 8
  trigger_mode : TriggerMode
  operation_mode : OperationMode
  hw_trigger : HwTrigger
  lowspeed_clock : Bool
  reference_voltage : ReferenceVoltage
  reference_gnd : ReferenceGnd
  interrupt_in_range : Bool
  use_snooze : Bool
  resolution : Resolution
  input_source : InputSource
  adul : BitVec 8
  adll : BitVec 8
  adcr : BitVec 16
  scan_adcr : Fin scan_channels → BitVec 16
  scan_index : Fin scan_channels
  range_hit : Bool
  test_target : TestTarget
  voltages : Fin adc_sources → Int
  irq_out : Nat
  expire_id : Option Nat
  generation : BitVec 32

/-- `AdcComplete`. -/
structure AdcComplete where
  generation : BitVec 32
  at_ : Nat

namespace AdcUnit

variable {Ev : Type}

/-- The registers after `restore_reset`. -/
def restored (a : AdcUnit) : AdcUnit :=
  { a with
    conversion_running := false
    comparator_enabled := false
    convert_mode := .Select
    lv := 0
    fr := 0
    trigger_mode := .Software
    lowspeed_clock := false
    operation_mode := .Continuous
    hw_trigger := .Tau
    reference_voltage := .Vdd
    reference_gnd := .Vss
    interrupt_in_range := true
    use_snooze := false
    resolution := .Bits10
    adcr := 0
    scan_adcr := fun _ => 0
    scan_index := 0
    range_hit := false
    input_source := .Ani 0
    adul := 0xFF
    adll := 0x00
    test_target := .Normal }

/-- `AdcUnit::new`: its `restore_reset` has nothing to cancel. -/
def new : AdcUnit where
  conversion_running := false
  comparator_enabled := false
  convert_mode := .Select
  lv := 0
  fr := 0
  trigger_mode := .Software
  operation_mode := .Continuous
  hw_trigger := .Tau
  lowspeed_clock := false
  reference_voltage := .Vdd
  reference_gnd := .Vss
  interrupt_in_range := true
  use_snooze := false
  resolution := .Bits10
  input_source := .Ani 0
  adul := 0xFF
  adll := 0x00
  adcr := 0
  scan_adcr _ := 0
  scan_index := 0
  range_hit := false
  test_target := .Normal
  voltages _ := 0
  irq_out := 0
  expire_id := none
  generation := 1

/-- `AdcUnit::set_voltage`. -/
def set_voltage (a : AdcUnit) (index : Nat) (uv : Int) : AdcUnit :=
  if h : index < adc_sources then { a with voltages := Function.update a.voltages ⟨index, h⟩ uv }
  else a

/-- `AdcUnit::cancel_pending`. -/
def cancel_pending (ctl : EventCtl Ev) (a : AdcUnit) : AdcUnit × EventCtl Ev :=
  ({ a with generation := a.generation + 1, expire_id := none },
    match a.expire_id with
    | some id => ctl.cancel id
    | none => ctl)

/-- `AdcUnit::restore_reset`, and `Resettable::reset`. -/
def reset (ctl : EventCtl Ev) (a : AdcUnit) : AdcUnit × EventCtl Ev :=
  let (a, ctl) := a.cancel_pending ctl
  (a.restored, ctl)

/-! ### Durations -/

/-- `AdcUnit::clock_divider`. -/
def clock_divider (a : AdcUnit) : Nat :=
  if a.lowspeed_clock then
    match a.fr.toNat with
    | 4 => 2
    | 5 => 1
    | _ => 4
  else
    match a.fr.toNat with
    | 1 => 16
    | 2 => 8
    | 3 => 4
    | 4 => 2
    | 5 => 1
    | _ => 32

/-- `AdcUnit::conversion_cycles`. -/
def conversion_cycles (a : AdcUnit) : Nat :=
  match a.lv.toNat with
  | 1 => 181
  | 2 => 80
  | 3 => 107
  | _ => 64

/-- `AdcUnit::wakeup_cycles`. -/
def wakeup_cycles (a : AdcUnit) : Nat :=
  if a.comparator_enabled then 1
  else if a.lowspeed_clock then
    match a.fr.toNat with
    | 5 => 6
    | _ => 4
  else
    match a.fr.toNat with
    | 2 => 6
    | 3 => 10
    | 4 => 18
    | 5 => 34
    | _ => 4

/-- `AdcUnit::interrupt_delay_cycles`. -/
def interrupt_delay_cycles (a : AdcUnit) : Nat :=
  if a.comparator_enabled || a.operation_mode = .Continuous then 1 else 4

/-- `AdcUnit::duration`. -/
def duration (a : AdcUnit) (f_clk : Hertz) (adc_clocks : Nat) : Option Nat :=
  f_clk.cycles_to_tick (saturating_mul adc_clocks a.clock_divider)

/-- `AdcUnit::first_duration`. -/
def first_duration (a : AdcUnit) (f_clk : Hertz) : Option Nat :=
  a.duration f_clk (saturating_add (saturating_add a.conversion_cycles a.wakeup_cycles)
    a.interrupt_delay_cycles)

/-- `AdcUnit::next_duration`. -/
def next_duration (a : AdcUnit) (f_clk : Hertz) : Option Nat :=
  a.duration f_clk (saturating_add a.conversion_cycles a.interrupt_delay_cycles)

/-! ### Conversions -/

/-- Book a completion, and record it. -/
def record (book : AdcComplete → Ev) (ctl : EventCtl Ev) (a : AdcUnit) (at_ : Nat) :
    AdcUnit × EventCtl Ev :=
  let (ctl, id) := ctl.schedule at_ (book ⟨a.generation, at_⟩)
  ({ a with expire_id := some id }, ctl)

/-- `AdcUnit::schedule`. -/
def schedule (book : AdcComplete → Ev) (ctl : EventCtl Ev) (a : AdcUnit) (period : Option Nat) :
    AdcUnit × EventCtl Ev :=
  match period with
  | none => (a, ctl)
  | some period =>
    if period = 0 then (a, ctl) else a.record book ctl (saturating_add ctl.now period)

/-- `AdcUnit::start`. -/
def start (book : AdcComplete → Ev) (f_clk : Hertz) (ctl : EventCtl Ev) (a : AdcUnit) :
    AdcUnit × EventCtl Ev :=
  let (a, ctl) := a.cancel_pending ctl
  let a := { a with scan_index := 0, range_hit := false }
  a.schedule book ctl (a.first_duration f_clk)

/-- `AdcUnit::fetch_result`. -/
def fetch_result (a : AdcUnit) : BitVec 16 :=
  match a.input_source with
  | .Ani slot =>
    if h : slot.val + a.scan_index.val < adc_sources then
      let uv := (a.voltages ⟨slot.val + a.scan_index.val, h⟩).toNat
      let (scale, shift, max) : Nat × Nat × Nat :=
        match a.resolution with
        | .Bits8 => (256, 8, 255)
        | .Bits10 => (1024, 6, 1023)
        | .Bits12 => (4096, 0, 4095)
      BitVec.ofNat 16 (min (min (uv * scale) i64_max / ref_uv) max) <<< shift
    else 0
  | _ => 0

/-- `AdcUnit::comparison_bits`. -/
def comparison_bits (a : AdcUnit) (adcr : BitVec 16) : BitVec 8 :=
  match a.resolution with
  | .Bits8 | .Bits10 => (adcr >>> 8).setWidth 8
  | .Bits12 => (adcr >>> 4).setWidth 8

/-- The result is inside the `ADUL`/`ADLL` window, or outside when that is asked
    for. -/
def is_valid (a : AdcUnit) (result : BitVec 16) : Bool :=
  let compared := (a.comparison_bits result).toNat
  if a.interrupt_in_range then a.adll.toNat ≤ compared && compared ≤ a.adul.toNat
  else compared < a.adll.toNat || a.adul.toNat ≤ compared

/-- `AdcUnit::complete`, up to the next deadline. -/
def finish (a : AdcUnit) : AdcUnit :=
  let result := a.fetch_result
  let valid := a.is_valid result
  let next := if a.convert_mode = .Scan then a.scan_index + 1 else a.scan_index
  let hit := a.range_hit || valid
  { a with
    expire_id := none
    adcr := if a.scan_index = 0 then result else a.adcr
    scan_adcr := if valid then Function.update a.scan_adcr a.scan_index result else a.scan_adcr
    scan_index := next
    range_hit := if next = 0 then false else hit
    irq_out := if next = 0 ∧ hit = true then a.irq_out + 1 else a.irq_out
    conversion_running :=
      if a.operation_mode = .Oneshot ∧ next = 0 then false else a.conversion_running }

/-- `while deadline <= now { deadline = deadline.saturating_add(period) }`, in at
    most `rounds` rounds. -/
def skip_past (period now : Nat) : Nat → Nat → Option Nat
  | 0, deadline => if deadline ≤ now then none else some deadline
  | rounds + 1, deadline =>
    if deadline ≤ now then skip_past period now rounds (saturating_add deadline period)
    else some deadline

/-- `AdcUnit::complete`. A round of its loop moves the deadline by a nanosecond
    at least while the clock can show a later time; where the loop does not end,
    the source does not return, and the model books nothing. -/
def complete (book : AdcComplete → Ev) (f_clk : Hertz) (ctl : EventCtl Ev) (a : AdcUnit)
    (at_ : Nat) : AdcUnit × EventCtl Ev :=
  let oneshot_ends := a.operation_mode = .Oneshot ∧ a.finish.scan_index = 0
  let a := a.finish
  if oneshot_ends then (a, ctl)
  else
    match a.next_duration f_clk with
    | none => (a, ctl)
    | some period =>
      if period = 0 then (a, ctl)
      else
        let deadline := saturating_add at_ period
        match skip_past period ctl.now (ctl.now + 1 - deadline) deadline with
        | none => (a, ctl)
        | some deadline => a.record book ctl deadline

/-- `AdcComplete::fire`. -/
def fire (book : AdcComplete → Ev) (ev : AdcComplete) (f_clk : Hertz) (ctl : EventCtl Ev)
    (a : AdcUnit) : AdcUnit × EventCtl Ev :=
  if a.generation ≠ ev.generation ∨ a.conversion_running = false then
    ({ a with expire_id := none }, ctl)
  else a.complete book f_clk ctl ev.at_

/-! ### Registers -/

/-- `AdcUnit::write_adm0`. -/
def write_adm0 (book : AdcComplete → Ev) (f_clk : Hertz) (ctl : EventCtl Ev) (a : AdcUnit)
    (value : BitVec 8) : AdcUnit × EventCtl Ev :=
  let a := { a with
    convert_mode := if value.getLsbD 6 then .Scan else .Select
    lv := (value >>> 1) &&& 0x3#8
    fr := (value >>> 3) &&& 0x7#8
    conversion_running := value.getLsbD 7
    comparator_enabled := value.getLsbD 0 }
  if a.conversion_running then a.start book f_clk ctl else a.cancel_pending ctl

/-- `AdcUnit::write_adm1`. -/
def write_adm1 (a : AdcUnit) (value : BitVec 8) : AdcUnit :=
  { a with
    trigger_mode :=
      match (value >>> 6).toNat with
      | 2 => .HardwareNowait
      | 3 => .HardwareWait
      | _ => .Software
    lowspeed_clock := value.getLsbD 3
    operation_mode := if value.getLsbD 5 then .Oneshot else .Continuous
    hw_trigger :=
      match (value &&& 0x7#8).toNat with
      | 2 => .Rtc
      | 3 => .Itl32
      | 4 => .Elcl
      | _ => .Tau }

/-- `AdcUnit::write_adm2`. -/
def write_adm2 (a : AdcUnit) (value : BitVec 8) : AdcUnit :=
  { a with
    reference_voltage :=
      match ((value >>> 6) &&& 0x3#8).toNat with
      | 1 => .Port
      | 2 => .Internal
      | 3 => .Discharge
      | _ => .Vdd
    reference_gnd := if value.getLsbD 5 then .Port else .Vss
    interrupt_in_range := !value.getLsbD 3
    use_snooze := value.getLsbD 2
    resolution :=
      match (value &&& 0x3#8).toNat with
      | 1 => .Bits8
      | 2 => .Bits12
      | _ => .Bits10 }

/-- The input that `ADS` selects. -/
def select_input (value : BitVec 8) : InputSource :=
  let ads := (value &&& 0x1F#8).toNat
  if value.getLsbD 7 then if ads = 1 then .Internal else .Sensor
  else if h : ads ≤ 14 then .Ani ⟨ads, by omega⟩
  else if h : 16 ≤ ads ∧ ads ≤ 26 then .Ani ⟨ads - 1, by omega⟩
  else if ads = 30 then .Tscap
  else .Ani 0

/-- `AdcUnit::write_ads`. -/
def write_ads (book : AdcComplete → Ev) (f_clk : Hertz) (ctl : EventCtl Ev) (a : AdcUnit)
    (value : BitVec 8) : AdcUnit × EventCtl Ev :=
  let a := { a with input_source := select_input value }
  if a.conversion_running then a.start book f_clk ctl else (a, ctl)

/-- `AdcUnit::write_adtes`. -/
def write_adtes (a : AdcUnit) (value : BitVec 8) : AdcUnit :=
  { a with
    test_target :=
      match (value &&& 0x3#8).toNat with
      | 2 => .GndRef
      | 3 => .VddRef
      | _ => .Normal }

/-- A register that the guest can write. -/
inductive Register where
  | Adm0
  | Ads
  | Adm1
  | Adm2
  | Adul
  | Adll
  | Adtes

/-- `write_adm_window` and `write_ext_window`, by register. -/
def write (book : AdcComplete → Ev) (f_clk : Hertz) (ctl : EventCtl Ev) (a : AdcUnit)
    (reg : Register) (value : BitVec 8) : AdcUnit × EventCtl Ev :=
  match reg with
  | .Adm0 => a.write_adm0 book f_clk ctl value
  | .Ads => a.write_ads book f_clk ctl value
  | .Adm1 => (a.write_adm1 value, ctl)
  | .Adm2 => (a.write_adm2 value, ctl)
  | .Adul => ({ a with adul := value }, ctl)
  | .Adll => ({ a with adll := value }, ctl)
  | .Adtes => (a.write_adtes value, ctl)

end AdcUnit

end Rl78Sim
