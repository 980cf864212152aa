import Rl78Sim.Framework.Bits
import Rl78Sim.Framework.Transition
import Rl78Sim.Hw.ClockGenerator
import Rl78Sim.Kernel.Bookings

/-! # The Serial Array Unit

    Four channels that transmit and receive UART frames. A channel has a
    buffer, which the guest writes, and a shift register, which takes the
    buffer over when it is free. A frame is driven as a whole when it has left
    the shift register: the completion is an event of the queue that the unit
    shares with other devices. Reads that change nothing are left out.
-/

namespace Rl78Sim

open Transition Bits

/-- `CHANNELS`. -/
abbrev sau_channels : Nat := 4

/-- `UARTS`. -/
abbrev sau_uarts : Nat := 2

/-- `UartStopBits`. -/
inductive UartStopBits where
  | One
  | Two
  deriving DecidableEq

/-- `UartParity`. -/
inductive UartParity where
  | None
  | Even
  | Odd
  deriving DecidableEq

/-- `UartFrame`. -/
structure UartFrame where
  data : BitVec 16
  data_bits : Nat
  bit_time : Nat
  stop_bits : UartStopBits
  parity : UartParity
  inverted : Bool
  deriving DecidableEq

/-- `SauUnit`. `irq_out` and `err_out` count the drives of each line. -/
structure SauUnit where
  sdr : Fin sau_channels → BitVec 16
  smr : Fin sau_channels → BitVec 16
  scr : Fin sau_channels → BitVec 16
  baud_div : Fin sau_channels → BitVec 16
  ck_divisor : Fin 2 → BitVec 8
  se : BitVec 16
  so : BitVec 16
  soe : BitVec 16
  sol : BitVec 16
  busy : Fin sau_channels → Bool
  bff : Fin sau_channels → Bool
  fef : Fin sau_channels → Bool
  pef : Fin sau_channels → Bool
  ovf : Fin sau_channels → Bool
  irq_out : Fin sau_channels → Nat
  err_out : Fin sau_uarts → Nat
  tx_id : Fin sau_channels → Option Nat
  tx_shift : Fin sau_channels → Option UartFrame

namespace SauUnit

/-- An event of the shared queue: `SauTxDone`, or the event of another
    device. -/
inductive SauEvent (F : Type) where
  | tx_done (channel : Fin sau_channels)
  | other (event : F)

variable {F : Type}

/-! ### Register bits -/

def scr_txe : Nat := 15
def scr_rxe : Nat := 14
def scr_eoc : Nat := 11
def smr_cks : Nat := 15
def smr_sis : Nat := 6
def sir_fect : Nat := 2
def sir_pect : Nat := 1
def sir_ovfct : Nat := 0

/-- `SauUnit::new`. -/
def new : SauUnit where
  sdr _ := 0
  smr _ := 0
  scr _ := 0
  baud_div _ := 0
  ck_divisor _ := 0
  se := 0
  so := 0
  soe := 0
  sol := 0
  busy _ := false
  bff _ := false
  fef _ := false
  pef _ := false
  ovf _ := false
  irq_out _ := 0
  err_out _ := 0
  tx_id _ := none
  tx_shift _ := none

/-- `SauUnit::cancel_tx`. -/
def cancel_tx (ctl : EventCtl (SauEvent F)) (u : SauUnit) (channel : Fin sau_channels) :
    SauUnit × EventCtl (SauEvent F) :=
  ({ u with
      tx_id := Function.update u.tx_id channel none
      busy := Function.update u.busy channel false
      tx_shift := Function.update u.tx_shift channel none },
    match u.tx_id channel with
    | some id => ctl.cancel id
    | none => ctl)

/-- `SauUnit::can_start_tx`. -/
def can_start_tx (u : SauUnit) (channel : Fin sau_channels) : Bool :=
  u.se.getLsbD channel.val && u.soe.getLsbD channel.val && (u.scr channel).getLsbD scr_txe &&
    !u.busy channel && u.bff channel

/-- `SauUnit::can_rx`. -/
def can_rx (u : SauUnit) (channel : Fin sau_channels) : Bool :=
  u.se.getLsbD channel.val && (u.scr channel).getLsbD scr_rxe

/-- `SauUnit::data_bits`. -/
def data_bits (scr : BitVec 16) : Nat := if scr &&& 0x3#16 = 1#16 then 7 else 8

/-- `SauUnit::stop_bits`. -/
def stop_bits (scr : BitVec 16) : UartStopBits :=
  if (scr >>> 4) &&& 0x3#16 = 0x2#16 then .Two else .One

/-- `SauUnit::parity`. -/
def parity (scr : BitVec 16) : UartParity :=
  if (scr >>> 8) &&& 0x3#16 = 0x2#16 then .Even
  else if (scr >>> 8) &&& 0x3#16 = 0x3#16 then .Odd
  else .None

/-- `SauUnit::tx_inverted`. -/
def tx_inverted (u : SauUnit) (channel : Fin sau_channels) : Bool :=
  u.sol.getLsbD (if channel.val < 2 then 0 else 2)

/-- `SauUnit::rx_inverted`. -/
def rx_inverted (u : SauUnit) (channel : Fin sau_channels) : Bool :=
  (u.smr channel).getLsbD smr_sis

/-- `SauUnit::bit_count`. -/
def bit_count (scr : BitVec 16) : Nat :=
  1 + data_bits scr + (if parity scr ≠ .None then 1 else 0) +
    match stop_bits scr with
    | .One => 1
    | .Two => 2

/-- The prescaler that the channel selects. -/
def prs (u : SauUnit) (channel : Fin sau_channels) : Nat :=
  (u.ck_divisor (if (u.smr channel).getLsbD smr_cks then 1 else 0) &&& 0x0F#8).toNat

/-- The clocks of a bit. -/
def bit_cycles (u : SauUnit) (channel : Fin sau_channels) : Nat :=
  saturating_mul (saturating_mul (1 <<< u.prs channel) ((u.baud_div channel).toNat + 1)) 2

/-- `SauUnit::bit_time`. -/
def bit_time (u : SauUnit) (f_clk : Hertz) (channel : Fin sau_channels) : Option Nat :=
  (f_clk.cycles_to_tick (u.bit_cycles channel)).filter fun t => t != 0

/-- `SauUnit::frame_time`. -/
def frame_time (u : SauUnit) (f_clk : Hertz) (channel : Fin sau_channels) : Option Nat :=
  (f_clk.cycles_to_tick (saturating_mul (u.bit_cycles channel) (bit_count (u.scr channel)))).filter
    fun t => t != 0

/-- The bits of a datum that are sent. -/
def data_mask (scr : BitVec 16) : BitVec 16 := low_mask 16 (data_bits scr)

/-- `SauUnit::tx_frame`. -/
def tx_frame (u : SauUnit) (f_clk : Hertz) (channel : Fin sau_channels) : Option UartFrame :=
  (u.bit_time f_clk channel).map fun bit_time =>
    { data := u.sdr channel &&& data_mask (u.scr channel)
      data_bits := data_bits (u.scr channel)
      bit_time := bit_time
      stop_bits := stop_bits (u.scr channel)
      parity := parity (u.scr channel)
      inverted := u.tx_inverted channel }

/-- `SauUnit::start_tx`. -/
def start_tx (f_clk : Hertz) (ctl : EventCtl (SauEvent F)) (u : SauUnit)
    (channel : Fin sau_channels) : SauUnit × EventCtl (SauEvent F) :=
  if !u.can_start_tx channel then (u, ctl)
  else
    match u.frame_time f_clk channel, u.tx_frame f_clk channel with
    | some period, some frame =>
        let (u, ctl) := u.cancel_tx ctl channel
        let (ctl, id) := ctl.schedule (saturating_add ctl.now period) (.tx_done channel)
        ({ u with
            tx_shift := Function.update u.tx_shift channel (some frame)
            bff := Function.update u.bff channel false
            busy := Function.update u.busy channel true
            tx_id := Function.update u.tx_id channel (some id) }, ctl)
    | _, _ => (u, ctl)

/-- `SauUnit::local_rx_frame`. -/
def local_rx_frame (u : SauUnit) (f_clk : Hertz) (channel : Fin sau_channels) : UartFrame where
  data := 0
  data_bits := data_bits (u.scr channel)
  bit_time := (u.bit_time f_clk channel).getD 0
  stop_bits := stop_bits (u.scr channel)
  parity := parity (u.scr channel)
  inverted := u.rx_inverted channel

/-- The UART that a channel belongs to. -/
def uart (channel : Fin sau_channels) : Fin sau_uarts := 
  ⟨channel.val / 2, Nat.div_lt_of_lt_mul channel.isLt⟩

/-- `SauUnit::receive`. -/
def receive (f_clk : Hertz) (u : SauUnit) (channel : Nat) (frame : UartFrame) : SauUnit :=
  if h : channel < sau_channels then
    let ch : Fin sau_channels := ⟨channel, h⟩
    if !u.can_rx ch then u
    else
      let overrun := u.bff ch
      let local_frame := u.local_rx_frame f_clk ch
      let framing := local_frame.bit_time != frame.bit_time ||
        local_frame.data_bits != frame.data_bits ||
        local_frame.stop_bits != frame.stop_bits || local_frame.inverted != frame.inverted
      let parity_err := local_frame.parity != frame.parity
      let error := framing || parity_err || overrun
      let mask := low_mask 16 local_frame.data_bits
      { u with
        ovf := Function.update u.ovf ch (u.ovf ch || overrun)
        fef := Function.update u.fef ch (u.fef ch || framing)
        pef := Function.update u.pef ch (u.pef ch || parity_err)
        sdr := Function.update u.sdr ch (frame.data &&& mask)
        bff := Function.update u.bff ch true
        err_out := if error then Function.update u.err_out (uart ch) (u.err_out (uart ch) + 1)
          else u.err_out
        irq_out := if !error || !(u.scr ch).getLsbD scr_eoc then
            Function.update u.irq_out ch (u.irq_out ch + 1)
          else u.irq_out }
  else u

/-- `SauUnit::read_sdr`. -/
def read_sdr (u : SauUnit) (channel : Fin sau_channels) : SauUnit × BitVec 16 :=
  if !u.se.getLsbD channel.val then (u, u.sdr channel ||| (u.baud_div channel <<< 9))
  else ({ u with bff := Function.update u.bff channel false }, u.sdr channel &&& 0x1FF#16)

/-- `SauUnit::write_sdr`, up to the start. -/
def load_sdr (u : SauUnit) (channel : Fin sau_channels) (value : BitVec 16) : SauUnit :=
  let enabled := u.se.getLsbD channel.val
  { u with
    baud_div := if enabled then u.baud_div else Function.update u.baud_div channel (value >>> 9)
    sdr := Function.update u.sdr channel (value &&& 0x1FF#16)
    bff := if enabled then Function.update u.bff channel true else u.bff }

/-- `SauUnit::write_sdr`. -/
def write_sdr (f_clk : Hertz) (ctl : EventCtl (SauEvent F)) (u : SauUnit)
    (channel : Fin sau_channels) (value : BitVec 16) : SauUnit × EventCtl (SauEvent F) :=
  (u.load_sdr channel value).start_tx f_clk ctl channel

/-- A loop over channels. -/
def for_channels (op : EventCtl (SauEvent F) → SauUnit → Fin sau_channels →
    SauUnit × EventCtl (SauEvent F)) (channels : List (Fin sau_channels)) (u : SauUnit)
    (ctl : EventCtl (SauEvent F)) : SauUnit × EventCtl (SauEvent F) :=
  channels.foldl (fun s ch => op s.2 s.1 ch) (u, ctl)

/-- A channel stops. -/
def stop_channel (ctl : EventCtl (SauEvent F)) (u : SauUnit) (channel : Fin sau_channels) :
    SauUnit × EventCtl (SauEvent F) :=
  cancel_tx ctl { u with se := u.se &&& ~~~(1#16 <<< channel.val) } channel

/-- The clear bits of a write to a flag clear register. -/
def clear_flags (u : SauUnit) (channel : Fin sau_channels) (value : BitVec 16) : SauUnit :=
  { u with
    fef := if value.getLsbD sir_fect then Function.update u.fef channel false else u.fef
    pef := if value.getLsbD sir_pect then Function.update u.pef channel false else u.pef
    ovf := if value.getLsbD sir_ovfct then Function.update u.ovf channel false else u.ovf }

/-- `SauUnit::write_ctrl`. -/
def write_ctrl (ctl : EventCtl (SauEvent F)) (u : SauUnit) (offset : Nat) (value : BitVec 16) :
    SauUnit × EventCtl (SauEvent F) :=
  match offset with
  | 0x08 | 0x0A | 0x0C | 0x0E =>
      (u.clear_flags (Fin.ofNat sau_channels ((offset - 0x08) / 2)) value, ctl)
  | 0x10 | 0x12 | 0x14 | 0x16 =>
      ({ u with smr := Function.update u.smr (Fin.ofNat sau_channels ((offset - 0x10) / 2)) value },
        ctl)
  | 0x18 | 0x1A | 0x1C | 0x1E =>
      ({ u with scr := Function.update u.scr (Fin.ofNat sau_channels ((offset - 0x18) / 2)) value },
        ctl)
  | 0x22 => ({ u with se := u.se ||| (value &&& 0x000F#16) }, ctl)
  | 0x24 =>
      for_channels stop_channel
        ((List.finRange sau_channels).filter fun ch => value.getLsbD ch.val) u ctl
  | 0x26 =>
      ({ u with ck_divisor := fun i =>
          if i = 0 then (value &&& 0x0F#16).setWidth 8
          else ((value >>> 4) &&& 0x0F#16).setWidth 8 }, ctl)
  | 0x28 => ({ u with so := value }, ctl)
  | 0x2A => ({ u with soe := value &&& 0x000F#16 }, ctl)
  | 0x34 => ({ u with sol := value &&& 0x0005#16 }, ctl)
  | _ => (u, ctl)

/-- `Resettable::reset`. -/
def reset (ctl : EventCtl (SauEvent F)) (u : SauUnit) : SauUnit × EventCtl (SauEvent F) :=
  let (u, ctl) := for_channels cancel_tx (List.finRange sau_channels) u ctl
  ({ u with
      sdr := fun _ => 0
      smr := fun _ => 0x0020
      scr := fun _ => 0x0004
      baud_div := fun _ => 0
      ck_divisor := fun _ => 0
      se := 0
      so := 0
      soe := 0
      sol := 0
      bff := fun _ => false
      tx_shift := fun _ => none
      fef := fun _ => false
      pef := fun _ => false
      ovf := fun _ => false }, ctl)

/-- `SauTxDone::fire`, up to the next start. -/
def complete (u : SauUnit) (ch : Fin sau_channels) : SauUnit :=
  { u with
    busy := Function.update u.busy ch false
    tx_id := Function.update u.tx_id ch none
    tx_shift := Function.update u.tx_shift ch none
    irq_out := Function.update u.irq_out ch (u.irq_out ch + 1) }

/-- `SauTxDone::fire`; the frame that it drives on `tx_out` is
    `u.tx_shift ch`. -/
def fire (ch : Fin sau_channels) (f_clk : Hertz) (ctl : EventCtl (SauEvent F)) (u : SauUnit) :
    SauUnit × EventCtl (SauEvent F) × Option UartFrame :=
  let (u', ctl) := (u.complete ch).start_tx f_clk ctl ch
  (u', ctl, u.tx_shift ch)

/-! ### Runs -/

/-- The unit and its handles. -/
structure Sim (F : Type) where
  unit : SauUnit
  ctl : EventCtl (SauEvent F)
  f_clk : Hertz

/-- What the guest, the lines, the clock generator, the kernel and other
    devices do. -/
inductive Act (F : Type) where
  | write_sdr (channel : Fin sau_channels) (value : BitVec 16)
  | read_sdr (channel : Fin sau_channels)
  | write_ctrl (offset : Nat) (value : BitVec 16)
  | receive (channel : Nat) (frame : UartFrame)
  | reset
  | set_f_clk (f_clk : Hertz)
  | advance (delta : Nat)
  | pop_due
  | schedule_other (at_ : Nat) (event : F)
  | cancel_other (id : Nat)

def Sim.next (s : Sim F) (p : SauUnit × EventCtl (SauEvent F)) : Sim F :=
  { s with unit := p.1, ctl := p.2 }

/-- The channel whose completion is due first. -/
def Sim.due (s : Sim F) : Option (Fin sau_channels) :=
  match s.ctl.pop_due.2 with
  | some (_, .tx_done ch) => some ch
  | _ => none

/-- Pop the first event that is due, and fire it. -/
def Sim.pop_due (s : Sim F) : Sim F :=
  match s.due with
  | some ch =>
      let fired := s.unit.fire ch s.f_clk s.ctl.pop_due.1
      { s with unit := fired.1, ctl := fired.2.1 }
  | none => { s with ctl := s.ctl.pop_due.1 }

/-- A device cancels its own events only. -/
def Sim.cancel_other (s : Sim F) (id : Nat) : Option (Sim F) :=
  match s.ctl.events.events.lookup id with
  | some (.tx_done _) => none
  | _ => some { s with ctl := s.ctl.cancel id }

def Sim.step (s : Sim F) : Act F → Option (Sim F)
  | .write_sdr channel value => some (s.next (s.unit.write_sdr s.f_clk s.ctl channel value))
  | .read_sdr channel => some { s with unit := (s.unit.read_sdr channel).1 }
  | .write_ctrl offset value => some (s.next (s.unit.write_ctrl s.ctl offset value))
  | .receive channel frame => some { s with unit := s.unit.receive s.f_clk channel frame }
  | .reset => some (s.next (s.unit.reset s.ctl))
  | .set_f_clk f_clk => some { s with f_clk := f_clk }
  | .advance delta => some { s with ctl := s.ctl.advance delta }
  | .pop_due => some s.pop_due
  | .schedule_other at_ event => some { s with ctl := (s.ctl.schedule at_ (.other event)).1 }
  | .cancel_other id => s.cancel_other id

/-- A frame driven on `tx_out`: by which channel, and when. -/
structure Sent where
  channel : Fin sau_channels
  now : Nat
  frame : UartFrame
  deriving DecidableEq

/-- What the unit has driven on `tx_out`, and the data that the guest has
    written for each channel. -/
structure History where
  line : List Sent
  written : Fin sau_channels → List (BitVec 16)

/-- The frame that the next pop drives. -/
def Sim.driven (s : Sim F) : List Sent :=
  match s.due with
  | some ch =>
      (s.unit.fire ch s.f_clk s.ctl.pop_due.1).2.2.toList.map fun frame => ⟨ch, s.ctl.now, frame⟩
  | none => []

def note (s : Sim F) (a : Act F) (h : History) : History :=
  match a with
  | .write_sdr ch value =>
      { h with written := Function.update h.written ch (h.written ch ++ [value]) }
  | .pop_due => { h with line := h.line ++ s.driven }
  | _ => h

/-- All runs of a new unit, from any clock frequency. -/
def runs (F : Type) : System (Sim F × History) (Act F) :=
  System.logged ⟨fun s => s.unit = new ∧ s.ctl = EventCtl.new, Sim.step⟩ ⟨[], fun _ => []⟩
    fun s a _ h => note s a h

def AnyAct (_ : Sim F × History) (_ : Act F) : Prop := True

instance (s : Sim F × History) (a : Act F) : Decidable (AnyAct s a) := .isTrue trivial

/-! ### The completion of a channel -/

/-- A live completion of the channel. -/
structure IsDone (q : EventQueue (SauEvent F)) (ch : Fin sau_channels)
    (b : Booking (SauEvent F)) : Prop where
  books : q.Books b
  event : b.event = .tx_done ch

/-- The channel is busy when it has a frame in its shift register and a
    recorded completion, and then that is its only live one. -/
structure Consistent (s : Sim F) (ch : Fin sau_channels) : Prop where
  busy : s.unit.busy ch = true ↔ s.unit.tx_shift ch ≠ none ∧ s.unit.tx_id ch ≠ none
  one : s.unit.busy ch = true → ∃ b, IsDone s.ctl.events ch b ∧ s.unit.tx_id ch = some b.id ∧
    ∀ b', IsDone s.ctl.events ch b' → b' = b
  none : s.unit.busy ch = false → ∀ b, ¬ IsDone s.ctl.events ch b

/-- The recorded ids are those of the live completions. -/
structure Ok (u : SauUnit) (ctl : EventCtl (SauEvent F)) : Prop where
  sound : ctl.events.Sound
  recorded {ch : Fin sau_channels} {b : Booking (SauEvent F)} : IsDone ctl.events ch b →
    u.tx_id ch = some b.id
  live {ch : Fin sau_channels} {id : Nat} : u.tx_id ch = some id →
    ∃ b, IsDone ctl.events ch b ∧ b.id = id
  shift (ch : Fin sau_channels) : (u.tx_shift ch).isSome = (u.tx_id ch).isSome
  busy (ch : Fin sau_channels) : u.busy ch = (u.tx_id ch).isSome

theorem IsDone.of_books {q q' : EventQueue (SauEvent F)} {ch : Fin sau_channels}
    {b : Booking (SauEvent F)} (h : IsDone q ch b) (hb : q'.Books b) : IsDone q' ch b :=
  ⟨hb, h.event⟩

theorem Ok.consistent {s : Sim F} (h : Ok s.unit s.ctl) (ch : Fin sau_channels) :
    Consistent s ch := by
  have hshift := h.shift ch
  have hbusy := h.busy ch
  refine ⟨?_, ?_, ?_⟩
  · rw [hbusy, ← Option.isSome_iff_ne_none, ← Option.isSome_iff_ne_none, hshift]
    simp
  · intro hon
    rw [hbusy] at hon
    obtain ⟨id, hid⟩ := Option.isSome_iff_exists.mp hon
    obtain ⟨b, hb, rfl⟩ := h.live hid
    refine ⟨b, hb, hid, ?_⟩
    intro b' hb'
    have hid' := h.recorded hb'
    rw [hid] at hid'
    exact hb'.books.eq_of_id h.sound hb.books (Option.some.inj hid').symm
  · intro hoff b hb
    rw [hbusy, h.recorded hb] at hoff
    cases hoff

/-- Completions of two channels have different ids. -/
theorem IsDone.eq_channel {q : EventQueue (SauEvent F)} (hq : q.Sound)
    {ch ch' : Fin sau_channels} {b b' : Booking (SauEvent F)} (hb : IsDone q ch b)
    (hb' : IsDone q ch' b') (hid : b.id = b'.id) : ch = ch' := by
  have hsame := hb.books.eq_of_id hq hb'.books hid
  have hevent := hb.event
  rw [hsame, hb'.event] at hevent
  simpa using hevent.symm

/-- Registers that the completions do not depend on. -/
theorem Ok.same {u u' : SauUnit} {ctl : EventCtl (SauEvent F)} (h : Ok u ctl)
    (hid : u'.tx_id = u.tx_id) (hshift : u'.tx_shift = u.tx_shift) (hbusy : u'.busy = u.busy) :
    Ok u' ctl := by
  refine ⟨h.sound, ?_, ?_, ?_, ?_⟩
  · intro ch b hb
    rw [hid]
    exact h.recorded hb
  · intro ch id hlive
    rw [hid] at hlive
    exact h.live hlive
  · intro ch
    rw [hshift, hid]
    exact h.shift ch
  · intro ch
    rw [hbusy, hid]
    exact h.busy ch

/-- Bookings of other devices come and go. -/
theorem Ok.events {u : SauUnit} {ctl ctl' : EventCtl (SauEvent F)} (h : Ok u ctl)
    (hsound : ctl'.events.Sound)
    (hsame : ∀ ch b, IsDone ctl'.events ch b ↔ IsDone ctl.events ch b) : Ok u ctl' := by
  refine ⟨hsound, fun hb => h.recorded ((hsame _ _).mp hb), ?_, h.shift, h.busy⟩
  intro ch id hlive
  obtain ⟨b, hb, hid⟩ := h.live hlive
  exact ⟨b, (hsame ch b).mpr hb, hid⟩

/-! ### Cancelling and starting -/

theorem cancel_spec {ctl : EventCtl (SauEvent F)} (hq : ctl.events.Sound) (u : SauUnit)
    (ch : Fin sau_channels) : (u.cancel_tx ctl ch).2.events.Sound ∧
      (u.cancel_tx ctl ch).2.now = ctl.now ∧
      ∀ b, (u.cancel_tx ctl ch).2.events.Books b ↔
        ctl.events.Books b ∧ u.tx_id ch ≠ some b.id := by
  unfold cancel_tx
  cases hid : u.tx_id ch with
  | none => simpa using hq
  | some id =>
    refine ⟨hq.cancel id, rfl, ?_⟩
    intro b
    simp only [EventCtl.cancel, EventQueue.books_cancel, ne_eq, Option.some.injEq]
    rw [eq_comm]

/-- Taking the completion of a channel out of the queue, and its record out of
    the unit. -/
theorem Ok.clear {u u' : SauUnit} {ctl ctl' : EventCtl (SauEvent F)} (h : Ok u ctl)
    {ch : Fin sau_channels} (hsound : ctl'.events.Sound)
    (hbooks : ∀ b, ctl'.events.Books b ↔ ctl.events.Books b ∧ u.tx_id ch ≠ some b.id)
    (hid : u'.tx_id = Function.update u.tx_id ch none)
    (hshift : u'.tx_shift = Function.update u.tx_shift ch none)
    (hbusy : u'.busy = Function.update u.busy ch false) : Ok u' ctl' := by
  -- What is gone is the booking recorded for `ch`, so the others are of other
  -- channels.
  have hother {c : Fin sau_channels} {b : Booking (SauEvent F)} (hb : IsDone ctl'.events c b) :
      IsDone ctl.events c b ∧ c ≠ ch := by
    obtain ⟨hold, hne⟩ := (hbooks b).mp hb.books
    refine ⟨hb.of_books hold, ?_⟩
    rintro rfl
    exact hne (h.recorded (hb.of_books hold))
  refine ⟨hsound, ?_, ?_, ?_, ?_⟩
  · intro c b hb
    obtain ⟨hold, hne⟩ := hother hb
    rw [hid, Function.update_of_ne hne]
    exact h.recorded hold
  · intro c id hlive
    rw [hid] at hlive
    by_cases hne : c = ch
    · subst hne
      simp at hlive
    · rw [Function.update_of_ne hne] at hlive
      obtain ⟨b, hb, rfl⟩ := h.live hlive
      refine ⟨b, hb.of_books ((hbooks b).mpr ⟨hb.books, ?_⟩), rfl⟩
      intro hsame
      obtain ⟨b', hb', hid'⟩ := h.live hsame
      exact hne (hb.eq_channel h.sound hb' hid'.symm)
  · intro c
    rw [hid, hshift]
    by_cases hne : c = ch
    · subst hne
      simp
    · rw [Function.update_of_ne hne, Function.update_of_ne hne]
      exact h.shift c
  · intro c
    rw [hid, hbusy]
    by_cases hne : c = ch
    · subst hne
      simp
    · rw [Function.update_of_ne hne, Function.update_of_ne hne]
      exact h.busy c

theorem Ok.cancel_tx {u : SauUnit} {ctl : EventCtl (SauEvent F)} (h : Ok u ctl)
    (ch : Fin sau_channels) : Ok (u.cancel_tx ctl ch).1 (u.cancel_tx ctl ch).2 := by
  obtain ⟨hsound, -, hbooks⟩ := cancel_spec h.sound u ch
  exact h.clear hsound hbooks rfl rfl rfl

/-- What `start_tx` does to a channel whose completions are in order. -/
theorem start_cases {u : SauUnit} {ctl : EventCtl (SauEvent F)} (h : Ok u ctl) (f_clk : Hertz)
    (ch : Fin sau_channels) :
    (u.start_tx f_clk ctl ch = (u, ctl) ∧ (u.can_start_tx ch = false ∨
      u.frame_time f_clk ch = none ∨ u.tx_frame f_clk ch = none)) ∨
    ∃ period frame, u.can_start_tx ch = true ∧ u.tx_id ch = none ∧
      u.frame_time f_clk ch = some period ∧ u.tx_frame f_clk ch = some frame ∧
      u.start_tx f_clk ctl ch =
        ({ u with
            tx_shift := Function.update u.tx_shift ch (some frame)
            bff := Function.update u.bff ch false
            busy := Function.update u.busy ch true
            tx_id := Function.update u.tx_id ch (some (ctl.events.next_id + 1)) },
          (ctl.schedule (saturating_add ctl.now period) (.tx_done ch)).1) := by
  unfold start_tx
  by_cases hcan : u.can_start_tx ch = true
  -- A channel that can start is idle and has no booking to cancel.
  · have hidle : u.tx_id ch = none := by
      have hbusy := h.busy ch
      simp only [can_start_tx, Bool.and_eq_true, Bool.not_eq_true'] at hcan
      rw [hcan.1.2] at hbusy
      simpa using hbusy.symm
    cases hperiod : u.frame_time f_clk ch with
    | none => simp [hcan]
    | some period =>
      cases hframe : u.tx_frame f_clk ch with
      | none => simp [hcan]
      | some frame =>
        right
        refine ⟨period, frame, hcan, hidle, rfl, rfl, ?_⟩
        simp [hcan, SauUnit.cancel_tx, hidle, EventCtl.schedule, EventQueue.schedule]
  · left
    simp [hcan]

/-- The new completion is the only one that a start adds. -/
theorem isDone_schedule {ctl : EventCtl (SauEvent F)} (hq : ctl.events.Sound) {at_ : Nat}
    {c ch : Fin sau_channels} {b : Booking (SauEvent F)} :
    IsDone (ctl.schedule at_ (.tx_done c)).1.events ch b ↔
      b = ⟨ctl.events.next_id + 1, at_, .tx_done c⟩ ∧ c = ch ∨ IsDone ctl.events ch b := by
  constructor
  · intro hb
    rcases (hq.books_schedule at_ (.tx_done c) b).mp hb.books with rfl | hold
    · left
      exact ⟨rfl, by simpa using hb.event⟩
    · exact .inr (hb.of_books hold)
  · rintro (⟨rfl, rfl⟩ | hold)
    · exact ⟨(hq.books_schedule at_ (.tx_done c) _).mpr (.inl rfl), rfl⟩
    · exact hold.of_books ((hq.books_schedule at_ (.tx_done c) b).mpr (.inr hold.books))

theorem Ok.start_tx {u : SauUnit} {ctl : EventCtl (SauEvent F)} (h : Ok u ctl) (f_clk : Hertz)
    (ch : Fin sau_channels) : Ok (u.start_tx f_clk ctl ch).1 (u.start_tx f_clk ctl ch).2 := by
  rcases start_cases h f_clk ch with ⟨hsame, -⟩ | ⟨period, frame, -, hidle, -, -, hstart⟩
  · rw [hsame]
    exact h
  · rw [hstart]
    refine ⟨h.sound.schedule _ _, ?_, ?_, ?_, ?_⟩
    · intro c b hb
      rcases (isDone_schedule h.sound).mp hb with ⟨rfl, rfl⟩ | hold
      · simp
      · have hid := h.recorded hold
        have hne : c ≠ ch := by
          rintro rfl
          rw [hidle] at hid
          cases hid
        simpa [Function.update_of_ne hne] using hid
    · intro c id hlive
      by_cases hne : c = ch
      · subst hne
        obtain rfl : ctl.events.next_id + 1 = id := by simpa using hlive
        exact ⟨_, (isDone_schedule h.sound).mpr (.inl ⟨rfl, rfl⟩), rfl⟩
      · have hold : u.tx_id c = some id := by simpa [Function.update_of_ne hne] using hlive
        obtain ⟨b, hb, rfl⟩ := h.live hold
        exact ⟨b, (isDone_schedule h.sound).mpr (.inr hb), rfl⟩
    · intro c
      by_cases hne : c = ch
      · subst hne
        simp
      · simpa [Function.update_of_ne hne] using h.shift c
    · intro c
      by_cases hne : c = ch
      · subst hne
        simp
      · simpa [Function.update_of_ne hne] using h.busy c

/-! ### One access -/

theorem for_channels_rule {op : EventCtl (SauEvent F) → SauUnit → Fin sau_channels →
    SauUnit × EventCtl (SauEvent F)} {P : SauUnit → EventCtl (SauEvent F) → Prop}
    {channels : List (Fin sau_channels)} {u : SauUnit} {ctl : EventCtl (SauEvent F)}
    (h : P u ctl)
    (hstep : ∀ ch ∈ channels, ∀ u ctl, P u ctl → P (op ctl u ch).1 (op ctl u ch).2) :
    P (for_channels op channels u ctl).1 (for_channels op channels u ctl).2 := by
  induction channels generalizing u ctl with
  | nil => exact h
  | cons ch rest ih =>
    refine ih ?_ fun c hc => hstep c (List.mem_cons_of_mem _ hc)
    exact hstep ch List.mem_cons_self u ctl h

/-- A control write stops channels, or changes registers that the completions
    do not depend on. -/
theorem write_ctrl_cases (ctl : EventCtl (SauEvent F)) (u : SauUnit) (offset : Nat)
    (value : BitVec 16) :
    (offset = 0x24 ∧ u.write_ctrl ctl offset value = for_channels stop_channel
      ((List.finRange sau_channels).filter fun ch => value.getLsbD ch.val) u ctl) ∨
    ∃ u', u.write_ctrl ctl offset value = (u', ctl) ∧ u'.tx_id = u.tx_id ∧
      u'.tx_shift = u.tx_shift ∧ u'.busy = u.busy ∧ u'.bff = u.bff ∧ u'.sdr = u.sdr := by
  unfold write_ctrl
  split
  case h_14 => exact .inl ⟨rfl, rfl⟩
  all_goals exact .inr ⟨_, rfl, rfl, rfl, rfl, rfl, rfl⟩

theorem Ok.write_ctrl {u : SauUnit} {ctl : EventCtl (SauEvent F)} (h : Ok u ctl) (offset : Nat)
    (value : BitVec 16) :
    Ok (u.write_ctrl ctl offset value).1 (u.write_ctrl ctl offset value).2 := by
  rcases write_ctrl_cases ctl u offset value with ⟨-, hwrite⟩ | ⟨u', hwrite, hid, hshift, hbusy, -⟩
  · rw [hwrite]
    refine for_channels_rule h ?_
    intro ch _ u ctl h
    have hstopped : Ok { u with se := u.se &&& ~~~(1#16 <<< ch.val) } ctl := h.same rfl rfl rfl
    exact hstopped.cancel_tx ch
  · rw [hwrite]
    exact h.same hid hshift hbusy

theorem cancelled_all {u : SauUnit} {ctl : EventCtl (SauEvent F)} {ch : Fin sau_channels}
    {channels : List (Fin sau_channels)} (hmem : ch ∈ channels) :
    (for_channels cancel_tx channels u ctl).1.tx_id ch = none := by
  induction channels generalizing u ctl with
  | nil => cases hmem
  | cons c rest ih =>
    by_cases hrest : ch ∈ rest
    · exact ih hrest
    · obtain rfl : ch = c := by simpa [hrest] using hmem
      -- No later round records a completion.
      show (for_channels SauUnit.cancel_tx rest (u.cancel_tx ctl ch).1
        (u.cancel_tx ctl ch).2).1.tx_id ch = none
      refine for_channels_rule (P := fun u _ => u.tx_id ch = none) ?_ ?_
      · simp [SauUnit.cancel_tx]
      · intro c' _ u ctl hnone
        simp [SauUnit.cancel_tx, Function.update_apply, hnone]

theorem Ok.reset {u : SauUnit} {ctl : EventCtl (SauEvent F)} (h : Ok u ctl) :
    Ok (u.reset ctl).1 (u.reset ctl).2 := by
  have hcancel : Ok (for_channels SauUnit.cancel_tx (List.finRange sau_channels) u ctl).1
      (for_channels SauUnit.cancel_tx (List.finRange sau_channels) u ctl).2 :=
    for_channels_rule h fun ch _ _ _ h => h.cancel_tx ch
  refine ⟨hcancel.sound, hcancel.recorded, hcancel.live, ?_, hcancel.busy⟩
  intro ch
  have hnone : (u.reset ctl).1.tx_id ch = none := cancelled_all (List.mem_finRange ch)
  rw [hnone]
  rfl

theorem Ok.receive {u : SauUnit} {ctl : EventCtl (SauEvent F)} (h : Ok u ctl) (f_clk : Hertz)
    (channel : Nat) (frame : UartFrame) : Ok (u.receive f_clk channel frame) ctl := by
  unfold SauUnit.receive
  split
  · dsimp only
    split
    · exact h
    · exact h.same rfl rfl rfl
  · exact h

theorem Ok.read_sdr {u : SauUnit} {ctl : EventCtl (SauEvent F)} (h : Ok u ctl)
    (ch : Fin sau_channels) : Ok (u.read_sdr ch).1 ctl := by
  unfold SauUnit.read_sdr
  split
  · exact h
  · exact h.same rfl rfl rfl

/-! ### One completion -/

/-- What a pop does: it fires a live completion, or it leaves the unit
    alone. -/
theorem pop_cases {s : Sim F} (h : Ok s.unit s.ctl) :
    (s.due = none ∧ s.pop_due = { s with ctl := s.ctl.pop_due.1 } ∧ s.driven = [] ∧
      s.ctl.pop_due.1.events.Sound ∧ ∀ ch b,
        IsDone s.ctl.pop_due.1.events ch b ↔ IsDone s.ctl.events ch b) ∨
    ∃ ch b frame, s.due = some ch ∧ IsDone s.ctl.events ch b ∧ b.at_ ≤ s.ctl.now ∧
      s.unit.tx_shift ch = some frame ∧ s.driven = [⟨ch, s.ctl.now, frame⟩] ∧
      Ok (s.unit.complete ch) s.ctl.pop_due.1 ∧
      (∀ b', s.ctl.pop_due.1.events.Books b' ↔ s.ctl.events.Books b' ∧ b'.id ≠ b.id) ∧
      s.pop_due = s.next ((s.unit.complete ch).start_tx s.f_clk s.ctl.pop_due.1 ch) := by
  have hserved := h.sound.served s.ctl.now
  unfold Sim.driven Sim.pop_due Sim.due EventCtl.pop_due
  cases hpop : s.ctl.events.pop_due s.ctl.now with
  | mk q popped =>
    rw [hpop] at hserved
    cases hserved with
    | nothing _ hlater hsound hnext hbooks =>
      left
      refine ⟨rfl, rfl, rfl, hsound, ?_⟩
      intro ch b
      exact ⟨fun hb => hb.of_books ((hbooks b).mp hb.books),
        fun hb => hb.of_books ((hbooks b).mpr hb.books)⟩
    | event _ b hb hdue hfront hsound hnext hbooks =>
      cases hevent : b.event with
      | tx_done ch =>
        right
        have hdone : IsDone s.ctl.events ch b := ⟨hb, hevent⟩
        have hid := h.recorded hdone
        have hshift := h.shift ch
        rw [hid] at hshift
        -- A booking that is recorded comes with the frame in the shift register.
        obtain ⟨frame, hframe⟩ := Option.isSome_iff_exists.mp hshift
        refine ⟨ch, b, frame, rfl, hdone, hdue, hframe, ?_, ?_, hbooks, rfl⟩
        · simp only [fire, hframe]
          rfl
        · refine h.clear hsound ?_ rfl rfl rfl
          intro b'
          rw [hid]
          simp only [ne_eq, Option.some.injEq]
          rw [eq_comm (a := b.id)]
          exact hbooks b'
      | other event =>
        left
        refine ⟨rfl, rfl, rfl, hsound, ?_⟩
        intro ch b'
        constructor
        · intro hb'
          exact hb'.of_books ((hbooks b').mp hb'.books).1
        · intro hb'
          refine hb'.of_books ((hbooks b').mpr ⟨hb'.books, ?_⟩)
          intro hid
          -- The event of another device is no end of a frame.
          have hsame := hb'.books.eq_of_id h.sound hb hid
          have hdone := hb'.event
          rw [hsame, hevent] at hdone
          cases hdone

theorem Ok.pop_due {s : Sim F} (h : Ok s.unit s.ctl) : Ok s.pop_due.unit s.pop_due.ctl := by
  rcases pop_cases h with
    ⟨-, hpop, -, hsound, hsame⟩ | ⟨ch, b, frame, -, -, -, -, -, hcomplete, -, hpop⟩
  · rw [hpop]
    exact h.events hsound hsame
  · rw [hpop]
    exact hcomplete.start_tx s.f_clk ch

theorem cancel_other_cases {s s' : Sim F} {id : Nat} (h : s.cancel_other id = some s') :
    s' = { s with ctl := s.ctl.cancel id } ∧
      ∀ ch b, IsDone (s.ctl.cancel id).events ch b ↔ IsDone s.ctl.events ch b := by
  have hbooks (b : Booking (SauEvent F)) := EventQueue.books_cancel s.ctl.events id b
  unfold Sim.cancel_other at h
  split at h
  · cases h
  · rename_i hother
    refine ⟨(Option.some.inj h).symm, ?_⟩
    intro ch b
    constructor
    · intro hb
      exact hb.of_books ((hbooks b).mp hb.books).1
    · intro hb
      refine hb.of_books ((hbooks b).mpr ⟨hb.books, ?_⟩)
      rintro rfl
      have hlookup : s.ctl.events.events.lookup b.id = some b.event := hb.books.2
      rw [hb.event] at hlookup
      exact hother ch hlookup

/-- The events of other devices are no completions. -/
theorem isDone_schedule_other {ctl : EventCtl (SauEvent F)} (hq : ctl.events.Sound) (at_ : Nat)
    (event : F) (ch : Fin sau_channels) (b : Booking (SauEvent F)) :
    IsDone (ctl.schedule at_ (.other event)).1.events ch b ↔ IsDone ctl.events ch b := by
  have hbooks := hq.books_schedule at_ (.other event) b
  constructor
  · intro hb
    rcases hbooks.mp hb.books with rfl | hold
    · cases hb.event
    · exact hb.of_books hold
  · intro hb
    exact hb.of_books (hbooks.mpr (.inr hb.books))

theorem Ok.step {s s' : Sim F} (h : Ok s.unit s.ctl) {a : Act F} (hstep : s.step a = some s') :
    Ok s'.unit s'.ctl := by
  cases a with
  | write_sdr channel value =>
    obtain rfl := Option.some.inj hstep
    refine Ok.start_tx ?_ s.f_clk channel
    exact h.same rfl rfl rfl
  | read_sdr channel =>
    obtain rfl := Option.some.inj hstep
    exact h.read_sdr channel
  | write_ctrl offset value =>
    obtain rfl := Option.some.inj hstep
    exact h.write_ctrl offset value
  | receive channel frame =>
    obtain rfl := Option.some.inj hstep
    exact h.receive s.f_clk channel frame
  | reset =>
    obtain rfl := Option.some.inj hstep
    exact h.reset
  | set_f_clk f_clk =>
    obtain rfl := Option.some.inj hstep
    exact h
  | advance delta =>
    obtain rfl := Option.some.inj hstep
    exact h.events h.sound fun _ _ => Iff.rfl
  | pop_due =>
    obtain rfl := Option.some.inj hstep
    exact h.pop_due
  | schedule_other at_ event =>
    obtain rfl := Option.some.inj hstep
    exact h.events (h.sound.schedule _ _) (isDone_schedule_other h.sound at_ event)
  | cancel_other id =>
    obtain ⟨rfl, hsame⟩ := cancel_other_cases hstep
    exact h.events (h.sound.cancel id) hsame

theorem ok_new : Ok new (EventCtl.new : EventCtl (SauEvent F)) := by
  refine ⟨EventQueue.sound_new, ?_, nofun, fun _ => rfl, fun _ => rfl⟩
  intro ch b hb
  exact absurd hb.books (EventQueue.not_books_new _)

theorem ok_of_reachable {s : Sim F × History} (h : Reachable (runs F) AnyAct s) :
    Ok s.1.unit s.1.ctl := by
  induction h with
  | init hi =>
    obtain ⟨⟨hunit, hctl⟩, -⟩ := hi
    rw [hunit, hctl]
    exact ok_new
  | step a _ _ hstep ih => exact ih.step (System.logged_step_cases hstep).1

end SauUnit

end Rl78Sim
