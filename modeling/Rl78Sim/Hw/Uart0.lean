import Rl78Sim.Framework.Transducer
import Rl78Sim.Hw.Sau

/-! # The Transmit Line of UART 0

    All channels of the unit drive one line, which the board calls `uart0_tx`.
    The transmitter of UART 0, channel 0, is not disturbed by the others: its
    frames depend on the accesses that concern it. What the line shows besides
    them are the frames of the other channels.
-/

namespace Rl78Sim

open Transition Bits

/-! ### The transmitter alone -/

/-- A transmitter: the registers of one channel, with the time and the clock
    frequency. -/
structure Uart where
  sdr : BitVec 16
  smr : BitVec 16
  scr : BitVec 16
  baud_div : BitVec 16
  ck_divisor : Fin 2 → BitVec 8
  se : Bool
  soe : Bool
  inverted : Bool
  busy : Bool
  bff : Bool
  tx_shift : Option UartFrame
  f_clk : Hertz
  clock : VirtualClock

namespace Uart

/-- An access that concerns the transmitter. -/
inductive Input where
  | write_sdr (value : BitVec 16)
  | read_sdr
  | write_smr (value : BitVec 16)
  | write_scr (value : BitVec 16)
  | enable
  | disable
  | prescale (value : BitVec 16)
  | output (on : Bool)
  | invert (on : Bool)
  | receive (frame : UartFrame)
  | reset
  | set_f_clk (f_clk : Hertz)
  | advance (delta : Nat)
  | done
  deriving DecidableEq

def bit_cycles (v : Uart) : Nat :=
  let prs := (v.ck_divisor (if v.smr.getLsbD SauUnit.smr_cks then 1 else 0) &&& 0x0F#8).toNat
  saturating_mul (saturating_mul (1 <<< prs) (v.baud_div.toNat + 1)) 2

def frame_time (v : Uart) : Option Nat :=
  (v.f_clk.cycles_to_tick (saturating_mul v.bit_cycles (SauUnit.bit_count v.scr))).filter
    fun t => t != 0

def tx_frame (v : Uart) : Option UartFrame :=
  ((v.f_clk.cycles_to_tick v.bit_cycles).filter fun t => t != 0).map fun bit_time =>
    { data := v.sdr &&& SauUnit.data_mask v.scr
      data_bits := SauUnit.data_bits v.scr
      bit_time := bit_time
      stop_bits := SauUnit.stop_bits v.scr
      parity := SauUnit.parity v.scr
      inverted := v.inverted }

/-- Take the buffer over when the shift register is free. -/
def start (v : Uart) : Uart :=
  if v.se && v.soe && v.scr.getLsbD SauUnit.scr_txe && !v.busy && v.bff then
    match v.frame_time, v.tx_frame with
    | some _, some frame => { v with tx_shift := some frame, bff := false, busy := true }
    | _, _ => v
  else v

/-- What the transmitter does on an access, and the frames that it drives. -/
def react (v : Uart) : Input → Uart × List (Nat × UartFrame)
  | .write_sdr value =>
      ({ v with
          baud_div := if v.se then v.baud_div else value >>> 9
          sdr := value &&& 0x1FF#16
          bff := if v.se then true else v.bff }.start, [])
  | .read_sdr => (if v.se then { v with bff := false } else v, [])
  | .write_smr value => ({ v with smr := value }, [])
  | .write_scr value => ({ v with scr := value }, [])
  | .enable => ({ v with se := true }, [])
  | .disable => ({ v with se := false, busy := false, tx_shift := none }, [])
  | .prescale value =>
      ({ v with ck_divisor := fun i =>
          if i = 0 then (value &&& 0x0F#16).setWidth 8
          else ((value >>> 4) &&& 0x0F#16).setWidth 8 }, [])
  | .output on => ({ v with soe := on }, [])
  | .invert on => ({ v with inverted := on }, [])
  | .receive frame =>
      (if v.se && v.scr.getLsbD SauUnit.scr_rxe then
        { v with sdr := frame.data &&& low_mask 16 (SauUnit.data_bits v.scr), bff := true }
      else v, [])
  | .reset =>
      ({ v with
          sdr := 0
          smr := 0x0020
          scr := 0x0004
          baud_div := 0
          ck_divisor := fun _ => 0
          se := false
          soe := false
          inverted := false
          busy := false
          bff := false
          tx_shift := none }, [])
  | .set_f_clk f_clk => ({ v with f_clk := f_clk }, [])
  | .advance delta => ({ v with clock := v.clock.advance delta }, [])
  | .done =>
      ({ v with busy := false, tx_shift := none }.start,
        v.tx_shift.toList.map fun frame => (v.clock.now, frame))

/-- The transmitter of a new unit. -/
def new (f_clk : Hertz) : Uart where
  sdr := 0
  smr := 0
  scr := 0
  baud_div := 0
  ck_divisor _ := 0
  se := false
  soe := false
  inverted := false
  busy := false
  bff := false
  tx_shift := none
  f_clk := f_clk
  clock := .new

/-- UART 0's transmitter, alone. -/
def alone (f_clk : Hertz) : Transducer Uart Input (Nat × UartFrame) := ⟨new f_clk, react⟩

end Uart

namespace SauUnit

variable {F : Type}

/-! ### The transmitter in the unit -/

/-- What channel 0 sees of the unit. -/
def view (s : Sim F) : Uart where
  sdr := s.unit.sdr 0
  smr := s.unit.smr 0
  scr := s.unit.scr 0
  baud_div := s.unit.baud_div 0
  ck_divisor := s.unit.ck_divisor
  se := s.unit.se.getLsbD 0
  soe := s.unit.soe.getLsbD 0
  inverted := s.unit.tx_inverted 0
  busy := s.unit.busy 0
  bff := s.unit.bff 0
  tx_shift := s.unit.tx_shift 0
  f_clk := s.f_clk
  clock := s.ctl.clock

/-- What a control write is to channel 0. -/
def ctrl_input (offset : Nat) (value : BitVec 16) : Option Uart.Input :=
  match offset with
  | 0x10 => some (.write_smr value)
  | 0x18 => some (.write_scr value)
  | 0x22 => if value.getLsbD 0 then some .enable else none
  | 0x24 => if value.getLsbD 0 then some .disable else none
  | 0x26 => some (.prescale value)
  | 0x2A => some (.output (value.getLsbD 0))
  | 0x34 => some (.invert (value.getLsbD 0))
  | _ => none

/-- The accesses that concern channel 0: those to its own registers, to its
    bits in the shared ones, and to the clocks, and its completions. -/
def input (s : Sim F) : Act F → Option Uart.Input
  | .write_sdr c value => if c = 0 then some (.write_sdr value) else none
  | .read_sdr c => if c = 0 then some .read_sdr else none
  | .write_ctrl offset value => ctrl_input offset value
  | .receive c frame => if c = 0 then some (.receive frame) else none
  | .reset => some .reset
  | .set_f_clk f_clk => some (.set_f_clk f_clk)
  | .advance delta => some (.advance delta)
  | .pop_due => if s.due = some 0 then some .done else none
  | .schedule_other _ _ | .cancel_other _ => none

/-- What a step drives on the line. -/
def driven (s : Sim F) : Act F → List Sent
  | .pop_due => s.driven
  | _ => []

/-- What the board's port receives: the time and the frame. -/
def line (s : Sim F) (a : Act F) : List (Nat × UartFrame) :=
  (driven s a).map fun r => (r.now, r.frame)

/-- New units at a clock frequency. -/
def units (F : Type) (f_clk : Hertz) : System (Sim F) (Act F) :=
  ⟨fun s => s.unit = new ∧ s.ctl = EventCtl.new ∧ s.f_clk = f_clk, Sim.step⟩

/-- Their runs. The history is what concerns channel 0, and the frames on the
    line. -/
def line_runs (F : Type) (f_clk : Hertz) :
    System (Sim F × (List Uart.Input × List (Nat × UartFrame))) (Act F) :=
  (units F f_clk).logged ([], []) (transcribe input line)

/-- The completion served next is not one of channels 1 to 3. -/
def OnlyChannel0 (s : Sim F) (a : Act F) : Prop :=
  a = .pop_due → ∀ ch, s.due = some ch → ch = 0

def AnyStep (_ : Sim F) (_ : Act F) : Prop := True

/-! ### Starts -/

theorem cancel_now (ctl : EventCtl (SauEvent F)) (u : SauUnit) (c : Fin sau_channels) :
    (u.cancel_tx ctl c).2.clock = ctl.clock := by
  unfold cancel_tx
  cases u.tx_id c <;> rfl

theorem view_start (u : SauUnit) (ctl : EventCtl (SauEvent F)) (f_clk : Hertz) :
    view (⟨(u.start_tx f_clk ctl 0).1, (u.start_tx f_clk ctl 0).2, f_clk⟩ : Sim F) =
      (view (⟨u, ctl, f_clk⟩ : Sim F)).start := by
  have hcan : u.can_start_tx 0 = ((view (⟨u, ctl, f_clk⟩ : Sim F)).se &&
      (view (⟨u, ctl, f_clk⟩ : Sim F)).soe &&
      (view (⟨u, ctl, f_clk⟩ : Sim F)).scr.getLsbD scr_txe &&
      !(view (⟨u, ctl, f_clk⟩ : Sim F)).busy && (view (⟨u, ctl, f_clk⟩ : Sim F)).bff) := rfl
  have hperiod : u.frame_time f_clk 0 = (view (⟨u, ctl, f_clk⟩ : Sim F)).frame_time := rfl
  have hframe : u.tx_frame f_clk 0 = (view (⟨u, ctl, f_clk⟩ : Sim F)).tx_frame := rfl
  unfold start_tx Uart.start
  rw [← hcan, ← hperiod, ← hframe]
  by_cases hstart : u.can_start_tx 0 = true
  · rw [if_pos hstart, hstart]
    cases u.frame_time f_clk 0 with
    | none => rfl
    | some period =>
      cases u.tx_frame f_clk 0 with
      | none => rfl
      | some frame =>
        simp [view, cancel_tx, EventCtl.schedule, tx_inverted]
        exact cancel_now ctl u 0
  · rw [if_neg hstart]
    simp [hstart]

/-- A start of another channel is not seen. -/
theorem view_start_ne {c : Fin sau_channels} (hne : 0 ≠ c) (u : SauUnit)
    (ctl : EventCtl (SauEvent F)) (f_clk : Hertz) :
    view (⟨(u.start_tx f_clk ctl c).1, (u.start_tx f_clk ctl c).2, f_clk⟩ : Sim F) =
      view (⟨u, ctl, f_clk⟩ : Sim F) := by
  unfold start_tx
  split
  · rfl
  · cases u.frame_time f_clk c with
    | none => rfl
    | some period =>
      cases u.tx_frame f_clk c with
      | none => rfl
      | some frame =>
        simp [view, cancel_tx, EventCtl.schedule, tx_inverted, Function.update_of_ne hne]
        exact cancel_now ctl u c

/-! ### Control writes -/

/-- A stop of channel `c`, as channel 0 sees it. -/
theorem view_stop (ctl : EventCtl (SauEvent F)) (u : SauUnit) (f_clk : Hertz)
    (c : Fin sau_channels) :
    view (⟨(u.stop_channel ctl c).1, (u.stop_channel ctl c).2, f_clk⟩ : Sim F) =
      if c = 0 then ((view (⟨u, ctl, f_clk⟩ : Sim F)).react .disable).1
      else view (⟨u, ctl, f_clk⟩ : Sim F) := by
  have hclock := cancel_now ctl { u with se := u.se &&& ~~~(1#16 <<< c.val) } c
  have hse : (u.se &&& ~~~(1#16 <<< c.val)).getLsbD 0 = (u.se.getLsbD 0 && decide (0 ≠ c.val)) := by
    rw [BitVec.getLsbD_and, BitVec.getLsbD_not, getLsbD_one_shiftLeft (by decide)]
    simp
  by_cases hc : c = 0
  · subst hc
    rw [if_pos rfl]
    unfold view stop_channel
    dsimp only
    rw [hclock]
    simp [cancel_tx, Uart.react, tx_inverted]
  · have hne : (0 : Fin sau_channels) ≠ c := Ne.symm hc
    have hval : 0 ≠ c.val := fun h => hne (Fin.ext h)
    rw [if_neg hc]
    unfold view stop_channel
    dsimp only
    rw [hclock]
    simp only [cancel_tx, hse, hval, ne_eq, not_false_eq_true, decide_true, Bool.and_true,
      Function.update_of_ne hne, tx_inverted]

theorem view_stops (channels : List (Fin sau_channels)) (u : SauUnit)
    (ctl : EventCtl (SauEvent F)) (f_clk : Hertz) :
    view (⟨(for_channels stop_channel channels u ctl).1,
        (for_channels stop_channel channels u ctl).2, f_clk⟩ : Sim F) =
      if 0 ∈ channels then ((view (⟨u, ctl, f_clk⟩ : Sim F)).react .disable).1
      else view (⟨u, ctl, f_clk⟩ : Sim F) := by
  induction channels generalizing u ctl with
  | nil => rfl
  | cons c rest ih =>
    have hrest := ih (u.stop_channel ctl c).1 (u.stop_channel ctl c).2
    rw [view_stop ctl u f_clk c] at hrest
    refine Eq.trans hrest ?_
    by_cases hc : c = 0
    · subst hc
      simp [Uart.react]
    · have hne : (0 : Fin sau_channels) ≠ c := Ne.symm hc
      simp [hc, hne]

/-- A control write is what it is to channel 0, and nothing more. -/
theorem view_write_ctrl (s : Sim F) (offset : Nat) (value : BitVec 16) :
    view (s.next (s.unit.write_ctrl s.ctl offset value)) =
      match ctrl_input offset value with
      | some i => ((view s).react i).1
      | none => view s := by
  have hlow : (value &&& 0x000F#16).getLsbD 0 = value.getLsbD 0 := by
    rw [BitVec.getLsbD_and]
    simp
  have hsol : (value &&& 0x0005#16).getLsbD 0 = value.getLsbD 0 := by
    rw [BitVec.getLsbD_and]
    simp
  unfold write_ctrl
  split
  case h_13 =>
    have hse : (s.unit.se ||| (value &&& 0x000F#16)).getLsbD 0 =
        (s.unit.se.getLsbD 0 || value.getLsbD 0) := by
      rw [BitVec.getLsbD_or, hlow]
    unfold ctrl_input view
    dsimp only [Sim.next]
    rw [hse]
    cases value.getLsbD 0 with
    | true => simp [Uart.react, tx_inverted]
    | false => simp [tx_inverted]
  -- `ST` stops the channels one after the other; the view sees the first only.
  case h_14 =>
    refine Eq.trans (view_stops _ s.unit s.ctl s.f_clk) ?_
    have hmem : (0 : Fin sau_channels) ∈
        (List.finRange sau_channels).filter (fun ch => value.getLsbD ch.val) ↔
          value.getLsbD 0 = true := by
      simp
    have hctrl : ctrl_input 0x24 value = if value.getLsbD 0 then some .disable else none := rfl
    rw [hctrl]
    by_cases hbit : value.getLsbD 0 = true
    · rw [if_pos (hmem.mpr hbit), if_pos hbit]
    · rw [if_neg (mt hmem.mp hbit), if_neg hbit]
  case h_17 =>
    unfold ctrl_input view
    dsimp only [Sim.next]
    rw [hlow]
    rfl
  case h_18 =>
    have hinverted : tx_inverted { s.unit with sol := value &&& 0x0005#16 } 0 =
        value.getLsbD 0 := hsol
    unfold ctrl_input view
    dsimp only [Sim.next]
    rw [hinverted]
    rfl
  case h_19 =>
    have hnone : ctrl_input offset value = none := by
      unfold ctrl_input
      split <;> simp_all
    rw [hnone]
    rfl
  all_goals rfl

/-- No control write drives a frame. -/
theorem ctrl_drives_nothing {offset : Nat} {value : BitVec 16} {i : Uart.Input}
    (h : ctrl_input offset value = some i) (v : Uart) : (v.react i).2 = [] := by
  unfold ctrl_input at h
  split at h
  case h_8 => cases h
  case h_3 | h_4 =>
    split at h
    · obtain rfl := Option.some.inj h
      rfl
    · cases h
  all_goals
    obtain rfl := Option.some.inj h
    rfl

/-! ### Other accesses -/

/-- Loading the data register of channel 0. -/
theorem view_load (s : Sim F) (value : BitVec 16) :
    view (⟨s.unit.load_sdr 0 value, s.ctl, s.f_clk⟩ : Sim F) = { view s with
      baud_div := if (view s).se then (view s).baud_div else value >>> 9
      sdr := value &&& 0x1FF#16
      bff := if (view s).se then true else (view s).bff } := by
  have hval : (0 : Fin sau_channels).val = 0 := rfl
  unfold view load_sdr tx_inverted
  dsimp only
  rw [hval, Function.update_self]
  by_cases hse : s.unit.se.getLsbD 0 = true
  · rw [if_pos hse, if_pos hse, if_pos hse, if_pos hse, Function.update_self]
  · rw [if_neg hse, if_neg hse, if_neg hse, if_neg hse, Function.update_self]

theorem view_write_sdr (s : Sim F) (c : Fin sau_channels) (value : BitVec 16) :
    view (s.next (s.unit.write_sdr s.f_clk s.ctl c value)) =
      if c = 0 then ((view s).react (.write_sdr value)).1 else view s := by
  by_cases hc : c = 0
  · subst hc
    rw [if_pos rfl]
    refine Eq.trans (view_start (s.unit.load_sdr 0 value) s.ctl s.f_clk) ?_
    rw [view_load]
    rfl
  · have hne : (0 : Fin sau_channels) ≠ c := Ne.symm hc
    rw [if_neg hc]
    refine Eq.trans (view_start_ne hne (s.unit.load_sdr c value) s.ctl s.f_clk) ?_
    unfold view load_sdr tx_inverted
    dsimp only
    by_cases hse : s.unit.se.getLsbD c.val = true
    · rw [if_pos hse, if_pos hse, Function.update_of_ne hne, Function.update_of_ne hne]
    · rw [if_neg hse, if_neg hse, Function.update_of_ne hne, Function.update_of_ne hne]

theorem view_read_sdr (s : Sim F) (c : Fin sau_channels) :
    view ({ s with unit := (s.unit.read_sdr c).1 } : Sim F) =
      if c = 0 then ((view s).react .read_sdr).1 else view s := by
  have hread : (s.unit.read_sdr c).1 = if s.unit.se.getLsbD c.val = true then
      { s.unit with bff := Function.update s.unit.bff c false } else s.unit := by
    unfold read_sdr
    cases s.unit.se.getLsbD c.val <;> rfl
  rw [hread]
  by_cases hc : c = 0
  · subst hc
    rw [if_pos rfl]
    by_cases hse : s.unit.se.getLsbD (0 : Fin sau_channels).val = true
    · have hreact : ((view s).react .read_sdr).1 = { view s with bff := false } :=
        if_pos (c := (view s).se = true) hse
      rw [if_pos hse, hreact]
      simp [view, tx_inverted]
    · have hreact : ((view s).react .read_sdr).1 = view s := if_neg (c := (view s).se = true) hse
      rw [if_neg hse, hreact]
  · have hne : (0 : Fin sau_channels) ≠ c := Ne.symm hc
    rw [if_neg hc]
    split
    · simp [view, tx_inverted, Function.update_of_ne hne]
    · rfl

theorem view_receive (s : Sim F) (c : Nat) (frame : UartFrame) :
    view ({ s with unit := s.unit.receive s.f_clk c frame } : Sim F) =
      if c = 0 then ((view s).react (.receive frame)).1 else view s := by
  by_cases hc : c = 0
  · subst hc
    have hlt : 0 < sau_channels := by decide
    rw [if_pos rfl]
    unfold receive
    rw [dif_pos hlt]
    by_cases hcan : s.unit.can_rx ⟨0, hlt⟩ = true
    · have hreact : ((view s).react (.receive frame)).1 = { view s with
          sdr := frame.data &&& low_mask 16 (data_bits (view s).scr)
          bff := true } :=
        if_pos (c := ((view s).se && (view s).scr.getLsbD scr_rxe) = true) hcan
      rw [hreact]
      simp only [hcan, Bool.not_true, Bool.false_eq_true, if_false]
      simp [view, tx_inverted, local_rx_frame]
    · have hreact : ((view s).react (.receive frame)).1 = view s :=
        if_neg (c := ((view s).se && (view s).scr.getLsbD scr_rxe) = true) hcan
      have hoff : (!s.unit.can_rx ⟨0, hlt⟩) = true := by simpa using hcan
      rw [hreact]
      dsimp only
      rw [if_pos hoff]
  -- A frame of another channel is not seen.
  · rw [if_neg hc]
    unfold receive
    split
    · rename_i hlt
      have hne : (0 : Fin sau_channels) ≠ ⟨c, hlt⟩ := by
        intro heq
        exact hc (congrArg Fin.val heq).symm
      dsimp only
      split
      · rfl
      · simp [view, tx_inverted, Function.update_of_ne hne]
    · rfl

/-- The clock and the busy flag after all channels are cancelled. -/
theorem cancel_all (channels : List (Fin sau_channels)) (u : SauUnit)
    (ctl : EventCtl (SauEvent F)) :
    (for_channels cancel_tx channels u ctl).2.clock = ctl.clock ∧
      (0 ∈ channels → (for_channels cancel_tx channels u ctl).1.busy 0 = false) := by
  induction channels generalizing u ctl with
  | nil => exact ⟨rfl, nofun⟩
  | cons c rest ih =>
    obtain ⟨hclock, hbusy⟩ := ih (u.cancel_tx ctl c).1 (u.cancel_tx ctl c).2
    refine ⟨hclock.trans (cancel_now ctl u c), ?_⟩
    intro hmem
    by_cases hrest : 0 ∈ rest
    · exact hbusy hrest
    · obtain rfl : 0 = c := by simpa [hrest] using hmem
      -- No later round starts anything.
      show (for_channels cancel_tx rest (u.cancel_tx ctl 0).1 (u.cancel_tx ctl 0).2).1.busy 0 =
        false
      refine for_channels_rule (P := fun u _ => u.busy 0 = false) ?_ ?_
      · simp [cancel_tx]
      · intro c' _ u ctl hidle
        simp [cancel_tx, Function.update_apply, hidle]

theorem view_reset (s : Sim F) :
    view (s.next (s.unit.reset s.ctl)) = ((view s).react .reset).1 := by
  obtain ⟨hclock, hbusy⟩ := cancel_all (List.finRange sau_channels) s.unit s.ctl
  unfold view reset Uart.react
  dsimp only [Sim.next]
  rw [hclock, hbusy (List.mem_finRange 0)]
  simp [tx_inverted]

theorem view_pop (s : Sim F) (honly : ∀ ch, s.due = some ch → ch = 0) :
    (s.due = none ∧ view s.pop_due = view s ∧ s.driven = []) ∨
    (s.due = some 0 ∧ view s.pop_due = ((view s).react .done).1 ∧
      s.driven.map (fun r => (r.now, r.frame)) = ((view s).react .done).2) := by
  cases hdue : s.due with
  | none =>
    left
    unfold Sim.pop_due Sim.driven
    rw [hdue]
    exact ⟨rfl, rfl, rfl⟩
  | some ch =>
    right
    obtain rfl := honly ch hdue
    -- The end frees the channel, and it starts again with what is waiting.
    have hcomplete : view (⟨s.unit.complete 0, s.ctl.pop_due.1, s.f_clk⟩ : Sim F) =
        { view s with busy := false, tx_shift := none } := by
      simp [view, complete, tx_inverted, EventCtl.pop_due]
    refine ⟨rfl, ?_, ?_⟩
    · have hpop : s.pop_due =
          s.next ((s.unit.complete 0).start_tx s.f_clk s.ctl.pop_due.1 0) := by
        unfold Sim.pop_due
        rw [hdue]
        rfl
      rw [hpop]
      refine Eq.trans (view_start (s.unit.complete 0) s.ctl.pop_due.1 s.f_clk) ?_
      rw [hcomplete]
      rfl
    · unfold Sim.driven
      rw [hdue]
      simp [fire, Uart.react, view, EventCtl.now]

/-- Without completions of other channels, the unit drives what the
    transmitter alone would. -/
theorem transduces (F : Type) (f_clk : Hertz) :
    Transduces (units F f_clk) OnlyChannel0 (Uart.alone f_clk) view input line where
  init s hi := by
    obtain ⟨hunit, hctl, hclk⟩ := hi
    unfold view
    rw [hunit, hctl, hclk]
    rfl
  silent s s' a _ hok hstep hnone := by
    replace hstep : s.step a = some s' := hstep
    cases a with
    | write_sdr c value =>
      obtain rfl := Option.some.inj hstep
      have hc : ¬ c = 0 := by simpa [input] using hnone
      exact ⟨(view_write_sdr s c value).trans (if_neg hc), rfl⟩
    | read_sdr c =>
      obtain rfl := Option.some.inj hstep
      have hc : ¬ c = 0 := by simpa [input] using hnone
      exact ⟨(view_read_sdr s c).trans (if_neg hc), rfl⟩
    | write_ctrl offset value =>
      obtain rfl := Option.some.inj hstep
      have hwrite := view_write_ctrl s offset value
      rw [show ctrl_input offset value = none from hnone] at hwrite
      exact ⟨hwrite, rfl⟩
    | receive c frame =>
      obtain rfl := Option.some.inj hstep
      have hc : ¬ c = 0 := by simpa [input] using hnone
      exact ⟨(view_receive s c frame).trans (if_neg hc), rfl⟩
    | reset => cases hnone
    | set_f_clk f => cases hnone
    | advance delta => cases hnone
    | pop_due =>
      obtain rfl := Option.some.inj hstep
      rcases view_pop s (hok rfl) with ⟨-, hview, hdriven⟩ | ⟨hdue, -⟩
      · exact ⟨hview, by simp [line, driven, hdriven]⟩
      · simp [input, hdue] at hnone
    | schedule_other at_ event =>
      obtain rfl := Option.some.inj hstep
      exact ⟨rfl, rfl⟩
    | cancel_other id =>
      obtain ⟨rfl, -⟩ := cancel_other_cases hstep
      exact ⟨rfl, rfl⟩
  heard s s' a i _ hok hstep hsome := by
    replace hstep : s.step a = some s' := hstep
    cases a with
    | write_sdr c value =>
      obtain rfl := Option.some.inj hstep
      obtain ⟨hc, rfl⟩ : c = 0 ∧ Uart.Input.write_sdr value = i := by simpa [input] using hsome
      exact ⟨(view_write_sdr s c value).trans (if_pos hc), rfl⟩
    | read_sdr c =>
      obtain rfl := Option.some.inj hstep
      obtain ⟨hc, rfl⟩ : c = 0 ∧ Uart.Input.read_sdr = i := by simpa [input] using hsome
      exact ⟨(view_read_sdr s c).trans (if_pos hc), rfl⟩
    | write_ctrl offset value =>
      obtain rfl := Option.some.inj hstep
      have hctrl : ctrl_input offset value = some i := hsome
      have hwrite := view_write_ctrl s offset value
      rw [hctrl] at hwrite
      exact ⟨hwrite, (ctrl_drives_nothing hctrl (view s)).symm⟩
    | receive c frame =>
      obtain rfl := Option.some.inj hstep
      obtain ⟨hc, rfl⟩ : c = 0 ∧ Uart.Input.receive frame = i := by simpa [input] using hsome
      exact ⟨(view_receive s c frame).trans (if_pos hc), rfl⟩
    | reset =>
      obtain rfl := Option.some.inj hstep
      obtain rfl := Option.some.inj hsome
      exact ⟨view_reset s, rfl⟩
    | set_f_clk f =>
      obtain rfl := Option.some.inj hstep
      obtain rfl := Option.some.inj hsome
      exact ⟨rfl, rfl⟩
    | advance delta =>
      obtain rfl := Option.some.inj hstep
      obtain rfl := Option.some.inj hsome
      exact ⟨rfl, rfl⟩
    | pop_due =>
      obtain rfl := Option.some.inj hstep
      rcases view_pop s (hok rfl) with ⟨hdue, -⟩ | ⟨hdue, hview, hdriven⟩
      · simp [input, hdue] at hsome
      · obtain rfl : Uart.Input.done = i := by simpa [input, hdue] using hsome
        exact ⟨hview, hdriven⟩
    | schedule_other at_ event => cases hsome
    | cancel_other id => cases hsome

/-! ### The line -/

theorem ok_of_units {f_clk : Hertz} {s : Sim F} (h : Reachable (units F f_clk) AnyStep s) :
    Ok s.unit s.ctl := by
  induction h with
  | init hi =>
    obtain ⟨hunit, hctl, -⟩ := hi
    rw [hunit, hctl]
    exact ok_new
  | step a _ _ hstep ih => exact ih.step hstep

/-- A step drives frames of channel 0 only, exactly when it serves no
    completion of another channel. -/
theorem driven_iff {s : Sim F} (h : Ok s.unit s.ctl) (a : Act F) :
    (∀ r ∈ driven s a, r.channel = 0) ↔ OnlyChannel0 s a := by
  cases a with
  | pop_due =>
    rcases pop_cases h with ⟨hdue, -, hdriven, -⟩ | ⟨ch, b, frame, hdue, -, -, -, hdriven, -⟩
    · simp [driven, OnlyChannel0, hdriven, hdue]
    · simp [driven, OnlyChannel0, hdriven, hdue]
  | _ => simp [driven, OnlyChannel0]

/-- Two runs that are the same to channel 0, and serve no completion of another
    channel, drive the same frames at the same times; and a completion of
    another channel drives a frame that is not channel 0's. -/
theorem uart0_line_is_channel_0 (F : Type) (f_clk : Hertz) :
    (∀ s t : Sim F × (List Uart.Input × List (Nat × UartFrame)),
      Reachable (line_runs F f_clk) (fun s a => OnlyChannel0 s.1 a) s →
      Reachable (line_runs F f_clk) (fun s a => OnlyChannel0 s.1 a) t →
      s.2.1 = t.2.1 → s.2.2 = t.2.2) ∧
    ∀ s : Sim F, Reachable (units F f_clk) AnyStep s → ∀ a,
      (∀ r ∈ driven s a, r.channel = 0) ↔ OnlyChannel0 s a := by
  constructor
  · intro s t hs ht hinputs
    exact (transduces F f_clk).noninterference hs ht hinputs
  · intro s h a
    exact driven_iff (ok_of_units h) a

/-! ### Two runs -/

instance (s : Sim F) (a : Act F) : Decidable (OnlyChannel0 s a) :=
  match a with
  | .pop_due => decidable_of_iff (∀ ch, s.due = some ch → ch = 0)
      ⟨fun h _ => h, fun h => h rfl⟩
  | .write_sdr _ _ | .read_sdr _ | .write_ctrl _ _ | .receive _ _ | .reset | .set_f_clk _
  | .advance _ | .schedule_other _ _ | .cancel_other _ => .isTrue nofun

instance (s : Sim F) (a : Act F) : Decidable (AnyStep s a) := .isTrue trivial

/-- A new unit at 32 MHz, where a frame of eight bits takes 625 nanoseconds. -/
def quiet_line : Sim Empty × (List Uart.Input × List (Nat × UartFrame)) :=
  (⟨new, .new, .from_mhz 32⟩, [], [])

theorem init_quiet_line : (line_runs Empty (.from_mhz 32)).init quiet_line :=
  ⟨⟨rfl, rfl, rfl⟩, rfl⟩

/-- Channel 0 is off in both runs. In the second one channel 2 sends a frame,
    and it is on the line. -/
theorem uart0_line_shows_channel_2 :
    ∃ s t : Sim Empty × (List Uart.Input × List (Nat × UartFrame)),
      Reachable (line_runs Empty (.from_mhz 32)) (fun s a => AnyStep s.1 a) s ∧
      Reachable (line_runs Empty (.from_mhz 32)) (fun s a => AnyStep s.1 a) t ∧
      s.2.1 = t.2.1 ∧ s.2.2 = [] ∧ t.2.2.map (fun r => (r.1, r.2.data)) = [(625, 0x41#16)] := by
  obtain ⟨s, hs, hinputs, hline⟩ : ∃ s : Sim Empty × (List Uart.Input × List (Nat × UartFrame)),
      Reachable (line_runs Empty (.from_mhz 32)) (fun s a => AnyStep s.1 a) s ∧
        s.2.1 = [.output false, .advance 625] ∧ s.2.2 = [] :=
    Reachable.exists_of_exec [.write_ctrl 0x2A 0, .advance 625] init_quiet_line (by decide +kernel)
  obtain ⟨t, ht, hinputs', hline'⟩ :
      ∃ t : Sim Empty × (List Uart.Input × List (Nat × UartFrame)),
        Reachable (line_runs Empty (.from_mhz 32)) (fun s a => AnyStep s.1 a) t ∧
          t.2.1 = [.output false, .advance 625] ∧
          t.2.2.map (fun r => (r.1, r.2.data)) = [(625, 0x41#16)] :=
    Reachable.exists_of_exec [.write_ctrl 0x1C 0x8000, .write_ctrl 0x2A 4, .write_ctrl 0x22 4,
      .write_sdr 2 0x41, .advance 625, .pop_due] init_quiet_line (by decide +kernel)
  exact ⟨s, t, hs, ht, hinputs.trans hinputs'.symm, hline, hline'⟩

/-- Channel 0 sends a frame in both runs. In the second one channel 2 has a
    frame in its shift register that is not completed. -/
theorem uart0_line_is_channel_0_shift :
    ∃ s t : Sim Empty × (List Uart.Input × List (Nat × UartFrame)),
      s.1.unit.tx_shift 2 = none ∧ t.1.unit.tx_shift 2 ≠ none ∧
      s.2.2.map (fun r => (r.1, r.2.data)) = [(625, 0x41#16)] ∧ s.2.2 = t.2.2 := by
  obtain ⟨s, hs, hinputs, hline, hshift⟩ :
      ∃ s : Sim Empty × (List Uart.Input × List (Nat × UartFrame)),
        Reachable (line_runs Empty (.from_mhz 32)) (fun s a => OnlyChannel0 s.1 a) s ∧
          s.2.1 = [.write_scr 0x8000, .output true, .enable, .write_sdr 0x41, .advance 625, .done] ∧
          s.2.2.map (fun r => (r.1, r.2.data)) = [(625, 0x41#16)] ∧ s.1.unit.tx_shift 2 = none :=
    Reachable.exists_of_exec [.write_ctrl 0x18 0x8000, .write_ctrl 0x2A 1, .write_ctrl 0x22 1,
      .write_sdr 0 0x41, .advance 625, .pop_due] init_quiet_line (by decide +kernel)
  obtain ⟨t, ht, hinputs', hshift'⟩ :
      ∃ t : Sim Empty × (List Uart.Input × List (Nat × UartFrame)),
        Reachable (line_runs Empty (.from_mhz 32)) (fun s a => OnlyChannel0 s.1 a) t ∧
          t.2.1 = [.write_scr 0x8000, .output true, .enable, .write_sdr 0x41, .advance 625, .done] ∧
          t.1.unit.tx_shift 2 ≠ none :=
    Reachable.exists_of_exec [.write_ctrl 0x18 0x8000, .write_ctrl 0x1C 0x8000, .write_ctrl 0x2A 5,
      .write_ctrl 0x22 5, .write_sdr 0 0x41, .write_sdr 2 0x55, .advance 625, .pop_due]
      init_quiet_line (by decide +kernel)
  exact ⟨s, t, hshift, hshift', hline,
    (uart0_line_is_channel_0 Empty (.from_mhz 32)).1 s t hs ht (hinputs.trans hinputs'.symm)⟩

end SauUnit

end Rl78Sim
