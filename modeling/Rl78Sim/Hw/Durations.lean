import Rl78Sim.Hw.Adc
import Rl78Sim.Hw.Sau
import Rl78Sim.Hw.Tau

/-! # Durations of the Peripherals

    A peripheral multiplies a prescaler, a divider and a count, and converts the
    cycles to nanoseconds with one more product and a division. With every
    register value that software can leave, and every clock that the generator
    publishes, the products fit into 64 bits: what is left is the division,
    which rounds down and never to zero. -/

namespace Rl78Sim

open Transition

/-! ### Exact conversions -/

/-- The duration is that of `cycles` cycles, rounded down: no product saturates,
    and the result is not zero. -/
structure Hertz.Exact (f_clk : Hertz) (cycles : Nat) (duration : Option Nat) : Prop where
  fits : cycles * ns_per_sec ≤ u64_max
  eq : duration = some (cycles * ns_per_sec / f_clk.hz)
  pos : 0 < cycles * ns_per_sec / f_clk.hz

theorem saturating_mul_eq {a b : Nat} (h : a * b ≤ u64_max) : saturating_mul a b = a * b :=
  Nat.min_eq_left h

namespace Hertz

variable {f_clk : Hertz} {cycles : Nat}

/-- Up to `2 ^ 31` cycles are converted exactly. -/
theorem Runs.exact (hf : f_clk.Runs) (hpos : 0 < cycles) (hle : cycles ≤ 2 ^ 31) :
    f_clk.Exact cycles (f_clk.cycles_to_tick cycles) := by
  have hfits : cycles * ns_per_sec ≤ u64_max := by
    unfold ns_per_sec u64_max
    omega
  have hhz : f_clk.hz ≤ cycles * ns_per_sec := by
    have := hf.le
    unfold ns_per_sec
    omega
  refine ⟨hfits, ?_, Nat.div_pos hhz (Nat.pos_of_ne_zero hf.1)⟩
  unfold cycles_to_tick
  rw [if_neg hf.1, saturating_mul_eq hfits]

/-- A duration that is not zero passes the test for zero. -/
theorem Exact.filter {duration : Option Nat} (h : f_clk.Exact cycles duration) :
    f_clk.Exact cycles (duration.filter fun t => t != 0) := by
  refine ⟨h.fits, ?_, h.pos⟩
  have hpos := h.pos
  rw [h.eq, Option.filter_some, if_pos]
  simpa using Nat.ne_of_gt hpos

end Hertz

/-! ### The timer array unit -/

namespace TauUnit

/-- The operation clock that a channel selects. -/
def cks (t : TauUnit) (ch : Fin tau_channels) : Nat := ((t.tmr ch >>> 14) &&& 0x3#16).toNat

/-- The cycles of a period. -/
def period_cycles (t : TauUnit) (ch : Fin tau_channels) : Nat :=
  ((t.tdr ch).toNat + 1) * t.ck_divider (t.cks ch)

theorem and_toNat_le (x mask : BitVec 16) : (x &&& mask).toNat ≤ mask.toNat := by
  rw [BitVec.toNat_and]
  exact Nat.and_le_right

/-- The dividers are powers of two up to `2 ^ 15`. -/
theorem ck_divider_eq (t : TauUnit) (cks : Nat) : ∃ k ≤ 15, t.ck_divider cks = 2 ^ k := by
  have hprs0 : (t.tps &&& 0xF#16).toNat ≤ 15 := and_toNat_le _ _
  have hprs1 : ((t.tps >>> 4) &&& 0xF#16).toNat ≤ 15 := and_toNat_le _ _
  have hprs2 : ((t.tps >>> 8) &&& 0x3#16).toNat ≤ 3 := and_toNat_le _ _
  have hprs3 : ((t.tps >>> 12) &&& 0x3#16).toNat ≤ 3 := and_toNat_le _ _
  unfold ck_divider
  split
  · exact ⟨_, hprs0, Nat.one_shiftLeft _⟩
  · exact ⟨_, hprs1, Nat.one_shiftLeft _⟩
  -- `CK2` has no divider of one.
  · dsimp only
    split
    · exact ⟨1, by decide, rfl⟩
    · exact ⟨_, by omega, Nat.one_shiftLeft _⟩
  · exact ⟨_, by omega, Nat.one_shiftLeft _⟩

theorem interval_exact {f_clk : Hertz} (hf : f_clk.Runs) (t : TauUnit) (ch : Fin tau_channels) :
    f_clk.Exact (t.period_cycles ch) (t.interval f_clk ch) := by
  obtain ⟨k, hk, hdiv⟩ := t.ck_divider_eq (t.cks ch)
  have hcounts : (t.tdr ch).toNat + 1 ≤ 2 ^ 16 := (t.tdr ch).isLt
  have hpow : 2 ^ k ≤ 2 ^ 15 := Nat.pow_le_pow_right (by decide) hk
  have hle : t.period_cycles ch ≤ 2 ^ 31 := by
    unfold period_cycles
    rw [hdiv]
    calc ((t.tdr ch).toNat + 1) * 2 ^ k ≤ 2 ^ 16 * 2 ^ 15 := Nat.mul_le_mul hcounts hpow
      _ = 2 ^ 31 := by decide
  have hpos : 0 < t.period_cycles ch := by
    unfold period_cycles
    rw [hdiv]
    exact Nat.mul_pos (Nat.succ_pos _) (Nat.two_pow_pos k)
  -- Neither the product of the period nor the conversion saturates.
  have hsat : saturating_mul ((t.tdr ch).toNat + 1) (t.ck_divider (t.cks ch)) =
      t.period_cycles ch := by
    refine saturating_mul_eq (Nat.le_trans hle ?_)
    decide
  have hinterval : t.interval f_clk ch = f_clk.cycles_to_tick (t.period_cycles ch) := by
    rw [← hsat]
    rfl
  rw [hinterval]
  exact hf.exact hpos hle

end TauUnit

/-! ### The serial array unit -/

namespace SauUnit

variable {F : Type}

/-- The divider of a bit is the upper part of a data register. -/
def Divides (u : SauUnit) : Prop := ∀ ch, (u.baud_div ch).toNat < 2 ^ 7

theorem Divides.of_eq {u u' : SauUnit} (h : Divides u) (heq : u'.baud_div = u.baud_div) :
    Divides u' := by
  intro ch
  rw [heq]
  exact h ch

theorem baud_div_start_tx (f_clk : Hertz) (ctl : EventCtl (SauEvent F)) (u : SauUnit)
    (ch : Fin sau_channels) : (u.start_tx f_clk ctl ch).1.baud_div = u.baud_div := by
  unfold start_tx
  split
  · rfl
  · split
    · rfl
    · rfl

theorem baud_div_receive (f_clk : Hertz) (u : SauUnit) (channel : Nat) (frame : UartFrame) :
    (u.receive f_clk channel frame).baud_div = u.baud_div := by
  unfold receive
  split
  · dsimp only
    split
    · rfl
    · rfl
  · rfl

theorem baud_div_read_sdr (u : SauUnit) (ch : Fin sau_channels) :
    (u.read_sdr ch).1.baud_div = u.baud_div := by
  unfold read_sdr
  split
  · rfl
  · rfl

theorem Divides.load_sdr {u : SauUnit} (h : Divides u) (ch : Fin sau_channels)
    (value : BitVec 16) : Divides (u.load_sdr ch value) := by
  intro c
  unfold SauUnit.load_sdr
  dsimp only
  split
  · exact h c
  · rw [Function.update_apply]
    split
    · rw [BitVec.toNat_ushiftRight, Nat.shiftRight_eq_div_pow]
      have := value.isLt
      omega
    · exact h c

theorem Divides.write_ctrl {u : SauUnit} (h : Divides u) (ctl : EventCtl (SauEvent F))
    (offset : Nat) (value : BitVec 16) : Divides (u.write_ctrl ctl offset value).1 := by
  unfold SauUnit.write_ctrl
  split
  -- `ST` stops channels one after the other.
  case h_14 =>
    refine for_channels_rule (P := fun u _ => Divides u) h ?_
    intro ch _ u ctl hu
    exact hu
  all_goals exact h

theorem Divides.reset (ctl : EventCtl (SauEvent F)) (u : SauUnit) :
    Divides (u.reset ctl).1 := by
  intro ch
  show (0 : BitVec 16).toNat < 2 ^ 7
  decide

theorem Divides.pop_due {s : Sim F} (h : Divides s.unit) : Divides s.pop_due.unit := by
  unfold Sim.pop_due
  split
  · exact h.of_eq (baud_div_start_tx s.f_clk _ _ _)
  · exact h

theorem Divides.step {s s' : Sim F} (h : Divides s.unit) {a : Act F}
    (hstep : s.step a = some s') : Divides s'.unit := by
  cases a with
  -- Only a write of a data register changes a divider, and it keeps seven bits.
  | write_sdr channel value =>
    obtain rfl := Option.some.inj hstep
    exact (h.load_sdr channel value).of_eq (baud_div_start_tx s.f_clk s.ctl _ channel)
  | read_sdr channel =>
    obtain rfl := Option.some.inj hstep
    exact h.of_eq (baud_div_read_sdr s.unit channel)
  | write_ctrl offset value =>
    obtain rfl := Option.some.inj hstep
    exact h.write_ctrl s.ctl offset value
  | receive channel frame =>
    obtain rfl := Option.some.inj hstep
    exact h.of_eq (baud_div_receive s.f_clk s.unit channel frame)
  | reset =>
    obtain rfl := Option.some.inj hstep
    exact Divides.reset s.ctl s.unit
  | set_f_clk f_clk =>
    obtain rfl := Option.some.inj hstep
    exact h
  | advance delta =>
    obtain rfl := Option.some.inj hstep
    exact h
  | pop_due =>
    obtain rfl := Option.some.inj hstep
    exact h.pop_due
  | schedule_other at_ event =>
    obtain rfl := Option.some.inj hstep
    exact h
  | cancel_other id =>
    obtain ⟨rfl, -⟩ := cancel_other_cases hstep
    exact h

/-- The divider of a bit has seven bits in every run. -/
theorem divides_of_reachable {s : Sim F × History} (h : Reachable (runs F) AnyAct s) :
    Divides s.1.unit := by
  induction h with
  | init hi =>
    obtain ⟨⟨hunit, -⟩, -⟩ := hi
    intro ch
    rw [hunit]
    -- The power-on value.
    show (0 : BitVec 16).toNat < 2 ^ 7
    decide
  | step a _ _ hstep ih => exact ih.step (System.logged_step_cases hstep).1

/-- The cycles of a bit. -/
def period_cycles (u : SauUnit) (ch : Fin sau_channels) : Nat :=
  2 ^ u.prs ch * ((u.baud_div ch).toNat + 1) * 2

theorem prs_le (u : SauUnit) (ch : Fin sau_channels) : u.prs ch ≤ 15 := by
  unfold prs
  rw [BitVec.toNat_and]
  exact Nat.and_le_right

theorem bit_count_le (scr : BitVec 16) : 1 ≤ bit_count scr ∧ bit_count scr ≤ 12 := by
  have hdata : data_bits scr ≤ 8 := by
    unfold data_bits
    split
    · decide
    · decide
  unfold bit_count
  split
  · split
    · omega
    · omega
  · split
    · omega
    · omega

/-- A bit takes between 2 and `2 ^ 23` cycles. -/
theorem Divides.period_cycles {u : SauUnit} (h : Divides u) (ch : Fin sau_channels) :
    0 < u.period_cycles ch ∧ u.period_cycles ch ≤ 2 ^ 23 := by
  have hpow : 2 ^ u.prs ch ≤ 2 ^ 15 := Nat.pow_le_pow_right (by decide) (u.prs_le ch)
  have hmul : 2 ^ u.prs ch * ((u.baud_div ch).toNat + 1) ≤ 2 ^ 15 * 2 ^ 7 :=
    Nat.mul_le_mul hpow (h ch)
  have hpos : 0 < 2 ^ u.prs ch * ((u.baud_div ch).toNat + 1) :=
    Nat.mul_pos (Nat.two_pow_pos _) (Nat.succ_pos _)
  unfold SauUnit.period_cycles
  omega

theorem Divides.bit_cycles {u : SauUnit} (h : Divides u) (ch : Fin sau_channels) :
    u.bit_cycles ch = u.period_cycles ch := by
  obtain ⟨-, hle⟩ := h.period_cycles ch
  unfold SauUnit.period_cycles at hle ⊢
  unfold SauUnit.bit_cycles
  rw [Nat.one_shiftLeft, saturating_mul_eq (b := (u.baud_div ch).toNat + 1), saturating_mul_eq]
  · unfold u64_max
    omega
  · unfold u64_max
    omega

theorem Divides.bit_time_exact {f_clk : Hertz} (hf : f_clk.Runs) {u : SauUnit} (h : Divides u)
    (ch : Fin sau_channels) : f_clk.Exact (u.period_cycles ch) (u.bit_time f_clk ch) := by
  obtain ⟨hpos, hle⟩ := h.period_cycles ch
  unfold bit_time
  rw [h.bit_cycles ch]
  exact (hf.exact hpos (Nat.le_trans hle (by decide))).filter

theorem Divides.frame_time_exact {f_clk : Hertz} (hf : f_clk.Runs) {u : SauUnit}
    (h : Divides u) (ch : Fin sau_channels) :
    f_clk.Exact (u.period_cycles ch * bit_count (u.scr ch)) (u.frame_time f_clk ch) := by
  obtain ⟨hpos, hle⟩ := h.period_cycles ch
  obtain ⟨hbits, hbits'⟩ := bit_count_le (u.scr ch)
  have hmul : u.period_cycles ch * bit_count (u.scr ch) ≤ 2 ^ 23 * 12 := Nat.mul_le_mul hle hbits'
  have hsat : saturating_mul (u.bit_cycles ch) (bit_count (u.scr ch)) =
      u.period_cycles ch * bit_count (u.scr ch) := by
    rw [h.bit_cycles ch]
    refine saturating_mul_eq (Nat.le_trans hmul ?_)
    decide
  unfold frame_time
  rw [hsat]
  exact (hf.exact (Nat.mul_pos hpos hbits) (Nat.le_trans hmul (by decide))).filter

end SauUnit

/-! ### The A/D converter -/

namespace AdcUnit

theorem clock_divider_le (a : AdcUnit) : 1 ≤ a.clock_divider ∧ a.clock_divider ≤ 32 := by
  unfold clock_divider
  split
  · split <;> decide
  · split <;> decide

theorem conversion_cycles_le (a : AdcUnit) :
    1 ≤ a.conversion_cycles ∧ a.conversion_cycles ≤ 181 := by
  unfold conversion_cycles
  split <;> decide

theorem wakeup_cycles_le (a : AdcUnit) : a.wakeup_cycles ≤ 34 := by
  unfold wakeup_cycles
  split
  · decide
  · split
    · split <;> decide
    · split <;> decide

theorem interrupt_delay_cycles_le (a : AdcUnit) : a.interrupt_delay_cycles ≤ 4 := by
  unfold interrupt_delay_cycles
  split <;> decide

/-- The clocks of the first conversion after a start. -/
def first_clocks (a : AdcUnit) : Nat :=
  a.conversion_cycles + a.wakeup_cycles + a.interrupt_delay_cycles

/-- The clocks of a conversion that follows another one. -/
def next_clocks (a : AdcUnit) : Nat := a.conversion_cycles + a.interrupt_delay_cycles

theorem first_clocks_le (a : AdcUnit) : 1 ≤ a.first_clocks ∧ a.first_clocks ≤ 219 := by
  have hconv := a.conversion_cycles_le
  have hwake := a.wakeup_cycles_le
  have hdelay := a.interrupt_delay_cycles_le
  unfold first_clocks
  omega

theorem next_clocks_le (a : AdcUnit) : 1 ≤ a.next_clocks ∧ a.next_clocks ≤ 219 := by
  have hconv := a.conversion_cycles_le
  have hdelay := a.interrupt_delay_cycles_le
  unfold next_clocks
  omega

theorem duration_exact {f_clk : Hertz} (hf : f_clk.Runs) (a : AdcUnit) {adc_clocks : Nat}
    (hclocks : 1 ≤ adc_clocks ∧ adc_clocks ≤ 219) :
    f_clk.Exact (adc_clocks * a.clock_divider) (a.duration f_clk adc_clocks) := by
  obtain ⟨hpos, hle⟩ := a.clock_divider_le
  have hmul : adc_clocks * a.clock_divider ≤ 219 * 32 := Nat.mul_le_mul hclocks.2 hle
  unfold duration
  rw [saturating_mul_eq (Nat.le_trans hmul (by decide))]
  exact hf.exact (Nat.mul_pos hclocks.1 hpos) (Nat.le_trans hmul (by decide))

theorem first_duration_exact {f_clk : Hertz} (hf : f_clk.Runs) (a : AdcUnit) :
    f_clk.Exact (a.first_clocks * a.clock_divider) (a.first_duration f_clk) := by
  have hclocks := a.first_clocks_le
  have hsum : saturating_add (saturating_add a.conversion_cycles a.wakeup_cycles)
      a.interrupt_delay_cycles = a.first_clocks := by
    unfold first_clocks at hclocks ⊢
    unfold saturating_add u64_max
    omega
  unfold first_duration
  rw [hsum]
  exact a.duration_exact hf hclocks

theorem next_duration_exact {f_clk : Hertz} (hf : f_clk.Runs) (a : AdcUnit) :
    f_clk.Exact (a.next_clocks * a.clock_divider) (a.next_duration f_clk) := by
  have hclocks := a.next_clocks_le
  have hsum : saturating_add a.conversion_cycles a.interrupt_delay_cycles = a.next_clocks := by
    unfold next_clocks at hclocks ⊢
    unfold saturating_add u64_max
    omega
  unfold next_duration
  rw [hsum]
  exact a.duration_exact hf hclocks

end AdcUnit

/-! ### All durations -/

/-- The durations of the three peripherals are exact, for every register of the timers and
    of the converter, and in every state that the serial unit reaches. -/
theorem durations_exact {F : Type} {f_clk : Hertz} (hf : f_clk.Runs) (t : TauUnit)
    (a : AdcUnit) {s : SauUnit.Sim F × SauUnit.History}
    (hs : Reachable (SauUnit.runs F) SauUnit.AnyAct s) :
    (∀ ch, t.ck_divider (t.cks ch) ≠ 0 ∧
      f_clk.Exact (t.period_cycles ch) (t.interval f_clk ch)) ∧
    (∀ ch, f_clk.Exact (s.1.unit.period_cycles ch) (s.1.unit.bit_time f_clk ch) ∧
      f_clk.Exact (s.1.unit.period_cycles ch * SauUnit.bit_count (s.1.unit.scr ch))
        (s.1.unit.frame_time f_clk ch)) ∧
    a.clock_divider ≠ 0 ∧
    f_clk.Exact (a.first_clocks * a.clock_divider) (a.first_duration f_clk) ∧
    f_clk.Exact (a.next_clocks * a.clock_divider) (a.next_duration f_clk) := by
  have hdivides := SauUnit.divides_of_reachable hs
  refine ⟨?_, ?_, ?_, a.first_duration_exact hf, a.next_duration_exact hf⟩
  · intro ch
    obtain ⟨k, -, hdiv⟩ := t.ck_divider_eq (t.cks ch)
    refine ⟨?_, t.interval_exact hf ch⟩
    rw [hdiv]
    exact Nat.ne_of_gt (Nat.two_pow_pos k)
  · intro ch
    exact ⟨hdivides.bit_time_exact hf ch, hdivides.frame_time_exact hf ch⟩
  · have := a.clock_divider_le
    omega

/-- The guest selects the longest bits of channel 0, a parity bit and two stop bits. -/
def slow_frames : List (SauUnit.Act Empty) :=
  [.write_ctrl 0x26 0x00FF, .write_ctrl 0x18 0x8327, .write_sdr 0 0xFE00]

/-- The longest interval of channel 0 of a timer. -/
def slow_timer : TauUnit :=
  { TauUnit.new with tdr := fun _ => 0xFFFF, tmr := fun _ => 0xC000, tps := 0x3000 }

/-- The longest conversions, at the slowest clock. -/
def slow_adc : AdcUnit := { AdcUnit.new with lv := 1, fr := 0 }

/-- The longest durations at 32 MHz. -/
theorem durations_exact_32_mhz : ∃ s : SauUnit.Sim Empty × SauUnit.History,
    Reachable (SauUnit.runs Empty) SauUnit.AnyAct s ∧
    slow_timer.interval (.from_mhz 32) 0 = some 33554432000 ∧
    s.1.unit.bit_time (.from_mhz 32) 0 = some 262144000 ∧
    s.1.unit.frame_time (.from_mhz 32) 0 = some 3145728000 ∧
    slow_adc.first_duration (.from_mhz 32) = some 186000 := by
  have hinit : (SauUnit.runs Empty).init
      (⟨SauUnit.new, .new, .from_mhz 32⟩, ⟨[], fun _ => []⟩) := ⟨⟨rfl, rfl⟩, rfl⟩
  obtain ⟨s, hs, hcycles, hbits⟩ : ∃ s : SauUnit.Sim Empty × SauUnit.History,
      Reachable (SauUnit.runs Empty) SauUnit.AnyAct s ∧ s.1.unit.period_cycles 0 = 2 ^ 23 ∧
        SauUnit.bit_count (s.1.unit.scr 0) = 12 :=
    Reachable.exists_of_exec slow_frames hinit (by decide +kernel)
  obtain ⟨htau, hsau, -, hfirst, -⟩ := durations_exact Hertz.runs_32_mhz slow_timer slow_adc hs
  have hbit := (hsau 0).1.eq
  have hframe := (hsau 0).2.eq
  rw [hcycles] at hbit hframe
  rw [hbits] at hframe
  exact ⟨s, hs, (htau 0).2.eq, hbit, hframe, hfirst.eq⟩

end Rl78Sim
