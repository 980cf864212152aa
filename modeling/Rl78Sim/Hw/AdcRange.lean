import Mathlib.Data.List.Forall2
import Rl78Sim.Hw.AdcScan

/-! # The Two Range Tests

    `ADRCK` selects whether results inside the window of `ADLL` and `ADUL` or
    results outside of it raise the interrupt. Two units that differ in this only
    convert the same voltages side by side: where a result is exactly at the upper
    limit, both accept it.
-/

namespace Rl78Sim

open Transition Adc

namespace AdcUnit

variable {F : Type}

/-- The range test under a setting of `ADRCK`. -/
def accepts (a : AdcUnit) (in_range : Bool) (result : BitVec 16) : Bool :=
  ({ a with interrupt_in_range := in_range } : AdcUnit).is_valid result

/-! ### Two units side by side -/

/-- A unit with the other setting of `ADRCK`. What it has raised, its flag and the
    results it has accepted are its own. -/
def twin (a : AdcUnit) (range_hit : Bool) (scan_adcr : Fin scan_channels → BitVec 16)
    (irq_out : Nat) : AdcUnit :=
  { a with
    interrupt_in_range := !a.interrupt_in_range
    range_hit := range_hit
    scan_adcr := scan_adcr
    irq_out := irq_out }

def Twins (a b : AdcUnit) : Prop :=
  ∃ range_hit scan_adcr irq_out, b = a.twin range_hit scan_adcr irq_out

/-- What is done to the second unit: its `ADRCK` is written the other way round. -/
def mirror_value : Register → BitVec 8 → BitVec 8
  | .Adm2, value => value ^^^ 0x08#8
  | _, value => value

def mirror : Act F → Act F
  | .write reg value => .write reg (mirror_value reg value)
  | a => a

/-- Two reachable units with the same queue and the same clock, that differ in
    `ADRCK` only, side by side. Each has a log of the conversions since then. -/
def side_by_side (F : Type) :
    System ((Sim F × Sim F) × List Conversion × List Conversion) (Act F) :=
  System.logged
    ⟨fun p => (∃ h, Reachable (runs F) AnyAct (p.1, h)) ∧
        (∃ h, Reachable (runs F) AnyAct (p.2, h)) ∧
        Twins p.1.unit p.2.unit ∧ p.2.ctl = p.1.ctl ∧ p.2.f_clk = p.1.f_clk,
      fun p a => (p.1.step a).bind fun s => (p.2.step (mirror a)).map fun t => (s, t)⟩
    ([], []) fun p a _ h => (note p.1 a h.1, note p.2 (mirror a) h.2)

/-- The units are not reset, and a conversion is one in select mode with the limits
    in order. -/
def SelectOnly (p : (Sim F × Sim F) × List Conversion × List Conversion) : Act F → Prop
  | .reset => False
  | .pop_due => p.1.1.converted ≠ [] → p.1.1.unit.convert_mode = .Select ∧
      p.1.1.unit.adll.toNat ≤ p.1.1.unit.adul.toNat
  | _ => True

/-- No conversion has a result exactly at the upper limit. -/
def OffLimit (p : (Sim F × Sim F) × List Conversion × List Conversion) : Act F → Prop
  | .pop_due => p.1.1.converted ≠ [] →
      p.1.1.unit.comparison_bits p.1.1.unit.fetch_result ≠ p.1.1.unit.adul
  | _ => True

/-- Both units have converted the same, and of each conversion exactly one has driven
    `INTAD`. -/
def Complementary (h : List Conversion × List Conversion) : Prop :=
  List.Forall₂ (fun c d => c.result = d.result ∧ c.pulses + d.pulses = 1) h.1 h.2

/-! ### The test -/

/-- Exactly one of the two settings accepts a result, unless it is at the upper
    limit. -/
theorem accepts_iff {a : AdcUnit} (hlimits : a.adll.toNat ≤ a.adul.toNat) (result : BitVec 16) :
    a.accepts true result ≠ a.accepts false result ↔ a.comparison_bits result ≠ a.adul := by
  have hbits (in_range : Bool) : ({ a with interrupt_in_range := in_range } :
    AdcUnit).comparison_bits result = a.comparison_bits result := rfl
  simp only [accepts, is_valid, hbits, if_true, Bool.false_eq_true, if_false]
  rw [ne_eq, ne_eq, Bool.eq_iff_iff, ← BitVec.toNat_inj]
  generalize (a.comparison_bits result).toNat = compared
  generalize a.adll.toNat = lower at hlimits ⊢
  generalize a.adul.toNat = upper at hlimits ⊢
  simp only [Bool.and_eq_true, Bool.or_eq_true, decide_eq_true_eq]
  omega

/-- At the upper limit both settings accept. -/
theorem is_valid_twin (a : AdcUnit) (range_hit : Bool)
    (scan_adcr : Fin scan_channels → BitVec 16) (irq_out : Nat) (result : BitVec 16) :
    (a.twin range_hit scan_adcr irq_out).is_valid result =
      a.accepts (!a.interrupt_in_range) result := rfl

/-! ### What both units do -/

variable {range_hit : Bool} {scan_adcr : Fin scan_channels → BitVec 16} {irq_out : Nat}

theorem twin_cancel (a : AdcUnit) (ctl : EventCtl (AdcEvent F)) :
    (a.twin range_hit scan_adcr irq_out).cancel_pending ctl =
      ((a.cancel_pending ctl).1.twin range_hit scan_adcr irq_out, (a.cancel_pending ctl).2) := rfl

theorem twin_schedule (a : AdcUnit) (ctl : EventCtl (AdcEvent F)) (period : Option Nat) :
    (a.twin range_hit scan_adcr irq_out).schedule .complete ctl period =
      ((a.schedule .complete ctl period).1.twin range_hit scan_adcr irq_out,
        (a.schedule .complete ctl period).2) := by
  unfold schedule
  cases period with
  | none => rfl
  | some period =>
    dsimp only
    split
    · rfl
    · rfl

theorem twin_start (a : AdcUnit) (f_clk : Hertz) (ctl : EventCtl (AdcEvent F)) :
    (a.twin range_hit scan_adcr irq_out).start .complete f_clk ctl =
      ((a.start .complete f_clk ctl).1.twin false scan_adcr irq_out,
        (a.start .complete f_clk ctl).2) := by
  unfold start
  rw [twin_cancel]
  exact twin_schedule { (a.cancel_pending ctl).1 with scan_index := 0, range_hit := false }
    (a.cancel_pending ctl).2 _

theorem twin_adm2 (a : AdcUnit) (value : BitVec 8) :
    (a.twin range_hit scan_adcr irq_out).write_adm2 (value ^^^ 0x08#8) =
      (a.write_adm2 value).twin range_hit scan_adcr irq_out := by
  have hreference : ∀ v : BitVec 8, ((v ^^^ 0x08#8) >>> 6) &&& 0x3#8 = (v >>> 6) &&& 0x3#8 := by
    decide
  have hgnd : ∀ v : BitVec 8, (v ^^^ 0x08#8).getLsbD 5 = v.getLsbD 5 := by decide
  have hrange : ∀ v : BitVec 8, (v ^^^ 0x08#8).getLsbD 3 = !v.getLsbD 3 := by decide
  have hsnooze : ∀ v : BitVec 8, (v ^^^ 0x08#8).getLsbD 2 = v.getLsbD 2 := by decide
  have hresolution : ∀ v : BitVec 8, (v ^^^ 0x08#8) &&& 0x3#8 = v &&& 0x3#8 := by decide
  simp only [write_adm2, twin, hreference, hgnd, hrange, hsnooze, hresolution]

/-- The units make the same of a step, but for what is their own. -/
structure Alike (p q : AdcUnit × EventCtl (AdcEvent F)) : Prop where
  unit : Twins p.1 q.1
  ctl : q.2 = p.2

theorem Twins.cancel {a b : AdcUnit} (h : Twins a b) (ctl : EventCtl (AdcEvent F)) :
    Alike (a.cancel_pending ctl) (b.cancel_pending ctl) := by
  obtain ⟨range_hit, scan_adcr, irq_out, rfl⟩ := h
  exact ⟨⟨_, _, _, rfl⟩, rfl⟩

theorem Twins.start {a b : AdcUnit} (h : Twins a b) (f_clk : Hertz) (ctl : EventCtl (AdcEvent F)) :
    Alike (a.start .complete f_clk ctl) (b.start .complete f_clk ctl) := by
  obtain ⟨range_hit, scan_adcr, irq_out, rfl⟩ := h
  rw [twin_start]
  exact ⟨⟨_, _, _, rfl⟩, rfl⟩

/-- `write_adm0`, up to the start or the stop. -/
def load_adm0 (a : AdcUnit) (value : BitVec 8) : AdcUnit :=
  { a with
    convert_mode := if value.getLsbD 6 then .Scan else .Select
    lv := (value >>> 1) &&& 0x3#8
    fr := (value >>> 3) &&& 0x7#8
    conversion_running := value.getLsbD 7
    comparator_enabled := value.getLsbD 0 }

/-- `write_ads`, up to the start. -/
def load_ads (a : AdcUnit) (value : BitVec 8) : AdcUnit :=
  { a with input_source := select_input value }

theorem write_adm0_eq (a : AdcUnit) (f_clk : Hertz) (ctl : EventCtl (AdcEvent F))
    (value : BitVec 8) : a.write .complete f_clk ctl .Adm0 value =
      if value.getLsbD 7 = true then (a.load_adm0 value).start .complete f_clk ctl
      else (a.load_adm0 value).cancel_pending ctl := rfl

theorem write_ads_eq (a : AdcUnit) (f_clk : Hertz) (ctl : EventCtl (AdcEvent F))
    (value : BitVec 8) : a.write .complete f_clk ctl .Ads value =
      if a.conversion_running = true then (a.load_ads value).start .complete f_clk ctl
      else (a.load_ads value, ctl) := rfl

theorem Twins.running {a b : AdcUnit} (h : Twins a b) :
    b.generation = a.generation ∧ b.conversion_running = a.conversion_running := by
  obtain ⟨_, _, _, rfl⟩ := h
  exact ⟨rfl, rfl⟩

theorem Twins.write {a b : AdcUnit} (h : Twins a b) (f_clk : Hertz) (ctl : EventCtl (AdcEvent F))
    (reg : Register) (value : BitVec 8) :
    Alike (a.write .complete f_clk ctl reg value)
      (b.write .complete f_clk ctl reg (mirror_value reg value)) := by
  cases reg with
  | Adm0 =>
    have hload : Twins (a.load_adm0 value) (b.load_adm0 value) := by
      obtain ⟨range_hit, scan_adcr, irq_out, rfl⟩ := h
      exact ⟨range_hit, scan_adcr, irq_out, rfl⟩
    show Alike (a.write .complete f_clk ctl .Adm0 value) (b.write .complete f_clk ctl .Adm0 value)
    rw [write_adm0_eq, write_adm0_eq]
    split
    · exact hload.start f_clk ctl
    · exact hload.cancel ctl
  | Ads =>
    have hload : Twins (a.load_ads value) (b.load_ads value) := by
      obtain ⟨range_hit, scan_adcr, irq_out, rfl⟩ := h
      exact ⟨range_hit, scan_adcr, irq_out, rfl⟩
    show Alike (a.write .complete f_clk ctl .Ads value) (b.write .complete f_clk ctl .Ads value)
    rw [write_ads_eq, write_ads_eq, h.running.2]
    split
    · exact hload.start f_clk ctl
    · exact ⟨hload, rfl⟩
  | Adm2 =>
    obtain ⟨range_hit, scan_adcr, irq_out, rfl⟩ := h
    simp only [AdcUnit.write, mirror_value, twin_adm2]
    exact ⟨⟨range_hit, scan_adcr, irq_out, rfl⟩, rfl⟩
  | Adm1 | Adul | Adll | Adtes =>
    obtain ⟨range_hit, scan_adcr, irq_out, rfl⟩ := h
    exact ⟨⟨range_hit, scan_adcr, irq_out, rfl⟩, rfl⟩

theorem Twins.set_voltage {a b : AdcUnit} (h : Twins a b) (index : Nat) (uv : Int) :
    Twins (a.set_voltage index uv) (b.set_voltage index uv) := by
  obtain ⟨range_hit, scan_adcr, irq_out, rfl⟩ := h
  unfold AdcUnit.set_voltage
  split
  · exact ⟨_, _, _, rfl⟩
  · exact ⟨_, _, _, rfl⟩

theorem Twins.finish {a b : AdcUnit} (h : Twins a b) : Twins a.finish b.finish := by
  obtain ⟨range_hit, scan_adcr, irq_out, rfl⟩ := h
  exact ⟨_, _, _, rfl⟩

theorem Twins.record {a b : AdcUnit} (h : Twins a b) (ctl : EventCtl (AdcEvent F)) (at_ : Nat) :
    Alike (a.record .complete ctl at_) (b.record .complete ctl at_) := by
  obtain ⟨range_hit, scan_adcr, irq_out, rfl⟩ := h
  exact ⟨⟨_, _, _, rfl⟩, rfl⟩

theorem Twins.complete {a b : AdcUnit} (h : Twins a b) (f_clk : Hertz)
    (ctl : EventCtl (AdcEvent F)) (at_ : Nat) :
    Alike (a.complete .complete f_clk ctl at_) (b.complete .complete f_clk ctl at_) := by
  have hfinish := h.finish
  -- What decides on the next conversion is the same in both.
  have hmode : b.operation_mode = a.operation_mode := by
    obtain ⟨_, _, _, rfl⟩ := h
    rfl
  have hindex : b.finish.scan_index = a.finish.scan_index := by
    obtain ⟨_, _, _, rfl⟩ := h
    rfl
  have hperiod : b.finish.next_duration f_clk = a.finish.next_duration f_clk := by
    obtain ⟨_, _, _, rfl⟩ := h
    rfl
  unfold AdcUnit.complete
  dsimp only
  rw [hmode, hindex, hperiod]
  split
  · exact ⟨hfinish, rfl⟩
  · split
    · exact ⟨hfinish, rfl⟩
    · split
      · exact ⟨hfinish, rfl⟩
      · split
        · exact ⟨hfinish, rfl⟩
        · exact hfinish.record ctl _

theorem Twins.fire {a b : AdcUnit} (h : Twins a b) (ev : AdcComplete) (f_clk : Hertz)
    (ctl : EventCtl (AdcEvent F)) :
    Alike (a.fire .complete ev f_clk ctl) (b.fire .complete ev f_clk ctl) := by
  unfold AdcUnit.fire
  rw [h.running.1, h.running.2]
  split
  · obtain ⟨_, _, _, rfl⟩ := h
    exact ⟨⟨_, _, _, rfl⟩, rfl⟩
  · exact h.complete f_clk ctl ev.at_

/-! ### One step of both -/

/-- Two units that stand side by side. -/
structure Beside (s t : Sim F) : Prop where
  left : Ok s.unit s.ctl
  right : Ok t.unit t.ctl
  unit : Twins s.unit t.unit
  ctl : t.ctl = s.ctl
  f_clk : t.f_clk = s.f_clk

theorem Beside.due {s t : Sim F} (h : Beside s t) : t.due = s.due := by
  unfold Sim.due
  rw [h.ctl]

theorem Beside.step {s t s' t' : Sim F} (h : Beside s t) {a : Act F} (hreset : a ≠ .reset)
    (hs : s.step a = some s') (ht : t.step (mirror a) = some t') : Beside s' t' := by
  have hok := h.left.step hs
  have hok' := h.right.step ht
  have hunit := h.unit
  have hctl := h.ctl
  have hclk := h.f_clk
  -- Each unit keeps its own invariant; what is left is that they stay alike.
  suffices hkept : Alike (s'.unit, s'.ctl) (t'.unit, t'.ctl) ∧ t'.f_clk = s'.f_clk from
    ⟨hok, hok', hkept.1.unit, hkept.1.ctl, hkept.2⟩
  cases a with
  | write reg value =>
    obtain rfl := Option.some.inj hs
    obtain rfl := Option.some.inj ht
    refine ⟨?_, hclk⟩
    simp only [Sim.next, hctl, hclk]
    exact hunit.write s.f_clk s.ctl reg value
  | set_voltage index uv =>
    obtain rfl := Option.some.inj hs
    obtain rfl := Option.some.inj ht
    exact ⟨⟨hunit.set_voltage index uv, hctl⟩, hclk⟩
  | reset => exact absurd rfl hreset
  | set_f_clk f_clk =>
    obtain rfl := Option.some.inj hs
    obtain rfl := Option.some.inj ht
    exact ⟨⟨hunit, hctl⟩, rfl⟩
  | advance delta =>
    obtain rfl := Option.some.inj hs
    obtain rfl := Option.some.inj ht
    refine ⟨⟨hunit, ?_⟩, hclk⟩
    simp only [hctl]
  | pop_due =>
    obtain rfl := Option.some.inj hs
    obtain rfl := Option.some.inj ht
    unfold Sim.pop_due
    rw [h.due, hctl, hclk]
    split
    · exact ⟨hunit.fire _ s.f_clk s.ctl.pop_due.1, hclk⟩
    · exact ⟨⟨hunit, rfl⟩, rfl⟩
  | schedule_other at_ event =>
    obtain rfl := Option.some.inj hs
    obtain rfl := Option.some.inj ht
    refine ⟨⟨hunit, ?_⟩, hclk⟩
    simp only [hctl]
  | cancel_other id =>
    obtain ⟨rfl, -⟩ := cancel_other_cases h.left hs
    obtain ⟨rfl, -⟩ := cancel_other_cases h.right ht
    refine ⟨⟨hunit, ?_⟩, hclk⟩
    simp only [hctl]

/-! ### One conversion of both -/

/-- In select mode a conversion drives the line exactly when it is accepted. -/
theorem converted_select {s : Sim F} (hok : Ok s.unit s.ctl)
    (hmode : s.unit.convert_mode = .Select) {c : Conversion} (hc : s.converted = [c]) :
    c.result = s.unit.fetch_result ∧
      c.pulses = if s.unit.is_valid s.unit.fetch_result = true then 1 else 0 := by
  rcases pop_cases hok with ⟨-, hnone, -⟩ | ⟨ev, hrun, -, -, hpop, hone⟩
  · rw [hnone] at hc
    cases hc
  · obtain ⟨hindex, hhit⟩ := hok.select hrun hmode
    obtain ⟨hnext, -⟩ := finish_select hmode hindex
    obtain ⟨id, hunit⟩ := complete_unit s.f_clk s.ctl.pop_due.1 s.unit ev.at_
    obtain rfl : _ = c := List.cons.inj (hone.symm.trans hc) |>.1
    refine ⟨rfl, ?_⟩
    -- Booking the next conversion does not touch the line.
    have hirq : s.pop_due.unit.irq_out = s.unit.finish.irq_out := by
      rw [hpop]
      show (s.unit.complete .complete s.f_clk s.ctl.pop_due.1 ev.at_).1.irq_out = _
      rw [hunit]
    dsimp only
    rw [hirq, (finish_hit s.unit).2, hhit, Bool.false_or]
    simp only [hnext, true_and, Nat.add_sub_cancel_left]

/-- Both units convert at the same pops, and the same. -/
theorem Beside.converted {s t : Sim F} (h : Beside s t) :
    (s.converted = [] ∧ t.converted = []) ∨ ∃ c d, s.converted = [c] ∧ t.converted = [d] := by
  obtain ⟨hgen, hrun⟩ := h.unit.running
  unfold Sim.converted
  rw [h.due, hgen, hrun]
  split
  · split
    · exact .inr ⟨_, _, rfl, rfl⟩
    · exact .inl ⟨rfl, rfl⟩
  · exact .inl ⟨rfl, rfl⟩

theorem Twins.fetch_result {a b : AdcUnit} (h : Twins a b) : b.fetch_result = a.fetch_result := by
  obtain ⟨_, _, _, rfl⟩ := h
  rfl

/-- Of the two tests of a result exactly one succeeds, unless it is at the upper
    limit. -/
theorem Twins.is_valid_iff {a b : AdcUnit} (h : Twins a b) (hlimits : a.adll.toNat ≤ a.adul.toNat)
    (result : BitVec 16) :
    a.is_valid result ≠ b.is_valid result ↔ a.comparison_bits result ≠ a.adul := by
  rw [← accepts_iff hlimits]
  obtain ⟨_, _, _, rfl⟩ := h
  rw [is_valid_twin]
  have hself : a.is_valid result = a.accepts a.interrupt_in_range result := rfl
  rw [hself]
  -- The units have the two settings of `ADRCK`, one way or the other.
  cases a.interrupt_in_range with
  | true => rfl
  | false => exact ne_comm

/-- A conversion in select mode with the limits in order is accepted by exactly one
    unit, unless its result is at the upper limit. -/
theorem Beside.complementary {s t : Sim F} (h : Beside s t) (hmode : s.unit.convert_mode = .Select)
    (hlimits : s.unit.adll.toNat ≤ s.unit.adul.toNat) {c d : Conversion} (hc : s.converted = [c])
    (hd : t.converted = [d]) : (c.result = d.result ∧ c.pulses + d.pulses = 1) ↔
      s.unit.comparison_bits s.unit.fetch_result ≠ s.unit.adul := by
  have hmode' : t.unit.convert_mode = .Select := by
    obtain ⟨_, _, _, hunit⟩ := h.unit
    rw [hunit]
    exact hmode
  obtain ⟨hresult, hpulses⟩ := converted_select h.left hmode hc
  obtain ⟨hresult', hpulses'⟩ := converted_select h.right hmode' hd
  rw [h.unit.fetch_result] at hresult' hpulses'
  rw [← h.unit.is_valid_iff hlimits, hresult, hresult', hpulses, hpulses']
  simp only [true_and]
  cases s.unit.is_valid s.unit.fetch_result <;> cases t.unit.is_valid s.unit.fetch_result <;> decide

/-! ### Whole sequences -/

theorem complementary_concat {cs ds : List Conversion} {c d : Conversion} :
    Complementary (cs ++ [c], ds ++ [d]) ↔
      Complementary (cs, ds) ∧ c.result = d.result ∧ c.pulses + d.pulses = 1 := by
  unfold Complementary
  rw [← List.forall₂_reverse_iff, List.reverse_concat, List.reverse_concat, List.forall₂_cons,
    List.forall₂_reverse_iff, and_comm]

theorem beside_of_reachable {p : (Sim F × Sim F) × List Conversion × List Conversion}
    (h : Reachable (side_by_side F) SelectOnly p) : Beside p.1.1 p.1.2 := by
  induction h with
  | init hi =>
    obtain ⟨⟨⟨hs, hreach⟩, ⟨ht, hreach'⟩, hunit, hctl, hclk⟩, -⟩ := hi
    exact ⟨ok_of_reachable hreach, ok_of_reachable hreach', hunit, hctl, hclk⟩
  | step a _ hselect hstep ih =>
    obtain ⟨hact, -⟩ := System.logged_step_cases hstep
    obtain ⟨s, hs, hmap⟩ := Option.bind_eq_some_iff.mp hact
    obtain ⟨t, ht, heq⟩ := Option.map_eq_some_iff.mp hmap
    rw [← heq]
    refine ih.step ?_ hs ht
    rintro rfl
    exact hselect

/-- A step keeps the logs complementary exactly when it is off the limit. -/
theorem complementary_step {p p' : (Sim F × Sim F) × List Conversion × List Conversion}
    (h : Beside p.1.1 p.1.2) {a : Act F} (hselect : SelectOnly p a)
    (hstep : (side_by_side F).step p a = some p') :
    Complementary p'.2 ↔ Complementary p.2 ∧ OffLimit p a := by
  obtain ⟨-, hnote⟩ := System.logged_step_cases hstep
  cases a with
  | pop_due =>
    replace hnote : p'.2 = (p.2.1 ++ p.1.1.converted, p.2.2 ++ p.1.2.converted) := hnote
    rw [hnote]
    rcases h.converted with ⟨hs, ht⟩ | ⟨c, d, hs, ht⟩
    · simp only [hs, ht, List.append_nil, Complementary, OffLimit, ne_eq, not_true_eq_false,
        false_imp_iff, and_true]
    -- One conversion on each side, and the pulses add up to one off the limit.
    · obtain ⟨hmode, hlimits⟩ := hselect (by rw [hs]; exact List.cons_ne_nil _ _)
      have hiff := h.complementary hmode hlimits hs ht
      rw [hs, ht, complementary_concat, hiff]
      simp only [OffLimit, hs, ne_eq, List.cons_ne_nil, not_false_eq_true, true_imp_iff]
  | _ =>
    replace hnote : p'.2 = p.2 := hnote
    rw [hnote]
    exact (and_iff_left trivial).symm

/-- Of two settings of `ADRCK` exactly one accepts a result when it is not at the
    upper limit; and over a sequence of select conversions, the pulses of the two
    units are complementary exactly when no result has been at the upper limit. -/
theorem range_modes_partition {p : (Sim F × Sim F) × List Conversion × List Conversion}
    (h : Reachable (side_by_side F) SelectOnly p) :
    (∀ (a : AdcUnit) (result : BitVec 16), a.adll.toNat ≤ a.adul.toNat →
      (a.accepts true result ≠ a.accepts false result ↔ a.comparison_bits result ≠ a.adul)) ∧
    (Complementary p.2 ↔
      Reachable (side_by_side F) (fun p a => SelectOnly p a ∧ OffLimit p a) p) := by
  refine ⟨fun a result hlimits => accepts_iff hlimits result, ?_⟩
  -- A log that is complementary was so after every step, so every step was off
  -- the limit.
  constructor
  · intro hlog
    induction h with
    | init hi => exact .init hi
    | step a hreach hselect hstep ih =>
      have hboth := (complementary_step (beside_of_reachable hreach) hselect hstep).mp hlog
      exact .step a (ih hboth.1) ⟨hselect, hboth.2⟩ hstep
  · intro hreach
    clear h
    induction hreach with
    | init hi =>
      rw [hi.2]
      exact .nil
    | step a hreach hok hstep ih =>
      have hbeside := beside_of_reachable (hreach.mono fun _ _ h => h.1)
      exact (complementary_step hbeside hok.1 hstep).mpr ⟨ih, hok.2⟩

instance (p : (Sim F × Sim F) × List Conversion × List Conversion) (a : Act F) :
    Decidable (SelectOnly p a) :=
  match a with
  | .reset => .isFalse id
  | .pop_due => inferInstanceAs (Decidable (p.1.1.converted ≠ [] →
      p.1.1.unit.convert_mode = .Select ∧ p.1.1.unit.adll.toNat ≤ p.1.1.unit.adul.toNat))
  | .write _ _ | .set_voltage _ _ | .set_f_clk _ | .advance _ | .schedule_other _ _
  | .cancel_other _ => .isTrue trivial

/-- Two new units, the second with `ADRCK` set. -/
def power_on_twins : (Sim Empty × Sim Empty) × List Conversion × List Conversion :=
  ((power_on.1, { power_on.1 with unit := new.write_adm2 0x08 }), [], [])

theorem init_power_on_twins : (side_by_side Empty).init power_on_twins := by
  have hflipped : Reachable (runs Empty) AnyAct
      ({ power_on.1 with unit := new.write_adm2 0x08 }, []) :=
    .step (.write .Adm2 0x08) (.init init_power_on) trivial rfl
  refine ⟨⟨⟨[], .init init_power_on⟩, ⟨[], hflipped⟩, ?_, rfl, rfl⟩, rfl⟩
  exact ⟨false, fun _ => 0, 0, rfl⟩

/-- A quarter of the reference voltage is in the window of the first unit, so only
    that one drives its line. -/
theorem range_modes_partition_quarter : ∃ p, Reachable (side_by_side Empty) SelectOnly p ∧
    p.2 = ([⟨0x4000, true, 1⟩], [⟨0x4000, false, 0⟩]) ∧
      Reachable (side_by_side Empty) (fun p a => SelectOnly p a ∧ OffLimit p a) p := by
  obtain ⟨p, hreach, hlog⟩ : ∃ p, Reachable (side_by_side Empty) SelectOnly p ∧
      p.2 = ([⟨0x4000, true, 1⟩], [⟨0x4000, false, 0⟩]) :=
    Reachable.exists_of_exec [.set_voltage 0 1250000, .write .Adul 0x80, .write .Adm0 0x80,
      .advance 72000, .pop_due] init_power_on_twins (by decide +kernel)
  refine ⟨p, hreach, hlog, (range_modes_partition hreach).2.mp ?_⟩
  rw [hlog]
  exact .cons ⟨rfl, rfl⟩ .nil

/-- Half of the reference voltage, in ten bits: with `ADUL` at it, the conversion is
    accepted under both settings. -/
theorem range_modes_overlap : ∃ a : AdcUnit, a.adll.toNat ≤ a.adul.toNat ∧
    a.fetch_result = 0x8000 ∧ a.accepts true a.fetch_result = true ∧
      a.accepts false a.fetch_result = true := by
  refine ⟨{ new with adul := 0x80, voltages := fun _ => 2500000 }, ?_⟩
  decide

end AdcUnit

end Rl78Sim
