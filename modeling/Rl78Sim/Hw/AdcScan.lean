import Rl78Sim.Hw.AdcRuns

/-! # Scans

    From a start on, until `ADM0`, `ADM1` or `ADS` is written again, the
    conversions come in scans: of four in scan mode, of one in select mode. A scan
    drives `INTAD` once, at its end, if one of its conversions satisfied the range
    test. A one-shot start ends with its first scan.
-/

namespace Rl78Sim

open Transition Adc

namespace AdcUnit

variable {F : Type}

/-- The conversions of a scan. -/
def scan_length : ConvertMode → Nat
  | .Select => 1
  | .Scan => scan_channels

/-- The step starts a conversion. -/
def Starts (s : Sim F) : Act F → Prop
  | .write .Adm0 value => value.getLsbD 7 = true
  | .write .Ads _ => s.unit.conversion_running = true
  | _ => False

/-- `ADM0`, `ADM1` and `ADS` are not written, and the unit is not reset. -/
def Undisturbed (_ : Sim F × List Conversion) : Act F → Prop
  | .write .Adm0 _ | .write .Adm1 _ | .write .Ads _ | .reset => False
  | _ => True

/-- The clock runs before and after the step, and virtual time has not come to its
    end. -/
def Clocked (s : Sim F × List Conversion) (a : Act F) : Prop :=
  s.1.f_clk.Runs ∧ (∀ f_clk, a = .set_f_clk f_clk → f_clk.Runs) ∧ s.1.ctl.now < u64_max

/-- The conversions since the last scan of `n` was complete. -/
def open_scan (n : Nat) (done : List Conversion) : List Conversion :=
  done.drop (done.length / n * n)

/-- A conversion drives `INTAD` exactly when it ends a scan in which one has
    satisfied the range test. -/
def Pulsed (n : Nat) (done : List Conversion) : Prop :=
  ∀ before c after, done = before ++ c :: after →
    c.pulses = if (before.length + 1) % n = 0 ∧ (open_scan n before ++ [c]).any Conversion.valid
      then 1 else 0

/-- What has come of a start in `s₁`: the conversions `done`. -/
structure Course (s₁ s : Sim F × List Conversion) (done : List Conversion) : Prop where
  log : s.2 = s₁.2 ++ done
  irq_out : s.1.unit.irq_out = s₁.1.unit.irq_out + (done.map Conversion.pulses).sum
  pulsed : Pulsed (scan_length s₁.1.unit.convert_mode) done
  /-- A one-shot runs one scan, and `ADCS` tells when it has ended. -/
  oneshot : s₁.1.unit.operation_mode = .Oneshot →
    done.length ≤ scan_length s₁.1.unit.convert_mode ∧
      (s.1.unit.adcs = true ↔ done.length < scan_length s₁.1.unit.convert_mode)
  continuous : s₁.1.unit.operation_mode = .Continuous → s.1.unit.adcs = true

/-- The bits of a result. -/
def bits : Resolution → Nat
  | .Bits8 => 8
  | .Bits10 => 10
  | .Bits12 => 12

/-- Where a result of the resolution lies in its register: at the top for 8 and 10
    bits, at the bottom for 12. -/
def position : Resolution → Nat
  | .Bits8 => 8
  | .Bits10 => 6
  | .Bits12 => 0

/-- The top eight bits of a result, which the range test looks at. -/
def top_bits (resolution : Resolution) (result : BitVec 16) : Nat :=
  result.toNat / 2 ^ (position resolution + bits resolution - 8) % 256

/-- The range test: inside the window of `ADLL` and `ADUL`, or not strictly inside
    it when `ADRCK` asks for that. -/
def InRange (a : AdcUnit) (result : BitVec 16) : Prop :=
  if a.interrupt_in_range then
    a.adll.toNat ≤ top_bits a.resolution result ∧ top_bits a.resolution result ≤ a.adul.toNat
  else
    top_bits a.resolution result < a.adll.toNat ∨ a.adul.toNat ≤ top_bits a.resolution result

/-- What the conversion `c` makes of the registers: `ADCR` takes the first result of
    a scan, and of `ADCR0` to `ADCR3` the one of the scan index takes a result that
    satisfies the range test. -/
structure Stores (a a' : AdcUnit) (c : Conversion) : Prop where
  running : a.adcs = true
  result (ch : Fin 26) (hlt : ch.val + a.scan_index.val < adc_sources) :
    a.input_source = .Ani ch → c.result = BitVec.ofNat 16 (min (2 ^ bits a.resolution - 1)
      ((max (a.voltages ⟨ch.val + a.scan_index.val, hlt⟩) 0).toNat * 2 ^ bits a.resolution /
        5000000)) <<< position a.resolution
  valid : c.valid = true ↔ InRange a c.result
  adcr : a'.adcr = if a.scan_index = 0 then c.result else a.adcr
  scan_adcr (i : Fin scan_channels) :
    a'.scan_adcr i = if i = a.scan_index ∧ c.valid = true then c.result else a.scan_adcr i
  irq_out : a'.irq_out = a.irq_out + c.pulses

/-- What a step makes of the result registers: a conversion stores its result, a
    reset clears them, and any other step keeps them and all completions that a
    pop finds. -/
inductive Registers (s s' : Sim F × List Conversion) (a : Act F) : Prop where
  | converts (c : Conversion) (hpop : a = .pop_due) (hlog : s'.2 = s.2 ++ [c])
      (hstores : Stores s.1.unit s'.1.unit c)
  | clears (hreset : a = .reset) (hlog : s'.2 = s.2) (hadcr : s'.1.unit.adcr = 0)
      (hscan : ∀ i, s'.1.unit.scan_adcr i = 0)
  | keeps (hlog : s'.2 = s.2) (hadcr : s'.1.unit.adcr = s.1.unit.adcr)
      (hscan : s'.1.unit.scan_adcr = s.1.unit.scan_adcr)
      (hbooked : a = .pop_due → ∀ b ev, IsComplete s.1.ctl.events b ev →
        IsComplete s'.1.ctl.events b ev)

/-! ### Results -/

theorem adcs_eq (a : AdcUnit) : a.adcs = a.conversion_running := by
  have hbit (fr lv : BitVec 8) (scan comparator : BitVec 8) (hscan : scan.getLsbD 7 = false)
      (hcomparator : comparator.getLsbD 7 = false) (on : BitVec 8) :
      (on ||| scan ||| ((fr &&& 0x7#8) <<< 3) ||| ((lv &&& 0x3#8) <<< 1) ||| comparator).getLsbD 7 =
        on.getLsbD 7 := by
    have hfr : ((fr &&& 0x7#8) <<< 3).getLsbD 7 = false := by simp
    have hlv : ((lv &&& 0x3#8) <<< 1).getLsbD 7 = false := by simp
    simp only [BitVec.getLsbD_or, hscan, hfr, hlv, hcomparator, Bool.or_false]
  unfold adcs read_adm0
  rw [hbit]
  · cases a.conversion_running <;> rfl
  · split <;> rfl
  · split <;> rfl

/-- A channel of the converter, its index reached by the scan, is converted to a
    fraction of the reference, within the resolution. -/
theorem fetch_result_ani {a : AdcUnit} {ch : Fin 26} (hsource : a.input_source = .Ani ch)
    (hlt : ch.val + a.scan_index.val < adc_sources) :
    a.fetch_result = BitVec.ofNat 16 (min (2 ^ bits a.resolution - 1)
      ((max (a.voltages ⟨ch.val + a.scan_index.val, hlt⟩) 0).toNat * 2 ^ bits a.resolution /
        5000000)) <<< position a.resolution := by
  unfold fetch_result
  rw [hsource]
  dsimp only
  rw [dif_pos hlt]
  generalize a.voltages ⟨ch.val + a.scan_index.val, hlt⟩ = uv
  have hclamp : (max uv 0).toNat = uv.toNat := by omega
  -- The saturating product only matters far beyond the resolution.
  have hmin (scale top : Nat) (htop : top ≤ 4095) :
      min (min (uv.toNat * scale) i64_max / ref_uv) top = min top (uv.toNat * scale / 5000000) := by
    unfold i64_max ref_uv
    omega
  rw [hclamp]
  cases a.resolution with
  | Bits8 => exact congrArg (fun n => BitVec.ofNat 16 n <<< 8) (hmin 256 255 (by decide))
  | Bits10 => exact congrArg (fun n => BitVec.ofNat 16 n <<< 6) (hmin 1024 1023 (by decide))
  | Bits12 => exact congrArg (fun n => BitVec.ofNat 16 n <<< 0) (hmin 4096 4095 (by decide))

theorem comparison_bits_eq (a : AdcUnit) (result : BitVec 16) :
    (a.comparison_bits result).toNat = top_bits a.resolution result := by
  unfold comparison_bits top_bits
  cases a.resolution <;> simp [bits, position, Nat.shiftRight_eq_div_pow]

theorem is_valid_iff (a : AdcUnit) (result : BitVec 16) :
    a.is_valid result = true ↔ InRange a result := by
  unfold is_valid InRange
  rw [comparison_bits_eq]
  cases a.interrupt_in_range <;> simp

/-! ### Scans of conversions -/

theorem scan_length_pos (mode : ConvertMode) : 0 < scan_length mode := by
  cases mode <;> decide

@[simp] theorem open_scan_nil (n : Nat) : open_scan n [] = [] := by
  simp [open_scan]

/-- A conversion goes into the open scan, or ends it. -/
theorem open_scan_concat (n : Nat) (done : List Conversion) (c : Conversion) :
    open_scan n (done ++ [c]) =
      if (done.length + 1) % n = 0 then [] else open_scan n done ++ [c] := by
  have hdiv := Nat.div_add_mod (done.length + 1) n
  have hcomm : (done.length + 1) / n * n = n * ((done.length + 1) / n) := Nat.mul_comm _ _
  unfold open_scan
  rw [List.length_append, List.length_singleton]
  split
  · rename_i hend
    -- The scan is complete, so its end is that of the list.
    refine List.drop_eq_nil_of_le ?_
    rw [List.length_append, List.length_singleton]
    omega
  · rename_i hopen
    have hsame : (done.length + 1) / n = done.length / n := by
      refine Nat.succ_div_of_not_dvd ?_
      rwa [Nat.dvd_iff_mod_eq_zero]
    rw [hsame]
    exact List.drop_append_of_le_length (Nat.div_mul_le_self _ _)

theorem pulsed_nil (n : Nat) : Pulsed n [] := by
  intro before c after h
  cases before <;> cases h

theorem Pulsed.concat {n : Nat} {done : List Conversion} (h : Pulsed n done) {c : Conversion}
    (hc : c.pulses = if (done.length + 1) % n = 0 ∧
      (open_scan n done ++ [c]).any Conversion.valid then 1 else 0) : Pulsed n (done ++ [c]) := by
  intro before c' after heq
  rcases List.eq_nil_or_concat after with rfl | ⟨after', last, rfl⟩
  · obtain ⟨rfl, hlast⟩ := List.append_inj' heq rfl
    obtain rfl : c = c' := by simpa using hlast
    exact hc
  · rw [List.concat_eq_append, ← List.cons_append, ← List.append_assoc] at heq
    obtain ⟨hdone, -⟩ := List.append_inj' heq rfl
    exact h before c' after' hdone

/-! ### One conversion -/

/-- The index of the next conversion, for a unit that has done `len` of them. -/
theorem finish_index {a : AdcUnit} {len : Nat}
    (hindex : a.scan_index.val = len % scan_length a.convert_mode) :
    a.finish.scan_index.val = (len + 1) % scan_length a.convert_mode := by
  simp only [finish]
  cases hmode : a.convert_mode with
  | Select =>
    rw [hmode] at hindex
    simp only [scan_length] at hindex ⊢
    simp only [reduceCtorEq, if_false]
    omega
  | Scan =>
    rw [hmode] at hindex
    simp only [scan_length] at hindex ⊢
    rw [if_pos trivial, Fin.val_add, hindex]
    simp [scan_channels]

/-- What a conversion makes of the flag and of the interrupt line. -/
theorem finish_hit (a : AdcUnit) :
    (a.finish.range_hit = if a.finish.scan_index = 0 then false
      else a.range_hit || a.is_valid a.fetch_result) ∧
    a.finish.irq_out = a.irq_out + if a.finish.scan_index = 0 ∧
      (a.range_hit || a.is_valid a.fetch_result) = true then 1 else 0 := by
  have hirq : a.finish.irq_out = if a.finish.scan_index = 0 ∧
      (a.range_hit || a.is_valid a.fetch_result) = true then a.irq_out + 1 else a.irq_out := rfl
  refine ⟨rfl, ?_⟩
  rw [hirq]
  split
  · rfl
  · rfl

/-- A completion leaves the unit as the conversion does, but for the record of
    the next one. -/
theorem complete_unit (f_clk : Hertz) (ctl : EventCtl (AdcEvent F)) (a : AdcUnit) (at_ : Nat) :
    ∃ id, (a.complete .complete f_clk ctl at_).1 = { a.finish with expire_id := id } := by
  rcases complete_cases f_clk ctl a at_ with hend | ⟨-, deadline, hnext⟩
  · rw [hend]
    exact ⟨none, rfl⟩
  · rw [hnext]
    exact ⟨_, record_fields _ _ _⟩

/-- A start leaves a scan that has not begun. -/
theorem start_unit (f_clk : Hertz) (ctl : EventCtl (AdcEvent F)) (a : AdcUnit) :
    ∃ id, (a.start .complete f_clk ctl).1 =
      { a with
        generation := a.generation + 1
        scan_index := 0
        range_hit := false
        expire_id := id } := by
  unfold start
  dsimp only
  unfold schedule
  split
  · exact ⟨none, rfl⟩
  · split
    · exact ⟨none, rfl⟩
    · exact ⟨_, rfl⟩

/-! ### The result registers -/

theorem finish_stores {a a' : AdcUnit} (hrun : a.conversion_running = true) {id : Option Nat}
    (hunit : a' = { a.finish with expire_id := id }) :
    Stores a a' ⟨a.fetch_result, a.is_valid a.fetch_result, a'.irq_out - a.irq_out⟩ where
  running := by
    rw [adcs_eq]
    exact hrun
  result ch hlt hsource := fetch_result_ani hsource hlt
  valid := is_valid_iff a a.fetch_result
  adcr := by
    rw [hunit]
    rfl
  scan_adcr i := by
    have hscan : a'.scan_adcr = if a.is_valid a.fetch_result then
        Function.update a.scan_adcr a.scan_index a.fetch_result else a.scan_adcr := by
      rw [hunit]
      rfl
    rw [hscan]
    by_cases hvalid : a.is_valid a.fetch_result = true
    · simp [hvalid, Function.update_apply]
    · simp [hvalid]
  irq_out := by
    have hirq : a'.irq_out = a.finish.irq_out := by rw [hunit]
    rw [hirq, (finish_hit a).2, Nat.add_sub_cancel_left]

/-- A write does not reach the result registers. -/
theorem write_registers (a : AdcUnit) (f_clk : Hertz) (ctl : EventCtl (AdcEvent F))
    (reg : Register) (value : BitVec 8) :
    (a.write .complete f_clk ctl reg value).1.adcr = a.adcr ∧
      (a.write .complete f_clk ctl reg value).1.scan_adcr = a.scan_adcr := by
  cases reg with
  | Adm0 =>
    simp only [write, write_adm0]
    split
    · obtain ⟨id, hunit⟩ := start_unit f_clk ctl { a with
        convert_mode := if value.getLsbD 6 then .Scan else .Select
        lv := (value >>> 1) &&& 0x3#8
        fr := (value >>> 3) &&& 0x7#8
        conversion_running := value.getLsbD 7
        comparator_enabled := value.getLsbD 0 }
      rw [hunit]
      exact ⟨rfl, rfl⟩
    · exact ⟨rfl, rfl⟩
  | Ads =>
    simp only [write, write_ads]
    split
    · obtain ⟨id, hunit⟩ := start_unit f_clk ctl { a with input_source := select_input value }
      rw [hunit]
      exact ⟨rfl, rfl⟩
    · exact ⟨rfl, rfl⟩
  | Adm1 | Adm2 | Adul | Adll | Adtes => exact ⟨rfl, rfl⟩

theorem registers_step {s s' : Sim F × List Conversion} (hok : Ok s.1.unit s.1.ctl) {a : Act F}
    (hstep : (runs F).step s a = some s') : Registers s s' a := by
  obtain ⟨hact, hnote⟩ := System.logged_step_cases hstep
  obtain ⟨next, log⟩ := s'
  replace hact : s.1.step a = some next := hact
  cases a with
  | write reg value =>
    obtain ⟨hadcr, hscan⟩ := write_registers s.1.unit s.1.f_clk s.1.ctl reg value
    obtain rfl := Option.some.inj hact
    exact .keeps hnote hadcr hscan nofun
  | set_voltage index uv =>
    obtain rfl := Option.some.inj hact
    have hsame : (s.1.unit.set_voltage index uv).adcr = s.1.unit.adcr ∧
        (s.1.unit.set_voltage index uv).scan_adcr = s.1.unit.scan_adcr := by
      unfold set_voltage
      split
      · exact ⟨rfl, rfl⟩
      · exact ⟨rfl, rfl⟩
    exact .keeps hnote hsame.1 hsame.2 nofun
  | reset =>
    obtain rfl := Option.some.inj hact
    exact .clears rfl hnote rfl fun _ => rfl
  | pop_due =>
    have hpopped : s.1.pop_due = next := Option.some.inj hact
    have hlog : log = s.2 ++ s.1.converted := hnote
    rcases pop_cases hok with ⟨hpop, hnone, -, hsame⟩ | ⟨ev, hrun, -, -, hpop, hone⟩
    · rw [hnone, List.append_nil] at hlog
      rw [hpop] at hpopped
      subst hpopped
      exact .keeps hlog rfl rfl fun _ b ev hb => (hsame b ev).mpr hb
    · obtain ⟨id, hunit⟩ := complete_unit s.1.f_clk s.1.ctl.pop_due.1 s.1.unit ev.at_
      rw [hone, hpopped] at hlog
      rw [hpop] at hpopped
      have hnext : next.unit = { s.1.unit.finish with expire_id := id } := by
        rw [← hpopped]
        exact hunit
      exact .converts _ rfl hlog (finish_stores hrun hnext)
  | set_f_clk f_clk | advance delta | schedule_other at_ event =>
    obtain rfl := Option.some.inj hact
    exact .keeps hnote rfl rfl nofun
  | cancel_other id =>
    obtain ⟨hcancel, -⟩ := cancel_other_cases hok hact
    subst hcancel
    exact .keeps hnote rfl rfl nofun

/-! ### Every step -/

/-- What a start needs to go on: `Course`, and how far the open scan has come. -/
structure Going (s₁ s : Sim F × List Conversion) (done : List Conversion) : Prop where
  log : s.2 = s₁.2 ++ done
  irq_out : s.1.unit.irq_out = s₁.1.unit.irq_out + (done.map Conversion.pulses).sum
  pulsed : Pulsed (scan_length s₁.1.unit.convert_mode) done
  convert_mode : s.1.unit.convert_mode = s₁.1.unit.convert_mode
  operation_mode : s.1.unit.operation_mode = s₁.1.unit.operation_mode
  index : s.1.unit.scan_index.val = done.length % scan_length s₁.1.unit.convert_mode
  hit : s.1.unit.range_hit =
    (open_scan (scan_length s₁.1.unit.convert_mode) done).any Conversion.valid
  running : s.1.unit.conversion_running = true ↔ ¬ (s₁.1.unit.operation_mode = .Oneshot ∧
    scan_length s₁.1.unit.convert_mode ≤ done.length)
  bound : s₁.1.unit.operation_mode = .Oneshot →
    done.length ≤ scan_length s₁.1.unit.convert_mode

/-- The parts of the unit that a scan depends on. -/
structure SameScan (a a' : AdcUnit) : Prop where
  irq_out : a'.irq_out = a.irq_out
  convert_mode : a'.convert_mode = a.convert_mode
  operation_mode : a'.operation_mode = a.operation_mode
  scan_index : a'.scan_index = a.scan_index
  range_hit : a'.range_hit = a.range_hit
  conversion_running : a'.conversion_running = a.conversion_running

theorem Going.same {s₁ s s' : Sim F × List Conversion} {done : List Conversion}
    (h : Going s₁ s done) (hunit : SameScan s.1.unit s'.1.unit) (hlog : s'.2 = s.2) :
    Going s₁ s' done where
  log := hlog.trans h.log
  irq_out := hunit.irq_out.trans h.irq_out
  pulsed := h.pulsed
  convert_mode := hunit.convert_mode.trans h.convert_mode
  operation_mode := hunit.operation_mode.trans h.operation_mode
  index := by
    rw [hunit.scan_index]
    exact h.index
  hit := hunit.range_hit.trans h.hit
  running := by
    rw [hunit.conversion_running]
    exact h.running
  bound := h.bound

/-- A conversion is completed. -/
theorem Going.convert {s₁ s s' : Sim F × List Conversion} {done : List Conversion}
    (h : Going s₁ s done) (hrun : s.1.unit.conversion_running = true) {id : Option Nat}
    (hunit : s'.1.unit = { s.1.unit.finish with expire_id := id })
    (hlog : s'.2 = s.2 ++ [⟨s.1.unit.fetch_result, s.1.unit.is_valid s.1.unit.fetch_result,
      s'.1.unit.irq_out - s.1.unit.irq_out⟩]) :
    ∃ c, Going s₁ s' (done ++ [c]) := by
  -- The scan index is the number of conversions modulo the length of the scan,
  -- and a scan ends when it comes back to zero.
  have hindex : s.1.unit.finish.scan_index.val =
      (done.length + 1) % scan_length s₁.1.unit.convert_mode := by
    rw [← h.convert_mode]
    refine finish_index ?_
    rw [h.convert_mode]
    exact h.index
  have hends : s.1.unit.finish.scan_index = 0 ↔
      (done.length + 1) % scan_length s₁.1.unit.convert_mode = 0 := by
    rw [← hindex]
    exact Fin.ext_iff
  obtain ⟨hhit, hirq⟩ := finish_hit s.1.unit
  generalize hc : (⟨s.1.unit.fetch_result, s.1.unit.is_valid s.1.unit.fetch_result,
    s'.1.unit.irq_out - s.1.unit.irq_out⟩ : Conversion) = c at hlog
  have hvalid : c.valid = s.1.unit.is_valid s.1.unit.fetch_result := by
    rw [← hc]
  have hany : (open_scan (scan_length s₁.1.unit.convert_mode) done ++ [c]).any Conversion.valid =
      (s.1.unit.range_hit || s.1.unit.is_valid s.1.unit.fetch_result) := by
    rw [List.any_append, ← h.hit, List.any_cons, List.any_nil, hvalid, Bool.or_false]
  have hout : s'.1.unit.irq_out = s.1.unit.finish.irq_out := by
    rw [hunit]
  have hpulses : c.pulses = if (done.length + 1) % scan_length s₁.1.unit.convert_mode = 0 ∧
      (open_scan (scan_length s₁.1.unit.convert_mode) done ++ [c]).any Conversion.valid
        then 1 else 0 := by
    rw [hany, ← hc, hout, hirq, Nat.add_sub_cancel_left]
    simp only [hends]
  refine ⟨c, ?_, ?_, h.pulsed.concat hpulses, ?_, ?_, ?_, ?_, ?_, ?_⟩
  · rw [hlog, h.log, List.append_assoc]
  · -- The line counts what the conversion has driven.
    rw [List.map_append, List.sum_append, List.map_singleton, List.sum_singleton, ← Nat.add_assoc,
      ← h.irq_out, ← hc]
    dsimp only
    rw [hout, hirq]
    omega
  · rw [hunit]
    exact h.convert_mode
  · rw [hunit]
    exact h.operation_mode
  · rw [hunit, List.length_append, List.length_singleton]
    exact hindex
  -- The flag stands for a hit in the scan that is still open.
  · rw [hunit, open_scan_concat]
    dsimp only
    rw [hhit]
    by_cases hend : s.1.unit.finish.scan_index = 0
    · rw [if_pos hend, if_pos (hends.mp hend)]
      rfl
    · rw [if_neg hend, if_neg fun h => hend (hends.mpr h)]
      exact hany.symm
  · rw [hunit]
    dsimp only
    rw [finish_running, h.operation_mode, List.length_append, List.length_singleton]
    have hmore := h.running.mp hrun
    -- A one-shot stops after its first scan, so it was not at the end before.
    by_cases hend : s₁.1.unit.operation_mode = .Oneshot ∧ s.1.unit.finish.scan_index = 0
    · rw [if_pos hend]
      have hdvd := hends.mp hend.2
      have hle := Nat.le_of_dvd (Nat.succ_pos _) (Nat.dvd_of_mod_eq_zero hdvd)
      simp only [Bool.false_eq_true, false_iff, not_not]
      exact ⟨hend.1, hle⟩
    · rw [if_neg hend]
      simp only [hrun, true_iff]
      rintro ⟨honeshot, hle⟩
      have hlt : done.length < scan_length s₁.1.unit.convert_mode := by
        by_contra hge
        exact hmore ⟨honeshot, by omega⟩
      have hlast : done.length + 1 = scan_length s₁.1.unit.convert_mode := by omega
      refine hend ⟨honeshot, hends.mpr ?_⟩
      rw [hlast]
      exact Nat.mod_self _
  · intro honeshot
    have hmore := h.running.mp hrun
    rw [List.length_append, List.length_singleton]
    by_contra hge
    exact hmore ⟨honeshot, by omega⟩

theorem SameScan.refl (a : AdcUnit) : SameScan a a := ⟨rfl, rfl, rfl, rfl, rfl, rfl⟩

/-- The unit after a step that starts a conversion. -/
theorem starts_unit {s s' : Sim F} {a : Act F} (hstarts : Starts s a) (hstep : s.step a = some s') :
    s'.unit.conversion_running = true ∧ s'.unit.scan_index = 0 ∧ s'.unit.range_hit = false := by
  cases a with
  | write reg value =>
    cases reg with
    | Adm0 =>
      have hon : value.getLsbD 7 = true := hstarts
      obtain rfl := Option.some.inj hstep
      simp only [Sim.next, write, write_adm0, hon, if_true]
      refine ⟨?_, ?_, ?_⟩
      all_goals
        obtain ⟨id, hunit⟩ := start_unit s.f_clk s.ctl _
        rw [hunit]
    | Ads =>
      have hon : s.unit.conversion_running = true := hstarts
      obtain rfl := Option.some.inj hstep
      simp only [Sim.next, write, write_ads, hon, if_true]
      refine ⟨?_, ?_, ?_⟩
      all_goals
        obtain ⟨id, hunit⟩ := start_unit s.f_clk s.ctl _
        rw [hunit]
    | Adm1 | Adm2 | Adul | Adll | Adtes => cases hstarts
  | _ => cases hstarts

/-- A start has done no conversion yet. -/
theorem Going.start {s₀ s₁ : Sim F × List Conversion} {a : Act F} (hstarts : Starts s₀.1 a)
    (hstep : s₀.1.step a = some s₁.1) : Going s₁ s₁ [] := by
  obtain ⟨hrun, hindex, hhit⟩ := starts_unit hstarts hstep
  have hn := scan_length_pos s₁.1.unit.convert_mode
  refine ⟨(List.append_nil _).symm, rfl, pulsed_nil _, rfl, rfl, ?_, ?_, ?_, ?_⟩
  · rw [hindex]
    exact (Nat.zero_mod _).symm
  · rw [hhit, open_scan_nil]
    rfl
  · rw [hrun]
    simp only [List.length_nil, true_iff, not_and]
    intro _
    omega
  · intro _
    exact Nat.zero_le _

/-- An undisturbed step goes on with the scan. -/
theorem Going.step {s₁ s s' : Sim F × List Conversion} {done : List Conversion}
    (h : Going s₁ s done) (hok : Ok s.1.unit s.1.ctl) {a : Act F} (hcalm : Undisturbed s a)
    (hstep : (runs F).step s a = some s') : ∃ done, Going s₁ s' done := by
  obtain ⟨hact, hnote⟩ := System.logged_step_cases hstep
  replace hact : s.1.step a = some s'.1 := hact
  have hsame (hunit : SameScan s.1.unit s'.1.unit) (hlog : s'.2 = s.2) : ∃ done, Going s₁ s' done :=
    ⟨done, h.same hunit hlog⟩
  cases a with
  | write reg value =>
    have hact := Option.some.inj hact
    refine hsame ?_ hnote
    rw [← hact]
    cases reg with
    | Adm0 | Ads | Adm1 => exact hcalm.elim
    | Adm2 | Adul | Adll | Adtes => exact ⟨rfl, rfl, rfl, rfl, rfl, rfl⟩
  | set_voltage index uv =>
    refine hsame ?_ hnote
    rw [← Option.some.inj hact]
    dsimp only
    unfold set_voltage
    split
    · exact ⟨rfl, rfl, rfl, rfl, rfl, rfl⟩
    · exact .refl _
  | reset => exact hcalm.elim
  | pop_due =>
    have hpopped : s.1.pop_due = s'.1 := Option.some.inj hact
    have hlog : s'.2 = s.2 ++ s.1.converted := hnote
    -- Only the completion of the present start converts.
    rcases pop_cases hok with ⟨hpop, hnone, -⟩ | ⟨ev, hrun, -, -, hpop, hone⟩
    · refine hsame ?_ ?_
      · rw [← hpopped, hpop]
        exact .refl _
      · rw [hlog, hnone, List.append_nil]
    · obtain ⟨id, hunit⟩ := complete_unit s.1.f_clk s.1.ctl.pop_due.1 s.1.unit ev.at_
      rw [hone, hpopped] at hlog
      rw [hpop] at hpopped
      have hunit' : s'.1.unit = { s.1.unit.finish with expire_id := id } := by
        rw [← hpopped]
        exact hunit
      obtain ⟨c, hgoing⟩ := h.convert hrun hunit' hlog
      exact ⟨_, hgoing⟩
  | set_f_clk f_clk | advance delta | schedule_other at_ event =>
    refine hsame ?_ hnote
    rw [← Option.some.inj hact]
    exact .refl _
  | cancel_other id =>
    obtain ⟨hcancel, -⟩ := cancel_other_cases hok hact
    refine hsame ?_ hnote
    rw [hcancel]
    exact .refl _

theorem going_of_path {s₁ s : Sim F × List Conversion} (hok : Ok s₁.1.unit s₁.1.ctl)
    (h : Going s₁ s₁ []) (hpath : Path (runs F) Undisturbed s₁ s) :
    Ok s.1.unit s.1.ctl ∧ ∃ done, Going s₁ s done := by
  induction hpath with
  | refl => exact ⟨hok, [], h⟩
  | tail a _ hcalm hstep ih =>
    obtain ⟨hok, done, hgoing⟩ := ih
    exact ⟨hok.step (System.logged_step_cases hstep).1, hgoing.step hok hcalm hstep⟩

theorem Going.course {s₁ s : Sim F × List Conversion} {done : List Conversion}
    (h : Going s₁ s done) : Course s₁ s done where
  log := h.log
  irq_out := h.irq_out
  pulsed := h.pulsed
  oneshot honeshot := by
    refine ⟨h.bound honeshot, ?_⟩
    rw [adcs_eq, h.running]
    simp [honeshot]
  continuous hmode := by
    rw [adcs_eq, h.running, hmode]
    simp

/-! ### Under a running clock -/

/-- A completion is pending while the unit converts. -/
def Pending (s : Sim F) : Prop :=
  s.unit.conversion_running = true → ∃ b ev, IsComplete s.ctl.events b ev

theorem clock_divider_pos (a : AdcUnit) : 1 ≤ a.clock_divider := by
  unfold clock_divider
  split
  · split <;> decide
  · split <;> decide

theorem conversion_cycles_pos (a : AdcUnit) : 1 ≤ a.conversion_cycles := by
  unfold conversion_cycles
  split <;> decide

/-- With at most a clock in a nanosecond, no conversion is done in no time. -/
theorem duration_pos (a : AdcUnit) {f_clk : Hertz} (hclock : f_clk.hz ≠ 0)
    (hslow : f_clk.hz ≤ ns_per_sec) {adc_clocks : Nat} (hclocks : 1 ≤ adc_clocks) :
    ∃ period, a.duration f_clk adc_clocks = some period ∧ period ≠ 0 := by
  have hcycles : 1 ≤ saturating_mul adc_clocks a.clock_divider :=
    one_le_saturating_mul hclocks a.clock_divider_pos
  have hticks : ns_per_sec ≤
      saturating_mul (saturating_mul adc_clocks a.clock_divider) ns_per_sec := by
    refine Nat.le_min.mpr ⟨?_, by decide⟩
    exact Nat.le_mul_of_pos_left _ hcycles
  unfold duration Hertz.cycles_to_tick
  rw [if_neg hclock]
  refine ⟨_, rfl, ?_⟩
  exact Nat.ne_of_gt (Nat.div_pos (Nat.le_trans hslow hticks) (Nat.pos_of_ne_zero hclock))

/-- Before the end of time the catch-up loop finds a deadline that is still to
    come. -/
theorem skip_past_isSome {period now : Nat} (hperiod : period ≠ 0) (hnow : now < u64_max)
    {rounds deadline : Nat} (henough : now + 1 ≤ deadline + rounds) :
    ∃ next, skip_past period now rounds deadline = some next ∧ now < next := by
  induction rounds generalizing deadline with
  | zero =>
    unfold skip_past
    rw [if_neg (by omega)]
    exact ⟨deadline, rfl, by omega⟩
  | succ rounds ih =>
    unfold skip_past
    split
    · -- The deadline has passed, so the next one does not saturate below it.
      refine ih ?_
      unfold saturating_add
      omega
    · exact ⟨deadline, rfl, by omega⟩

theorem pending_record {a : AdcUnit} {ctl : EventCtl (AdcEvent F)} (hsound : ctl.events.Sound)
    (hidle : Idle slot ctl.events ()) (at_ : Nat) :
    ∃ b ev, IsComplete (a.record .complete ctl at_).2.events b ev :=
  ⟨_, _, (isComplete_record hsound hidle at_).mpr ⟨rfl, rfl⟩⟩

theorem pending_start {a : AdcUnit} {ctl : EventCtl (AdcEvent F)}
    (hrec : Recorded slot a.ids ctl.events) {f_clk : Hertz} (hclock : f_clk.Runs) :
    ∃ b ev, IsComplete (a.start .complete f_clk ctl).2.events b ev := by
  obtain ⟨hcancel, hidle⟩ := idle_cancel hrec
  have hslow : f_clk.hz ≤ ns_per_sec := Nat.le_trans hclock.le (by decide)
  unfold start
  dsimp only
  obtain ⟨period, hperiod, hne⟩ := duration_pos
    { (a.cancel_pending ctl).1 with scan_index := 0, range_hit := false } hclock.1 hslow
    (one_le_saturating_add (one_le_saturating_add (conversion_cycles_pos _)))
  unfold schedule first_duration
  rw [hperiod]
  dsimp only
  rw [if_neg hne]
  exact pending_record hcancel.sound hidle _

/-- Unless a one-shot has ended, a completion books the next one. -/
theorem pending_complete {a : AdcUnit} {ctl : EventCtl (AdcEvent F)}
    (hsound : ctl.events.Sound) (hidle : Idle slot ctl.events ()) {f_clk : Hertz}
    (hclock : f_clk.Runs) (hnow : ctl.now < u64_max) (at_ : Nat)
    (hgoes : ¬ (a.operation_mode = .Oneshot ∧ a.finish.scan_index = 0)) :
    ∃ b ev, IsComplete (a.complete .complete f_clk ctl at_).2.events b ev := by
  have hslow : f_clk.hz ≤ ns_per_sec := Nat.le_trans hclock.le (by decide)
  obtain ⟨period, hperiod, hne⟩ := duration_pos a.finish hclock.1 hslow
    (one_le_saturating_add (b := a.finish.interrupt_delay_cycles) (conversion_cycles_pos _))
  have henough : ctl.now + 1 ≤
      saturating_add at_ period + (ctl.now + 1 - saturating_add at_ period) := by
    omega
  obtain ⟨deadline, hdeadline, -⟩ := skip_past_isSome hne hnow henough
  unfold complete next_duration
  rw [if_neg hgoes, hperiod]
  dsimp only
  rw [if_neg hne, hdeadline]
  exact pending_record hsound hidle _

/-- A start books a completion. -/
theorem started_pending {s s' : Sim F} (hok : Ok s.unit s.ctl) (hclock : s.f_clk.Runs) {a : Act F}
    (hstarts : Starts s a) (hstep : s.step a = some s') :
    ∃ b ev, IsComplete s'.ctl.events b ev := by
  cases a with
  | write reg value =>
    obtain rfl := Option.some.inj hstep
    cases reg with
    | Adm0 =>
      have hon : value.getLsbD 7 = true := hstarts
      simp only [Sim.next, write, write_adm0, hon, if_true]
      refine pending_start ?_ hclock
      exact hok.records
    | Ads =>
      have hon : s.unit.conversion_running = true := hstarts
      simp only [Sim.next, write, write_ads, hon, if_true]
      refine pending_start ?_ hclock
      exact hok.records
    | Adm1 | Adm2 | Adul | Adll | Adtes => cases hstarts
  | _ => cases hstarts

/-- An undisturbed step under a running clock leaves a completion pending while the
    unit converts. -/
theorem Pending.step {s s' : Sim F × List Conversion} (hok : Ok s.1.unit s.1.ctl)
    (h : Pending s.1) {a : Act F} (hclock : Clocked s a) (hcalm : Undisturbed s a)
    (hstep : s.1.step a = some s'.1) : Pending s'.1 := by
  intro hrun
  cases a with
  | write reg value =>
    have hact := Option.some.inj hstep
    rw [← hact] at hrun ⊢
    cases reg with
    | Adm0 | Adm1 | Ads => exact hcalm.elim
    | Adm2 | Adul | Adll | Adtes => exact h hrun
  | set_voltage index uv =>
    have hact := Option.some.inj hstep
    rw [← hact] at hrun ⊢
    refine h ?_
    have hsame : (s.1.unit.set_voltage index uv).conversion_running =
        s.1.unit.conversion_running := by
      unfold set_voltage
      split
      · rfl
      · rfl
    rwa [← hsame]
  | reset => exact hcalm.elim
  | pop_due =>
    have hpopped : s.1.pop_due = s'.1 := Option.some.inj hstep
    rcases pop_cases hok with ⟨hpop, -, -, hsame⟩ | ⟨ev, -, hrec, hidle, hpop, -⟩
    · rw [hpop] at hpopped
      rw [← hpopped] at hrun ⊢
      obtain ⟨b, ev, hb⟩ := h hrun
      exact ⟨b, ev, (hsame b ev).mpr hb⟩
    · rw [hpop] at hpopped
      rw [← hpopped] at hrun ⊢
      refine pending_complete hrec.sound hidle hclock.1 hclock.2.2 ev.at_ ?_
      intro hends
      -- A one-shot that has ended does not run.
      obtain ⟨id, hunit⟩ := complete_unit s.1.f_clk s.1.ctl.pop_due.1 s.1.unit ev.at_
      replace hrun : (s.1.unit.complete .complete s.1.f_clk s.1.ctl.pop_due.1
        ev.at_).1.conversion_running = true := hrun
      rw [hunit] at hrun
      replace hrun : s.1.unit.finish.conversion_running = true := hrun
      rw [finish_running, if_pos hends] at hrun
      cases hrun
  | set_f_clk f_clk | advance delta =>
    have hact := Option.some.inj hstep
    rw [← hact] at hrun ⊢
    exact h hrun
  | schedule_other at_ event =>
    have hact := Option.some.inj hstep
    rw [← hact] at hrun ⊢
    obtain ⟨b, ev, hb⟩ := h hrun
    exact ⟨b, ev, (isComplete_schedule_other hok.records.sound at_ event b ev).mpr hb⟩
  | cancel_other id =>
    obtain ⟨hcancel, -, hsame⟩ := cancel_other_cases hok hstep
    rw [hcancel] at hrun ⊢
    obtain ⟨b, ev, hb⟩ := h hrun
    exact ⟨b, ev, (hsame b ev).mpr hb⟩

/-! ### The law -/

/-- In every run at most one completion is live, recorded and of the present
    start. A step that completes a conversion stores its result, which is as the
    voltage of the channel and the resolution say, and no other step but a reset
    changes the result registers. After a start, as long as it is undisturbed, the
    scans are as `Course` has them; and under a running clock a completion is
    pending until `ADCS` reads zero. -/
theorem adc_scan_law {s₀ : Sim F × List Conversion} (h : Reachable (runs F) AnyAct s₀) :
    (s₀.1.unit.scan_index.val < 4 ∧
      ∀ b ev, IsComplete s₀.1.ctl.events b ev →
        s₀.1.unit.expire_id = some b.id ∧ ev.generation = s₀.1.unit.generation ∧
          ∀ b' ev', IsComplete s₀.1.ctl.events b' ev' → b' = b) ∧
    (∀ a s₁, (runs F).step s₀ a = some s₁ → Registers s₀ s₁ a) ∧
    ∀ a s₁, Starts s₀.1 a → (runs F).step s₀ a = some s₁ →
      (∀ s, Path (runs F) Undisturbed s₁ s → ∃ done, Course s₁ s done) ∧
      ∀ s, Clocked s₀ a → Path (runs F) (fun s a => Undisturbed s a ∧ Clocked s a) s₁ s →
        s.1.unit.adcs = true → ∃ b ev, IsComplete s.1.ctl.events b ev := by
  have hok := ok_of_reachable h
  refine ⟨⟨s₀.1.unit.scan_index.isLt, ?_⟩, fun a s₁ hstep => registers_step hok hstep, ?_⟩
  · intro b ev hb
    exact ⟨hok.recorded hb, (hok.current hb).1, fun b' ev' hb' => hok.one hb' hb⟩
  · intro a s₁ hstarts hstep
    have hact := (System.logged_step_cases hstep).1
    have hok₁ := hok.step hact
    constructor
    · intro s hpath
      obtain ⟨-, done, hgoing⟩ := going_of_path hok₁ (.start hstarts hact) hpath
      exact ⟨done, hgoing.course⟩
    · intro s hclock hpath hadcs
      -- Along the path both invariants hold together; the clock is needed for the
      -- period of the next conversion.
      have hpending : Ok s.1.unit s.1.ctl ∧ Pending s.1 := by
        clear hadcs
        induction hpath with
        | refl =>
          refine ⟨hok₁, ?_⟩
          intro _
          exact started_pending hok hclock.1 hstarts hact
        | tail a _ hcalm hstep ih =>
          have hact := (System.logged_step_cases hstep).1
          exact ⟨ih.1.step hact, ih.2.step ih.1 hcalm.2 hcalm.1 hact⟩
      rw [adcs_eq] at hadcs
      exact hpending.2 hadcs

/-! ### A scan of four -/

instance (s : Sim F × List Conversion) (a : Act F) : Decidable (AnyAct s a) := .isTrue trivial

instance (s : Sim F × List Conversion) (a : Act F) : Decidable (Undisturbed s a) :=
  match a with
  | .write .Adm0 _ | .write .Adm1 _ | .write .Ads _ | .reset => .isFalse id
  | .write .Adm2 _ | .write .Adul _ | .write .Adll _ | .write .Adtes _ | .set_voltage _ _
  | .set_f_clk _ | .advance _ | .pop_due | .schedule_other _ _ | .cancel_other _ => .isTrue trivial

/-- A new unit at 32 MHz. -/
def power_on : Sim Empty × List Conversion := (⟨new, .new, .from_mhz 32⟩, [])

theorem init_power_on : (runs Empty).init power_on := ⟨⟨rfl, rfl⟩, rfl⟩

/-- Of four channels only the second has a voltage in the window; the interrupt
    comes with the last one, and the second register holds the result. -/
theorem adc_scan_law_four : ∃ (s₁ s s' : Sim Empty × List Conversion) (done : List Conversion),
    done.map Conversion.pulses = [0, 0, 0, 1] ∧ s.1.unit.adcs = false ∧ Course s₁ s done ∧
      s'.1.unit.scan_adcr 1 = 0x8000 ∧ s'.1.unit.adcr = 0 ∧
        ∃ s₂, (runs Empty).step s₂ .pop_due = some s' ∧ Registers s₂ s' .pop_due := by
  obtain ⟨s₀, s₁, hreach, hstep, hlog, hexec⟩ : ∃ s₀ s₁ : Sim Empty × List Conversion,
      Reachable (runs Empty) AnyAct s₀ ∧ (runs Empty).step s₀ (.write .Adm0 0xC0) = some s₁ ∧
        s₁.2 = [] ∧ (((runs Empty).exec Undisturbed s₁ [.advance 72000, .pop_due, .advance 68000,
          .pop_due, .advance 68000, .pop_due, .advance 68000, .pop_due]).any fun s =>
            s.2.map Conversion.pulses = [0, 0, 0, 1] ∧ s.1.unit.adcs = false) = true :=
    Reachable.exists_step_of_exec
      [.write .Adm1 0x20, .write .Adll 0x10, .set_voltage 1 2500000] init_power_on
      (by decide +kernel)
  obtain ⟨s, hpath, hpulses, hadcs⟩ := Path.exists_of_exec _ hexec
  have hstarts : Starts s₀.1 (.write .Adm0 0xC0) := show (0xC0#8).getLsbD 7 = true by decide
  obtain ⟨done, hcourse⟩ := ((adc_scan_law hreach).2.2 _ s₁ hstarts hstep).1 s hpath
  have hdone : s.2 = done := by
    rw [hcourse.log, hlog, List.nil_append]
  rw [hdone] at hpulses
  -- The second completion of the scan is the one that is stored.
  obtain ⟨s₂, s', hreach₂, hpop, hsecond, hfirst⟩ : ∃ s₂ s' : Sim Empty × List Conversion,
      Reachable (runs Empty) AnyAct s₂ ∧ (runs Empty).step s₂ .pop_due = some s' ∧
        s'.1.unit.scan_adcr 1 = 0x8000 ∧ s'.1.unit.adcr = 0 :=
    Reachable.exists_step_of_exec
      [.write .Adm1 0x20, .write .Adll 0x10, .set_voltage 1 2500000, .write .Adm0 0xC0,
        .advance 72000, .pop_due, .advance 68000] init_power_on (by decide +kernel)
  exact ⟨s₁, s, s', done, hpulses, hadcs, hcourse, hsecond, hfirst, s₂, hpop,
    (adc_scan_law hreach₂).2.1 _ _ hpop⟩

end AdcUnit

end Rl78Sim
