import Rl78Sim.Framework.Transition
import Rl78Sim.Hw.G23
import Rl78Sim.Kernel.Upkeep

/-! # What a Reset Leaves in the Queue

    The reset of the core clears no queue: each unit cancels its own events. The
    serial and the timer array unit and the converter have recorded theirs, and
    cancel them all. The semihosting window keeps no record, and cancels nothing. -/

namespace Rl78Sim

open SauUnit TauUnit Transition

namespace G23

variable {K W F α : Type}

/-! ### Whose event it is -/

def tau_slot : G23Event → Option (Fin tau_channels)
  | .other (.expire ev) => some ev.channel
  | _ => none

def adc_slot : G23Event → Option Unit
  | .other (.other (.adc _)) => some ()
  | _ => none

theorem tau_slot_of_tau (ev : TauEvent (SauEvent CoreEvent)) :
    tau_slot (G23Event.of_tau ev) = TauUnit.slot ev := by
  rcases ev with ev | (ch | ev) <;> rfl

theorem tau_slot_for_tau (ev : G23Event) : TauUnit.slot (G23Event.for_tau ev) = tau_slot ev := by
  rcases ev with ch | (ev | ev) <;> rfl

/-- An event is that of one unit, or it prints. -/
theorem owner_cases (ev : G23Event) :
    (∃ ch, SauUnit.slot ev = some ch) ∨ (∃ ch, tau_slot ev = some ch) ∨ adc_slot ev = some () ∨
      ev.is_print = true := by
  rcases ev with ch | (ev | (ev | ev))
  · exact .inl ⟨ch, rfl⟩
  · exact .inr (.inl ⟨ev.channel, rfl⟩)
  · exact .inr (.inr (.inl rfl))
  · exact .inr (.inr (.inr rfl))

theorem sau_apart {ev : G23Event} {ch : Fin sau_channels} (h : SauUnit.slot ev = some ch) :
    tau_slot ev = none ∧ adc_slot ev = none ∧ ev.is_print = false := by
  rcases ev with ch | ev
  · exact ⟨rfl, rfl, rfl⟩
  · cases h

theorem tau_apart {ev : G23Event} {ch : Fin tau_channels} (h : tau_slot ev = some ch) :
    SauUnit.slot ev = none ∧ adc_slot ev = none ∧ ev.is_print = false := by
  rcases ev with ch | (ev | ev)
  · cases h
  · exact ⟨rfl, rfl, rfl⟩
  · cases h

theorem adc_apart {ev : G23Event} {s : Unit} (h : adc_slot ev = some s) :
    SauUnit.slot ev = none ∧ tau_slot ev = none ∧ ev.is_print = false := by
  rcases ev with ch | (ev | (ev | ev))
  · cases h
  · cases h
  · exact ⟨rfl, rfl, rfl⟩
  · cases h

/-- An event that prints is of no unit. -/
theorem print_apart {ev : G23Event} (h : ev.is_print = true) :
    SauUnit.slot ev = none ∧ tau_slot ev = none ∧ adc_slot ev = none := by
  rcases ev with ch | (ev | (ev | ev))
  · cases h
  · cases h
  · cases h
  · exact ⟨rfl, rfl, rfl⟩

/-! ### The records of the units -/

/-- Each unit has its live events recorded. Since the queue was `q₀`, no event of
    its has come back, and no print has gone. -/
structure Kept (q₀ : EventQueue G23Event) (units : Units) (q : EventQueue G23Event) : Prop where
  sau : Recorded SauUnit.slot units.sau.tx_id q
  tau : Recorded tau_slot units.tau.expire_id q
  adc : Recorded adc_slot units.adc.ids q
  next : q₀.next_id ≤ q.next_id
  back {b : Booking G23Event} : q.Books b → b.id ≤ q₀.next_id → q₀.Books b
  prints {b : Booking G23Event} : q₀.Books b → b.event.is_print = true → q.Books b

namespace Kept

variable {q₀ q q' : EventQueue G23Event} {units units' : Units}

theorem new : Kept EventQueue.new Units.new EventQueue.new where
  sau := Recorded.new _
  tau := Recorded.new _
  adc := Recorded.new _
  next := Nat.le_refl _
  back hb _ := hb
  prints hb _ := hb

theorem refl (h : Kept q₀ units q) : Kept q units q :=
  ⟨h.sau, h.tau, h.adc, Nat.le_refl _, fun hb _ => hb, fun hb _ => hb⟩

theorem trans (h : Kept q₀ units q) (h' : Kept q units' q') : Kept q₀ units' q' where
  sau := h'.sau
  tau := h'.tau
  adc := h'.adc
  next := Nat.le_trans h.next h'.next
  back hb hle := h.back (h'.back hb (Nat.le_trans hle h.next)) hle
  prints hb hprint := h'.prints (h.prints hb hprint) hprint

/-- The units record the same. -/
theorem same (h : Kept q₀ units q) (hsau : units'.sau.tx_id = units.sau.tx_id)
    (htau : units'.tau.expire_id = units.tau.expire_id)
    (hadc : units'.adc.expire_id = units.adc.expire_id) : Kept q₀ units' q where
  sau := hsau ▸ h.sau
  tau := htau ▸ h.tau
  adc := by
    have hids : units'.adc.ids = units.adc.ids := funext fun _ => hadc
    rw [hids]
    exact h.adc
  next := h.next
  back := h.back
  prints := h.prints

/-- The serial array unit has acted. -/
theorem sau_acted (h : Kept q₀ units q) {sau : SauUnit}
    (hs : Since SauUnit.slot q sau.tx_id q') : Kept q₀ { units with sau := sau } q' := by
  refine h.trans ⟨hs.toRecorded, h.tau.frame hs ?_, h.adc.frame hs ?_, hs.next, hs.back, ?_⟩
  · intro ev s hslot
    exact (tau_apart hslot).1
  · intro ev s hslot
    exact (adc_apart hslot).1
  · intro b hb hprint
    exact (hs.same (print_apart hprint).1).mpr hb

/-- The timer array unit has acted. -/
theorem tau_acted (h : Kept q₀ units q) {tau : TauUnit}
    (hs : Since tau_slot q tau.expire_id q') : Kept q₀ { units with tau := tau } q' := by
  refine h.trans ⟨h.sau.frame hs ?_, hs.toRecorded, h.adc.frame hs ?_, hs.next, hs.back, ?_⟩
  · intro ev s hslot
    exact (sau_apart hslot).1
  · intro ev s hslot
    exact (adc_apart hslot).2.1
  · intro b hb hprint
    exact (hs.same (print_apart hprint).2.1).mpr hb

/-- The converter has acted. -/
theorem adc_acted (h : Kept q₀ units q) {adc : AdcUnit}
    (hs : Since adc_slot q adc.ids q') : Kept q₀ { units with adc := adc } q' := by
  refine h.trans ⟨h.sau.frame hs ?_, h.tau.frame hs ?_, hs.toRecorded, hs.next, hs.back, ?_⟩
  · intro ev s hslot
    exact (sau_apart hslot).2.1
  · intro ev s hslot
    exact (tau_apart hslot).2.1
  · intro b hb hprint
    exact (hs.same (print_apart hprint).2.2).mpr hb

/-- A print is scheduled. -/
theorem print_scheduled (h : Kept q₀ units q) (at_ : Nat) (ev : SemihostingEvent) :
    Kept q₀ units (q.schedule at_ (G23Event.semihosting ev)).1 := by
  have hsound := h.sau.sound
  refine h.trans ⟨h.sau.schedule_free rfl at_, h.tau.schedule_free rfl at_,
    h.adc.schedule_free rfl at_, Nat.le_succ _, ?_, ?_⟩
  · intro b hb hle
    rcases (hsound.books_schedule at_ _ b).mp hb with rfl | hold
    · simp only at hle
      omega
    · exact hold
  · intro b hb _
    exact (hsound.books_schedule at_ _ b).mpr (.inr hb)

theorem semihosting_written {ctl : EventCtl G23Event} (h : Kept q₀ units ctl.events)
    (s : SemihostingUnit) (offset : Nat) (value : BitVec 16) :
    Kept q₀ units (s.write_ctrl G23Event.semihosting ctl offset value).2.events := by
  unfold SemihostingUnit.write_ctrl
  split
  · exact h
  · exact h
  · exact h.print_scheduled _ _
  · exact h

/-- A wire into a unit changes no record. -/
theorem run (h : Kept q₀ units q) (use : WireUse K F) : Kept q₀ (use.run units).1 q := by
  induction use generalizing units with
  | done rest drives => exact h
  | drive signal next ih =>
    refine ih _ (h.same ?_ ?_ ?_)
    · cases signal with
      | uart channel frame => exact receive_tx_id _ _ _ _
      | analog channel uv => rfl
    · cases signal <;> rfl
    · cases signal with
      | uart channel frame => rfl
      | analog channel uv =>
        unfold Units.drive AdcUnit.set_voltage
        dsimp only
        split <;> rfl

/-- The queue is served. -/
theorem served (h : Kept q₀ units q) (now : Nat) :
    Kept (q.pop_due now).1 units (q.pop_due now).1 :=
  ⟨(h.sau.pop_due now).1, (h.tau.pop_due now).1, (h.adc.pop_due now).1, Nat.le_refl _,
    fun hb _ => hb, fun hb _ => hb⟩

end Kept

/-! ### What the chip does -/

/-- The parts of the chip are in order, since the queue was `q₀`. -/
abbrev PartsKept (q₀ : EventQueue G23Event) (parts : GParts K F) : Prop :=
  Kept q₀ parts.cpu.units parts.events

namespace PartsKept

variable {q₀ : EventQueue G23Event} {parts : GParts K F}

theorem wired (h : PartsKept q₀ parts) (use : WireUse K F) : PartsKept q₀ (wired parts use) :=
  Kept.run h use

variable [Rest K W F]

theorem put {units : Units} {q : EventQueue G23Event} (h : Kept q₀ units q) (now : Nat)
    (parts : GParts K F) (sent : Option (Fin sau_channels × UartFrame)) :
    PartsKept q₀ (put now parts units q sent) :=
  Kept.run h _

theorem clock_op (h : PartsKept q₀ parts) (now : Nat) (f : ClockGenerator → ClockGenerator) :
    PartsKept q₀ (clock_op now f parts) := by
  refine put ?_ now parts none
  exact h.same rfl rfl rfl

theorem sau_op (h : PartsKept q₀ parts) (now : Nat)
    {f : Hertz → EventCtl G23Event → SauUnit → SauUnit × EventCtl G23Event}
    (hf : SauUnit.Kept parts.events (parts.cpu.units.sau, ctl now parts) →
      SauUnit.Kept parts.events (f parts.cpu.units.f_clk (ctl now parts) parts.cpu.units.sau)) :
    PartsKept q₀ (sau_op now f parts) :=
  put (h.sau_acted (hf h.sau.since)) now parts none

theorem tau_op (h : PartsKept q₀ parts) (now : Nat)
    {f : Hertz → EventCtl (TauEvent (SauEvent CoreEvent)) → TauUnit →
      TauUnit × EventCtl (TauEvent (SauEvent CoreEvent))}
    (hf : TauUnit.Kept (tau_ctl now parts).events (parts.cpu.units.tau, tau_ctl now parts) →
      TauUnit.Kept (tau_ctl now parts).events
        (f parts.cpu.units.f_clk (tau_ctl now parts) parts.cpu.units.tau)) :
    PartsKept q₀ (tau_op now f parts) := by
  have hnamed := h.tau.map G23Event.of_tau_for_tau G23Event.for_tau_of_tau tau_slot_of_tau
  have hacted := hf hnamed.since
  have hback := hacted.map G23Event.for_tau_of_tau G23Event.of_tau_for_tau tau_slot_for_tau
  have hsame : (tau_ctl now parts).events.map G23Event.of_tau = parts.events :=
    EventQueue.map_map_of_inverse G23Event.of_tau_for_tau parts.events
  rw [hsame] at hback
  exact put (h.tau_acted hback) now parts none

theorem adc_op (h : PartsKept q₀ parts) (now : Nat)
    {f : Hertz → EventCtl G23Event → AdcUnit → AdcUnit × EventCtl G23Event}
    (hf : AdcUnit.Kept adc_slot parts.events (parts.cpu.units.adc, ctl now parts) →
      AdcUnit.Kept adc_slot parts.events
        (f parts.cpu.units.f_clk (ctl now parts) parts.cpu.units.adc)) :
    PartsKept q₀ (adc_op now f parts) :=
  put (h.adc_acted (hf h.adc.since)) now parts none

/-! Writes in the windows -/

theorem write_word_reg (h : PartsKept q₀ parts) {write16 : BitVec 16 → GParts K F}
    (hw : ∀ value, PartsKept q₀ (write16 value)) (offset size : Nat) (buf : List UInt8) :
    PartsKept q₀ (write_word_reg offset size buf write16 parts).1 := by
  unfold G23.write_word_reg
  split
  · exact hw _
  · exact h

theorem write_register (h : PartsKept q₀ parts) (now : Nat) (reg : AdcUnit.Register)
    (value : UInt8) : PartsKept q₀ (write_register now reg value parts).1 :=
  h.adc_op now fun ha => ha.write (fun _ => rfl) _ reg value.toBitVec

theorem write_u8_window (h : PartsKept q₀ parts) (now offset size : Nat) (buf : List UInt8)
    (write8 : ClockGenerator → Nat → BitVec 8 → ClockGenerator) :
    PartsKept q₀ (write_u8_window now offset size buf write8 parts).1 := by
  unfold G23.write_u8_window
  split
  · exact h.clock_op now _
  · exact h

theorem write_sdr (h : PartsKept q₀ parts) (base now offset : Nat) (buf : List UInt8) :
    PartsKept q₀ (write_sdr base now offset buf parts).1 :=
  h.write_word_reg (fun value => h.sau_op now fun hu => hu.write_sdr _ _ value) _ _ _

theorem write_sau_ctrl (h : PartsKept q₀ parts) (now offset : Nat) (buf : List UInt8) :
    PartsKept q₀ (write_sau_ctrl now offset buf parts).1 :=
  h.write_word_reg (fun value => h.sau_op now fun hu => hu.write_ctrl offset value) _ _ _

theorem write_tdr (h : PartsKept q₀ parts) (base size now offset : Nat) (buf : List UInt8) :
    PartsKept q₀ (write_tdr base size now offset buf parts).1 :=
  h.write_word_reg (fun _ => h.tau_op now fun ht => ht) _ _ _

theorem write_tau_ctrl (h : PartsKept q₀ parts) (now offset : Nat) (buf : List UInt8) :
    PartsKept q₀ (write_tau_ctrl now offset buf parts).1 :=
  h.write_word_reg (fun value => h.tau_op now fun ht => ht.write_ctrl _ offset value) _ _ _

theorem write_semihosting (h : PartsKept q₀ parts) (now offset : Nat) (buf : List UInt8) :
    PartsKept q₀ (write_semihosting now offset buf parts).1 := by
  unfold G23.write_semihosting
  split
  · refine put ?_ now parts none
    have hctl : Kept q₀ parts.cpu.units (ctl now parts).events := h
    exact (hctl.semihosting_written _ _ _).same rfl rfl rfl
  · exact h

theorem write_window (h : PartsKept q₀ parts) (w : Window W) (now offset : Nat)
    (buf : List UInt8) : PartsKept q₀ (write_window w now offset buf parts).1 := by
  cases w with
  | ClockSfr | ClockOscDiv | ClockHoco | ClockTrim => exact h.write_u8_window now offset _ buf _
  | SauSdr01 | SauSdr23 => exact h.write_sdr _ now offset buf
  | SauCtrl => exact h.write_sau_ctrl now offset buf
  | TauTdr01 | TauTdr27 => exact h.write_tdr _ _ now offset buf
  | TauCtrl => exact h.write_tau_ctrl now offset buf
  -- The windows that follow reach registers which no invariant reads, or go
  -- through `write_register`.
  | TauTis =>
    simp only [G23.write_window, write_tis]
    split <;> exact h
  | AdcAdcr =>
    simp only [G23.write_window, write_adcr]
    split <;> exact h
  | AdcAdm =>
    simp only [G23.write_window, write_adm]
    split
    · exact h.write_register now _ _
    · exact h.write_register now _ _
    · exact h.write_register now _ _
    · exact h
  | AdcExt =>
    simp only [G23.write_window, write_ext]
    split
    · exact h.write_register now _ _
    · exact h.write_register now _ _
    · exact h.write_register now _ _
    · exact h.write_register now _ _
    · exact h
    · exact h
    · exact h
    · exact h
    · split <;> exact h
    · exact h
  | Semihosting => exact h.write_semihosting now offset buf
  | other w => exact h

theorem read_sdr (h : PartsKept q₀ parts) (base now offset : Nat) (buf : List UInt8) :
    PartsKept q₀ (read_sdr base now offset buf parts).1 := by
  have hread : PartsKept q₀ (G23.sau_op now (fun _ ctl u =>
      ((u.read_sdr (Fin.ofNat sau_channels (base + offset / 2))).1, ctl)) parts) := by
    refine h.sau_op now fun hu => ?_
    show Since SauUnit.slot parts.events (parts.cpu.units.sau.read_sdr _).1.tx_id parts.events
    rw [read_sdr_tx_id]
    exact hu
  unfold G23.read_sdr
  dsimp only
  split
  · split
    · exact hread
    · exact h
  · split
    · exact hread
    · exact h
  · exact h

theorem read_window (h : PartsKept q₀ parts) (w : Window W) (now offset : Nat)
    (buf : List UInt8) : PartsKept q₀ (read_window w now offset buf parts).1 := by
  unfold G23.read_window
  split
  · exact h.read_sdr _ now offset buf
  · exact h.read_sdr _ now offset buf
  · split <;> exact h

theorem mmio (h : PartsKept q₀ parts) (w : Window W) (op : Op) (offset now : Nat)
    (buf : List UInt8) : PartsKept q₀ (mmio w op offset now buf parts).1 := by
  unfold G23.mmio
  split
  · exact h.wired _
  · exact h.read_window _ now offset buf
  · exact h.write_window _ now offset buf
  · exact h

/-! Events -/

theorem fire_tx_done {ch : Fin sau_channels} (h : PartsKept q₀ parts)
    (hidle : Idle SauUnit.slot parts.events ch) (now : Nat) :
    PartsKept q₀ (fire_tx_done ch now parts) := by
  have hu : SauUnit.Kept parts.events (parts.cpu.units.sau, ctl now parts) := h.sau.since
  exact put (h.sau_acted (hu.fire hidle parts.cpu.units.f_clk)) now parts _

theorem fire_expire {ev : TauUnit.TauExpire} (h : PartsKept q₀ parts)
    (hidle : Idle tau_slot parts.events ev.channel) (now : Nat) :
    PartsKept q₀ (G23.tau_op now (fun f_clk ctl t =>
      ((t.fire ev f_clk ctl).unit, (t.fire ev f_clk ctl).ctl)) parts) := by
  have hidle' : Idle TauUnit.slot (tau_ctl now parts).events ev.channel :=
    hidle.map G23Event.of_tau_for_tau G23Event.for_tau_of_tau tau_slot_of_tau
  exact h.tau_op now fun ht => ht.fire hidle' _

theorem fire_adc (h : PartsKept q₀ parts) (hidle : Idle adc_slot parts.events ()) (ev : AdcComplete)
    (now : Nat) : PartsKept q₀ (G23.adc_op now (fun f_clk ctl a =>
      a.fire G23Event.adc ev f_clk ctl) parts) :=
  h.adc_op now fun ha => ha.fire (fun _ => rfl) hidle ev _

end PartsKept

/-! ### Every call of the chip -/

/-- The units have their live events recorded. -/
def Recorders (chip : G23 K) (q : EventQueue G23Event) : Prop := Kept q chip.units q

theorem PartsKept.recorders {q₀ : EventQueue G23Event} {parts : GParts K F}
    (h : PartsKept q₀ parts) : Recorders parts.cpu parts.events := Kept.refl h

variable [Rest K W F]

theorem guest_keeps {use : BusUse K α} {parts : GParts K F}
    (h : Recorders parts.cpu parts.events) : (guest use parts).Keeps Recorders := by
  induction use generalizing parts with
  | done rest value => exact h
  | access rest op addr buf next ih => exact ⟨h, fun parts' res buf' h' => ih _ _ _ h'⟩

theorem print_keeps {ev : SemihostingEvent} {parts : GParts K F}
    (h : Recorders parts.cpu parts.events) : (print ev parts).Keeps Recorders := by
  unfold print
  split
  · exact h
  · refine ⟨h, fun parts' res buf h' => ?_⟩
    cases res with
    | error err => exact h'
    | ok value =>
      dsimp only
      split <;> exact h'

theorem no_stop_keeps {use : BusUse (GParts K F) Unit} (h : use.Keeps Recorders) :
    (no_stop use).Keeps Recorders := by
  induction use with
  | done parts value => exact h
  | access parts op addr buf next ih =>
    exact ⟨h.1, fun parts' res buf' h' => ih _ _ _ (h.2 parts' res buf' h')⟩

theorem fire_keeps {chip : G23 K} {q : EventQueue G23Event} {now id : Nat} {event : G23Event}
    (h : Recorders chip q) (hpop : (q.pop_due now).2 = some (id, event)) :
    (fire event now (⟨chip, (q.pop_due now).1, []⟩ : GParts K F)).Keeps Recorders := by
  have hserved : PartsKept (q.pop_due now).1 (⟨chip, (q.pop_due now).1, []⟩ : GParts K F) :=
    Kept.served h now
  rcases event with ch | (ev | (ev | ev))
  · exact (hserved.fire_tx_done ((h.sau.pop_due now).2 id _ ch hpop rfl) now).recorders
  · exact (hserved.fire_expire ((h.tau.pop_due now).2 id _ ev.channel hpop rfl) now).recorders
  · exact (hserved.fire_adc ((h.adc.pop_due now).2 id _ () hpop rfl) ev now).recorders
  · exact print_keeps hserved

/-! ### The reset -/

namespace PartsKept

variable {q₀ : EventQueue G23Event} {parts : GParts K F}

theorem reset_part (h : PartsKept q₀ parts) (part : ResetPart) (now : Nat) :
    PartsKept q₀ (reset_part part now parts) := h.wired _

theorem reset_sau (h : PartsKept q₀ parts) (now : Nat) : PartsKept q₀ (reset_sau now parts) :=
  h.sau_op now fun hu => hu.reset

theorem reset_tau (h : PartsKept q₀ parts) (now : Nat) : PartsKept q₀ (reset_tau now parts) :=
  h.tau_op now fun ht => ht.reset

theorem reset_adc (h : PartsKept q₀ parts) (now : Nat) : PartsKept q₀ (reset_adc now parts) :=
  h.adc_op now fun ha => ha.reset

theorem reset_semihosting (h : PartsKept q₀ parts) (now : Nat) :
    PartsKept q₀ (reset_semihosting now parts) := by
  refine put ?_ now parts none
  exact h.same rfl rfl rfl

theorem idle_sau (h : PartsKept q₀ parts) (now : Nat) (ch : Fin sau_channels) :
    Idle SauUnit.slot (G23.reset_sau now parts).events ch := by
  have hu : SauUnit.Kept parts.events (parts.cpu.units.sau, ctl now parts) := h.sau.since
  exact hu.idle_reset ch

theorem idle_tau (h : PartsKept q₀ parts) (now : Nat) (ch : Fin tau_channels) :
    Idle tau_slot (G23.reset_tau now parts).events ch := by
  have ht : TauUnit.Kept (tau_ctl now parts).events (parts.cpu.units.tau, tau_ctl now parts) :=
    (h.tau.map G23Event.of_tau_for_tau G23Event.for_tau_of_tau tau_slot_of_tau).since
  exact (ht.idle_reset ch).map G23Event.for_tau_of_tau G23Event.of_tau_for_tau tau_slot_for_tau

theorem idle_adc (h : PartsKept q₀ parts) (now : Nat) :
    Idle adc_slot (G23.reset_adc now parts).events () := by
  have ha : AdcUnit.Kept adc_slot parts.events (parts.cpu.units.adc, ctl now parts) := h.adc.since
  exact ha.idle_reset

/-- What has gone from the queue at `parts` does not come back. -/
theorem gone {σ : Type} {slot : G23Event → Option σ} {parts' : GParts K F} (hq₀ : q₀.Sound)
    (h : PartsKept q₀ parts) (h' : PartsKept parts.events parts')
    (hidle : ∀ s, Idle slot parts.events s) {b : Booking G23Event} (hb : q₀.Books b)
    (hb' : parts'.events.Books b) (s : σ) : slot b.event ≠ some s :=
  hidle s b (h'.back hb' (Nat.le_trans (hb.id_le hq₀) h.next))

/-- Of the events of the old run, the units have cancelled theirs. -/
theorem reset_core (hq₀ : q₀.Sound) (h : PartsKept q₀ parts) (option : Option (BitVec 8))
    (now : Nat) : PartsKept q₀ (reset_core option now parts) ∧
      ∀ b, q₀.Books b → (G23.reset_core option now parts).events.Books b →
        b.event.is_print = true := by
  unfold G23.reset_core
  dsimp only
  have hclock := (h.clock_op now fun g => { g with option_byte := option }).clock_op now
    ClockGenerator.reset
  generalize G23.clock_op now _ (G23.clock_op now _ parts) = parts₀ at hclock ⊢
  -- what follows the reset of each unit
  have after_tau {q : EventQueue G23Event} {p : GParts K F} (hp : PartsKept q p) :=
    (hp.reset_part .gpio now).reset_adc now
  have after_adc {q : EventQueue G23Event} {p : GParts K F} (hp : PartsKept q p) :=
    ((hp.reset_part .irq now).reset_semihosting now).reset_part .engine now
  have hsau := hclock.reset_sau now
  have htau := hsau.reset_tau now
  have hadc := after_tau htau
  refine ⟨after_adc hadc, fun b hb hlive => ?_⟩
  rcases owner_cases b.event with ⟨ch, hslot⟩ | ⟨ch, hslot⟩ | hslot | hprint
  · have hnow : PartsKept _ (G23.reset_sau now parts₀) := hsau.recorders
    have hlater := after_adc (after_tau (hnow.reset_tau now))
    exact absurd hslot (gone hq₀ hsau hlater (hclock.idle_sau now) hb hlive ch)
  · have hlater := after_adc (after_tau htau.recorders)
    exact absurd hslot (gone hq₀ htau hlater (hsau.idle_tau now) hb hlive ch)
  · have hlater := after_adc hadc.recorders
    have hidle := (htau.reset_part .gpio now).idle_adc now
    exact absurd hslot (gone hq₀ hadc hlater (fun _ => hidle) hb hlive ())
  · exact hprint

end PartsKept

theorem mmio_keeps {q₀ : EventQueue G23Event} :
    Soc.MmioKeeps (Window W) fun (chip : G23 K) q => Kept q₀ chip.units q := by
  intro w op offset now buf parts h
  have hparts : PartsKept q₀ parts := h
  exact hparts.mmio w op offset now buf

/-- The reset, from any parts that are in order. -/
theorem reset_ends {q₀ : EventQueue G23Event} {parts : GParts K F} (hq₀ : q₀.Sound)
    (h : PartsKept q₀ parts) (now : Nat) :
    (reset now parts).Ends (fun chip q => Kept q₀ chip.units q) fun parts' _ =>
      PartsKept q₀ parts' ∧ ∀ b, q₀.Books b → parts'.events.Books b → b.event.is_print = true :=
  ⟨h.reset_part .devices now, fun _ _ _ h' => PartsKept.reset_core hq₀ h' _ now⟩

/-- Every call of the chip leaves the records in order. -/
theorem upheld : Soc.Upheld (Window W) (Recorders (K := K)) where
  run_quantum _ _ _ h := guest_keeps h
  fire h hpop := no_stop_keeps (fire_keeps h hpop)
  pop_due h := Kept.served h _
  next_deadline h := ⟨h.sau.next_deadline, h.tau.next_deadline, h.adc.next_deadline,
    Nat.le_refl _, fun hb _ => hb, fun hb _ => hb⟩
  reset now _ h := ⟨(PartsKept.reset_part h .devices now).recorders,
    fun _ _ _ h' => (PartsKept.reset_core h'.sau.sound h' _ now).1.recorders⟩
  write_reg _ _ h := h
  sync_breakpoints _ h := h
  write_gdb_registers _ h := h
  poll_actions _ _ h := (PartsKept.wired h _).recorders
  apply_action _ _ _ h := (PartsKept.wired h _).recorders
  drive_in _ _ _ _ h := (PartsKept.wired h _).recorders
  mmio w op offset now buf _ h := (PartsKept.mmio h w op offset now buf).recorders

/-! ### Runs of the machine -/

variable (K W F) in
/-- All runs of a machine with the core, from power-on, on any bus. -/
def runs : System (Machine (Soc (G23 K) (Window W)) G23Event F) (MachineAct F) where
  init m := ∃ soc, soc.cpu.units = Units.new ∧ m = Machine.new soc
  step m act := (act.run m).map Prod.fst

def AnyAct (_ : Machine (Soc (G23 K) (Window W)) G23Event F) (_ : MachineAct F) : Prop := True

theorem recorders_of_reachable {m : Machine (Soc (G23 K) (Window W)) G23Event F}
    (h : Reachable (runs K W F) AnyAct m) : m.Holds Recorders := by
  induction h with
  | init hi =>
    obtain ⟨soc, hunits, rfl⟩ := hi
    show Kept EventQueue.new soc.cpu.units EventQueue.new
    rw [hunits]
    exact Kept.new
  | step act _ _ hstep ih =>
    obtain ⟨⟨m', out⟩, hrun, rfl⟩ := Option.map_eq_some_iff.mp hstep
    exact ih.act upheld hrun

/-- What a reset leaves: nothing of the old run comes back, and of the old events
    exactly the prints stay. -/
theorem kept_reset {m : Machine (Soc (G23 K) (Window W)) G23Event F}
    (h : Reachable (runs K W F) AnyAct m) :
    Kept m.events m.reset.soc.cpu.units m.reset.events ∧
      ∀ b, m.events.Books b → m.reset.events.Books b → b.event.is_print = true := by
  have hkept := recorders_of_reachable h
  have hparts : PartsKept m.events (⟨m.soc.cpu, m.events, []⟩ : GParts K F) := hkept
  exact Soc.exec_ends mmio_keeps m.clock.now (reset_ends hkept.sau.sound hparts m.clock.now)
    m.soc.bus

/-- A reset leaves no event of the old run exactly when no print is pending. -/
theorem reset_leaves_no_event {m : Machine (Soc (G23 K) (Window W)) G23Event F}
    (h : Reachable (runs K W F) AnyAct m) :
    (∀ b, m.events.Books b → ¬ m.reset.events.Books b) ↔
      ∀ b, m.events.Books b → b.event.is_print = false := by
  obtain ⟨hafter, hold⟩ := kept_reset h
  constructor
  · intro hgone b hb
    by_contra hprint
    exact hgone b hb (hafter.prints hb (by simpa using hprint))
  · intro hnone b hb hlive
    have hprint := hold b hb hlive
    rw [hnone b hb] at hprint
    cases hprint

/-! ### A guest that stores and stops -/

/-- A guest that makes some stores and runs into a breakpoint. -/
structure Storer where
  stores : List (Nat × List UInt8)

/-- The stores of one quantum, and the breakpoint. -/
def Storer.quantum (guest : Storer) (max : Nat) :
    List (Nat × List UInt8) → BusUse Storer (Quantum max)
  | [] => .done guest
      ⟨min guest.stores.length max, some (.Breakpoint 0), Nat.min_le_right _ _⟩
  | (addr, data) :: rest => .access guest .write addr data fun _ _ _ => quantum guest max rest

instance : Rest Storer Empty Empty where
  run_quantum max _ guest := guest.quantum max guest.stores
  wires _ _ _ _ k := .done k []
  reset _ _ _ k := .done k []
  read_reg _ id := .error (.UnknownRegister id)
  write_reg k id _ := (k, .error (.UnknownRegister id))
  sync_breakpoints k _ := k
  read_gdb_registers _ := .ok []
  pc _ := 0
  write_gdb_registers k _ := (k, .error .Unsupported)
  poll_actions _ k := .done k []
  apply_action _ _ k := (.done k [], some .NotFoundAction)
  drive_in _ _ _ k := .done k []
  mmio w := w.elim
  answer _ _ offset len _ := .error (.OutOfRange offset offset len)

/-- The machine of a guest on a bus of some windows, and of RAM with a text at
    `0xF0000`. -/
def storing (windows : List (MappedRegion (Window Empty))) (stores : List (Nat × List UInt8)) :
    Machine (Soc (G23 Storer) (Window Empty)) G23Event Empty :=
  Machine.new ⟨⟨.new, ⟨stores⟩, fun addr => if addr = 0xF0000 then some 0xF0002 else none, []⟩,
    ⟨windows ++ [⟨0xF0000, 2, .Device (.Ram ⟨[0x41, 0], by decide⟩)⟩], .Log, [], none⟩⟩

theorem init_storing (windows : List (MappedRegion (Window Empty)))
    (stores : List (Nat × List UInt8)) :
    (runs Storer Empty Empty).init (storing windows stores) := ⟨_, rfl, rfl⟩

instance (m : Machine (Soc (G23 Storer) (Window Empty)) G23Event Empty)
    (act : MachineAct Empty) : Decidable (AnyAct m act) := .isTrue trivial

/-- It asks for the text. -/
def printing : Machine (Soc (G23 Storer) (Window Empty)) G23Event Empty :=
  storing [⟨0xE0000, 6, .Device (.Mmio .Semihosting)⟩]
    [(0xE0000, [0, 0]), (0xE0002, [0x0F, 0]), (0xE0004, [0, 0])]

/-- It starts a frame on the first serial channel, the first timer and the
    converter. -/
def working : Machine (Soc (G23 Storer) (Window Empty)) G23Event Empty :=
  storing
    [⟨0xFFF10, 4, .Device (.Mmio .SauSdr01)⟩, ⟨0xF0100, 0x40, .Device (.Mmio .SauCtrl)⟩,
      ⟨0xF0180, 0x40, .Device (.Mmio .TauCtrl)⟩, ⟨0xFFF30, 3, .Device (.Mmio .AdcAdm)⟩]
    [(0xFFF10, [0, 0x80]), (0xF0118, [0x97, 0x80]), (0xF012A, [1, 0]), (0xF0122, [1, 0]),
      (0xFFF10, [0x41, 0]), (0xF01B2, [1, 0]), (0xFFF30, [0x80])]

/-- An event of some kind is pending. -/
def pends (kind : G23Event → Bool) (m : Machine (Soc (G23 Storer) (Window Empty)) G23Event Empty) :
    Bool :=
  m.events.heap.any fun item => (m.events.events.lookup item.id).any kind

theorem pends_iff {kind : G23Event → Bool}
    {m : Machine (Soc (G23 Storer) (Window Empty)) G23Event Empty} :
    pends kind m = true ↔ ∃ b, m.events.Books b ∧ kind b.event = true := by
  constructor
  · intro h
    obtain ⟨item, hitem, hany⟩ := List.any_eq_true.mp h
    cases hevent : m.events.events.lookup item.id with
    | none =>
      rw [hevent] at hany
      cases hany
    | some event =>
      rw [hevent] at hany
      refine ⟨⟨item.id, item.at_, event⟩, ⟨⟨item.seq, ?_⟩, hevent⟩, hany⟩
      exact List.mem_filter.mpr ⟨hitem, by simp [hevent]⟩
  · rintro ⟨b, ⟨⟨seq, hentry⟩, hevent⟩, hkind⟩
    refine List.any_eq_true.mpr ⟨_, (List.mem_filter.mp hentry).1, ?_⟩
    replace hevent : m.events.events.lookup b.id = some b.event := hevent
    rw [hevent]
    exact hkind

/-- A frame is sent, a timer runs and a conversion is under way, and the reset
    cancels all three. -/
theorem reset_leaves_no_event_working : ∃ m, Reachable (runs Storer Empty Empty) AnyAct m ∧
    (∃ b, m.events.Books b ∧ SauUnit.slot b.event = some 0) ∧
    (∃ b, m.events.Books b ∧ tau_slot b.event = some 0) ∧
    (∃ b, m.events.Books b ∧ adc_slot b.event = some ()) ∧
    ∀ b, m.events.Books b → ¬ m.reset.events.Books b := by
  obtain ⟨m, hm, hsau, htau, hadc, hprint⟩ : ∃ m, Reachable (runs Storer Empty Empty) AnyAct m ∧
      pends (fun ev => SauUnit.slot ev = some 0) m = true ∧
      pends (fun ev => tau_slot ev = some 0) m = true ∧
      pends (fun ev => adc_slot ev = some ()) m = true ∧ pends G23Event.is_print m = false :=
    Reachable.exists_of_exec [.reset, .poll 9 ⟨1000, 1000, false⟩]
      (init_storing _ _ : (runs _ _ _).init working) (by decide +kernel)
  refine ⟨m, hm, by simpa using pends_iff.mp hsau, by simpa using pends_iff.mp htau,
    by simpa using pends_iff.mp hadc, ?_⟩
  refine (reset_leaves_no_event hm).mpr ?_
  intro b hb
  by_contra hpends
  have hpending := pends_iff.mpr ⟨b, hb, Bool.not_eq_false _ ▸ hpends⟩
  rw [hprint] at hpending
  cases hpending

/-- The guest asks for a text and runs into its breakpoint in the same quantum.
    After the reset the print is still pending, and the text comes out. -/
theorem reset_prints_old_text :
    ∃ m, Reachable (runs Storer Empty Empty) AnyAct m ∧
      (∃ b, m.events.Books b ∧ m.reset.events.Books b) ∧ m.soc.cpu.printed = [] ∧
      (m.reset.poll 5 ⟨100, 100, false⟩).map (fun r => r.1.soc.cpu.printed) = some [[0x41]] := by
  obtain ⟨m, hm, hpends, hprinted, hafter⟩ : ∃ m, Reachable (runs Storer Empty Empty) AnyAct m ∧
      pends G23Event.is_print m = true ∧ m.soc.cpu.printed = [] ∧
      (m.reset.poll 5 ⟨100, 100, false⟩).map (fun r => r.1.soc.cpu.printed) = some [[0x41]] :=
    Reachable.exists_of_exec [.reset, .poll 5 ⟨100, 100, false⟩]
      (init_storing _ _ : (runs _ _ _).init printing) (by decide +kernel)
  obtain ⟨b, hb, hprint⟩ := pends_iff.mp hpends
  exact ⟨m, hm, ⟨b, hb, (kept_reset hm).1.prints hb hprint⟩, hprinted, hafter⟩

end G23

end Rl78Sim
