import Rl78Sim.Hw.AdcScan
import Rl78Sim.Hw.G23Clock
import Rl78Sim.Hw.TauGrid
import Rl78Sim.Kernel.DueEvents

/-! # Firing the Events of the Core

    An expiry of a timer, the end of a conversion and the end of a transmission
    book what follows them, and a print books nothing. While the clock can show a
    later time, what they book is due later, so the machine comes to an end with
    the events that are due. -/

namespace Rl78Sim

theorem lt_saturating_add {now period : Nat} (hnow : now < u64_max) (hperiod : period ≠ 0) :
    now < saturating_add now period := by
  unfold saturating_add
  omega

/-! ### The units -/

namespace SauUnit

variable {F : Type} {ctl : EventCtl (SauEvent F)}

theorem start_tx_ahead (hnow : ctl.now < u64_max) (f_clk : Hertz) (u : SauUnit)
    (channel : Fin sau_channels) :
    Ahead ctl.now ctl.events.heap (u.start_tx f_clk ctl channel).2.events.heap := by
  unfold start_tx
  split
  · exact .refl _ _
  · split
    · rename_i period frame hperiod hframe
      -- a time of zero does not start a transmission
      have hne : period ≠ 0 := by
        have hpos := (Option.filter_eq_some_iff.mp hperiod).2
        simpa using hpos
      have hcancel : Ahead ctl.now ctl.events.heap (u.cancel_tx ctl channel).2.events.heap ∧
          (u.cancel_tx ctl channel).2.now = ctl.now := by
        unfold cancel_tx
        split
        · exact ⟨(Ahead.refl _ _).cancel _, rfl⟩
        · exact ⟨.refl _ _, rfl⟩
      have hlater : ctl.now < saturating_add (u.cancel_tx ctl channel).2.now period := by
        rw [hcancel.2]
        exact lt_saturating_add hnow hne
      exact hcancel.1.schedule hlater _
    · exact .refl _ _

theorem fire_ahead (hnow : ctl.now < u64_max) (ch : Fin sau_channels) (f_clk : Hertz)
    (u : SauUnit) : Ahead ctl.now ctl.events.heap (u.fire ch f_clk ctl).2.1.events.heap :=
  start_tx_ahead hnow f_clk (u.complete ch) ch

end SauUnit

namespace TauUnit

variable {F : Type}

theorem fire_ahead (ctl : EventCtl (TauEvent F)) (ev : TauExpire) (f_clk : Hertz) (t : TauUnit) :
    Ahead ctl.now ctl.events.heap (t.fire ev f_clk ctl).ctl.events.heap := by
  unfold fire
  dsimp only
  split
  · exact .refl _ _
  · split
    · exact .refl _ _
    · split
      · exact .refl _ _
      · split
        · exact .refl _ _
        -- The catch-up ends past the present time, and that is what is booked.
        · rename_i next hskip
          have hlater := (skip_past_some (saturating_add_le_max _ _) hskip).1
          exact (Ahead.refl _ _).schedule hlater _

end TauUnit

namespace AdcUnit

variable {Ev : Type} {book : AdcComplete → Ev} {ctl : EventCtl Ev}

/-- The catch-up loop of a completion ends past the present time. -/
theorem catches_up {now period : Nat} (hnow : now < u64_max) (hperiod : period ≠ 0) (at_ : Nat) :
    ∃ deadline, skip_past period now (now + 1 - saturating_add at_ period)
      (saturating_add at_ period) = some deadline ∧ now < deadline :=
  skip_past_isSome hperiod hnow (by omega)

theorem complete_ahead (hnow : ctl.now < u64_max) (f_clk : Hertz) (a : AdcUnit) (at_ : Nat) :
    Ahead ctl.now ctl.events.heap (a.complete book f_clk ctl at_).2.events.heap := by
  unfold complete
  dsimp only
  split
  · exact .refl _ _
  · split
    · exact .refl _ _
    · split
      · exact .refl _ _
      · rename_i period _ hperiod
        obtain ⟨deadline, hskip, hlater⟩ := catches_up hnow hperiod at_
        rw [hskip]
        exact (Ahead.refl _ _).schedule hlater _

theorem fire_ahead (book : AdcComplete → Ev) (hnow : ctl.now < u64_max) (ev : AdcComplete)
    (f_clk : Hertz) (a : AdcUnit) :
    Ahead ctl.now ctl.events.heap (a.fire book ev f_clk ctl).2.events.heap := by
  unfold fire
  split
  · exact .refl _ _
  · exact complete_ahead hnow f_clk a ev.at_

end AdcUnit

/-! ### The core -/

namespace G23

variable {K W F : Type} [Rest K W F] {now : Nat} {heap : List Scheduled} {parts : GParts K F}

theorem ctl_now (hnow : now < u64_max) (parts : GParts K F) : (ctl now parts).now = now :=
  Nat.min_eq_left (Nat.le_of_lt hnow)

theorem read_window_events (w : Window W) (now offset : Nat) (buf : List UInt8)
    (parts : GParts K F) : (read_window w now offset buf parts).1.events = parts.events := by
  -- A read of a data register changes flags of the unit only.
  have hsdr (base : Nat) : (read_sdr base now offset buf parts).1.events = parts.events := by
    unfold read_sdr
    dsimp only
    split
    · split <;> rfl
    · split <;> rfl
    · rfl
  unfold read_window
  split
  · exact hsdr 0
  · exact hsdr 2
  · split <;> rfl

/-- No read books anything. -/
theorem read_keeps_heap :
    Soc.ReadKeeps (Window W) fun (_ : G23 K) q => Ahead now heap q.heap := by
  intro w offset now' buf parts h
  show Ahead now heap (mmio w .read offset now' buf parts).1.events.heap
  unfold mmio
  split
  · exact h
  · rw [read_window_events]
    exact h
  · contradiction
  · exact h

/-- Every event of the core books what is due later. -/
theorem fire_reads_ahead (hnow : now < u64_max) (event : G23Event) (parts : GParts K F) :
    (fire event now parts).Reads fun _ q => Ahead now parts.events.heap q.heap := by
  have hctl := ctl_now hnow parts
  have hlt : (ctl now parts).now < u64_max := hctl.symm ▸ hnow
  -- The serial unit, the timers, the converter, and the print port, which books
  -- nothing.
  rcases event with ch | (ev | (ev | ev))
  · have hfire := SauUnit.fire_ahead hlt ch parts.cpu.units.f_clk parts.cpu.units.sau
    rw [hctl] at hfire
    exact hfire
  · have hfire := TauUnit.fire_ahead (tau_ctl now parts) ev parts.cpu.units.f_clk
      parts.cpu.units.tau
    have htau : (tau_ctl now parts).now = now := hctl
    rw [htau] at hfire
    exact hfire
  · have hfire := AdcUnit.fire_ahead G23Event.adc hlt ev parts.cpu.units.f_clk
      parts.cpu.units.adc
    rw [hctl] at hfire
    exact hfire
  · exact print_reads (fun _ _ _ h => h) (Ahead.refl _ _)

theorem exec_no_stop (now : Nat) (use : BusUse (GParts K F) Unit) (bus : MemoryBus (Window W)) :
    (Soc.exec now (no_stop use) bus).2.1.val = none := by
  induction use generalizing bus with
  | done parts value => rfl
  | access parts op addr buf next ih => exact ih _ _ _ _

theorem fires_ahead (hnow : now < u64_max) : Machine.FiresAhead (Soc (G23 K) (Window W)) now := by
  intro m event hm
  subst hm
  refine ⟨?_, exec_no_stop _ _ m.soc.bus⟩
  refine Soc.exec_reads (K := G23 K) (P := fun _ q => Ahead _ _ q.heap) read_keeps_heap
    m.clock.now ?_
    m.soc.bus
  exact no_stop_reads (fire_reads_ahead hnow event ⟨m.soc.cpu, m.events, []⟩)

/-- While the clock can show a later time: the machine fires no more events than are
    due in the beginning, whatever its registers and its clock are; an event books
    what is due later; and the loops that catch up come to an end. -/
theorem fire_due_events_ends (m : Board K W F) (hnow : m.clock.now < u64_max) :
    (∃ m', Machine.fire_due_events (heap_due m.clock.now m.events.heap + 1) m = some (m', none)) ∧
      (∀ event, ∀ item ∈ (m.call (Cpu.fire event)).1.events.heap, item ∉ m.events.heap →
        m.clock.now < item.at_) ∧
      (∀ (t : TauUnit) (f_clk : Hertz) (ev : TauUnit.TauExpire)
        (ctl : EventCtl (TauUnit.TauEvent (SauUnit.SauEvent CoreEvent))), ctl.now = m.clock.now →
        (t.fire ev f_clk ctl).returned = true) ∧
      ∀ (a : AdcUnit) (f_clk : Hertz) (at_ period : Nat), a.next_duration f_clk = some period →
        period ≠ 0 → (AdcUnit.skip_past period m.clock.now
          (m.clock.now + 1 - saturating_add at_ period) (saturating_add at_ period)).isSome := by
  have hfires : Machine.FiresAhead (Soc (G23 K) (Window W)) m.clock.now := fires_ahead hnow
  refine ⟨?_, ?_, ?_, ?_⟩
  · exact Machine.fire_due_events_returns hfires rfl (Nat.lt_succ_self _)
  · intro event item hitem hnew
    exact (hfires m event rfl).1.later hitem hnew
  · intro t f_clk ev ctl hctl
    exact TauUnit.returned_of_lt (hctl ▸ hnow) ev t f_clk
  · intro a f_clk at_ period _ hperiod
    obtain ⟨deadline, hskip, -⟩ := AdcUnit.catches_up hnow hperiod at_
    rw [hskip]
    rfl

/-! ### An expiry that is due -/

/-- A board whose first timer channel runs and expires at once. -/
def expiring : Board Runner Empty Empty :=
  { running with
    soc := { running.soc with cpu := { running.soc.cpu with
      units := { running.soc.cpu.units with tau := { TauUnit.new with te := 1 } } } }
    events := (EventQueue.schedule .new 0 (.other (.expire ⟨0, 0, 0⟩))).1 }

theorem fire_due_events_ends_expiry : ∃ m', Machine.fire_due_events 2 expiring = some (m', none) :=
  (fire_due_events_ends expiring (by decide)).1

end G23

end Rl78Sim
