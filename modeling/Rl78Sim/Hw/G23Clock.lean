import Rl78Sim.Hw.G23Reset
import Rl78Sim.Kernel.MachineLaws

/-! # Instructions and Cycles

    The machine charges a retired instruction with the period of the clock, a
    whole number of nanoseconds. The timers convert a number of cycles at once.
    Of the fraction of a nanosecond that the period drops, the timers see the
    multiple. -/

namespace Rl78Sim

open Transition

/-! ### What a poll charges -/

namespace Machine

variable {C Ev F : Type} {m m' m'' : Machine C Ev F} {ns_per_insn k : Nat}

/-- `k` instructions are charged with `ns_per_insn` each. -/
structure Charged (m m' : Machine C Ev F) (ns_per_insn k : Nat) : Prop where
  last : m'.last_insn_at = saturating_add m.last_insn_at (saturating_mul ns_per_insn k)
  retired : m'.retired = m.retired + k

/-- The instruction clock stands still. -/
structure Uncharged (m m' : Machine C Ev F) : Prop where
  last : m'.last_insn_at = m.last_insn_at
  retired : m'.retired = m.retired

theorem Frame.uncharged (h : Frame m m') : Uncharged m m' := ⟨h.last_eq, h.retired_eq⟩

theorem Uncharged.trans (h : Uncharged m m') (h' : Uncharged m' m'') : Uncharged m m'' :=
  ⟨h'.last.trans h.last, h'.retired.trans h.retired⟩

theorem Uncharged.charged (h : Uncharged m m') (h' : Charged m' m'' ns_per_insn k) :
    Charged m m'' ns_per_insn k := by
  obtain ⟨hlast, hretired⟩ := h'
  rw [h.last] at hlast
  rw [h.retired] at hretired
  exact ⟨hlast, hretired⟩

theorem Charged.uncharged (h : Charged m m' ns_per_insn k) (h' : Uncharged m' m'') :
    Charged m m'' ns_per_insn k :=
  ⟨h'.last.trans h.last, h'.retired.trans h.retired⟩

variable [Cpu C Ev F] {fuel budget : Nat} {ctx : AdvanceCtx} {r : EntityPoll}

theorem idle_uncharged (h : m.idle fuel budget = some (m', r)) : Uncharged m m' := by
  unfold idle at h
  split at h
  · cases h
    exact ⟨rfl, rfl⟩
  · obtain ⟨hframe, -⟩ := finish_poll_frame h
    have hadvance : Uncharged m (m.advance_clock budget) := ⟨rfl, rfl⟩
    exact hadvance.trans hframe.uncharged

theorem quantum_charged {n : Nat} (h : m.quantum fuel ns_per_insn budget n = some (m', r)) :
    Uncharged m m' ∨ ∃ k, Charged m m' ns_per_insn k := by
  unfold quantum at h
  have hcall := frame_call m (@Cpu.run_quantum C Ev F _ n)
  split at h
  rename_i ran result heq
  rw [heq] at hcall
  split at h
  · cases h
    exact .inl hcall.uncharged
  · obtain ⟨hframe, -⟩ := settle_frame h
    have hcharge : Charged ran (ran.charge ns_per_insn result.instructions
        (saturating_add ran.clock.now budget)) ns_per_insn result.instructions := ⟨rfl, rfl⟩
    exact .inr ⟨_, (hcall.uncharged.charged hcharge).uncharged hframe.uncharged⟩

/-- A poll charges the period that the clock has once the due events have fired. -/
theorem poll_charged (h : m.poll fuel ctx = some (m', r)) :
    Uncharged m m' ∨ ∃ m₁ p k, fire_due_events fuel m = some (m₁, none) ∧
      m₁.period = some p ∧ Charged m m' p k := by
  unfold poll at h
  split at h
  · cases h
  · rename_i hfire
    cases h
    exact .inl (frame_fire_due_events hfire).uncharged
  · rename_i m₁ hfire
    have hfired := (frame_fire_due_events hfire).uncharged
    have hnext : Uncharged m ({ m₁ with events := m₁.events.next_deadline.1 } : Machine C Ev F) :=
      ⟨hfired.last, hfired.retired⟩
    -- Without a period, at a stop or with an idle core nothing is charged; only
    -- a quantum charges, and by the period that is read after the events.
    unfold run at h
    dsimp only at h
    split at h
    · exact .inl (hnext.trans (idle_uncharged h))
    · rename_i p hp
      split at h
      · cases h
        exact .inl hnext
      · split at h
        · exact .inl (hnext.trans (idle_uncharged h))
        · rcases quantum_charged h with hnone | ⟨k, hcharged⟩
          · exact .inl (hnext.trans hnone)
          · exact .inr ⟨m₁, p, k, hfire, hp, hnext.charged hcharged⟩

end Machine

/-! ### The events leave the clock generator alone -/

namespace G23

variable {K W F : Type} {parts : GParts K F} {clock : ClockGenerator}

theorem run_clock (use : WireUse K F) (units : Units) : (use.run units).1.clock = units.clock := by
  induction use generalizing units with
  | done rest drives => rfl
  | drive signal next ih =>
    have hdrive : (units.drive signal).clock = units.clock := by cases signal <;> rfl
    exact (ih _ _).trans hdrive

theorem wired_clock (parts : GParts K F) (use : WireUse K F) :
    (wired parts use).cpu.units.clock = parts.cpu.units.clock := run_clock use _

variable [Rest K W F]

theorem put_clock (now : Nat) (parts : GParts K F) (units : Units) (q : EventQueue G23Event)
    (sent : Option (Fin sau_channels × UartFrame)) :
    (put now parts units q sent).cpu.units.clock = units.clock := run_clock _ _

theorem read_sdr_clock (base now offset : Nat) (buf : List UInt8) (parts : GParts K F) :
    (read_sdr base now offset buf parts).1.cpu.units.clock = parts.cpu.units.clock := by
  unfold read_sdr
  dsimp only
  split
  · split
    · exact put_clock _ _ _ _ _
    · rfl
  · split
    · exact put_clock _ _ _ _ _
    · rfl
  · rfl

theorem read_window_clock (w : Window W) (now offset : Nat) (buf : List UInt8)
    (parts : GParts K F) :
    (read_window w now offset buf parts).1.cpu.units.clock = parts.cpu.units.clock := by
  unfold read_window
  split
  · exact read_sdr_clock _ _ _ _ _
  · exact read_sdr_clock _ _ _ _ _
  · split <;> rfl

/-- No read changes the clock generator. -/
theorem read_keeps_clock :
    Soc.ReadKeeps (Window W) fun (chip : G23 K) _ => chip.units.clock = clock := by
  intro w offset now buf parts h
  show (mmio w .read offset now buf parts).1.cpu.units.clock = clock
  unfold mmio
  split
  · exact (wired_clock _ _).trans h
  · exact (read_window_clock _ _ _ _ _).trans h
  · contradiction
  · exact h

/-- A print only reads. -/
theorem print_reads {P : G23 K → EventQueue G23Event → Prop}
    (hprinted : ∀ chip q text, P chip q → P { chip with printed := text } q)
    {ev : SemihostingEvent} (h : P parts.cpu parts.events) : (print ev parts).Reads P := by
  unfold print
  split
  · exact h
  · refine ⟨rfl, h, fun parts' res buf h' => ?_⟩
    cases res with
    | error err => exact h'
    | ok value =>
      dsimp only
      split
      · exact hprinted _ _ _ h'
      · exact h'

theorem no_stop_reads {P : G23 K → EventQueue G23Event → Prop} {use : BusUse (GParts K F) Unit}
    (h : use.Reads P) : (no_stop use).Reads P := by
  induction use with
  | done parts value => exact h
  | access parts op addr buf next ih =>
    obtain ⟨hop, hparts, hnext⟩ := h
    exact ⟨hop, hparts, fun parts' res buf' h' => ih _ _ _ (hnext parts' res buf' h')⟩

theorem fire_reads (event : G23Event) (now : Nat) (h : parts.cpu.units.clock = clock) :
    (fire event now parts).Reads fun chip _ => chip.units.clock = clock := by
  rcases event with ch | (ev | (ev | ev))
  · exact (put_clock _ _ _ _ _).trans h
  · exact (put_clock _ _ _ _ _).trans h
  · exact (put_clock _ _ _ _ _).trans h
  · exact print_reads (fun _ _ _ hchip => hchip) h

abbrev Board (K W F : Type) := Machine (Soc (G23 K) (Window W)) G23Event F

theorem fire_due_events_clock {fuel : Nat} {m m' : Board K W F} {stop : Option StopReason}
    (h : Machine.fire_due_events fuel m = some (m', stop)) :
    m'.soc.cpu.units.clock = m.soc.cpu.units.clock := by
  induction fuel generalizing m with
  | zero => cases h
  | succ fuel ih =>
    simp only [Machine.fire_due_events] at h
    split at h
    · cases h
      rfl
    · rename_i events id event hpop
      -- No event of this core writes a clock register.
      have hcall : (({ m with events := events } : Board K W F).call
          (Cpu.fire event)).1.soc.cpu.units.clock = m.soc.cpu.units.clock := by
        refine Soc.exec_reads (K := G23 K) (P := fun chip _ => chip.units.clock = _)
          read_keeps_clock m.clock.now ?_ m.soc.bus
        exact no_stop_reads (fire_reads event m.clock.now rfl)
      split at h <;> rename_i heq
      · cases h
        rw [heq] at hcall
        exact hcall
      · rw [heq] at hcall
        exact (ih h).trans hcall

/-! ### Runs at a constant clock -/

/-- The clock is `f_clk` when the act begins, and the act is not a reset. -/
def Steady (f_clk : Hertz) (m : Board K W F) : MachineAct F → Prop
  | .reset => False
  | _ => m.soc.cpu.units.f_clk = f_clk

variable {f_clk : Hertz} {p : Nat} {m₀ m m' : Board K W F}

/-- A step at a constant clock charges its period or nothing. -/
theorem step_charged {act : MachineAct F} (hp : f_clk.period = some p) (hok : Steady f_clk m act)
    (hstep : (runs K W F).step m act = some m') :
    Machine.Uncharged m m' ∨ ∃ k, Machine.Charged m m' p k := by
  obtain ⟨⟨m₁, out⟩, hrun, rfl⟩ := Option.map_eq_some_iff.mp hstep
  -- Only a poll charges, and a reset is excluded by `Steady`.
  cases act with
  | poll fuel ctx =>
    obtain ⟨⟨m₂, r⟩, hpoll, hr⟩ := Option.map_eq_some_iff.mp hrun
    cases hr
    rcases Machine.poll_charged hpoll with hnone | ⟨fired, p', k, hfire, hperiod, hcharged⟩
    · exact .inl hnone
    · -- the events leave the clock as it was when the poll began
      have hclock : fired.soc.cpu.units.f_clk = f_clk :=
        (congrArg ClockGenerator.f_clk (fire_due_events_clock hfire)).trans hok
      have hfired : fired.period = f_clk.period.filter fun tick => tick ≠ 0 := by
        rw [← hclock]
        rfl
      rw [hfired, hp] at hperiod
      obtain ⟨rfl, -⟩ : p = p' ∧ p ≠ 0 := by
        simp only [Option.filter] at hperiod
        split at hperiod <;> simp_all
      exact .inr ⟨k, hcharged⟩
  | inspect cmd =>
    cases hrun
    exact .inl (Machine.frame_inspect_command m cmd).uncharged
  | reset => exact hok.elim
  | poll_actions =>
    cases hrun
    exact .inl ⟨rfl, rfl⟩
  | apply_action req =>
    cases hrun
    exact .inl ⟨rfl, rfl⟩
  | receive port frame =>
    cases hrun
    exact .inl ⟨rfl, rfl⟩

/-- A run at a constant clock charges the period for every instruction, up to the
    end of virtual time. -/
theorem path_charged (hp : f_clk.period = some p) (hpath : Path (runs K W F) (Steady f_clk) m₀ m) :
    m₀.retired ≤ m.retired ∧
      m.last_insn_at = min (m₀.last_insn_at + (m.retired - m₀.retired) * p) u64_max := by
  induction hpath with
  | refl =>
    have hle := Nat.le_trans m₀.last_insn_le m₀.clock.le_max
    simp
    omega
  | @tail m m' act hpre hok hstep ih =>
    obtain ⟨hle, hlast⟩ := ih
    rcases step_charged hp hok hstep with ⟨hlast', hretired'⟩ | ⟨k, hlast', hretired'⟩
    · rw [hretired', hlast', hlast]
      exact ⟨hle, rfl⟩
    · have hsum : (m'.retired - m₀.retired) * p = (m.retired - m₀.retired) * p + p * k := by
        have hretires : m'.retired - m₀.retired = m.retired - m₀.retired + k := by omega
        rw [hretires, Nat.add_mul, Nat.mul_comm k p]
      refine ⟨by omega, ?_⟩
      rw [hlast', hlast, hsum]
      simp only [saturating_add, saturating_mul]
      omega

/-! ### Cycles in virtual time -/

end G23

namespace Hertz

variable {f : Hertz}

theorem period_eq (hf : f.hz ≠ 0) : f.period = some (ns_per_sec / f.hz) := by
  unfold period cycles_to_tick
  rw [if_neg hf]
  rfl

/-- The fraction that the period drops counts `n` times. -/
theorem cycles_to_tick_eq (hf : f.hz ≠ 0) {n : Nat} (hn : n * ns_per_sec < 2 ^ 64) :
    f.cycles_to_tick n =
      some (n * (ns_per_sec / f.hz) + n * (ns_per_sec % f.hz) / f.hz) := by
  have hexact : saturating_mul n ns_per_sec = n * ns_per_sec := by
    refine Nat.min_eq_left ?_
    unfold u64_max
    omega
  have hparts : n * ns_per_sec =
      n * (ns_per_sec % f.hz) + n * (ns_per_sec / f.hz) * f.hz := by
    calc n * ns_per_sec
        = n * (ns_per_sec % f.hz + f.hz * (ns_per_sec / f.hz)) := by rw [Nat.mod_add_div]
      _ = n * (ns_per_sec % f.hz) + n * (ns_per_sec / f.hz) * f.hz := by
          rw [Nat.mul_add, Nat.mul_comm f.hz, Nat.mul_assoc]
  unfold cycles_to_tick
  rw [if_neg hf, hexact, hparts, Nat.add_mul_div_right _ _ (Nat.pos_of_ne_zero hf), Nat.add_comm]

end Hertz

namespace G23

variable [Rest K W F] {f_clk : Hertz} {m₀ m : Board K W F}

/-- The time charged for `n` instructions never exceeds that of `n` cycles. They are
    within one period exactly while the dropped fractions are, and time goes on. -/
theorem instruction_time (hf : f_clk.Runs) (hpath : Path (runs K W F) (Steady f_clk) m₀ m)
    (hn : (m.retired - m₀.retired) * ns_per_sec < 2 ^ 64) :
    ∃ p t, f_clk.period = some p ∧ f_clk.cycles_to_tick (m.retired - m₀.retired) = some t ∧
      m.last_insn_at - m₀.last_insn_at =
        min ((m.retired - m₀.retired) * p) (u64_max - m₀.last_insn_at) ∧
      m.last_insn_at - m₀.last_insn_at ≤ t ∧
      (t ≤ m.last_insn_at - m₀.last_insn_at + p ↔
        (m.retired - m₀.retired) * (ns_per_sec % f_clk.hz) < (p + 1) * f_clk.hz ∧
          m₀.last_insn_at + t ≤ u64_max + p) := by
  have hp := Hertz.period_eq hf.1
  obtain ⟨-, hlast⟩ := path_charged hp hpath
  have hstart := Nat.le_trans m₀.last_insn_le m₀.clock.le_max
  refine ⟨_, _, hp, Hertz.cycles_to_tick_eq hf.1 hn, ?_, ?_, ?_⟩
  · rw [hlast]
    omega
  · rw [hlast]
    generalize (m.retired - m₀.retired) * (ns_per_sec % f_clk.hz) / f_clk.hz = dropped
    omega
  · rw [← Nat.div_lt_iff_lt_mul (Nat.pos_of_ne_zero hf.1), Nat.lt_succ_iff, hlast]
    omega

/-! ### A guest that runs on -/

/-- A guest that retires whatever it is given. -/
structure Runner where

instance : Rest Runner Empty Empty where
  run_quantum max _ _ := .done ⟨⟩ ⟨max, none, Nat.le_refl _⟩
  wires _ _ _ _ k := .done k []
  reset _ _ _ k := .done k []
  read_reg _ id := .error (.UnknownRegister id)
  write_reg k id _ := (k, .error (.UnknownRegister id))
  sync_breakpoints k _ := k
  read_gdb_registers _ := .ok []
  pc _ := 0
  write_gdb_registers k _ := (k, .error .Unsupported)
  poll_actions _ k := .done k []
  apply_action _ _ k := (.done k [], some .NotFoundAction)
  drive_in _ _ _ k := .done k []
  mmio w := w.elim
  answer _ _ offset len _ := .error (.OutOfRange offset offset len)

/-- Its board, after power-on reset. -/
def running : Board Runner Empty Empty :=
  (Machine.new ⟨⟨.new, ⟨⟩, fun _ => none, []⟩, ⟨[], .Log, [], none⟩⟩).reset

theorem reachable_running : Reachable (runs Runner Empty Empty) AnyAct running :=
  .step .reset (.init ⟨_, rfl, rfl⟩) trivial rfl

instance (f_clk : Hertz) (m : Board Runner Empty Empty) (act : MachineAct Empty) :
    Decidable (Steady f_clk m act) := by
  cases act
  case reset => exact .isFalse id
  all_goals exact inferInstanceAs (Decidable (m.soc.cpu.units.f_clk = f_clk))

/-- 32 cycles of 32 MHz are a microsecond, and 32 instructions 8 ns less. -/
theorem instruction_time_short :
    ∃ m, Path (runs Runner Empty Empty) (Steady (.from_mhz 32)) running m ∧
      m.retired - running.retired = 32 ∧
      1000 ≤ m.last_insn_at - running.last_insn_at + 31 := by
  obtain ⟨m, hpath, hretired⟩ : ∃ m,
      Path (runs Runner Empty Empty) (Steady (.from_mhz 32)) running m ∧
        m.retired - running.retired = 32 :=
    Path.exists_of_exec [.poll 1 ⟨992, 992, false⟩] (by decide +kernel)
  refine ⟨m, hpath, hretired, ?_⟩
  obtain ⟨p, t, hp, ht, -, -, hiff⟩ := instruction_time Hertz.runs_32_mhz hpath (by
    rw [hretired]
    decide)
  rw [hretired] at ht hiff
  obtain rfl : p = 31 := Option.some.inj (hp.symm.trans (by decide))
  obtain rfl : t = 1000 := Option.some.inj (ht.symm.trans (by decide))
  exact hiff.mpr ⟨by decide, by decide +kernel⟩

/-- Four microseconds of 32 MHz, and the instructions are more than a period short. -/
theorem instruction_time_drifts :
    ∃ m₀ m, Reachable (runs Runner Empty Empty) AnyAct m₀ ∧
      Path (runs Runner Empty Empty) (Steady (.from_mhz 32)) m₀ m ∧
      (Hertz.from_mhz 32).period = some 31 ∧
      (Hertz.from_mhz 32).cycles_to_tick (m.retired - m₀.retired) = some 4000 ∧
      m.last_insn_at - m₀.last_insn_at + 31 < 4000 := by
  obtain ⟨m, hpath, hretired, hlast⟩ : ∃ m,
      Path (runs Runner Empty Empty) (Steady (.from_mhz 32)) running m ∧
        m.retired - running.retired = 128 ∧
        m.last_insn_at - running.last_insn_at + 31 < 4000 :=
    Path.exists_of_exec [.poll 1 ⟨3968, 3968, false⟩] (by decide +kernel)
  refine ⟨running, m, reachable_running, hpath, by decide, ?_, hlast⟩
  rw [hretired]
  decide

end G23

end Rl78Sim
