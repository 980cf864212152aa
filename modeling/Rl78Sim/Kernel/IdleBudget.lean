import Rl78Sim.Kernel.SimRuns

/-! # Idle Time and the Instruction Budget

    A poll covers the virtual time up to the quantum, the next deadline and
    the ceiling, and asks the core for the instructions that end within it,
    counted from the last retired one. Where that one lies behind the clock,
    the time in between is part of the budget.
-/

namespace Rl78Sim

open Transition

/-- A poll that reaches the core: the clock, the end of the last retired
    instruction, the virtual time that the poll may cover, the instruction
    period, and the number of instructions asked for. -/
structure Request where
  now : Nat
  last : Nat
  span : Nat
  period : Nat
  count : Nat
  deriving DecidableEq

namespace Request

/-- The core is asked for no more than the poll may cover, and no instruction
    of the request ends before the clock. -/
structure InTime (r : Request) : Prop where
  count_le : r.count ≤ (r.span + r.period - 1) / r.period
  now_le : r.now ≤ r.last + r.period

/-- The last instruction ended less than a period ago; or a period ago, where
    the poll covers a broken number of periods. -/
def Fresh (r : Request) : Prop :=
  r.now - r.last < r.period ∨
    r.now - r.last = r.period ∧ (r.span % r.period ≠ 0 ∨ u32_max ≤ r.span / r.period)

instance (r : Request) : Decidable r.Fresh := inferInstanceAs (Decidable (_ ∨ _))

end Request

namespace Machine

variable {C Ev F : Type} [Cpu C Ev F]

/-- The virtual time that a poll may cover. Deadlines and ceilings are `u64`s,
    so the range of the clock cuts nothing off. -/
def span (m : Machine C Ev F) (ctx : AdvanceCtx) : Nat :=
  min (m.budget_ns ctx) (u64_max - m.clock.now)

/-- The request of a poll, once the events already due have fired. -/
def request (m : Machine C Ev F) (ctx : AdvanceCtx) : Option Request :=
  match m.period with
  | none => none
  | some ns_per_insn =>
      if ctx.max_quantum < ns_per_insn then none
      else
        match m.max_instructions ctx ns_per_insn (m.budget_ns ctx) with
        | 0 => none
        | n + 1 => some ⟨m.clock.now, m.last_insn_at, m.span ctx, ns_per_insn, n + 1⟩

/-- What `Machine::poll` asks the core for. -/
def poll_request (fuel : Nat) (m : Machine C Ev F) (ctx : AdvanceCtx) : Option Request :=
  match fire_due_events fuel m with
  | some (m, none) => m.request ctx
  | _ => none

/-- A poll with a request runs the core for the count of the request. -/
theorem run_of_request {m : Machine C Ev F} {ctx : AdvanceCtx} {r : Request}
    (h : m.request ctx = some r) (fuel : Nat) : m.run fuel ctx =
      ({ m with events := m.events.next_deadline.1 } : Machine C Ev F).quantum fuel r.period
        (m.budget_ns ctx) r.count := by
  unfold request at h
  split at h
  · cases h
  · rename_i ns_per_insn hperiod
    split at h
    · cases h
    · rename_i hquantum
      split at h
      · cases h
      · rename_i n hn
        cases h
        have hperiod' : ({ m with events := m.events.next_deadline.1 } : Machine C Ev F).period =
            some ns_per_insn := hperiod
        have hn' : ({ m with events := m.events.next_deadline.1 } : Machine C Ev F).max_instructions
            ctx ns_per_insn (m.budget_ns ctx) = n + 1 := hn
        unfold run
        simp only [hperiod', if_neg hquantum, hn']

/-- A poll without one moves the clock only, or reports the period. -/
theorem run_of_no_request {m : Machine C Ev F} {ctx : AdvanceCtx} (h : m.request ctx = none)
    (fuel : Nat) : (∃ p, m.run fuel ctx = some ({ m with events := m.events.next_deadline.1 },
        .Done (.Error (.InstructionPeriodExceedsQuantum p ctx.max_quantum)))) ∨
      m.run fuel ctx = ({ m with events := m.events.next_deadline.1 } : Machine C Ev F).idle fuel
        (m.budget_ns ctx) := by
  unfold request at h
  unfold run
  dsimp only
  have hperiod : ({ m with events := m.events.next_deadline.1 } : Machine C Ev F).period =
      m.period := rfl
  rw [hperiod]
  cases hsome : m.period with
  | none => exact .inr rfl
  | some ns_per_insn =>
    rw [hsome] at h
    dsimp only at h ⊢
    by_cases hquantum : ctx.max_quantum < ns_per_insn
    · rw [if_pos hquantum]
      exact .inl ⟨_, rfl⟩
    · rw [if_neg hquantum] at h ⊢
      right
      split at h
      · rename_i hzero
        have hzero' : ({ m with events := m.events.next_deadline.1 } :
            Machine C Ev F).max_instructions ctx ns_per_insn (m.budget_ns ctx) = 0 := hzero
        rw [hzero']
      · cases h

/-- What a request asks for, outside a single step. -/
theorem request_count {m : Machine C Ev F} {ctx : AdvanceCtx} {r : Request}
    (honce : ctx.step_once = false) (h : m.request ctx = some r) :
    0 < r.period ∧ r.last ≤ r.now ∧
      r.count = min ((r.now + r.span - r.last) / r.period) u32_max := by
  unfold request at h
  split at h
  · cases h
  · rename_i ns_per_insn hperiod
    split at h
    · cases h
    · split at h
      · cases h
      · rename_i n hn
        cases h
        refine ⟨?_, m.last_insn_le, ?_⟩
        · have hne := (Option.filter_eq_some_iff.mp hperiod).2
          exact Nat.pos_of_ne_zero (by simpa using hne)
        · simp only [max_instructions, honce, Bool.false_eq_true, if_false] at hn
          have hmax := m.clock.le_max
          have hspan : saturating_add m.clock.now (m.budget_ns ctx) =
              m.clock.now + m.span ctx := by
            unfold saturating_add span
            omega
          rw [hspan] at hn
          exact hn.symm

end Machine

/-- A request that counts from the last instruction is in time exactly when
    that one is fresh. -/
theorem Request.inTime_iff {r : Request} (hperiod : 0 < r.period) (hlast : r.last ≤ r.now)
    (hcount : r.count = min ((r.now + r.span - r.last) / r.period) u32_max) :
    r.InTime ↔ r.Fresh := by
  obtain ⟨now, last, span, p, count⟩ := r
  unfold Fresh
  generalize u32_max = cap at hcount ⊢
  dsimp only at hperiod hlast hcount ⊢
  have hdiv := Nat.div_add_mod span p
  have hmod := Nat.mod_lt span hperiod
  -- Whole periods, with the broken one counted.
  have hround : (span + p - 1) / p = span / p + (if span % p = 0 then 0 else 1) := by
    split
    · rename_i hzero
      rw [show span + p - 1 = (p - 1) + p * (span / p) by omega, Nat.add_mul_div_left _ _ hperiod,
        Nat.div_eq_of_lt (by omega)]
      omega
    · rename_i hbroken
      rw [show span + p - 1 = (span % p - 1) + p * (span / p + 1) by
          rw [Nat.mul_add]
          omega,
        Nat.add_mul_div_left _ _ hperiod, Nat.div_eq_of_lt (by omega)]
      omega
  have hone : (span + p) / p = span / p + 1 := Nat.add_div_right _ hperiod
  constructor
  · rintro ⟨hle, hnow⟩
    dsimp only at hle hnow
    by_cases hlag : now - last < p
    · exact .inl hlag
    · right
      have heq : now - last = p := by omega
      refine ⟨heq, ?_⟩
      rw [hcount, show now + span - last = span + p by omega, hone, hround] at hle
      split at hle
      · right
        omega
      · left
        assumption
  · intro hfresh
    have hcap : count ≤ (now + span - last) / p := by
      rw [hcount]
      exact Nat.min_le_left _ _
    refine ⟨?_, ?_⟩
    · show count ≤ (span + p - 1) / p
      rcases hfresh with hlag | ⟨hlag, hbroken | hmax⟩
      · exact Nat.le_trans hcap (Nat.div_le_div_right (by omega))
      · rw [show now + span - last = span + p by omega, hone] at hcap
        rw [hround, if_neg hbroken]
        exact hcap
      · rw [hround]
        omega
    · show now ≤ last + p
      omega

/-! ### Runs -/

variable {C Ev F : Type} [Cpu C Ev F]

/-- Machines at power-on. -/
def PowerOn (m : Machine C Ev F) : Prop := ∃ soc, m = Machine.new soc

/-- The request of the next poll of a running simulator. -/
def next_request (s : Simulator (Machine C Ev F)) (fuel : Nat) : Option Request :=
  if s.state = .Running then s.entity.poll_request fuel s.advance_ctx else none

/-- All runs of a machine, with the requests of its polls as history. -/
def request_runs : System (Simulator (Machine C Ev F) × List Request) (SimAct F) :=
  System.logged (sim_runs PowerOn) [] fun s l _ requests =>
    match l with
    | .poll fuel => requests ++ (next_request s fuel).toList
    | _ => requests

/-- No single step is commanded. -/
def NoStepLogged (s : Simulator (Machine C Ev F) × List Request) (l : SimAct F) : Prop :=
  NoStep s.1 l

/-- No single step is commanded, and a poll reaches the core only while the
    last instruction is fresh. -/
def PollsFresh (s : Simulator (Machine C Ev F) × List Request) (l : SimAct F) : Prop :=
  NoStep s.1 l ∧
    match l with
    | .poll fuel => ∀ r ∈ next_request s.1 fuel, r.Fresh
    | _ => True

theorem next_request_iff {s : Simulator (Machine C Ev F)} (honce : s.step_once = false)
    {fuel : Nat} {r : Request} (h : next_request s fuel = some r) : r.InTime ↔ r.Fresh := by
  unfold next_request at h
  split at h
  · unfold Machine.poll_request at h
    split at h
    · rename_i m hfire
      obtain ⟨hperiod, hlast, hcount⟩ := Machine.request_count honce h
      exact Request.inTime_iff hperiod hlast hcount
    · cases h
  · cases h

/-- In every run without a single step whose polls find the last instruction
    fresh, no poll asks for more than it may cover and none for an instruction
    of the past; any other poll does. -/
theorem idle_time_not_banked (C : Type) {Ev F : Type} [Cpu C Ev F] :
    (∀ s : Simulator (Machine C Ev F) × List Request, Reachable request_runs PollsFresh s →
      ∀ r ∈ s.2, r.InTime) ∧
    ∀ s : Simulator (Machine C Ev F) × List Request, Reachable request_runs NoStepLogged s →
      ∀ fuel r, next_request s.1 fuel = some r → (r.InTime ↔ r.Fresh) := by
  have hstep_once {s : Simulator (Machine C Ev F) × List Request}
      (h : Reachable request_runs NoStepLogged s) : s.1.step_once = false :=
    step_once_of_noStep (h.unlogged fun _ _ hok => hok)
  constructor
  · intro s h
    induction h with
    | init hi =>
      rw [hi.2]
      nofun
    | step l hreach hok hstep ih =>
      obtain ⟨-, hlog⟩ := System.logged_step_cases hstep
      rw [hlog]
      cases l with
      | poll fuel =>
        intro r hr
        rcases List.mem_append.mp hr with hold | hnew
        · exact ih r hold
        · have hnext := Option.mem_toList.mp hnew
          have honce := hstep_once (hreach.mono fun _ _ hok => hok.1)
          exact (next_request_iff honce hnext).mpr (hok.2 r hnext)
      | _ => exact ih
  · intro s h fuel r hr
    exact next_request_iff (hstep_once h) hr

/-! ### A guest that sleeps -/

/-- A core at 32 MHz. Asleep, it retires nothing and halts; it schedules its
    own wake-up when it falls asleep. -/
structure Sleeper where
  sleep_ns : Nat
  asleep : Bool
  woken : Bool
  insns : Nat

namespace Sleeper

/-- Run up to `max` instructions, or none. -/
def run (c : Sleeper) (max : Nat) : Sleeper × Quantum max :=
  if c.asleep then (c, ⟨0, some .Halt, Nat.zero_le _⟩)
  else ({ c with insns := c.insns + max }, ⟨max, none, Nat.le_refl _⟩)

/-- An operation that only changes the chip. -/
def local_op {α : Type} (f : Sleeper → Sleeper × α) : ChipOp Sleeper Unit Empty α :=
  fun _ soc events => ⟨(f soc).1, events, [], (f soc).2⟩

instance : Cpu Sleeper Unit Empty where
  instruction_period _ := some 31
  run_quantum max now c q :=
    if !c.asleep && !c.woken then
      let c := { c with asleep := true }
      ⟨(c.run max).1, (q.schedule (now + c.sleep_ns) ()).1, [], (c.run max).2⟩
    else ⟨(c.run max).1, q, [], (c.run max).2⟩
  fire _ := local_op fun c => ({ c with asleep := false, woken := true }, none)
  take_trap c := (c, none)
  reset := local_op fun c => (c, ())
  read_reg _ id := .error (.UnknownRegister id)
  write_reg c id _ := (c, .error (.UnknownRegister id))
  read_mem addr len := local_op fun c => (c, .error (.Unmapped addr len))
  write_mem addr data := local_op fun c => (c, .error (.Unmapped addr data.length))
  sync_breakpoints c _ := c
  read_gdb_registers _ := .error .Unsupported
  pc c := c.insns
  write_gdb_registers c _ := (c, .error .Unsupported)
  poll_actions := local_op fun c => (c, ())
  apply_action _ := local_op fun c => (c, some .NotFoundAction)
  drive_in _ _ := local_op fun c => (c, ())

end Sleeper

def sleeper_start (sleep_ns : Nat) : Simulator (Machine Sleeper Unit Empty) × List Request :=
  (Simulator.new (Machine.new ⟨sleep_ns, false, false, 0⟩), [])

theorem init_sleeper (sleep_ns : Nat) :
    (request_runs (C := Sleeper)).init (sleeper_start sleep_ns) :=
  ⟨⟨⟨_, rfl⟩, rfl⟩, rfl⟩

instance (s : Simulator (Machine C Ev F) × List Request) (l : SimAct F) :
    Decidable (NoStepLogged s l) :=
  inferInstanceAs (Decidable (NoStep s.1 l))

instance (s : Simulator (Machine C Ev F) × List Request) (l : SimAct F) :
    Decidable (PollsFresh s l) :=
  match l with
  | .poll fuel => inferInstanceAs (Decidable (NoStep s.1 (.poll fuel) ∧
      ∀ r ∈ next_request s.1 fuel, r.Fresh))
  | .command cmd => inferInstanceAs (Decidable (NoStep s.1 (.command cmd) ∧ True))
  | .reset | .poll_actions | .apply_action _ | .receive _ _ | .drain_pending _ =>
      .isTrue ⟨nofun, trivial⟩

/-- The guest sleeps until 20000. The poll that finds it awake may cover 10000
    nanoseconds, and asks for the 967 instructions of 30000. -/
theorem idle_time_banked :
    ∃ s : Simulator (Machine Sleeper Unit Empty) × List Request,
      Reachable request_runs NoStepLogged s ∧
      s.2.getLast? = some ⟨20000, 0, 10000, 31, 967⟩ ∧ s.1.entity.soc.insns = 967 ∧
      (10000 + 31 - 1) / 31 < 967 :=
  Reachable.exists_of_exec
    [.command .Start, .command (.SetAllowed 100000), .poll 5, .poll 5, .poll 5] (init_sleeper 20000)
    (by decide +kernel)

/-- A guest that does not sleep: the second poll asks for the instruction that
    the first one left over. -/
theorem idle_time_not_banked_awake :
    ∃ s : Simulator (Machine Sleeper Unit Empty) × List Request,
      s.2 = [⟨0, 0, 10000, 31, 322⟩, ⟨10000, 9982, 10000, 31, 323⟩] ∧ ∀ r ∈ s.2, r.InTime := by
  have hinit : (request_runs (C := Sleeper)).init
      (Simulator.new (Machine.new ⟨0, false, true, 0⟩), []) := ⟨⟨⟨_, rfl⟩, rfl⟩, rfl⟩
  obtain ⟨s, hreach, hrequests⟩ : ∃ s : Simulator (Machine Sleeper Unit Empty) × List Request,
      Reachable request_runs PollsFresh s ∧
        s.2 = [⟨0, 0, 10000, 31, 322⟩, ⟨10000, 9982, 10000, 31, 323⟩] :=
    Reachable.exists_of_exec
      [.command .Start, .command (.SetAllowed 100000), .poll 5, .poll 5] hinit (by decide +kernel)
  exact ⟨s, hrequests, (idle_time_not_banked Sleeper).1 s hreach⟩

end Rl78Sim
