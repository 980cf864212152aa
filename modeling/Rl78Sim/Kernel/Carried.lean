import Rl78Sim.Kernel.Soc

/-! # The Trap That Is Left on the Bus

    A trap and a log that stand on the bus are carried through every call: the
    call does as it would without them, and what it records comes on top. Only
    the end of a quantum takes the trap. -/

namespace Rl78Sim

variable {K D Ev F α : Type} [Core K D Ev F] {t : Option UnmappedRecord} {l : List UnmappedRecord}

/-! ### The bus -/

/-- The bus when `t` and `l` stood on it before. -/
def MemoryBus.carry (bus : MemoryBus D) (t : Option UnmappedRecord) (l : List UnmappedRecord) :
    MemoryBus D :=
  { bus with trap := bus.trap.or t, unmapped_log := l ++ bus.unmapped_log }

/-- The bus with nothing recorded. -/
def MemoryBus.blank (bus : MemoryBus D) : MemoryBus D :=
  { bus with trap := none, unmapped_log := [] }

theorem MemoryBus.blank_carry (bus : MemoryBus D) :
    bus.blank.carry bus.trap bus.unmapped_log = bus := by
  simp [blank, carry]

theorem MemoryBus.unmapped_carry (bus : MemoryBus D) (addr len : Nat) (write : Bool) :
    (bus.carry t l).unmapped addr len write = (bus.unmapped addr len write).carry t l := by
  simp only [carry, unmapped]
  by_cases hpolicy : bus.policy = .Trap
  · simp [hpolicy]
  · simp [hpolicy]

namespace Soc

theorem access_carry (now : Nat) (parts : Parts K Ev F) (op : Op) (addr : Nat)
    (buf : List UInt8) (bus : MemoryBus D) :
    access now parts op addr buf (bus.carry t l) =
      { access now parts op addr buf bus with
        bus := (access now parts op addr buf bus).bus.carry t l } := by
  have hres : (bus.carry t l).resolve addr buf.length = bus.resolve addr buf.length := rfl
  have hdev (k : Nat) : (bus.carry t l).device_mut k = bus.device_mut k := rfl
  unfold access
  rw [hres]
  cases bus.resolve addr buf.length with
  | error err =>
    cases err with
    | Unmapped => simp only [MemoryBus.unmapped_carry]
    | _ => rfl
  | ok at_ =>
    dsimp only
    rw [hdev]
    cases bus.device_mut at_.1 with
    | none => rfl
    | some d => cases d <;> rfl

theorem exec_carry (now : Nat) (use : BusUse (Parts K Ev F) α) (bus : MemoryBus D) :
    exec now use (bus.carry t l) =
      ((exec now use bus).1, (exec now use bus).2.1, (exec now use bus).2.2.carry t l) := by
  induction use generalizing bus with
  | done parts value => rfl
  | access parts op addr buf next ih =>
    simp only [exec, access_carry]
    exact ih _ _ _ _

/-! ### Calls of the chip -/

def carry (soc : Soc K D) (t : Option UnmappedRecord) (l : List UnmappedRecord) : Soc K D :=
  { soc with bus := soc.bus.carry t l }

/-- The call does not look at what stands on the bus. -/
def Carries (op : ChipOp (Soc K D) Ev F α) : Prop :=
  ∀ (now : Nat) (soc : Soc K D) (events : EventQueue Ev) t l,
    op now (soc.carry t l) events =
      { op now soc events with soc := (op now soc events).soc.carry t l }

theorem carries_bus_op (f : Nat → Parts K Ev F → BusUse (Parts K Ev F) α) :
    Carries (D := D) (bus_op f) := by
  intro now soc events t l
  simp only [bus_op, carry, exec_carry]

theorem carries_fire (event : Ev) : Carries (K := K) (D := D) (Cpu.fire event) := by
  intro now soc events t l
  change ({ bus_op _ now (soc.carry t l) events with result := _ } : ChipStep _ _ _ _) = _
  rw [carries_bus_op]
  rfl

end Soc

/-! ### The machine -/

namespace Machine

/-- The machine when `t` and `l` stood on its bus before. -/
def carry (m : Machine (Soc K D) Ev F) (t : Option UnmappedRecord) (l : List UnmappedRecord) :
    Machine (Soc K D) Ev F :=
  { m with soc := m.soc.carry t l }

/-- The machine with nothing recorded on its bus. -/
def blank (m : Machine (Soc K D) Ev F) : Machine (Soc K D) Ev F :=
  { m with soc := { m.soc with bus := m.soc.bus.blank } }

omit [Core K D Ev F] in
theorem blank_carry (m : Machine (Soc K D) Ev F) :
    m.blank.carry m.soc.bus.trap m.soc.bus.unmapped_log = m := by
  simp only [blank, carry, Soc.carry, MemoryBus.blank_carry]

variable {m : Machine (Soc K D) Ev F}

omit [Core K D Ev F] in
theorem call_carry {op : ChipOp (Soc K D) Ev F α} (h : Soc.Carries op) :
    (m.carry t l).call op = ((m.call op).1.carry t l, (m.call op).2) := by
  have hop := h m.clock.now m.soc m.events t l
  change (let out := op m.clock.now (m.soc.carry t l) m.events
    (({ m.carry t l with
        soc := out.soc
        events := out.events
        ports := m.ports.on_input m.clock.now out.drives } : Machine (Soc K D) Ev F),
      out.result)) = _
  rw [hop]
  rfl

theorem fire_due_events_carry (fuel : Nat) :
    fire_due_events fuel (m.carry t l) =
      (fire_due_events fuel m).map fun (m', stop) => (m'.carry t l, stop) := by
  induction fuel generalizing m with
  | zero => rfl
  | succ fuel ih =>
    simp only [fire_due_events]
    have hpop : (m.carry t l).events.pop_due (m.carry t l).clock.now =
        m.events.pop_due m.clock.now := rfl
    rw [hpop]
    obtain ⟨events, due⟩ := m.events.pop_due m.clock.now
    -- The handler carries what it finds carried; then the induction goes on.
    cases due with
    | none => rfl
    | some due =>
      obtain ⟨at_, event⟩ := due
      dsimp only
      have hcall := call_carry (m := { m with events := events }) (t := t) (l := l)
        (Soc.carries_fire (K := K) (D := D) event)
      have hsame : ({ m.carry t l with events := events } : Machine (Soc K D) Ev F) =
          ({ m with events := events } : Machine (Soc K D) Ev F).carry t l := rfl
      rw [hsame, hcall]
      obtain ⟨m', stop⟩ :=
        ({ m with events := events } : Machine (Soc K D) Ev F).call (Cpu.fire event)
      cases stop with
      | none => exact ih
      | some stop => rfl

theorem finish_poll_carry (fuel : Nat) :
    finish_poll fuel (m.carry t l) =
      (finish_poll fuel m).map fun (m', r) => (m'.carry t l, r) := by
  unfold finish_poll
  rw [fire_due_events_carry, Option.map_map, Option.map_map]
  refine congrArg (fun f => Option.map f (fire_due_events fuel m)) (funext fun fired => ?_)
  obtain ⟨m', stop⟩ := fired
  cases stop <;> rfl

theorem idle_carry (fuel budget : Nat) :
    (m.carry t l).idle fuel budget = (m.idle fuel budget).map fun (m', r) => (m'.carry t l, r) := by
  unfold idle
  by_cases hroom : budget = 0
  · simp only [hroom, if_true, Option.map_some]
  · simp only [hroom, if_false]
    exact finish_poll_carry (m := m.advance_clock budget) fuel

/-! ### A poll, up to where it takes the trap -/

/-- The machine when a quantum is accounted for, and the stop of the core. -/
def quantum_end (m : Machine (Soc K D) Ev F) (ns_per_insn budget_ns n : Nat) :
    Option (Machine (Soc K D) Ev F × Option StopReason) :=
  match m.call (Cpu.run_quantum n) with
  | (ran, result) =>
    if result.instructions = 0 ∧ result.stop = none then none
    else
      some (ran.charge ns_per_insn result.instructions (saturating_add ran.clock.now budget_ns),
        result.stop)

/-- The same for `run`, when it runs a quantum. -/
def run_end (m : Machine (Soc K D) Ev F) (ctx : AdvanceCtx) :
    Option (Machine (Soc K D) Ev F × Option StopReason) :=
  let budget := m.budget_ns ctx
  let m := { m with events := m.events.next_deadline.1 }
  match m.period with
  | none => none
  | some ns_per_insn =>
    if ctx.max_quantum < ns_per_insn then none
    else
      match m.max_instructions ctx ns_per_insn budget with
      | 0 => none
      | n + 1 => m.quantum_end ns_per_insn budget (n + 1)

/-- The same for `Machine::poll`: this is where it takes the trap. -/
def reaches_trap (fuel : Nat) (m : Machine (Soc K D) Ev F) (ctx : AdvanceCtx) :
    Option (Machine (Soc K D) Ev F × Option StopReason) :=
  match fire_due_events fuel m with
  | some (m, none) => m.run_end ctx
  | _ => none

theorem call_run_quantum_carry (n : Nat) :
    (m.carry t l).call (Cpu.run_quantum n) =
      ((m.call (Cpu.run_quantum n)).1.carry t l, (m.call (Cpu.run_quantum n)).2) :=
  call_carry (Soc.carries_bus_op fun now => Core.run_quantum D n now)

theorem quantum_end_carry (ns_per_insn budget n : Nat) :
    (m.carry t l).quantum_end ns_per_insn budget n =
      (m.quantum_end ns_per_insn budget n).map fun (m', stop) => (m'.carry t l, stop) := by
  unfold quantum_end
  rw [call_run_quantum_carry]
  dsimp only
  by_cases hidle : (m.call (Cpu.run_quantum n)).2.instructions = 0 ∧
      (m.call (Cpu.run_quantum n)).2.stop = none
  · rw [if_pos hidle, if_pos hidle]
    rfl
  · rw [if_neg hidle, if_neg hidle]
    rfl

theorem quantum_of_end {fuel ns_per_insn budget n : Nat} {m' : Machine (Soc K D) Ev F}
    {stop : Option StopReason} (h : m.quantum_end ns_per_insn budget n = some (m', stop)) :
    m.quantum fuel ns_per_insn budget n = settle fuel m' stop := by
  unfold quantum_end at h
  unfold quantum
  dsimp only at h ⊢
  by_cases hidle : (m.call (Cpu.run_quantum n)).2.instructions = 0 ∧
      (m.call (Cpu.run_quantum n)).2.stop = none
  · rw [if_pos hidle] at h
    cases h
  · rw [if_neg hidle] at h ⊢
    cases h
    rfl

theorem quantum_of_no_end {fuel ns_per_insn budget n : Nat}
    (h : m.quantum_end ns_per_insn budget n = none) :
    m.quantum fuel ns_per_insn budget n = some ((m.call (Cpu.run_quantum n)).1, .NoProgress) := by
  unfold quantum_end at h
  unfold quantum
  dsimp only at h ⊢
  by_cases hidle : (m.call (Cpu.run_quantum n)).2.instructions = 0 ∧
      (m.call (Cpu.run_quantum n)).2.stop = none
  · rw [if_pos hidle]
  · rw [if_neg hidle] at h
    cases h

/-- The machine as `run` goes on with it, once its stale events are dropped. -/
def settled (m : Machine (Soc K D) Ev F) : Machine (Soc K D) Ev F :=
  { m with events := m.events.next_deadline.1 }

/-- What `run` does, whatever stands on the bus: only the clock moves, or it
    fails, or it runs a quantum. -/
inductive RunKind (m : Machine (Soc K D) Ev F) (ctx : AdvanceCtx) : Prop where
  | idle : (∀ t l, (m.carry t l).run_end ctx = none) →
      (∀ fuel t l, (m.carry t l).run fuel ctx =
        (m.settled.carry t l).idle fuel (m.budget_ns ctx)) → RunKind m ctx
  | failed (err : SimError) : (∀ t l, (m.carry t l).run_end ctx = none) →
      (∀ fuel t l, (m.carry t l).run fuel ctx =
        some (m.settled.carry t l, .Done (.Error err))) → RunKind m ctx
  | quantum (ns_per_insn n : Nat) :
      (∀ t l, (m.carry t l).run_end ctx =
        (m.settled.carry t l).quantum_end ns_per_insn (m.budget_ns ctx) n) →
      (∀ fuel t l, (m.carry t l).run fuel ctx =
        (m.settled.carry t l).quantum fuel ns_per_insn (m.budget_ns ctx) n) → RunKind m ctx

theorem run_kind (m : Machine (Soc K D) Ev F) (ctx : AdvanceCtx) : m.RunKind ctx := by
  have hend (t l) : (m.carry t l).run_end ctx =
      match m.settled.period with
      | none => none
      | some ns_per_insn =>
        if ctx.max_quantum < ns_per_insn then none
        else
          match m.settled.max_instructions ctx ns_per_insn (m.budget_ns ctx) with
          | 0 => none
          | n + 1 => (m.settled.carry t l).quantum_end ns_per_insn (m.budget_ns ctx) (n + 1) := rfl
  have hrun (fuel t l) : (m.carry t l).run fuel ctx =
      match m.settled.period with
      | none => (m.settled.carry t l).idle fuel (m.budget_ns ctx)
      | some ns_per_insn =>
        if ctx.max_quantum < ns_per_insn then
          some (m.settled.carry t l, .Done (.Error
            (.InstructionPeriodExceedsQuantum ns_per_insn ctx.max_quantum)))
        else
          match m.settled.max_instructions ctx ns_per_insn (m.budget_ns ctx) with
          | 0 => (m.settled.carry t l).idle fuel (m.budget_ns ctx)
          | n + 1 =>
            (m.settled.carry t l).quantum fuel ns_per_insn (m.budget_ns ctx) (n + 1) := rfl
  -- None of the tests reads what is carried, so they are split once for every `t` and `l`.
  cases hperiod : m.settled.period with
  | none =>
    simp only [hperiod] at hend hrun
    exact .idle hend hrun
  | some ns_per_insn =>
    simp only [hperiod] at hend hrun
    by_cases hlong : ctx.max_quantum < ns_per_insn
    · simp only [hlong, if_true] at hend hrun
      exact .failed _ hend hrun
    · simp only [hlong, if_false] at hend hrun
      cases hmax : m.settled.max_instructions ctx ns_per_insn (m.budget_ns ctx) with
      | zero =>
        simp only [hmax] at hend hrun
        exact .idle hend hrun
      | succ n =>
        simp only [hmax] at hend hrun
        exact .quantum ns_per_insn (n + 1) hend hrun

omit [Core K D Ev F] in
theorem carry_nothing (m : Machine (Soc K D) Ev F) : m.carry none [] = m := by
  simp [carry, Soc.carry, MemoryBus.carry]

theorem run_end_carry (ctx : AdvanceCtx) :
    (m.carry t l).run_end ctx = (m.run_end ctx).map fun (m', stop) => (m'.carry t l, stop) := by
  cases m.run_kind ctx with
  | idle hend | failed _ hend =>
    have hnone := hend none []
    rw [carry_nothing] at hnone
    rw [hend, hnone]
    rfl
  | quantum ns_per_insn n hend =>
    have hsame := hend none []
    rw [carry_nothing, carry_nothing] at hsame
    rw [hend, hsame, quantum_end_carry]

theorem run_carry {fuel : Nat} {ctx : AdvanceCtx} (h : m.run_end ctx = none) :
    (m.carry t l).run fuel ctx = (m.run fuel ctx).map fun (m', r) => (m'.carry t l, r) := by
  cases m.run_kind ctx with
  | idle _ hrun =>
    have hsame := hrun fuel none []
    rw [carry_nothing, carry_nothing] at hsame
    rw [hrun, hsame, idle_carry]
  | failed err _ hrun =>
    have hsame := hrun fuel none []
    rw [carry_nothing, carry_nothing] at hsame
    rw [hrun, hsame]
    rfl
  | quantum ns_per_insn n hend hrun =>
    have hsame := hrun fuel none []
    have hnone := hend none []
    rw [carry_nothing, carry_nothing] at hsame hnone
    rw [hrun, hsame, quantum_of_no_end (hnone.symm.trans h)]
    have hcarried : (m.settled.carry t l).quantum_end ns_per_insn (m.budget_ns ctx) n = none := by
      rw [quantum_end_carry, hnone.symm.trans h]
      rfl
    rw [quantum_of_no_end hcarried, call_run_quantum_carry]
    rfl

theorem run_of_end {fuel : Nat} {ctx : AdvanceCtx} {m' : Machine (Soc K D) Ev F}
    {stop : Option StopReason} (h : m.run_end ctx = some (m', stop)) :
    m.run fuel ctx = settle fuel m' stop := by
  cases m.run_kind ctx with
  | idle hend | failed _ hend =>
    have hnone := hend none []
    rw [carry_nothing, h] at hnone
    cases hnone
  | quantum ns_per_insn n hend hrun =>
    have hsame := hrun fuel none []
    have hend := hend none []
    rw [carry_nothing, carry_nothing] at hsame hend
    rw [hsame, quantum_of_end (hend.symm.trans h)]

theorem reaches_trap_carry (fuel : Nat) (ctx : AdvanceCtx) :
    reaches_trap fuel (m.carry t l) ctx =
      (reaches_trap fuel m ctx).map fun (m', stop) => (m'.carry t l, stop) := by
  unfold reaches_trap
  rw [fire_due_events_carry]
  cases fire_due_events fuel m with
  | none => rfl
  | some fired =>
    obtain ⟨m₁, stop⟩ := fired
    cases stop with
    | some stop => rfl
    | none => exact run_end_carry (m := m₁) ctx

/-- A poll that does not get to the trap leaves what stands on the bus alone. -/
theorem poll_carry {fuel : Nat} {ctx : AdvanceCtx} (h : reaches_trap fuel m ctx = none) :
    (m.carry t l).poll fuel ctx = (m.poll fuel ctx).map fun (m', r) => (m'.carry t l, r) := by
  unfold reaches_trap at h
  unfold poll
  rw [fire_due_events_carry]
  cases hfire : fire_due_events fuel m with
  | none => rfl
  | some fired =>
    obtain ⟨m₁, stop⟩ := fired
    rw [hfire] at h
    cases stop with
    | some stop => rfl
    | none => exact run_carry h

/-- A poll that gets to the trap settles there. -/
theorem poll_of_reaches {fuel : Nat} {ctx : AdvanceCtx} {m' : Machine (Soc K D) Ev F}
    {stop : Option StopReason} (h : reaches_trap fuel m ctx = some (m', stop)) :
    m.poll fuel ctx = settle fuel m' stop := by
  unfold reaches_trap at h
  unfold poll
  cases hfire : fire_due_events fuel m with
  | none =>
    rw [hfire] at h
    cases h
  | some fired =>
    obtain ⟨m₁, stop₁⟩ := fired
    rw [hfire] at h
    cases stop₁ with
    | some stop₁ => cases h
    | none => exact run_of_end h

end Machine

end Rl78Sim
