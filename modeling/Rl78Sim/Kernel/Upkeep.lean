import Rl78Sim.Kernel.Inspection

/-! # Invariants of a Chip

    A property of the core and the event queue that every call of the chip keeps,
    and every event that is served, holds of the machine through all commands and
    polls. -/

namespace Rl78Sim

variable {K D Ev F α : Type}

/-! ### Calls that use the bus -/

/-- Whatever the bus answers, the call ends in `Q`; at each access `P` holds. -/
def BusUse.Ends (P : K → EventQueue Ev → Prop) (Q : Parts K Ev F → α → Prop) :
    BusUse (Parts K Ev F) α → Prop
  | .done parts value => Q parts value
  | .access parts _ _ _ next => P parts.cpu parts.events ∧
      ∀ parts' res buf, P parts'.cpu parts'.events → (next parts' res buf).Ends P Q

/-- The call only reads on the bus; at each access and in the end `P` holds. -/
def BusUse.Reads (P : K → EventQueue Ev → Prop) : BusUse (Parts K Ev F) α → Prop
  | .done parts _ => P parts.cpu parts.events
  | .access parts op _ _ next => op = .read ∧ P parts.cpu parts.events ∧
      ∀ parts' res buf, P parts'.cpu parts'.events → (next parts' res buf).Reads P

/-- The call keeps the property. -/
def BusUse.Keeps (P : K → EventQueue Ev → Prop) (use : BusUse (Parts K Ev F) α) : Prop :=
  use.Ends P fun parts _ => P parts.cpu parts.events

namespace Soc

variable [Core K D Ev F] {P : K → EventQueue Ev → Prop}

/-- The devices on the bus keep the property. -/
def MmioKeeps (D : Type) [Core K D Ev F] (P : K → EventQueue Ev → Prop) : Prop :=
  ∀ (device : D) op offset now buf (parts : Parts K Ev F), P parts.cpu parts.events →
    P (Core.mmio device op offset now buf parts).1.cpu
      (Core.mmio device op offset now buf parts).1.events

theorem access_keeps (hmmio : MmioKeeps D P) {now : Nat} {parts : Parts K Ev F}
    (h : P parts.cpu parts.events) (op : Op) (addr : Nat) (buf : List UInt8) (bus : MemoryBus D) :
    P (access now parts op addr buf bus).parts.cpu
      (access now parts op addr buf bus).parts.events := by
  unfold access
  split
  · exact h
  · exact h
  · split
    · exact h
    · exact h
    · exact hmmio _ _ _ _ _ _ h
    · exact h

theorem exec_ends (hmmio : MmioKeeps D P) {Q : Parts K Ev F → α → Prop} (now : Nat)
    {use : BusUse (Parts K Ev F) α} (h : use.Ends P Q) (bus : MemoryBus D) :
    Q (exec now use bus).1 (exec now use bus).2.1 := by
  induction use generalizing bus with
  | done parts value => exact h
  | access parts op addr buf next ih =>
    obtain ⟨hparts, hnext⟩ := h
    exact ih _ _ _ (hnext _ _ _ (access_keeps hmmio hparts op addr buf bus)) _

/-- The devices on the bus keep the property when they are read. -/
def ReadKeeps (D : Type) [Core K D Ev F] (P : K → EventQueue Ev → Prop) : Prop :=
  ∀ (device : D) offset now buf (parts : Parts K Ev F), P parts.cpu parts.events →
    P (Core.mmio device .read offset now buf parts).1.cpu
      (Core.mmio device .read offset now buf parts).1.events

theorem read_keeps (hmmio : ReadKeeps D P) {now : Nat} {parts : Parts K Ev F}
    (h : P parts.cpu parts.events) (addr : Nat) (buf : List UInt8) (bus : MemoryBus D) :
    P (access now parts .read addr buf bus).parts.cpu
      (access now parts .read addr buf bus).parts.events := by
  unfold access
  split
  · exact h
  · exact h
  · split
    · exact h
    · exact h
    · exact hmmio _ _ _ _ _ h
    · exact h

theorem exec_reads (hmmio : ReadKeeps D P) (now : Nat) {use : BusUse (Parts K Ev F) α}
    (h : use.Reads P) (bus : MemoryBus D) :
    P (exec now use bus).1.cpu (exec now use bus).1.events := by
  induction use generalizing bus with
  | done parts value => exact h
  | access parts op addr buf next ih =>
    obtain ⟨rfl, hparts, hnext⟩ := h
    exact ih _ _ _ (hnext _ _ _ (read_keeps hmmio hparts addr buf bus)) _

/-- Every call of the chip keeps the property, and so does serving the queue. -/
structure Upheld (D : Type) [Core K D Ev F] (P : K → EventQueue Ev → Prop) : Prop where
  run_quantum (max now : Nat) {parts : Parts K Ev F} : P parts.cpu parts.events →
    (Core.run_quantum D max now parts).Keeps P
  fire {cpu : K} {q : EventQueue Ev} {now id : Nat} {event : Ev} : P cpu q →
    (q.pop_due now).2 = some (id, event) →
    (Core.fire D event now (⟨cpu, (q.pop_due now).1, []⟩ : Parts K Ev F)).Keeps P
  pop_due {cpu : K} {q : EventQueue Ev} {now : Nat} : P cpu q → P cpu (q.pop_due now).1
  next_deadline {cpu : K} {q : EventQueue Ev} : P cpu q → P cpu q.next_deadline.1
  reset (now : Nat) {parts : Parts K Ev F} : P parts.cpu parts.events →
    (Core.reset D now parts).Keeps P
  write_reg {cpu : K} {q : EventQueue Ev} (id value : Nat) : P cpu q →
    P (Core.write_reg D cpu id value).1 q
  sync_breakpoints {cpu : K} {q : EventQueue Ev} (items : List Breakpoint) : P cpu q →
    P (Core.sync_breakpoints D cpu items) q
  write_gdb_registers {cpu : K} {q : EventQueue Ev} (data : List Nat) : P cpu q →
    P (Core.write_gdb_registers D cpu data).1 q
  poll_actions (now : Nat) {parts : Parts K Ev F} : P parts.cpu parts.events →
    P (Core.poll_actions D now parts).cpu (Core.poll_actions D now parts).events
  apply_action (req : ActionRequest) (now : Nat) {parts : Parts K Ev F} :
    P parts.cpu parts.events →
    P (Core.apply_action D req now parts).1.cpu (Core.apply_action D req now parts).1.events
  drive_in (port : String) (frame : F) (now : Nat) {parts : Parts K Ev F} :
    P parts.cpu parts.events →
    P (Core.drive_in D port frame now parts).cpu (Core.drive_in D port frame now parts).events
  mmio : MmioKeeps D P

end Soc

/-! ### Commands and polls -/

namespace Machine

open Soc

variable [Core K D Ev F] {P : K → EventQueue Ev → Prop} {m m' : Machine (Soc K D) Ev F}

/-- The property holds of the machine. -/
def Holds (P : K → EventQueue Ev → Prop) (m : Machine (Soc K D) Ev F) : Prop :=
  P m.soc.cpu m.events

omit [Core K D Ev F] in
theorem Holds.same (h : m.Holds P) (hcpu : m'.soc.cpu = m.soc.cpu)
    (hevents : m'.events = m.events) : m'.Holds P := by
  unfold Holds
  rw [hcpu, hevents]
  exact h

/-- A call that may use the bus. -/
theorem Holds.call_bus (hmmio : MmioKeeps D P) {f : Nat → Parts K Ev F → BusUse (Parts K Ev F) α}
    (h : (f m.clock.now ⟨m.soc.cpu, m.events, []⟩).Keeps P) : (m.call (bus_op f)).1.Holds P :=
  exec_ends hmmio m.clock.now h m.soc.bus

theorem Holds.fire_due_events (hu : Upheld D P) {fuel : Nat} {stop : Option StopReason}
    (h : m.Holds P) (hfire : fire_due_events fuel m = some (m', stop)) : m'.Holds P := by
  induction fuel generalizing m with
  | zero => cases hfire
  | succ fuel ih =>
    simp only [Machine.fire_due_events] at hfire
    cases hpop : m.events.pop_due m.clock.now with
    | mk events popped =>
      rw [hpop] at hfire
      have hevents : events = (m.events.pop_due m.clock.now).1 := by rw [hpop]
      cases popped with
      | none =>
        cases hfire
        show P m.soc.cpu events
        rw [hevents]
        exact hu.pop_due h
      | some e =>
        obtain ⟨id, event⟩ := e
        dsimp only at hfire
        -- The handler of a due event keeps the invariant.
        have hcall : (({ m with events := events } : Machine (Soc K D) Ev F).call
            (Cpu.fire event)).1.Holds P := by
          refine exec_ends (Q := fun parts _ => P parts.cpu parts.events) hu.mmio m.clock.now ?_
            m.soc.bus
          show (Core.fire D event m.clock.now ⟨m.soc.cpu, events, []⟩).Ends P _
          rw [hevents]
          exact hu.fire h (by rw [hpop])
        revert hfire hcall
        cases ({ m with events := events } : Machine (Soc K D) Ev F).call (Cpu.fire event) with
        | mk m₁ stop₁ =>
          intro hfire hcall
          cases stop₁ with
          | none => exact ih hcall hfire
          | some reason =>
            cases hfire
            exact hcall

theorem Holds.finish_poll (hu : Upheld D P) {fuel : Nat} {r : EntityPoll} (h : m.Holds P)
    (hpoll : finish_poll fuel m = some (m', r)) : m'.Holds P := by
  obtain ⟨⟨m₁, stop⟩, hfire, hr⟩ := Option.map_eq_some_iff.mp hpoll
  have hm₁ := h.fire_due_events hu hfire
  cases stop <;> (cases hr; exact hm₁)

theorem Holds.idle (hu : Upheld D P) {fuel budget : Nat} {r : EntityPoll} (h : m.Holds P)
    (hpoll : idle fuel m budget = some (m', r)) : m'.Holds P := by
  unfold Machine.idle at hpoll
  split at hpoll
  · cases hpoll
    exact h
  · have hadvance : (m.advance_clock budget).Holds P := h
    exact hadvance.finish_poll hu hpoll

theorem Holds.settle (hu : Upheld D P) {fuel : Nat} {stop : Option StopReason} {r : EntityPoll}
    (h : m.Holds P) (hpoll : settle fuel m stop = some (m', r)) : m'.Holds P := by
  unfold Machine.settle at hpoll
  have htrap : (Cpu.take_trap m.soc).1.cpu = m.soc.cpu := rfl
  revert hpoll htrap
  cases Cpu.take_trap m.soc with
  | mk soc trap =>
    intro hpoll htrap
    have hsoc : ({ m with soc := soc } : Machine (Soc K D) Ev F).Holds P := h.same htrap rfl
    cases trap with
    | some access =>
      cases hpoll
      exact hsoc
    | none =>
      cases stop with
      | some reason =>
        cases hpoll
        exact hsoc
      | none => exact hsoc.finish_poll hu hpoll

theorem Holds.quantum (hu : Upheld D P) {fuel ns_per_insn budget n : Nat} {r : EntityPoll}
    (h : m.Holds P) (hpoll : quantum fuel m ns_per_insn budget n = some (m', r)) :
    m'.Holds P := by
  unfold Machine.quantum at hpoll
  have hcall : (m.call (Cpu.run_quantum n)).1.Holds P :=
    Holds.call_bus hu.mmio (hu.run_quantum n m.clock.now h)
  revert hpoll hcall
  cases m.call (Cpu.run_quantum n) with
  | mk ran result =>
    intro hpoll hcall
    dsimp only at hpoll
    split at hpoll
    · cases hpoll
      exact hcall
    · refine Holds.settle hu ?_ hpoll
      exact hcall

theorem Holds.run (hu : Upheld D P) {fuel : Nat} {ctx : AdvanceCtx} {r : EntityPoll}
    (h : m.Holds P) (hpoll : m.run fuel ctx = some (m', r)) : m'.Holds P := by
  unfold Machine.run at hpoll
  have hnext : ({ m with events := m.events.next_deadline.1 } : Machine (Soc K D) Ev F).Holds P :=
    hu.next_deadline h
  dsimp only at hpoll
  split at hpoll
  · exact hnext.idle hu hpoll
  · split at hpoll
    · cases hpoll
      exact hnext
    · split at hpoll
      · exact hnext.idle hu hpoll
      · exact hnext.quantum hu hpoll

theorem Holds.poll (hu : Upheld D P) {fuel : Nat} {ctx : AdvanceCtx} {r : EntityPoll}
    (h : m.Holds P) (hpoll : m.poll fuel ctx = some (m', r)) : m'.Holds P := by
  unfold Machine.poll at hpoll
  cases hfire : Machine.fire_due_events fuel m with
  | none =>
    rw [hfire] at hpoll
    cases hpoll
  | some fired =>
    obtain ⟨m₁, stop⟩ := fired
    rw [hfire] at hpoll
    have hm₁ := h.fire_due_events hu hfire
    cases stop with
    | some reason =>
      cases hpoll
      exact hm₁
    | none => exact hm₁.run hu hpoll

theorem Holds.inspect (hu : Upheld D P) (h : m.Holds P) (cmd : InspectCommand) :
    (m.inspect_command cmd).1.Holds P := by
  cases cmd with
  | ReadReg id =>
    simp only [inspect_command]
    split <;> exact h
  | WriteReg id value =>
    have hwrite := hu.write_reg id value h
    simp only [inspect_command, Cpu.write_reg]
    revert hwrite
    cases Core.write_reg D m.soc.cpu id value with
    | mk cpu res =>
      intro hwrite
      cases res <;> exact hwrite
  | ReadMem addr len =>
    -- A memory command goes through the devices, which keep the invariant.
    have hcall : (m.call (Cpu.read_mem addr len)).1.Holds P := by
      refine Holds.call_bus hu.mmio ⟨h, fun parts res buf hparts => ?_⟩
      exact hparts
    simp only [inspect_command]
    revert hcall
    cases m.call (Cpu.read_mem addr len) with
    | mk m₁ res =>
      intro hcall
      cases res <;> exact hcall
  | WriteMem addr data =>
    have hcall : (m.call (Cpu.write_mem addr data)).1.Holds P := by
      refine Holds.call_bus hu.mmio ⟨h, fun parts res buf hparts => ?_⟩
      exact hparts
    simp only [inspect_command]
    revert hcall
    cases m.call (Cpu.write_mem addr data) with
    | mk m₁ res =>
      intro hcall
      cases res <;> exact hcall
  | AddBreakpoint addr => exact hu.sync_breakpoints _ h
  | RemoveBreakpoint addr =>
    simp only [inspect_command]
    split
    · exact hu.sync_breakpoints _ h
    · exact h
  | ClearBreakpoints => exact hu.sync_breakpoints _ h
  | ReadGdbRegs =>
    simp only [inspect_command]
    split <;> exact h
  | WriteGdbRegs data =>
    have hwrite := hu.write_gdb_registers data h
    simp only [inspect_command, Cpu.write_gdb_registers]
    revert hwrite
    cases Core.write_gdb_registers D m.soc.cpu data with
    | mk cpu res =>
      intro hwrite
      cases res <;> exact hwrite

theorem Holds.reset (hu : Upheld D P) (h : m.Holds P) : m.reset.Holds P :=
  Holds.call_bus hu.mmio (hu.reset m.clock.now h)

/-- The property holds through every command and poll. -/
theorem Holds.act (hu : Upheld D P) (h : m.Holds P) {act : MachineAct F} {out : Outcome}
    (hrun : act.run m = some (m', out)) : m'.Holds P := by
  cases act with
  | poll fuel ctx =>
    obtain ⟨⟨m₁, r⟩, hpoll, hr⟩ := Option.map_eq_some_iff.mp hrun
    cases hr
    exact h.poll hu hpoll
  | inspect cmd =>
    cases hrun
    exact h.inspect hu cmd
  | reset =>
    cases hrun
    exact h.reset hu
  | poll_actions =>
    cases hrun
    exact hu.poll_actions m.clock.now h
  | apply_action req =>
    cases hrun
    exact hu.apply_action req m.clock.now h
  | receive port frame =>
    cases hrun
    exact hu.drive_in port frame m.clock.now h

end Machine

end Rl78Sim
