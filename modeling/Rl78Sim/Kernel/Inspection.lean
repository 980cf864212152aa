import Rl78Sim.Kernel.BusLaws
import Rl78Sim.Kernel.Carried

/-! # Debugger Reads

    What the later commands and polls of a machine can tell of the reads that a
    debugger made while it was stopped. A read of a register changes nothing. A
    read of memory goes through the bus of the guest, which records a read of
    unmapped space as if the guest had made it. -/

namespace Rl78Sim

variable {K D Ev F : Type} [Core K D Ev F]

/-! ### Commands and polls -/

/-- A command or a poll of the machine; a poll brings the fuel for its events. -/
inductive MachineAct (F : Type) where
  | poll (fuel : Nat) (ctx : AdvanceCtx)
  | inspect (cmd : InspectCommand)
  | reset
  | poll_actions
  | apply_action (req : ActionRequest)
  | receive (port : String) (frame : F)

/-- What the caller gets back. -/
inductive Outcome where
  | polled (r : EntityPoll)
  | response (r : Response)
  | applied (failure : Option ActionFailure)
  | done

namespace MachineAct

def run : MachineAct F → Machine (Soc K D) Ev F → Option (Machine (Soc K D) Ev F × Outcome)
  | .poll fuel ctx, m => (m.poll fuel ctx).map fun (m', r) => (m', .polled r)
  | .inspect cmd, m => some ((m.inspect_command cmd).1, .response (m.inspect_command cmd).2)
  | .reset, m => some (m.reset, .done)
  | .poll_actions, m => some ((m.call Cpu.poll_actions).1, .done)
  | .apply_action req, m =>
    some ((m.call (Cpu.apply_action req)).1, .applied (m.call (Cpu.apply_action req)).2)
  | .receive port frame, m => some ((m.call (Cpu.drive_in port frame)).1, .done)

/-- Where the act takes the trap. -/
def reaches_trap : MachineAct F → Machine (Soc K D) Ev F →
    Option (Machine (Soc K D) Ev F × Option StopReason)
  | .poll fuel ctx, m => m.reaches_trap fuel ctx
  | _, _ => none

end MachineAct

/-- What can be seen of the machine after an act. The core may keep a record of
    its calls, so equal cores have had equal calls. -/
structure Observed (K : Type) where
  outcome : Outcome
  clock : VirtualClock
  cpu : K

/-- The observations of a sequence of commands and polls; `none` if a poll runs
    out of fuel. -/
def observe : List (MachineAct F) → Machine (Soc K D) Ev F → Option (List (Observed K))
  | [], _ => some []
  | act :: acts, m =>
    match act.run m with
    | none => none
    | some (m', out) => (observe acts m').map (⟨out, m'.clock, m'.soc.cpu⟩ :: ·)

/-! ### What a debugger reads -/

inductive DebugRead where
  | ReadReg (id : Nat)
  | ReadGdbRegs
  | ReadMem (addr len : Nat)

namespace DebugRead

def command : DebugRead → InspectCommand
  | .ReadReg id => .ReadReg id
  | .ReadGdbRegs => .ReadGdbRegs
  | .ReadMem addr len => .ReadMem addr len

/-- The read touches RAM, ROM or unmapped space only. -/
def Plain (bus : MemoryBus D) : DebugRead → Prop
  | .ReadMem addr len => ∀ k off d, bus.resolve addr len = .ok (k, off) →
      bus.device_mut k ≠ some (.Mmio d)
  | _ => True

/-- The access that the bus records for the read. -/
def unmapped (bus : MemoryBus D) : DebugRead → Option UnmappedAccess
  | .ReadMem addr len =>
    match bus.resolve addr len with
    | .error (.Unmapped _ _) => some ⟨addr, false⟩
    | _ => none
  | _ => none

end DebugRead

/-- The machine after the reads. -/
def after_reads (reads : List DebugRead) (m : Machine (Soc K D) Ev F) : Machine (Soc K D) Ev F :=
  reads.foldl (fun m read => (m.inspect_command read.command).1) m

/-- The trap that the reads leave: the last of them that hits unmapped space. -/
def left_trap (bus : MemoryBus D) (reads : List DebugRead) : Option UnmappedAccess :=
  match bus.policy with
  | .Log => none
  | .Trap => (reads.filterMap (DebugRead.unmapped bus)).getLast?

/-! ### Acts with a trap on the bus -/

section carried

variable {m m' : Machine (Soc K D) Ev F} {t : Option UnmappedRecord} {l : List UnmappedRecord}

theorem inspect_command_carry (cmd : InspectCommand) :
    (m.carry t l).inspect_command cmd =
      ((m.inspect_command cmd).1.carry t l, (m.inspect_command cmd).2) := by
  cases cmd with
  | ReadReg id =>
    have hsame : Cpu.read_reg (m.carry t l).soc id = Cpu.read_reg m.soc id := rfl
    simp only [Machine.inspect_command, hsame]
    cases Cpu.read_reg m.soc id <;> rfl
  | WriteReg id value =>
    have hsame : Cpu.write_reg (m.carry t l).soc id value =
        ((Cpu.write_reg m.soc id value).1.carry t l, (Cpu.write_reg m.soc id value).2) := rfl
    simp only [Machine.inspect_command, hsame]
    obtain ⟨soc, res⟩ := Cpu.write_reg m.soc id value
    cases res <;> rfl
  -- Memory is the only way to the trap and the log, and neither is read there.
  | ReadMem addr len =>
    have hsame : (m.carry t l).call (Cpu.read_mem addr len) =
        ((m.call (Cpu.read_mem addr len)).1.carry t l, (m.call (Cpu.read_mem addr len)).2) :=
      Machine.call_carry (Soc.carries_bus_op fun _ => Soc.read_mem addr len)
    simp only [Machine.inspect_command, hsame]
    obtain ⟨m', res⟩ := m.call (Cpu.read_mem addr len)
    cases res <;> rfl
  | WriteMem addr data =>
    have hsame : (m.carry t l).call (Cpu.write_mem addr data) =
        ((m.call (Cpu.write_mem addr data)).1.carry t l,
          (m.call (Cpu.write_mem addr data)).2) :=
      Machine.call_carry (Soc.carries_bus_op fun _ => Soc.write_mem addr data)
    simp only [Machine.inspect_command, hsame]
    obtain ⟨m', res⟩ := m.call (Cpu.write_mem addr data)
    cases res <;> rfl
  | AddBreakpoint addr => rfl
  | RemoveBreakpoint addr =>
    have hsame : (m.carry t l).breakpoints = m.breakpoints := rfl
    simp only [Machine.inspect_command, hsame]
    obtain ⟨store, found⟩ := m.breakpoints.remove_at addr
    cases found <;> rfl
  | ClearBreakpoints => rfl
  | ReadGdbRegs =>
    have hsame : Cpu.read_gdb_registers (m.carry t l).soc = Cpu.read_gdb_registers m.soc := rfl
    simp only [Machine.inspect_command, hsame]
    cases Cpu.read_gdb_registers m.soc <;> rfl
  | WriteGdbRegs data =>
    have hsame : Cpu.write_gdb_registers (m.carry t l).soc data =
        ((Cpu.write_gdb_registers m.soc data).1.carry t l,
          (Cpu.write_gdb_registers m.soc data).2) := rfl
    simp only [Machine.inspect_command, hsame]
    obtain ⟨soc, res⟩ := Cpu.write_gdb_registers m.soc data
    cases res <;> rfl

theorem reset_carry : (m.carry t l).reset = m.reset.carry t l := by
  have hcall : (m.carry t l).call Cpu.reset =
      ((m.call Cpu.reset).1.carry t l, (m.call Cpu.reset).2) :=
    Machine.call_carry (Soc.carries_bus_op fun now => Core.reset D now)
  exact congrArg (fun x : Machine (Soc K D) Ev F × Unit => ({ x.1 with
    last_insn_at := x.1.clock.now
    last_insn_le := Nat.le_refl _ } : Machine (Soc K D) Ev F)) hcall

/-- An act that does not take the trap leaves what stands on the bus alone. -/
theorem MachineAct.run_carry {act : MachineAct F} (h : act.reaches_trap m = none) :
    act.run (m.carry t l) = (act.run m).map fun (m', out) => (m'.carry t l, out) := by
  cases act with
  | poll fuel ctx =>
    simp only [run]
    rw [Machine.poll_carry h, Option.map_map, Option.map_map]
    rfl
  | inspect cmd =>
    simp only [run]
    rw [inspect_command_carry]
    rfl
  | reset =>
    simp only [run]
    rw [reset_carry]
    rfl
  | poll_actions | apply_action | receive => rfl

omit [Core K D Ev F] in
theorem Machine.insn_le_now (m : Machine (Soc K D) Ev F) : m.last_insn_at ≤ m.clock.now :=
  m.last_insn_le

/-- The machine with no trap on its bus. -/
def Machine.untrapped (m : Machine (Soc K D) Ev F) : Machine (Soc K D) Ev F :=
  { m with
    soc := { m.soc with bus := { m.soc.bus with trap := none } }
    last_insn_le := m.insn_le_now }

omit [Core K D Ev F] in
theorem untrapped_carry : (m.carry t l).untrapped = m.untrapped.carry none l := rfl

omit [Core K D Ev F] in
theorem untrapped_of_none (h : m.soc.bus.trap = none) : m.untrapped = m := by
  unfold Machine.untrapped
  rw [← h]

omit [Core K D Ev F] in
/-- A trap of the machine's own covers the one that stood there. -/
theorem carry_untrapped : m.carry t l = m.untrapped.carry (m.soc.bus.trap.or t) l := by
  simp [Machine.carry, Machine.untrapped, Soc.carry, MemoryBus.carry]

theorem settle_trapped {fuel : Nat} {x : UnmappedRecord} (h : m.soc.bus.trap = some x)
    (stop : Option StopReason) :
    Machine.settle fuel m stop =
      some (m.untrapped, .Done (.Stopped (.Unmapped x.addr x.write))) := by
  have htake : Cpu.take_trap m.soc = (m.untrapped.soc, some (Soc.reported x)) := by
    change (_, Option.map _ m.soc.bus.trap) = _
    rw [h]
    rfl
  unfold Machine.settle
  rw [htake]
  rfl

/-- The end of a quantum that no trap stops. -/
def past_trap (fuel : Nat) (m : Machine (Soc K D) Ev F) (stop : Option StopReason) :
    Option (Machine (Soc K D) Ev F × EntityPoll) :=
  match stop with
  | some reason => some (m, .Done (.Stopped reason))
  | none => Machine.finish_poll fuel m

theorem settle_untrapped {fuel : Nat} (h : m.soc.bus.trap = none) (stop : Option StopReason) :
    Machine.settle fuel m stop = past_trap fuel m stop := by
  have htake : Cpu.take_trap m.soc = (m.soc, none) := by
    change (m.untrapped.soc, Option.map _ m.soc.bus.trap) = _
    rw [h, untrapped_of_none h]
    rfl
  unfold Machine.settle
  rw [htake]
  cases stop <;> rfl

/-- The trap that stood there is taken if the machine has none of its own. -/
theorem settle_carry_some {fuel : Nat} {x : UnmappedRecord} (h : m.soc.bus.trap = none)
    (stop : Option StopReason) :
    Machine.settle fuel (m.carry (some x) l) stop =
      some (m.carry none l, .Done (.Stopped (.Unmapped x.addr x.write))) := by
  have htrap : (m.carry (some x) l).soc.bus.trap = some x := by
    change m.soc.bus.trap.or (some x) = _
    rw [h]
    rfl
  rw [settle_trapped htrap, untrapped_carry, untrapped_of_none h]

theorem settle_carry_none {fuel : Nat} (h : m.soc.bus.trap = none) (stop : Option StopReason) :
    Machine.settle fuel (m.carry none l) stop =
      (past_trap fuel m stop).map fun (m', r) => (m'.carry none l, r) := by
  have htrap : (m.carry none l).soc.bus.trap = none := by
    change m.soc.bus.trap.or none = _
    rw [h]
    rfl
  rw [settle_untrapped htrap]
  cases stop with
  | some reason => rfl
  | none => exact Machine.finish_poll_carry fuel

/-- No event stops the machine for an unmapped access. -/
theorem fire_stop_ne {fuel : Nat} {stop : StopReason}
    (h : Machine.fire_due_events fuel m = some (m', some stop)) (addr : Nat) (write : Bool) :
    stop ≠ .Unmapped addr write := by
  induction fuel generalizing m with
  | zero => cases h
  | succ fuel ih =>
    simp only [Machine.fire_due_events] at h
    split at h
    · cases h
    · rename_i events at_ event hpop
      split at h
      · rename_i fired reason hcall
        cases h
        obtain ⟨result, hresult⟩ : ∃ result : EventStop, result.val = some stop :=
          ⟨_, congrArg Prod.snd hcall⟩
        rintro rfl
        exact result.property addr write hresult
      · exact ih h

end carried

/-! ### Traps that come to light -/

/-- In place of the trap `old`, the machine carries `new` on its bus, and some
    sequence of commands and polls tells the two apart: no access of its own
    covers the trap before a poll takes it, and with no trap to take that poll
    would not have stopped for the same access anyway. -/
inductive Surfaces (old : Option UnmappedAccess) (new : UnmappedAccess) :
    Machine (Soc K D) Ev F → Prop where
  | taken {fuel : Nat} {ctx : AdvanceCtx} {m m' : Machine (Soc K D) Ev F}
      {stop : Option StopReason} : m.reaches_trap fuel ctx = some (m', stop) →
      m'.soc.bus.trap = none → (old = none → stop ≠ some (.Unmapped new.addr new.write)) →
      Surfaces old new m
  | later {act : MachineAct F} {m m' : Machine (Soc K D) Ev F} {out : Outcome} :
      act.reaches_trap m = none → act.run m = some (m', out) → m'.soc.bus.trap = none →
      Surfaces old new m' → Surfaces old new m

/-- Nothing tells the two traps apart on this machine. -/
structure Hidden (t₁ t₂ : Option UnmappedRecord) (m : Machine (Soc K D) Ev F) : Prop where
  no_trap : m.soc.bus.trap = none
  only_set : t₂ = none → t₁ = none
  hidden : ∀ new, t₂.map Soc.reported = some new → t₁.map Soc.reported ≠ some new →
    ¬ Surfaces (t₁.map Soc.reported) new m

section hidden

variable {m m' : Machine (Soc K D) Ev F} {t₁ t₂ : Option UnmappedRecord}
  {l₁ l₂ : List UnmappedRecord}

/-- Equal traps are not told apart. -/
theorem Hidden.same (hm : m.soc.bus.trap = none) (t : Option UnmappedRecord) : Hidden t t m :=
  ⟨hm, id, fun _ hnew hold => absurd hnew hold⟩

/-- Both machines go on as one, or both are out of fuel. -/
inductive Together (l₁ l₂ : List UnmappedRecord) :
    Option (Machine (Soc K D) Ev F × Outcome) → Option (Machine (Soc K D) Ev F × Outcome) →
    Prop where
  | stuck : Together l₁ l₂ none none
  | on {m : Machine (Soc K D) Ev F} {t₁ t₂ : Option UnmappedRecord} {out : Outcome} :
      Hidden t₁ t₂ m → Together l₁ l₂ (some (m.carry t₁ l₁, out)) (some (m.carry t₂ l₂, out))

/-- With no trap carried, an outcome that carries the machine is the same. -/
theorem together_same (l₁ l₂ : List UnmappedRecord)
    (r : Option (Machine (Soc K D) Ev F × Outcome)) :
    Together l₁ l₂ (r.map fun (m', out) => (m'.carry none l₁, out))
      (r.map fun (m', out) => (m'.carry none l₂, out)) := by
  cases r with
  | none => exact .stuck
  | some done =>
    obtain ⟨m', out⟩ := done
    simp only [Option.map_some]
    rw [carry_untrapped (l := l₁), carry_untrapped (l := l₂)]
    exact .on (.same rfl _)

/-- An act does not tell hidden traps apart. -/
theorem Hidden.step (h : Hidden t₁ t₂ m) (l₁ l₂ : List UnmappedRecord) (act : MachineAct F) :
    Together l₁ l₂ (act.run (m.carry t₁ l₁)) (act.run (m.carry t₂ l₂)) := by
  cases hreach : act.reaches_trap m with
  | none =>
    rw [MachineAct.run_carry hreach, MachineAct.run_carry hreach]
    cases hrun : act.run m with
    | none => exact .stuck
    | some done =>
      obtain ⟨m', out⟩ := done
      simp only [Option.map_some]
      rw [carry_untrapped (t := t₁), carry_untrapped (t := t₂)]
      -- A trap of its own replaces what was carried.
      cases htrap : m'.soc.bus.trap with
      | some own => exact .on (.same rfl _)
      | none =>
        refine .on ⟨rfl, h.only_set, fun new hnew hold hsurf => ?_⟩
        rw [untrapped_of_none htrap] at hsurf
        exact h.hidden new hnew hold (.later hreach hrun htrap hsurf)
  | some stopped =>
    cases act with
    | poll fuel ctx =>
      obtain ⟨m', stop⟩ := stopped
      have hpoll (t l) : (m.carry t l).poll fuel ctx = Machine.settle fuel (m'.carry t l) stop := by
        apply Machine.poll_of_reaches
        rw [Machine.reaches_trap_carry]
        exact congrArg (Option.map _) hreach
      simp only [MachineAct.run, hpoll]
      -- The poll comes to the trap. It takes its own one if there is one, and
      -- else the one that was carried.
      cases htrap : m'.soc.bus.trap with
      | some own =>
        have htaken (t l) : Machine.settle fuel (m'.carry t l) stop =
            some (m'.untrapped.carry none l, .Done (.Stopped (.Unmapped own.addr own.write))) := by
          have hown : (m'.carry t l).soc.bus.trap = some own := by
            change m'.soc.bus.trap.or t = _
            rw [htrap]
            rfl
          rw [settle_trapped hown, untrapped_carry]
        rw [htaken, htaken]
        exact .on (.same rfl _)
      | none =>
        cases ht₂ : t₂ with
        | none =>
          rw [h.only_set ht₂, settle_carry_none htrap, settle_carry_none htrap]
          rw [Option.map_map, Option.map_map]
          have hsame := together_same l₁ l₂
            ((past_trap fuel m' stop).map fun (m', r) => (m', Outcome.polled r))
          rwa [Option.map_map, Option.map_map] at hsame
        | some new =>
          have hsurf := h.hidden (Soc.reported new) (by rw [ht₂]; rfl)
          rw [settle_carry_some htrap]
          cases ht₁ : t₁ with
          | none =>
            rw [ht₁] at hsurf
            by_cases hstop : stop = some (.Unmapped new.addr new.write)
            · rw [settle_carry_none htrap, hstop]
              exact .on (.same htrap _)
            · exact absurd (.taken hreach htrap fun _ => hstop) (hsurf nofun)
          | some old =>
            rw [ht₁] at hsurf
            -- Two traps are told apart by what is reported of them.
            by_cases hold : Soc.reported old = Soc.reported new
            · obtain ⟨haddr, hwrite⟩ : old.addr = new.addr ∧ old.write = new.write := by
                simpa [Soc.reported] using hold
              rw [settle_carry_some htrap, haddr, hwrite]
              exact .on (.same htrap _)
            · exact absurd (.taken hreach htrap nofun) (hsurf (by simpa using hold))
    | _ => cases hreach

/-- Hidden traps stay hidden. -/
theorem Hidden.observe (h : Hidden t₁ t₂ m) (l₁ l₂ : List UnmappedRecord)
    (acts : List (MachineAct F)) :
    observe acts (m.carry t₁ l₁) = observe acts (m.carry t₂ l₂) := by
  induction acts generalizing m t₁ t₂ with
  | nil => rfl
  | cons act acts ih =>
    have hstep := h.step l₁ l₂ act
    unfold Rl78Sim.observe
    generalize act.run (m.carry t₁ l₁) = r₁ at hstep ⊢
    generalize act.run (m.carry t₂ l₂) = r₂ at hstep ⊢
    cases hstep with
    | stuck => rfl
    | on hnext =>
      dsimp only
      rw [ih hnext]
      rfl

theorem observe_cons {act : MachineAct F} {out : Outcome} (h : act.run m = some (m', out))
    (acts : List (MachineAct F)) :
    observe (act :: acts) m = (observe acts m').map (⟨out, m'.clock, m'.soc.cpu⟩ :: ·) := by
  simp only [Rl78Sim.observe, h]

/-- The outcome of an act can be observed. -/
theorem outcome_of_observe {act : MachineAct F} {m₁ m₂ : Machine (Soc K D) Ev F}
    (h : observe [act] m₁ = observe [act] m₂) :
    (act.run m₁).map Prod.snd = (act.run m₂).map Prod.snd := by
  cases hrun₁ : act.run m₁ with
  | none =>
    cases hrun₂ : act.run m₂ with
    | none => rfl
    | some done₂ =>
      rw [observe_cons hrun₂] at h
      simp [Rl78Sim.observe, hrun₁] at h
  | some done₁ =>
    rw [observe_cons hrun₁] at h
    cases hrun₂ : act.run m₂ with
    | none => simp [Rl78Sim.observe, hrun₂] at h
    | some done₂ =>
      rw [observe_cons hrun₂] at h
      simp only [Rl78Sim.observe, Option.map_some, Option.some.injEq, List.cons.injEq] at h
      exact congrArg some (congrArg Observed.outcome h.1)

/-- Past the trap only the core stops the machine for an unmapped access. -/
theorem past_trap_ne {fuel : Nat} {stop : Option StopReason} {r : EntityPoll} {addr : Nat}
    {write : Bool} (h : past_trap fuel m stop = some (m', r))
    (hstop : stop ≠ some (.Unmapped addr write)) :
    r ≠ .Done (.Stopped (.Unmapped addr write)) := by
  cases stop with
  | some reason =>
    cases h
    simpa using hstop
  | none =>
    obtain ⟨⟨fired, stop⟩, hfire, heq⟩ := Option.map_eq_some_iff.mp h
    cases stop with
    | none =>
      cases heq
      simp
    | some reason =>
      cases heq
      simpa using fire_stop_ne hfire addr write

/-- A trap that surfaces is seen. -/
theorem Surfaces.seen {old : Option UnmappedAccess} {new : UnmappedAccess}
    (h : Surfaces old new m) (l₁ l₂ : List UnmappedRecord) (hold : t₁.map Soc.reported = old)
    (hnew : t₂.map Soc.reported = some new) (hne : old ≠ some new) :
    ∃ acts, observe acts (m.carry t₁ l₁) ≠ observe acts (m.carry t₂ l₂) := by
  obtain ⟨x, rfl, rfl⟩ := Option.map_eq_some_iff.mp hnew
  -- Along the acts until the trap is taken.
  induction h with
  | @taken fuel ctx m m' stop hreach htrap hstop =>
    have hpoll (t l) : (m.carry t l).poll fuel ctx = Machine.settle fuel (m'.carry t l) stop := by
      apply Machine.poll_of_reaches
      rw [Machine.reaches_trap_carry, hreach]
      rfl
    refine ⟨[.poll fuel ctx], fun heq => ?_⟩
    have hout := outcome_of_observe heq
    simp only [MachineAct.run, hpoll, settle_carry_some htrap] at hout
    cases t₁ with
    | some y =>
      rw [settle_carry_some htrap] at hout
      apply hne
      rw [← hold]
      simpa [Soc.reported] using hout
    | none =>
      rw [settle_carry_none htrap] at hout
      cases hpast : past_trap fuel m' stop with
      | none =>
        rw [hpast] at hout
        cases hout
      | some done =>
        rw [hpast] at hout
        exact past_trap_ne hpast (hstop hold.symm) (by simpa [Soc.reported] using hout)
  | @later act m m' out hreach hrun htrap _ ih =>
    obtain ⟨acts, hacts⟩ := ih
    refine ⟨act :: acts, fun heq => hacts ?_⟩
    have hcarried (t l) : act.run (m.carry t l) = some (m'.carry t l, out) := by
      rw [MachineAct.run_carry hreach, hrun]
      rfl
    rw [observe_cons (hcarried _ _), observe_cons (hcarried _ _)] at heq
    exact Option.map_injective (fun _ _ hcons => (List.cons.inj hcons).2) heq

end hidden

/-! ### The reads -/

/-- The bus after a read: only an access to unmapped space is recorded. -/
def read_bus (bus : MemoryBus D) (addr len : Nat) : MemoryBus D :=
  match bus.resolve addr len with
  | .error (.Unmapped _ _) => bus.unmapped addr len false
  | _ => bus

theorem access_read {addr len : Nat} {bus : MemoryBus D}
    (h : (DebugRead.ReadMem addr len).Plain bus) (now : Nat) (parts : Parts K Ev F)
    {buf : List UInt8} (hlen : buf.length = len) :
    (Soc.access now parts .read addr buf bus).parts = parts ∧
      (Soc.access now parts .read addr buf bus).bus = read_bus bus addr len := by
  subst hlen
  unfold Soc.access read_bus
  cases hres : bus.resolve addr buf.length with
  | error err => cases err <;> exact ⟨rfl, rfl⟩
  | ok at_ =>
    obtain ⟨k, off⟩ := at_
    dsimp only
    cases hdev : bus.device_mut k with
    | none => exact ⟨rfl, rfl⟩
    | some d =>
      cases d with
      | Ram data | Rom data => exact ⟨rfl, put_device_self hdev⟩
      | Mmio device => exact absurd hdev (h k off device hres)

/-- The bus that a read leaves. -/
def DebugRead.bus (bus : MemoryBus D) : DebugRead → MemoryBus D
  | .ReadMem addr len => read_bus bus addr len
  | _ => bus

/-- A read leaves the machine as it was, but for what the bus records. -/
theorem inspect_read {m : Machine (Soc K D) Ev F} {read : DebugRead}
    (h : read.Plain m.soc.bus) :
    (m.inspect_command read.command).1 =
      { m with soc := { m.soc with bus := read.bus m.soc.bus } } := by
  cases read with
  | ReadReg id =>
    simp only [DebugRead.command, Machine.inspect_command]
    cases Cpu.read_reg m.soc id <;> rfl
  | ReadGdbRegs =>
    simp only [DebugRead.command, Machine.inspect_command]
    cases Cpu.read_gdb_registers m.soc <;> rfl
  | ReadMem addr len =>
    obtain ⟨hparts, hbus⟩ := access_read h m.clock.now ⟨m.soc.cpu, m.events, []⟩
      (List.length_replicate (a := (0 : UInt8)))
    -- A plain read books nothing and drives nothing.
    have hcall : (m.call (Cpu.read_mem addr len)).1 =
        { m with soc := { m.soc with bus := read_bus m.soc.bus addr len } } := by
      have hstep : (Cpu.read_mem addr len : ChipOp (Soc K D) Ev F _) m.clock.now m.soc m.events =
          let done := Soc.access m.clock.now ⟨m.soc.cpu, m.events, []⟩ .read addr
            (List.replicate len 0) m.soc.bus
          ⟨⟨done.parts.cpu, done.bus⟩, done.parts.events, done.parts.drives,
            done.result.map fun _ => done.buf.map UInt8.toNat⟩ := rfl
      simp only [Machine.call, hstep, hparts, hbus]
      simp [OutPorts.on_input]
    simp only [DebugRead.command, Machine.inspect_command]
    revert hcall
    obtain ⟨m', res⟩ := m.call (Cpu.read_mem addr len)
    rintro rfl
    cases res <;> rfl

omit [Core K D Ev F] in
/-- A read of unmapped space is recorded, and no other. -/
theorem DebugRead.bus_cases (bus : MemoryBus D) (read : DebugRead) :
    (read.bus bus = bus ∧ read.unmapped bus = none) ∨
      ∃ addr len, read.bus bus = bus.unmapped addr len false ∧
        read.unmapped bus = some ⟨addr, false⟩ := by
  cases read with
  | ReadReg | ReadGdbRegs => exact .inl ⟨rfl, rfl⟩
  | ReadMem addr len =>
    simp only [DebugRead.bus, DebugRead.unmapped, read_bus]
    cases bus.resolve addr len with
    | ok => exact .inl ⟨rfl, rfl⟩
    | error err =>
      cases err with
      | Unmapped => exact .inr ⟨addr, len, rfl, rfl⟩
      | _ => exact .inl ⟨rfl, rfl⟩

omit [Core K D Ev F] in
theorem left_trap_cons (bus : MemoryBus D) (read : DebugRead) (reads : List DebugRead) :
    left_trap bus (read :: reads) = (left_trap bus reads).or (left_trap bus [read]) := by
  unfold left_trap
  cases bus.policy with
  | Log => rfl
  | Trap =>
    cases hread : read.unmapped bus with
    | none => simp [hread]
    | some access =>
      simp only [List.filterMap_cons, hread, List.filterMap_nil, List.getLast?_cons]
      cases (reads.filterMap (DebugRead.unmapped bus)).getLast? <;> rfl

omit [Core K D Ev F] in
/-- Where the accesses lie does not depend on what the bus has recorded. -/
theorem DebugRead.bus_keeps (bus : MemoryBus D) (read : DebugRead) :
    (read.bus bus).blank = bus.blank ∧
      (∀ other, (read.bus bus).resolve other = bus.resolve other) ∧
      (read.bus bus).device_mut = bus.device_mut ∧ (read.bus bus).policy = bus.policy := by
  rcases read.bus_cases bus with ⟨hsame, -⟩ | ⟨addr, len, hbus, -⟩
  · rw [hsame]
    exact ⟨rfl, fun _ => rfl, rfl, rfl⟩
  · rw [hbus]
    exact ⟨rfl, fun _ => rfl, rfl, rfl⟩

omit [Core K D Ev F] in
theorem left_trap_bus (bus : MemoryBus D) (read : DebugRead) (reads : List DebugRead) :
    left_trap (read.bus bus) reads = left_trap bus reads := by
  obtain ⟨-, hres, -, hpolicy⟩ := read.bus_keeps bus
  have hsame : DebugRead.unmapped (read.bus bus) = DebugRead.unmapped bus := by
    funext other
    cases other with
    | ReadMem addr len => simp only [DebugRead.unmapped, hres]
    | _ => rfl
  unfold left_trap
  rw [hsame, hpolicy]

omit [Core K D Ev F] in
theorem trap_bus (bus : MemoryBus D) (read : DebugRead) :
    (read.bus bus).trap.map Soc.reported =
      (left_trap bus [read]).or (bus.trap.map Soc.reported) := by
  rcases read.bus_cases bus with ⟨hsame, hnone⟩ | ⟨addr, len, hbus, hsome⟩
  · rw [hsame]
    unfold left_trap
    cases bus.policy <;> simp [hnone]
  · rw [hbus]
    unfold left_trap MemoryBus.unmapped
    cases bus.policy <;> simp [hsome, Soc.reported]

/-- What the reads leave on the bus: their last trap, or the one that stood there. -/
theorem after_reads_eq {reads : List DebugRead} {m : Machine (Soc K D) Ev F}
    (h : ∀ read ∈ reads, read.Plain m.soc.bus) :
    ∃ t l, after_reads reads m = m.blank.carry t l ∧
      t.map Soc.reported = (left_trap m.soc.bus reads).or (m.soc.bus.trap.map Soc.reported) := by
  induction reads generalizing m with
  | nil =>
    refine ⟨_, _, (Machine.blank_carry m).symm, ?_⟩
    unfold left_trap
    cases m.soc.bus.policy <;> rfl
  | cons read reads ih =>
    have hread := inspect_read (h read List.mem_cons_self)
    obtain ⟨hblank, hres, hdev, -⟩ := read.bus_keeps m.soc.bus
    -- A read leaves the map and the devices alone, so the others stay plain.
    have hplain : ∀ other ∈ reads, other.Plain (read.bus m.soc.bus) := by
      intro other hother
      have hother := h other (List.mem_cons_of_mem _ hother)
      cases other with
      | ReadMem addr len =>
        intro k off d hok
        rw [hres] at hok
        rw [hdev]
        exact hother k off d hok
      | _ => trivial
    obtain ⟨t, l, hafter, htrap⟩ :=
      ih (m := { m with soc := { m.soc with bus := read.bus m.soc.bus } }) hplain
    refine ⟨t, l, ?_, ?_⟩
    · change after_reads reads (m.inspect_command read.command).1 = _
      rw [hread, hafter]
      unfold Machine.blank
      rw [hblank]
    · rw [htrap, left_trap_bus, trap_bus, left_trap_cons _ read reads, Option.or_assoc]

/-- The later commands and polls cannot tell that a debugger has read exactly
    when the reads leave no trap that surfaces: under `Log` they leave none, and
    under `Trap` the last read of unmapped space does, unless the same trap was
    pending. -/
theorem reads_unseen_iff (m : Machine (Soc K D) Ev F) (reads : List DebugRead)
    (h : ∀ read ∈ reads, read.Plain m.soc.bus) :
    (∀ acts, observe acts (after_reads reads m) = observe acts m) ↔
      ∀ new, left_trap m.soc.bus reads = some new →
        m.soc.bus.trap.map Soc.reported ≠ some new →
        ¬ Surfaces (m.soc.bus.trap.map Soc.reported) new m.blank := by
  obtain ⟨t, l, hafter, htrap⟩ := after_reads_eq h
  rw [hafter]
  -- The machine after the reads is the one before, with another trap and another
  -- log carried along.
  constructor
  · intro hsame new hnew hne hsurf
    obtain ⟨acts, hacts⟩ := hsurf.seen m.soc.bus.unmapped_log l rfl
      (by rw [htrap, hnew]; rfl : t.map Soc.reported = some new) hne
    rw [Machine.blank_carry] at hacts
    exact hacts (hsame acts).symm
  · intro hsurf acts
    have hhidden : Hidden m.soc.bus.trap t m.blank := by
      refine ⟨rfl, fun ht => ?_, fun new hnew hne => ?_⟩
      · rw [ht] at htrap
        have hnone := (Option.or_eq_none_iff.mp htrap.symm).2
        simpa using hnone
      · cases hleft : left_trap m.soc.bus reads with
        | none =>
          rw [hleft, Option.none_or] at htrap
          exact absurd (htrap.symm.trans hnew) hne
        | some left =>
          rw [htrap, hleft] at hnew
          cases hnew
          exact hsurf _ hleft hne
    have hobserve := hhidden.observe m.soc.bus.unmapped_log l acts
    rw [Machine.blank_carry] at hobserve
    exact hobserve.symm

/-! ### A machine with two bytes of RAM -/

/-- A core that counts the instructions it retires, one each nanosecond, and
    makes no access to the bus. -/
structure Counter where
  retired : Nat

instance : Core Counter Empty Empty Nat where
  instruction_period _ := some 1
  run_quantum max _ parts :=
    .done { parts with cpu := ⟨parts.cpu.retired + max⟩ } ⟨max, none, Nat.le_refl _⟩
  fire event := event.elim
  reset _ parts := .done { parts with cpu := ⟨0⟩ } ()
  read_reg c _ := .ok c.retired
  write_reg c id _ := (c, .error (.UnknownRegister id))
  sync_breakpoints c _ := c
  read_gdb_registers c := .ok [c.retired]
  pc c := c.retired
  write_gdb_registers c _ := (c, .error .Unsupported)
  poll_actions _ parts := parts
  apply_action _ _ parts := (parts, some .NotFoundAction)
  drive_in _ _ _ parts := parts
  mmio device := device.elim

/-- The machine with its RAM at address 0. -/
def counting (policy : UnmappedPolicy) : Machine (Soc Counter Empty) Empty Nat :=
  Machine.new ⟨⟨0⟩, ⟨[⟨0, 2, .Device (.Ram ⟨[7, 8], by decide⟩)⟩], policy, [], none⟩⟩

/-- Reads of a register, of RAM and of unmapped space under `Log`. -/
theorem reads_unseen_log :
    observe [.poll 1 ⟨10, 10, false⟩, .inspect (.ReadReg 0)]
        (after_reads [.ReadReg 0, .ReadMem 0 2, .ReadMem 256 1] (counting .Log)) =
      observe [.poll 1 ⟨10, 10, false⟩, .inspect (.ReadReg 0)] (counting .Log) := by
  refine (reads_unseen_iff (counting .Log) _ fun read _ => ?_).mpr (fun new hnew => ?_) _
  · cases read with
    | ReadMem => exact fun _ _ d => d.elim
    | _ => trivial
  · cases hnew

/-- Under `Trap` the next poll stops for the read of the debugger, and not where
    the guest would have stopped. -/
theorem reads_seen_trap :
    observe [.poll 1 ⟨10, 10, false⟩] (after_reads [.ReadMem 256 1] (counting .Trap)) ≠
      observe [.poll 1 ⟨10, 10, false⟩] (counting .Trap) := by
  intro heq
  have hout := outcome_of_observe heq
  have hread : (MachineAct.poll 1 ⟨10, 10, false⟩ : MachineAct Nat).run
      (after_reads [.ReadMem 256 1] (counting .Trap)) = some (_, .polled (.Done (.Stopped
        (.Unmapped 256 false)))) := rfl
  have hplain : (MachineAct.poll 1 ⟨10, 10, false⟩ : MachineAct Nat).run (counting .Trap) =
      some (_, .polled .Progressed) := rfl
  rw [hread, hplain] at hout
  cases hout

end Rl78Sim
