import Rl78Sim.Hw.TauChannel

/-! # Breakpoints in the Translator

    The kernel keeps a table of breakpoints with ids, the translator a set of
    addresses that is changed by single additions and removals. After a command
    that changes the table the set is brought in step with it, whatever it was
    before; a command that is refused leaves both alone.
-/

namespace Rl78Sim

/-- The calls of the translator that deal with breakpoints. -/
class Translator (T : Type) where
  tlib_list_breakpoints : T → List Nat
  tlib_add_breakpoint : Nat → T → T
  tlib_remove_breakpoint : Nat → T → T

open Translator

/-- The translator keeps a set of addresses. -/
class LawfulTranslator (T : Type) [Translator T] : Prop where
  mem_add (a addr : Nat) (t : T) : a ∈ tlib_list_breakpoints (tlib_add_breakpoint addr t) ↔
    a = addr ∨ a ∈ tlib_list_breakpoints t
  mem_remove (a addr : Nat) (t : T) : a ∈ tlib_list_breakpoints (tlib_remove_breakpoint addr t) ↔
    a ≠ addr ∧ a ∈ tlib_list_breakpoints t

/-- `Rl78Cpu`: its copy of the table and the translator, beside the rest. -/
structure Rl78Core (T R : Type) where
  breakpoints : List Breakpoint
  tlib : T
  rest : R

namespace Rl78Core

variable {T R Ev F : Type} [Translator T]

/-- `sync_breakpoints`. -/
def sync_breakpoints (cpu : Rl78Core T R) (breakpoints : List Breakpoint) : Rl78Core T R :=
  let desired := (breakpoints.filter fun bp => bp.enabled).map Breakpoint.addr
  let current := tlib_list_breakpoints cpu.tlib
  let tlib := current.foldl
    (fun tlib addr => if addr ∈ desired then tlib else tlib_remove_breakpoint addr tlib) cpu.tlib
  let tlib := desired.foldl
    (fun tlib addr => if addr ∈ current then tlib else tlib_add_breakpoint addr tlib) tlib
  { cpu with breakpoints := breakpoints, tlib := tlib }

/-- A call into the rest of the chip. -/
def rest_op {α : Type} (op : ChipOp R Ev F α) : ChipOp (Rl78Core T R) Ev F α :=
  fun now cpu events =>
    let out := op now cpu.rest events
    ⟨{ cpu with rest := out.soc }, out.events, out.drives, out.result⟩

variable [Cpu R Ev F]

instance : Cpu (Rl78Core T R) Ev F where
  instruction_period cpu := Cpu.instruction_period cpu.rest
  run_quantum max := rest_op (Cpu.run_quantum max)
  fire ev := rest_op (Cpu.fire ev)
  take_trap cpu :=
    let (rest, trap) := Cpu.take_trap cpu.rest
    ({ cpu with rest := rest }, trap)
  reset := rest_op Cpu.reset
  read_reg cpu := Cpu.read_reg cpu.rest
  write_reg cpu id value :=
    let (rest, res) := Cpu.write_reg cpu.rest id value
    ({ cpu with rest := rest }, res)
  read_mem addr len := rest_op (Cpu.read_mem addr len)
  write_mem addr data := rest_op (Cpu.write_mem addr data)
  sync_breakpoints := sync_breakpoints
  read_gdb_registers cpu := Cpu.read_gdb_registers cpu.rest
  pc cpu := Cpu.pc cpu.rest
  write_gdb_registers cpu data :=
    let (rest, res) := Cpu.write_gdb_registers cpu.rest data
    ({ cpu with rest := rest }, res)
  poll_actions := rest_op Cpu.poll_actions
  apply_action req := rest_op (Cpu.apply_action req)
  drive_in port frame := rest_op (Cpu.drive_in port frame)

end Rl78Core

/-! ## Runs of commands -/

section Runs

variable {C Ev F : Type} [Cpu C Ev F]

/-- The machine after a sequence of commands, with the responses. -/
def Machine.inspect_all (m : Machine C Ev F) :
    List InspectCommand → Machine C Ev F × List Response
  | [] => (m, [])
  | cmd :: cmds =>
    let (m, res) := m.inspect_command cmd
    let (m, responses) := m.inspect_all cmds
    (m, res :: responses)

/-- The commands that change the table. -/
def InspectCommand.is_breakpoint : InspectCommand → Bool
  | .AddBreakpoint _ => true
  | .RemoveBreakpoint _ => true
  | .ClearBreakpoints => true
  | _ => false

/-- The commands that hand out an id. -/
def InspectCommand.is_add : InspectCommand → Bool
  | .AddBreakpoint _ => true
  | _ => false

/-- The command was refused. -/
def Response.is_error : Response → Bool
  | .Error _ => true
  | _ => false

/-- The id that a response hands out. -/
def Response.breakpoint_id : Response → Option Nat
  | .Inspect (.Breakpoint id) => some id
  | _ => none

end Runs

/-- The translator has exactly the addresses that are enabled in the table. -/
def Machine.Synced {T R Ev F : Type} [Translator T] (m : Machine (Rl78Core T R) Ev F) : Prop :=
  ∀ addr, addr ∈ tlib_list_breakpoints m.soc.tlib ↔
    ∃ bp ∈ m.breakpoints.items, bp.enabled = true ∧ bp.addr = addr

theorem Machine.Synced.congr {T R Ev F : Type} [Translator T]
    {m m' : Machine (Rl78Core T R) Ev F}
    (hstore : m'.breakpoints = m.breakpoints) (htlib : m'.soc.tlib = m.soc.tlib) :
    m'.Synced ↔ m.Synced := by
  unfold Machine.Synced
  rw [hstore, htlib]

/-- The ids of the table ascend, and none was handed out after the last one. -/
structure BreakpointStore.Numbered (b : BreakpointStore) : Prop where
  ascending : b.items.Pairwise fun bp bp' => bp.id < bp'.id
  bound (bp : Breakpoint) : bp ∈ b.items → bp.id ≤ b.next_id

/-! ## The table -/

namespace BreakpointStore

theorem Numbered.new : new.Numbered := ⟨List.Pairwise.nil, fun _ hbp => by cases hbp⟩

theorem Numbered.insert {b : BreakpointStore} (h : b.Numbered) (addr : Nat) :
    (b.insert addr).1.Numbered := by
  refine ⟨?_, ?_⟩
  · refine List.pairwise_append.mpr ⟨h.ascending, List.pairwise_singleton _ _, ?_⟩
    intro bp hbp bp' hbp'
    rw [List.mem_singleton.mp hbp']
    exact Nat.lt_succ_of_le (h.bound bp hbp)
  · intro bp hbp
    rcases List.mem_append.mp hbp with hbp | hbp
    · exact Nat.le_succ_of_le (h.bound bp hbp)
    · rw [List.mem_singleton.mp hbp]
      exact Nat.le_refl _

theorem Numbered.remove_at {b : BreakpointStore} (h : b.Numbered) (addr : Nat) :
    (b.remove_at addr).1.Numbered :=
  ⟨h.ascending.filter _, fun bp hbp => h.bound bp (List.mem_filter.mp hbp).1⟩

theorem Numbered.clear {b : BreakpointStore} : b.clear.Numbered :=
  ⟨List.Pairwise.nil, fun _ hbp => by cases hbp⟩

/-- `remove_at` drops every breakpoint at the address, and no other. -/
theorem mem_remove_at (b : BreakpointStore) (addr : Nat) (bp : Breakpoint) :
    bp ∈ (b.remove_at addr).1.items ↔ bp ∈ b.items ∧ bp.addr ≠ addr := by
  unfold remove_at
  simp

/-- Nothing is dropped exactly if the table stays as it is. -/
theorem remove_at_false {b : BreakpointStore} {addr : Nat} (h : (b.remove_at addr).2 = false) :
    (b.remove_at addr).1 = b := by
  unfold remove_at at h ⊢
  have hlength : (b.items.filter fun bp => bp.addr != addr).length = b.items.length := by
    simpa using h
  rw [List.length_filter_eq_length_iff.mp hlength |> List.filter_eq_self.mpr]

end BreakpointStore

/-! ## One command -/

section Sync

variable {T R Ev F : Type} [Translator T] [LawfulTranslator T]

/-- The removals leave what is desired, and what they do not visit. -/
theorem mem_foldl_remove (desired current : List Nat) (a : Nat) : ∀ t : T,
    a ∈ tlib_list_breakpoints (current.foldl
      (fun tlib addr => if addr ∈ desired then tlib else tlib_remove_breakpoint addr tlib) t) ↔
    a ∈ tlib_list_breakpoints t ∧ (a ∈ desired ∨ a ∉ current) := by
  induction current with
  | nil =>
    intro t
    simp
  | cons addr current ih =>
    intro t
    rw [List.foldl_cons, ih]
    by_cases hdesired : addr ∈ desired
    · -- it stays, and counts as desired from here on
      rw [if_pos hdesired, List.mem_cons]
      by_cases ha : a = addr
      · subst ha
        simp [hdesired]
      · simp [ha]
    · rw [if_neg hdesired, LawfulTranslator.mem_remove, List.mem_cons]
      by_cases ha : a = addr
      · subst ha
        simp [hdesired]
      · simp [ha]

/-- The additions add what is desired and was not there. -/
theorem mem_foldl_add (desired current : List Nat) (a : Nat) : ∀ t : T,
    a ∈ tlib_list_breakpoints (desired.foldl
      (fun tlib addr => if addr ∈ current then tlib else tlib_add_breakpoint addr tlib) t) ↔
    a ∈ tlib_list_breakpoints t ∨ (a ∈ desired ∧ a ∉ current) := by
  induction desired with
  | nil =>
    intro t
    simp
  | cons addr desired ih =>
    intro t
    rw [List.foldl_cons, ih]
    by_cases hcurrent : addr ∈ current
    · rw [if_pos hcurrent, List.mem_cons]
      by_cases ha : a = addr
      · subst ha
        simp [hcurrent]
      · simp [ha]
    · -- the addition may be made twice for two breakpoints at one address
      rw [if_neg hcurrent, LawfulTranslator.mem_add, List.mem_cons]
      by_cases ha : a = addr
      · subst ha
        simp [hcurrent]
      · simp [ha]

/-- Whatever the translator had, it has the enabled addresses afterwards. -/
theorem Rl78Core.mem_sync_breakpoints (cpu : Rl78Core T R) (breakpoints : List Breakpoint)
    (a : Nat) : a ∈ tlib_list_breakpoints (cpu.sync_breakpoints breakpoints).tlib ↔
      ∃ bp ∈ breakpoints, bp.enabled = true ∧ bp.addr = a := by
  have hdesired : a ∈ (breakpoints.filter fun bp => bp.enabled).map Breakpoint.addr ↔
      ∃ bp ∈ breakpoints, bp.enabled = true ∧ bp.addr = a := by
    simp [and_assoc]
  unfold sync_breakpoints
  rw [mem_foldl_add, mem_foldl_remove, ← hdesired]
  by_cases hcurrent : a ∈ tlib_list_breakpoints cpu.tlib
  · simp [hcurrent]
  · simp [hcurrent]

theorem Machine.synced_sync_breakpoints [Cpu R Ev F] (m : Machine (Rl78Core T R) Ev F) :
    m.sync_breakpoints.Synced :=
  m.soc.mem_sync_breakpoints m.breakpoints.items

end Sync

namespace Machine

section Commands

variable {T R Ev F : Type} [Translator T] [Cpu R Ev F]

/-- The other commands touch neither the table nor the set. -/
theorem inspect_command_other (m : Machine (Rl78Core T R) Ev F) {cmd : InspectCommand}
    (hcmd : cmd.is_breakpoint = false) :
    (m.inspect_command cmd).1.breakpoints = m.breakpoints ∧
    (m.inspect_command cmd).1.soc.tlib = m.soc.tlib ∧
    (m.inspect_command cmd).2.breakpoint_id = none := by
  cases cmd with
  | AddBreakpoint addr => cases hcmd
  | RemoveBreakpoint addr => cases hcmd
  | ClearBreakpoints => cases hcmd
  | ReadReg id =>
    simp only [inspect_command, Cpu.read_reg]
    cases Cpu.read_reg m.soc.rest id with
    | ok value => exact ⟨rfl, rfl, rfl⟩
    | error err => exact ⟨rfl, rfl, rfl⟩
  | WriteReg id value =>
    simp only [inspect_command, Cpu.write_reg]
    rcases Cpu.write_reg m.soc.rest id value with ⟨rest, _ | _⟩
    · exact ⟨rfl, rfl, rfl⟩
    · exact ⟨rfl, rfl, rfl⟩
  | ReadMem addr len =>
    simp only [inspect_command, call, Cpu.read_mem, Rl78Core.rest_op]
    rcases Cpu.read_mem addr len m.clock.now m.soc.rest m.events with ⟨_, _, _, _ | _⟩
    · exact ⟨rfl, rfl, rfl⟩
    · exact ⟨rfl, rfl, rfl⟩
  | WriteMem addr data =>
    simp only [inspect_command, call, Cpu.write_mem, Rl78Core.rest_op]
    rcases Cpu.write_mem addr data m.clock.now m.soc.rest m.events with ⟨_, _, _, _ | _⟩
    · exact ⟨rfl, rfl, rfl⟩
    · exact ⟨rfl, rfl, rfl⟩
  | ReadGdbRegs =>
    simp only [inspect_command, Cpu.read_gdb_registers]
    cases Cpu.read_gdb_registers m.soc.rest with
    | ok data => exact ⟨rfl, rfl, rfl⟩
    | error err => exact ⟨rfl, rfl, rfl⟩
  | WriteGdbRegs data =>
    simp only [inspect_command, Cpu.write_gdb_registers]
    rcases Cpu.write_gdb_registers m.soc.rest data with ⟨rest, _ | _⟩
    · exact ⟨rfl, rfl, rfl⟩
    · exact ⟨rfl, rfl, rfl⟩

/-- A removal answers with an error exactly if nothing is at the address. -/
theorem inspect_command_remove (m : Machine (Rl78Core T R) Ev F) (addr : Nat) :
    ((m.breakpoints.remove_at addr).2 = true ∧
      m.inspect_command (.RemoveBreakpoint addr) =
        (({ m with breakpoints := (m.breakpoints.remove_at addr).1 } :
          Machine (Rl78Core T R) Ev F).sync_breakpoints, .Inspect .Ok)) ∨
    ((m.breakpoints.remove_at addr).2 = false ∧
      m.inspect_command (.RemoveBreakpoint addr) = (m, .Error (.UnknownBreakpoint addr))) := by
  simp only [inspect_command]
  rcases m.breakpoints.remove_at addr with ⟨store, _ | _⟩
  · exact Or.inr ⟨rfl, rfl⟩
  · exact Or.inl ⟨rfl, rfl⟩

/-- One command keeps the ids in order, and only an addition hands one out. -/
theorem numbered_inspect_command {m : Machine (Rl78Core T R) Ev F} (h : m.breakpoints.Numbered)
    (cmd : InspectCommand) : (m.inspect_command cmd).1.breakpoints.Numbered ∧
      (m.inspect_command cmd).1.breakpoints.next_id =
        m.breakpoints.next_id + [cmd].countP InspectCommand.is_add ∧
      [(m.inspect_command cmd).2].filterMap Response.breakpoint_id =
        List.range' (m.breakpoints.next_id + 1) ([cmd].countP InspectCommand.is_add) := by
  by_cases hcmd : cmd.is_breakpoint = true
  · cases cmd with
    | AddBreakpoint addr => exact ⟨h.insert addr, rfl, rfl⟩
    | RemoveBreakpoint addr =>
      rcases m.inspect_command_remove addr with ⟨-, hout⟩ | ⟨-, hout⟩
      · rw [hout]
        exact ⟨h.remove_at addr, rfl, rfl⟩
      · rw [hout]
        exact ⟨h, rfl, rfl⟩
    | ClearBreakpoints => exact ⟨.clear, rfl, rfl⟩
    | _ => cases hcmd
  · obtain ⟨hstore, -, hid⟩ := m.inspect_command_other (Bool.eq_false_iff.mpr hcmd)
    have hadd : [cmd].countP InspectCommand.is_add = 0 := by
      cases cmd with
      | AddBreakpoint addr => exact absurd rfl hcmd
      | _ => rfl
    rw [hstore, hadd, List.filterMap_cons, hid]
    exact ⟨h, rfl, rfl⟩

variable [LawfulTranslator T]

/-- A command on breakpoints that is not refused leaves the two in step; any
    other command leaves them as they were. -/
theorem synced_inspect_command (m : Machine (Rl78Core T R) Ev F) (cmd : InspectCommand) :
    (m.inspect_command cmd).1.Synced ↔
      (cmd.is_breakpoint = true ∧ (m.inspect_command cmd).2.is_error = false) ∨ m.Synced := by
  by_cases hcmd : cmd.is_breakpoint = true
  · cases cmd with
    | AddBreakpoint addr =>
      exact iff_of_true (synced_sync_breakpoints _) (Or.inl ⟨rfl, rfl⟩)
    | RemoveBreakpoint addr =>
      rcases m.inspect_command_remove addr with ⟨-, hout⟩ | ⟨-, hout⟩
      · rw [hout]
        exact iff_of_true (synced_sync_breakpoints _) (Or.inl ⟨rfl, rfl⟩)
      · rw [hout]
        simp [Response.is_error]
    | ClearBreakpoints =>
      exact iff_of_true (synced_sync_breakpoints _) (Or.inl ⟨rfl, rfl⟩)
    | _ => cases hcmd
  · obtain ⟨hstore, htlib, -⟩ := m.inspect_command_other (Bool.eq_false_iff.mpr hcmd)
    rw [Synced.congr hstore htlib]
    simp [hcmd]

end Commands

/-! ## Sequences of commands -/

section Sequences

variable {T R Ev F : Type} [Translator T] [Cpu R Ev F]

/-- The ids follow one another over the whole sequence. -/
theorem numbered_inspect_all (cmds : List InspectCommand) : ∀ {m : Machine (Rl78Core T R) Ev F},
    m.breakpoints.Numbered → (m.inspect_all cmds).1.breakpoints.Numbered ∧
      (m.inspect_all cmds).1.breakpoints.next_id =
        m.breakpoints.next_id + cmds.countP InspectCommand.is_add ∧
      (m.inspect_all cmds).2.filterMap Response.breakpoint_id =
        List.range' (m.breakpoints.next_id + 1) (cmds.countP InspectCommand.is_add) := by
  induction cmds with
  | nil =>
    intro m h
    exact ⟨h, rfl, rfl⟩
  | cons cmd cmds ih =>
    intro m h
    obtain ⟨hstep, hnext, hid⟩ := numbered_inspect_command h cmd
    obtain ⟨hrun, hlast, hids⟩ := ih hstep
    -- a command is a sequence of one, so that both counts add up
    have hcount : (cmd :: cmds).countP InspectCommand.is_add =
        [cmd].countP InspectCommand.is_add + cmds.countP InspectCommand.is_add := by
      rw [← List.countP_append]
      rfl
    have hresponses : (m.inspect_all (cmd :: cmds)).2 = [(m.inspect_command cmd).2] ++
        ((m.inspect_command cmd).1.inspect_all cmds).2 := rfl
    refine ⟨hrun, ?_, ?_⟩
    · rw [hcount, ← Nat.add_assoc, ← hnext]
      exact hlast
    · rw [hresponses, List.filterMap_append, hid, hids, hnext, hcount, Nat.add_right_comm]
      exact List.range'_append_1

variable [LawfulTranslator T]

/-- The first command on breakpoints that is not refused brings the two in step,
    and every later command keeps them there. -/
theorem synced_inspect_all (cmds : List InspectCommand) : ∀ m : Machine (Rl78Core T R) Ev F,
    (m.inspect_all cmds).1.Synced ↔
      (∃ p ∈ cmds.zip (m.inspect_all cmds).2, p.1.is_breakpoint = true ∧ p.2.is_error = false) ∨
      m.Synced := by
  induction cmds with
  | nil =>
    intro m
    simp [inspect_all]
  | cons cmd cmds ih =>
    intro m
    have hrun : (m.inspect_all (cmd :: cmds)).1 =
      ((m.inspect_command cmd).1.inspect_all cmds).1 := rfl
    have hresponses : (m.inspect_all (cmd :: cmds)).2 = (m.inspect_command cmd).2 ::
        ((m.inspect_command cmd).1.inspect_all cmds).2 := rfl
    rw [hrun, hresponses, ih, synced_inspect_command, List.zip_cons_cons]
    simp only [List.mem_cons, exists_eq_or_imp]
    exact or_assoc.symm.trans (or_congr_left or_comm)

/-- After any commands: the additions have handed out consecutive ids, the ids
    of the table are distinct, and a removal drops what is at its address or, if
    nothing is, is refused and changes nothing. Table and translator are in step
    if and only if they were from the start or some addition, removal or clear
    has not been refused, whatever addresses the translator had before. -/
theorem breakpoints_in_step {m : Machine (Rl78Core T R) Ev F} (h : m.breakpoints.Numbered)
    (cmds : List InspectCommand) :
    let m' := (m.inspect_all cmds).1
    let responses := (m.inspect_all cmds).2
    responses.filterMap Response.breakpoint_id =
        List.range' (m.breakpoints.next_id + 1) (cmds.countP InspectCommand.is_add) ∧
      (m'.breakpoints.items.map Breakpoint.id).Nodup ∧
      (∀ bp ∈ m'.breakpoints.items,
        bp.id ≤ m.breakpoints.next_id + cmds.countP InspectCommand.is_add) ∧
      (∀ addr bp, bp ∈ (m'.inspect_command (.RemoveBreakpoint addr)).1.breakpoints.items ↔
        bp ∈ m'.breakpoints.items ∧ bp.addr ≠ addr) ∧
      (∀ addr, (∀ bp ∈ m'.breakpoints.items, bp.addr ≠ addr) →
        m'.inspect_command (.RemoveBreakpoint addr) = (m', .Error (.UnknownBreakpoint addr))) ∧
      (m'.Synced ↔
        (∃ p ∈ cmds.zip responses, p.1.is_breakpoint = true ∧ p.2.is_error = false) ∨
        m.Synced) := by
  intro m' responses
  obtain ⟨hnumbered, hnext, hids⟩ := numbered_inspect_all cmds h
  refine ⟨hids, ?_, ?_, ?_, ?_, m.synced_inspect_all cmds⟩
  · exact List.pairwise_map.mpr (hnumbered.ascending.imp Nat.ne_of_lt)
  · intro bp hbp
    rw [← hnext]
    exact hnumbered.bound bp hbp
  · intro addr bp
    rcases m'.inspect_command_remove addr with ⟨-, hout⟩ | ⟨hnone, hout⟩
    · rw [hout]
      exact m'.breakpoints.mem_remove_at addr bp
    · -- a refused removal would have dropped nothing
      rw [hout, ← m'.breakpoints.mem_remove_at, BreakpointStore.remove_at_false hnone]
  · intro addr hnone
    rcases m'.inspect_command_remove addr with ⟨hsome, -⟩ | ⟨-, hout⟩
    · have hkept : (m'.breakpoints.items.filter fun bp => bp.addr != addr) =
          m'.breakpoints.items := List.filter_eq_self.mpr (by simpa using hnone)
      simp [BreakpointStore.remove_at, hkept] at hsome
    · exact hout

end Sequences

end Machine

/-! ## A translator with a list of addresses -/

/-- The addresses that are installed. -/
structure AddressList where
  addrs : List Nat
  deriving DecidableEq

instance : Translator AddressList where
  tlib_list_breakpoints t := t.addrs
  tlib_add_breakpoint addr t := ⟨t.addrs.insert addr⟩
  tlib_remove_breakpoint addr t := ⟨t.addrs.filter (· ≠ addr)⟩

instance : LawfulTranslator AddressList where
  mem_add _ _ _ := List.mem_insert_iff
  mem_remove a addr t := by
    refine List.mem_filter.trans ?_
    rw [decide_eq_true_iff, and_comm]
    rfl

namespace Machine

/-- A machine without breakpoints, over a translator that has some. -/
def with_stale (addrs : List Nat) :
    Machine (Rl78Core AddressList (ListCore TauChannel TauAccess)) TauExpire Empty :=
  .new ⟨[], ⟨addrs⟩, timer_core 9990 0⟩

/-- Two breakpoints at one address, one at another, and the first two removed. -/
theorem breakpoints_in_step_stale :
    BreakpointStore.new.Numbered ∧
    let cmds : List InspectCommand :=
      [.AddBreakpoint 0x100, .AddBreakpoint 0x100, .AddBreakpoint 0x200, .RemoveBreakpoint 0x100]
    let m' := ((with_stale [5, 0x200]).inspect_all cmds).1
    m'.soc.tlib.addrs = [0x200] ∧ m'.breakpoints.items = [⟨3, 0x200, true⟩] ∧ m'.Synced :=
  ⟨.new, rfl, rfl,
    (breakpoints_in_step (m := with_stale [5, 0x200]) .new _).2.2.2.2.2.mpr
      (Or.inl ⟨(.AddBreakpoint 0x100, .Inspect (.Breakpoint 1)), by decide, rfl, rfl⟩)⟩

/-- A removal that finds nothing leaves what the translator had before. -/
theorem refused_removal_unsynced :
    let out := (with_stale [5]).inspect_command (.RemoveBreakpoint 0x100)
    out.2 = .Error (.UnknownBreakpoint 0x100) ∧ out.1.breakpoints.items = [] ∧
      out.1.soc.tlib.addrs = [5] ∧ ¬ out.1.Synced := by
  refine ⟨rfl, rfl, rfl, ?_⟩
  intro h
  obtain ⟨bp, hbp, -⟩ := (h 5).mp (List.mem_singleton.mpr rfl)
  cases hbp

end Machine

end Rl78Sim
