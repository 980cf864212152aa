import Rl78Sim.Kernel.Timeline

/-! # A Core with a Fixed Program

    The core executes a given list of instructions one after the other, each
    with given bus accesses, and never halts. Its devices see the accesses and
    the events that fire; both may schedule and cancel events. No event asks the
    machine to stop (`EventCtx::stop`).
-/

namespace Rl78Sim

/-- What a device asks of the event queue. -/
inductive QueueCall (Ev : Type) where
  | schedule (at_ : Nat) (event : Ev)
  | cancel (id : Nat)

namespace EventQueue

variable {Ev : Type}

def serve (q : EventQueue Ev) : List (QueueCall Ev) → EventQueue Ev
  | [] => q
  | .schedule at_ event :: calls => (q.schedule at_ event).1.serve calls
  | .cancel id :: calls => (q.cancel id).1.serve calls

theorem used_serve {q q' : EventQueue Ev} (h : Used q q') (calls : List (QueueCall Ev)) :
    Used q (q'.serve calls) := by
  induction calls generalizing q' with
  | nil => exact h
  | cons call calls ih =>
    cases call with
    | schedule at_ event => exact ih (.schedule q' at_ event h)
    | cancel id => exact ih (.cancel q' id h)

end EventQueue

/-- Devices with bus accesses `A` and events `Ev`. What they do may depend on
    `EventCtl::now` and on the ids that the queue hands out next. -/
class Devices (D : Type) (A Ev : outParam Type) where
  access : A → Nat → Nat → D → D × List (QueueCall Ev)
  fire : Ev → Nat → Nat → D → D × List (QueueCall Ev)
  reset : D → D × List (QueueCall Ev)

/-- The core, with its devices. `program k` are the accesses of instruction
    `k`, and `pc` is the next instruction. -/
structure ListCore (D A : Type) where
  period : Nat
  program : Nat → List A
  pc : Nat
  devices : D

namespace ListCore

variable {D A Ev : Type} [Devices D A Ev]

/-- The accesses of one instruction, at `EventCtl::now`. -/
def accesses (now : Nat) : List A → D → EventQueue Ev → D × EventQueue Ev
  | [], d, q => (d, q)
  | a :: rest, d, q =>
      let (d, calls) := Devices.access a now q.next_id d
      accesses now rest d (q.serve calls)

/-- Execute `k` instructions. The time that devices see is the start of the
    quantum throughout. -/
def execute (now : Nat) : Nat → ListCore D A → EventQueue Ev → ListCore D A × EventQueue Ev
  | 0, c, q => (c, q)
  | k + 1, c, q =>
      let (d, q) := accesses now (c.program c.pc) c.devices q
      execute now k { c with pc := c.pc + 1, devices := d } q

instance : Cpu (ListCore D A) Ev Empty where
  instruction_period c := some c.period
  run_quantum max now c q :=
    let (c, q) := execute now max c q
    ⟨c, q, [], ⟨max, none, Nat.le_refl _⟩⟩
  fire ev now c q :=
    let (d, calls) := Devices.fire ev now q.next_id c.devices
    ⟨{ c with devices := d }, q.serve calls, [], none⟩
  take_trap c := (c, none)
  reset _ c q :=
    let (d, calls) := Devices.reset c.devices
    ⟨{ c with pc := 0, devices := d }, q.serve calls, [], ()⟩
  read_reg _ id := .error (.UnknownRegister id)
  write_reg c id _ := (c, .error (.UnknownRegister id))
  read_mem addr len _ c q := ⟨c, q, [], .error (.Unmapped addr len)⟩
  write_mem addr data _ c q := ⟨c, q, [], .error (.Unmapped addr data.length)⟩
  sync_breakpoints c _ := c
  read_gdb_registers _ := .error .Unsupported
  pc c := c.pc
  write_gdb_registers c _ := (c, .error .Unsupported)
  poll_actions _ c q := ⟨c, q, [], ()⟩
  apply_action _ _ c q := ⟨c, q, [], some .NotFoundAction⟩
  drive_in _ _ _ c q := ⟨c, q, [], ()⟩

theorem used_accesses (now : Nat) (as : List A) (d : D) {q q' : EventQueue Ev}
    (h : EventQueue.Used q q') : EventQueue.Used q (accesses now as d q').2 := by
  induction as generalizing d q' with
  | nil => exact h
  | cons a as ih => exact ih _ (EventQueue.used_serve h _)

theorem used_execute (now k : Nat) (c : ListCore D A) {q q' : EventQueue Ev}
    (h : EventQueue.Used q q') : EventQueue.Used q (execute now k c q').2 := by
  induction k generalizing c q' with
  | zero => exact h
  | succ k ih => exact ih _ (used_accesses now _ _ h)

instance : LawfulCpu (ListCore D A) where
  run_quantum max now c _ := used_execute now max c .refl
  fire _ _ _ _ := EventQueue.used_serve .refl _
  reset _ _ _ := EventQueue.used_serve .refl _
  read_mem _ _ _ _ _ := .refl
  write_mem _ _ _ _ _ := .refl
  poll_actions _ _ _ := .refl
  apply_action _ _ _ _ := .refl
  drive_in _ _ _ _ _ := .refl

end ListCore

end Rl78Sim
