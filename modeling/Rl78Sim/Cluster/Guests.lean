import Rl78Sim.Hw.ClockGenerator
import Rl78Sim.Cluster.System

/-! # Two Simple Guests

    A chip that runs from a clock generator, writes its registers and stops at
    given instruction counts, and a plant that steps on its grid and may drive
    one frame at each step. Concrete runs of a cluster use them as boards.
-/

namespace Rl78Sim

/-- A scripted chip. `accesses` are its writes to the clock generator and
    `stops` its breakpoints, both by instruction count. -/
structure Script where
  clock : ClockGenerator
  accesses : List (Nat × ClockGenerator.Access)
  stops : List Nat
  insns : Nat

namespace Script

/-- Retire `k` instructions and make the accesses that are due. -/
def retire (c : Script) (k : Nat) : Script :=
  { c with
    insns := c.insns + k
    accesses := c.accesses.filter fun a => c.insns + k < a.1
    clock := (c.accesses.filter fun a => a.1 ≤ c.insns + k).foldl
      (fun g a => g.access a.2) c.clock }

/-- Run up to `max` instructions, and at most to the next stop. -/
def run (c : Script) (max : Nat) : Script × Quantum max :=
  match c.stops with
  | [] => (c.retire max, ⟨max, none, Nat.le_refl _⟩)
  | t :: rest =>
      if c.insns + max < t then (c.retire max, ⟨max, none, Nat.le_refl _⟩)
      else
        let k := min (t - c.insns) max
        ({ c.retire k with stops := rest }, ⟨k, some (.Breakpoint 1), Nat.min_le_right _ _⟩)

/-- A chip operation that only changes the chip. -/
def local_op {α : Type} (f : Script → Script × α) : ChipOp Script Empty Nat α :=
  fun _ soc events => ⟨(f soc).1, events, [], (f soc).2⟩

instance : Cpu Script Empty Nat where
  instruction_period c := c.clock.f_clk.period
  run_quantum max := local_op fun c => c.run max
  fire ev := ev.elim
  take_trap c := (c, none)
  reset := local_op fun c => (c, ())
  read_reg _ id := .error (.UnknownRegister id)
  write_reg c id _ := (c, .error (.UnknownRegister id))
  read_mem addr len := local_op fun c => (c, .error (.Unmapped addr len))
  write_mem addr data := local_op fun c => (c, .error (.Unmapped addr data.length))
  sync_breakpoints c _ := c
  read_gdb_registers _ := .error .Unsupported
  pc c := c.insns
  write_gdb_registers c _ := (c, .error .Unsupported)
  poll_actions := local_op fun c => (c, ())
  apply_action _ := local_op fun c => (c, some .NotFoundAction)
  drive_in _ _ := local_op fun c => (c, ())

end Script

/-- A plant model on a grid of `dt`; with `sends` it drives the step count on
    its out-port `tx` at every step. -/
structure Ticker where
  dt : Nat
  sends : Bool
  steps : Nat

instance : Model Ticker Nat where
  dt t := t.dt
  reset t := ({ t with steps := 0 }, [])
  step t := ({ t with steps := t.steps + 1 }, if t.sends then [("tx", t.steps)] else [])
  drive_in _ _ t := (t, [])

/-- A board with one of the two guests. -/
abbrev Guest := Board Script Empty Ticker Nat

/-- What a board is made of: a chip after its reset, or a plant. -/
inductive GuestKind where
  | chip (accesses : List (Nat × ClockGenerator.Access)) (stops : List Nat)
  | plant (dt : Nat) (sends : Bool)

/-- The board at time zero. -/
def GuestKind.guest : GuestKind → Guest
  | .chip accesses stops =>
      .machine (Machine.new ⟨ClockGenerator.new.reset, accesses, stops, 0⟩)
  | .plant dt sends => .plant (Plant.new ⟨dt, sends, 0⟩)

/-- A cluster of guests. -/
abbrev GuestCluster (n m : Nat) := Cluster n m Guest Nat

/-- Two boards without a wire between them. -/
def unwired (margin_ns headroom_threshold_ns : Nat) : Config 2 0 :=
  ⟨margin_ns, headroom_threshold_ns, nofun, Nat.two_pos, nofun⟩

/-- The only edge of a pair does not lead back. -/
theorem pair_edge_ne : ∀ _ : Fin 1, (0 : Fin 2) ≠ 1 := fun _ => Fin.zero_ne_one

/-- Two boards with a UART line from the first to the second. -/
def uart_pair (margin_ns headroom_threshold_ns : Nat) (ring_len : Option Nat) : Config 2 1 :=
  ⟨margin_ns, headroom_threshold_ns, fun _ => ⟨0, "tx", 1, "rx", .Uart, ring_len⟩,
    Nat.two_pos, pair_edge_ne⟩

/-- A cluster of guests that has just booted. -/
def guests {n m : Nat} (cfg : Config n m) (kind : Fin n → GuestKind) : GuestCluster n m :=
  boot cfg fun i => (kind i).guest

theorem initial_guests {n m : Nat} (cfg : Config n m) (kind : Fin n → GuestKind) :
    Initial cfg (guests cfg kind) :=
  boot_initial cfg _ (fun i => by cases kind i <;> rfl) (fun i => by cases kind i <;> rfl)

/-- A cluster of plants that has just booted. -/
def plants {n m : Nat} (cfg : Config n m) (dt : Nat) (sends : Bool) : GuestCluster n m :=
  guests cfg fun _ => .plant dt sends

theorem initial_plants {n m : Nat} (cfg : Config n m) (dt : Nat) (sends : Bool) :
    Initial cfg (plants cfg dt sends) :=
  initial_guests cfg _

/-! ### Steps of concrete runs -/

/-- A step of the arbiter for a host command. -/
def host {n : Nat} (cmd : HostCommand n) : Step n := .hub (.host cmd)

/-- One iteration of the arbiter's time synchronisation that takes a report of
    each of the boards listed. -/
def sync {n : Nat} (from_boards : List (Fin n)) : List (Step n) :=
  .hub .sync_begin :: from_boards.map .deliver ++ [.hub .sync_finish]

/-- Board `i` handles `k` control messages. -/
def receive {n : Nat} (i : Fin n) (k : Nat) : List (Step n) :=
  List.replicate k (.take i ⟨2, 0⟩)

/-- One iteration of the loop of a stopped node, after its control drain. -/
def idle_loop {n : Nat} (i : Fin n) : List (Step n) :=
  [.spoke i .drained, .spoke i (.service [])]

/-- One iteration of the loop of a running node without receive lanes, up to
    its poll. -/
def running_loop {n : Nat} (i : Fin n) : List (Step n) := idle_loop i ++ [.spoke i .pump_rx]

/-- The same with the poll. -/
def poll_loop {n : Nat} (i : Fin n) : List (Step n) := running_loop i ++ [.spoke i (.poll 2)]

/-- The same with the end of a `pump_tx` that has nothing to send. -/
def full_loop {n : Nat} (i : Fin n) : List (Step n) := poll_loop i ++ [.spoke i .pump_tx]

end Rl78Sim
