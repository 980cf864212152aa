import Rl78Sim.Kernel.Entity
import Mathlib.Data.List.FinRange
import Mathlib.Data.List.Dedup

/-! # The Data Plane

    A directed edge of the topology carries frames from an out-port of one
    board to an in-port of another. Its subscriber buffer is a ring in
    safe-overflow mode: publishing into a full ring drops the oldest frame.
-/

namespace Rl78Sim

/-- `PayloadKind`. -/
inductive PayloadKind where
  | Uart
  | Digital
  | Analog
  deriving DecidableEq

/-- `DEFAULT_UART_RING_LEN`. -/
def default_uart_ring_len : Nat := 256

/-- `DEFAULT_ANALOG_RING_LEN`. -/
def default_analog_ring_len : Nat := 256

/-- `DirectedEdge` with its boards resolved. The route is for display only. -/
structure Edge (n : Nat) where
  src : Fin n
  src_port : String
  dst : Fin n
  dst_port : String
  payload : PayloadKind
  uart_ring_len : Option Nat

namespace Edge

variable {n : Nat}

/-- `LogicalTopology::uart_ring_len`. -/
def ring_len (e : Edge n) : Nat := e.uart_ring_len.getD default_uart_ring_len

/-- The subscriber buffer of the edge's service. -/
def capacity (e : Edge n) : Nat :=
  match e.payload with
  | .Uart => max e.ring_len 2
  | _ => default_analog_ring_len

/-- Digital edges have no data plane. -/
def wired (e : Edge n) : Bool := e.payload != .Digital

theorem wired_of_uart {e : Edge n} (h : e.payload = .Uart) : e.wired = true := by
  simp [wired, h]

/-- A ring takes two frames at least. -/
theorem two_le_capacity {e : Edge n} (h : e.payload = .Uart) : 2 ≤ e.capacity := by
  simp [capacity, h]

end Edge

/-- The topology that the nodes and the arbiter run: at least one board, and
    no edge from a board to itself. -/
structure Config (n m : Nat) where
  margin_ns : Nat
  headroom_threshold_ns : Nat
  edge : Fin m → Edge n
  boards_pos : 0 < n
  edge_ne : ∀ e, (edge e).src ≠ (edge e).dst

/-! ### Lanes -/

/-- A published frame, with history stamps: the virtual times at which the
    guest drove it and at which its board published it. -/
structure Frame (F : Type) where
  value : F
  driven_at : Nat
  sent_at : Nat

/-- A frame driven into the receiving guest at virtual time `recv_at`. -/
structure Delivery (F : Type) where
  frame : Frame F
  recv_at : Nat

/-- One edge in operation. `delivered` and `dropped` are history variables. -/
structure Lane (F : Type) where
  ring : List (Frame F)
  delivered : List (Delivery F)
  dropped : List (Frame F)

namespace Lane

variable {F : Type}

def empty : Lane F := ⟨[], [], []⟩

/-- `Publisher::send_copy` into a buffer of `capacity` frames. -/
def send (capacity : Nat) (lane : Lane F) (frame : Frame F) : Lane F :=
  if lane.ring.length < capacity then { lane with ring := lane.ring ++ [frame] }
  else
    { lane with
      ring := lane.ring.tail ++ [frame]
      dropped := lane.dropped ++ lane.ring.take 1 }

/-- `Subscriber::receive`, and the drive at virtual time `now`. -/
def receive (lane : Lane F) (now : Nat) : Option (Frame F × Lane F) :=
  match lane.ring with
  | [] => none
  | frame :: ring =>
      some (frame, { lane with
        ring := ring
        delivered := lane.delivered ++ [⟨frame, now⟩] })

/-- A frame that is received is the oldest of the ring. -/
theorem receive_cases {lane lane' : Lane F} {now : Nat} {frame : Frame F}
    (hrecv : lane.receive now = some (frame, lane')) :
    lane.ring = frame :: lane'.ring ∧ lane'.delivered = lane.delivered ++ [⟨frame, now⟩] ∧
      lane'.dropped = lane.dropped := by
  unfold receive at hrecv
  split at hrecv
  · cases hrecv
  · rename_i hring
    cases hrecv
    exact ⟨hring, rfl, rfl⟩

/-- `discard_rx`. -/
def discard (lane : Lane F) : Lane F := { lane with ring := [] }

end Lane

/-! ### Which lanes a board pumps -/

/-- Frames taken from one subscriber in one `pump_rx`. -/
def rx_batch : Nat := 64

namespace Config

variable {n m : Nat} (cfg : Config n m)

/-- The receive lanes of a board. -/
def in_lanes (i : Fin n) : List (Fin m) :=
  (List.finRange m).filter fun e => (cfg.edge e).dst = i ∧ (cfg.edge e).wired

/-- The transmit lanes of a board that start at `port`. -/
def out_lanes (i : Fin n) (port : String) : List (Fin m) :=
  (List.finRange m).filter fun e =>
    (cfg.edge e).src = i ∧ (cfg.edge e).wired ∧ (cfg.edge e).src_port = port

/-- The out-ports of a board with a transmit lane. -/
def tx_ports (i : Fin n) : List String :=
  (((List.finRange m).filter fun e => (cfg.edge e).src = i ∧ (cfg.edge e).wired).map
    fun e => (cfg.edge e).src_port).dedup

/-- What `pump_tx` sends, in order: for each port all pending frames, each to
    every edge of the port. -/
def tx_queue {F : Type} (i : Fin n) (pending : List (Drive F)) : List (Fin m × Drive F) :=
  (cfg.tx_ports i).flatMap fun port =>
    (pending.filter fun d => d.port = port).flatMap fun d =>
      (cfg.out_lanes i port).map fun e => (e, d)

/-- The start of a `pump_rx`: every receive lane with its full batch. -/
def rx_queue (i : Fin n) : List (Fin m × Nat) :=
  (cfg.in_lanes i).map fun e => (e, rx_batch)

end Config

end Rl78Sim
