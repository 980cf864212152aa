import Rl78Sim.Hw.G23
import Rl78Sim.Kernel.Plant

/-! # Receive Lines

    A frame that is driven on an in-port of a board goes at once into a receive
    channel of its serial array unit. The channel overruns when its buffer is
    still full: the guest has not read its data register since the frame
    before. Every frame that an enabled channel takes raises an interrupt.
-/

namespace Rl78Sim

open Bits

namespace SauUnit

/-- What an enabled channel makes of a frame, in terms of the errors that it
    finds in it. -/
theorem receive_of_can_rx {u : SauUnit} {ch : Fin sau_channels} (hrx : u.can_rx ch = true)
    (f_clk : Hertz) (frame : UartFrame) :
    ∃ framing parity_err : Bool, u.receive f_clk ch.val frame =
      { u with
        ovf := Function.update u.ovf ch (u.ovf ch || u.bff ch)
        fef := Function.update u.fef ch (u.fef ch || framing)
        pef := Function.update u.pef ch (u.pef ch || parity_err)
        sdr := Function.update u.sdr ch (frame.data &&& low_mask 16 (data_bits (u.scr ch)))
        bff := Function.update u.bff ch true
        err_out := if framing || parity_err || u.bff ch then
            Function.update u.err_out (uart ch) (u.err_out (uart ch) + 1) else u.err_out
        irq_out := if !(framing || parity_err || u.bff ch) || !(u.scr ch).getLsbD scr_eoc then
            Function.update u.irq_out ch (u.irq_out ch + 1) else u.irq_out } := by
  let seen := u.local_rx_frame f_clk ch
  refine ⟨seen.bit_time != frame.bit_time || seen.data_bits != frame.data_bits ||
    seen.stop_bits != frame.stop_bits || seen.inverted != frame.inverted,
    seen.parity != frame.parity, ?_⟩
  unfold receive
  rw [dif_pos ch.isLt]
  simp only [hrx, Bool.not_true, Bool.false_eq_true, if_false]
  rfl

/-- A channel that is not enabled drops every frame. -/
theorem receive_of_not_can_rx {u : SauUnit} {ch : Fin sau_channels} (hrx : u.can_rx ch = false)
    (f_clk : Hertz) (frame : UartFrame) : u.receive f_clk ch.val frame = u := by
  unfold receive
  rw [dif_pos ch.isLt]
  simp only [hrx, Bool.not_false, if_true]

theorem new_can_rx (ch : Fin sau_channels) : new.can_rx ch = false := by
  simp [can_rx, new]

/-- A frame that finds the buffer empty overruns nothing. -/
theorem receive_ovf {u : SauUnit} {ch : Fin sau_channels} (h : u.bff ch = false)
    (f_clk : Hertz) (frame : UartFrame) : (u.receive f_clk ch.val frame).ovf = u.ovf := by
  cases hrx : u.can_rx ch with
  | false => rw [receive_of_not_can_rx hrx]
  | true =>
    obtain ⟨framing, parity_err, heq⟩ := receive_of_can_rx hrx f_clk frame
    rw [heq]
    simp [h]

end SauUnit

/-! ### Lines -/

/-- The in-port `port` of a board is wired to the channel `channel` of its unit.
    `frame` is the UART frame that a value of the port carries. -/
structure RxLine (E : Type) {F : Type} [Entity E F] where
  port : String
  channel : Fin sau_channels
  unit : E → SauUnit
  f_clk : E → Hertz
  frame : F → Option UartFrame
  receive_eq (b : E) (v : F) : unit (Entity.receive b port v) =
    match frame v with
    | some frame => (unit b).receive (f_clk b) channel.val frame
    | none => unit b

namespace RxLine

variable {E F : Type} [Entity E F]

/-- The buffer of the channel is full. -/
def full (line : RxLine E) (b : E) : Bool := (line.unit b).bff line.channel

/-- The overrun flag of the channel. -/
def ovf (line : RxLine E) (b : E) : Bool := (line.unit b).ovf line.channel

/-- What is driven on the port while the buffer is empty overruns nothing. -/
theorem ovf_receive {line : RxLine E} {b : E} (h : line.full b = false) (v : F) :
    line.ovf (Entity.receive b line.port v) = line.ovf b := by
  unfold ovf
  rw [line.receive_eq]
  split
  · rw [SauUnit.receive_ovf h]
  · rfl

end RxLine

/-! ### The line of a G23 board -/

/-- What the rest of the board does leaves the serial array unit alone. -/
def WireUse.SparesSau {K F : Type} : WireUse K F → Prop
  | .done _ _ => True
  | .drive (.uart _ _) _ => False
  | .drive (.analog _ _) next => ∀ units, (next units).SparesSau

theorem WireUse.SparesSau.run_sau {K F : Type} {use : WireUse K F} (h : use.SparesSau)
    (units : Units) : (use.run units).1.sau = units.sau := by
  induction use generalizing units with
  | done rest drives => rfl
  | drive signal next ih =>
    cases signal with
    | uart channel frame => cases h
    | analog channel uv => exact ih _ (h _) _

namespace G23

variable {K W F M : Type} [Rest K W F] [Model M F]

/-- The board wires its in-port `port` to the receive channel `channel`. -/
structure WiredPort (K : Type) {W F : Type} [Rest K W F] where
  port : String
  channel : Fin sau_channels
  frame : F → Option UartFrame
  drives (v : F) (now : Nat) (k : K) (uart : UartFrame) : frame v = some uart →
    ∃ next, Rest.drive_in port v now k = .drive (.uart channel.val uart) next ∧
      ∀ units, (next units).SparesSau
  spares (v : F) (now : Nat) (k : K) : frame v = none →
    (Rest.drive_in port v now k).SparesSau

/-- The serial array unit of a board; a plant has none. -/
def board_sau : Board (Soc (G23 K) (Window W)) G23Event M F → SauUnit
  | .machine m => m.soc.cpu.units.sau
  | .plant _ => .new

def board_clk : Board (Soc (G23 K) (Window W)) G23Event M F → Hertz
  | .machine m => m.soc.cpu.units.f_clk
  | .plant _ => .zero

/-- The receive line behind a wired port. -/
def WiredPort.line (p : WiredPort K (W := W) (F := F)) :
    RxLine (Board (Soc (G23 K) (Window W)) G23Event M F) where
  port := p.port
  channel := p.channel
  unit := board_sau
  f_clk := board_clk
  frame := p.frame
  receive_eq b v := by
    cases b with
    | plant q =>
      cases hframe : p.frame v with
      | none => rfl
      | some frame =>
        exact (SauUnit.receive_of_not_can_rx (SauUnit.new_can_rx p.channel) _ frame).symm
    | machine m =>
      -- The call has the chip, the queue and no drives yet.
      show ((Rest.drive_in p.port v m.clock.now m.soc.cpu.rest).run m.soc.cpu.units).1.sau = _
      cases hframe : p.frame v with
      | none => exact (p.spares v _ _ hframe).run_sau _
      | some frame =>
        obtain ⟨next, heq, hnext⟩ := p.drives v m.clock.now m.soc.cpu.rest frame hframe
        rw [heq]
        exact (hnext _).run_sau _

end G23

end Rl78Sim
