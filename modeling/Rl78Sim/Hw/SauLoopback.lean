import Rl78Sim.Hw.SauStuck

/-! # Serial Loopback

    Sender and receiver decode the length, the parity, the stop bits, the bit
    time and the inversion of a frame from registers of their own. Where the two
    agree, a frame comes in as it went out.
-/

namespace Rl78Sim

open Bits

namespace SauUnit

/-- What the sender makes of its registers is what the receiver expects. -/
structure SameLine (u : SauUnit) (f_clk : Hertz) (ch : Fin sau_channels)
    (v : SauUnit) (g_clk : Hertz) (rx : Fin sau_channels) : Prop where
  data_bits : SauUnit.data_bits (u.scr ch) = SauUnit.data_bits (v.scr rx)
  parity : SauUnit.parity (u.scr ch) = SauUnit.parity (v.scr rx)
  stop_bits : SauUnit.stop_bits (u.scr ch) = SauUnit.stop_bits (v.scr rx)
  bit_time : u.bit_time f_clk ch = v.bit_time g_clk rx
  inverted : u.tx_inverted ch = v.rx_inverted rx

/-- The channel has received a word: no error but an overrun, if its buffer was
    full. -/
structure Received (v v' : SauUnit) (rx : Fin sau_channels) (word : BitVec 16) : Prop where
  fef : v'.fef = v.fef
  pef : v'.pef = v.pef
  read : (v'.read_sdr rx).2 = word
  bff : v'.bff = Function.update v.bff rx true
  ovf : v'.ovf = Function.update v.ovf rx (v.ovf rx || v.bff rx)
  err_out : v'.err_out =
    if v.bff rx then Function.update v.err_out (uart rx) (v.err_out (uart rx) + 1) else v.err_out
  irq_out : v'.irq_out =
    if v.bff rx && (v.scr rx).getLsbD scr_eoc then v.irq_out
    else Function.update v.irq_out rx (v.irq_out rx + 1)

/-! ### The frame -/

theorem tx_frame_eq_some {u : SauUnit} {f_clk : Hertz} {ch : Fin sau_channels} {frame : UartFrame}
    (h : u.tx_frame f_clk ch = some frame) : ∃ bit_time, u.bit_time f_clk ch = some bit_time ∧
      frame = ⟨u.sdr ch &&& data_mask (u.scr ch), data_bits (u.scr ch), bit_time,
        stop_bits (u.scr ch), parity (u.scr ch), u.tx_inverted ch⟩ := by
  obtain ⟨bit_time, hbit, hframe⟩ := Option.map_eq_some_iff.mp h
  exact ⟨bit_time, hbit, hframe.symm⟩

/-- The receiver expects the frame that the sender builds, but for its datum. -/
theorem SameLine.local_rx_frame {u v : SauUnit} {f_clk g_clk : Hertz} {ch rx : Fin sau_channels}
    (h : SameLine u f_clk ch v g_clk rx) {frame : UartFrame}
    (hframe : u.tx_frame f_clk ch = some frame) :
    v.local_rx_frame g_clk rx = { frame with data := 0 } := by
  obtain ⟨bit_time, hbit, rfl⟩ := tx_frame_eq_some hframe
  rw [h.bit_time] at hbit
  simp only [SauUnit.local_rx_frame, hbit, Option.getD_some, h.data_bits, h.parity, h.stop_bits,
    h.inverted]

/-- The receiver masks as the sender does. -/
theorem SameLine.data {u v : SauUnit} {f_clk g_clk : Hertz} {ch rx : Fin sau_channels}
    (h : SameLine u f_clk ch v g_clk rx) {frame : UartFrame}
    (hframe : u.tx_frame f_clk ch = some frame) :
    frame.data &&& low_mask 16 (SauUnit.data_bits (v.scr rx)) =
      u.sdr ch &&& data_mask (u.scr ch) := by
  obtain ⟨bit_time, -, rfl⟩ := tx_frame_eq_some hframe
  simp only [data_mask, h.data_bits]
  rw [BitVec.and_assoc, BitVec.and_self]

/-- A datum has no bits beyond those that an enabled channel shows. -/
theorem mask_read (word scr : BitVec 16) :
    (word &&& data_mask scr) &&& 0x1FF#16 = word &&& data_mask scr := by
  have hmask : data_mask scr &&& 0x1FF#16 = data_mask scr := by
    unfold data_mask data_bits
    split
    · decide
    · decide
  rw [BitVec.and_assoc, hmask]

/-! ### The reception -/

/-- Where both sides agree, a frame is built whenever the clock runs, and an
    enabled receiver takes it as it was sent, whatever its state. -/
theorem sau_loopback {u v : SauUnit} {f_clk g_clk : Hertz} {ch rx : Fin sau_channels}
    (hline : SameLine u f_clk ch v g_clk rx) (hrx : v.can_rx rx = true) :
    (f_clk.Runs → u.tx_frame f_clk ch ≠ none) ∧
      ∀ frame, u.tx_frame f_clk ch = some frame →
        Received v (v.receive g_clk rx.val frame) rx (u.sdr ch &&& data_mask (u.scr ch)) := by
  constructor
  · intro hclock hnone
    exact (times_of_runs hclock u ch).2 (Option.map_eq_none_iff.mp hnone)
  · intro frame hframe
    have hlocal := hline.local_rx_frame hframe
    have hdata := hline.data hframe
    have hse : v.se.getLsbD rx.val = true := by
      simp only [can_rx, Bool.and_eq_true] at hrx
      exact hrx.1
    -- The receiver reads as many bits as were sent.
    have hbits : frame.data_bits = SauUnit.data_bits (v.scr rx) :=
      congrArg UartFrame.data_bits hlocal.symm
    -- With the frames equal, only the overrun is left of the errors.
    have hreceive : v.receive g_clk rx.val frame =
        { v with
          ovf := Function.update v.ovf rx (v.ovf rx || v.bff rx)
          sdr := Function.update v.sdr rx (u.sdr ch &&& data_mask (u.scr ch))
          bff := Function.update v.bff rx true
          err_out := if v.bff rx then
              Function.update v.err_out (uart rx) (v.err_out (uart rx) + 1) else v.err_out
          irq_out := if !v.bff rx || !(v.scr rx).getLsbD scr_eoc then
              Function.update v.irq_out rx (v.irq_out rx + 1) else v.irq_out } := by
      unfold receive
      rw [dif_pos rx.isLt]
      simp [hrx, hlocal, hbits, hdata]
    refine ⟨?_, ?_, ?_, ?_, ?_, ?_, ?_⟩
    · rw [hreceive]
    · rw [hreceive]
    · rw [hreceive]
      simp only [read_sdr, hse, Bool.not_true, Bool.false_eq_true, if_false, Function.update_self]
      exact mask_read _ _
    · rw [hreceive]
    · rw [hreceive]
    · rw [hreceive]
    · rw [hreceive]
      cases v.bff rx <;> cases (v.scr rx).getLsbD scr_eoc <;> rfl

/-- Channel 0 sends to channel 1: seven bits, even parity and two stop bits. The
    buffer of channel 1 is full, and an error is to suppress its interrupt. -/
def looped : SauUnit :=
  { new with
    scr := fun ch => if ch = 0 then 0x8221 else 0x4A21
    sdr := fun _ => 0x1C1
    se := 3
    bff := fun ch => ch = 1 }

theorem sau_loopback_overrun : ∃ frame, looped.tx_frame (.from_mhz 32) 0 = some frame ∧
    Received looped (looped.receive (.from_mhz 32) 1 frame) 1 0x41 := by
  have hline : SameLine looped (.from_mhz 32) 0 looped (.from_mhz 32) 1 :=
    ⟨by decide, by decide, by decide, by decide, by decide⟩
  obtain ⟨frame, hframe⟩ := Option.ne_none_iff_exists'.mp
    (show looped.tx_frame (.from_mhz 32) 0 ≠ none by decide)
  exact ⟨frame, hframe, (sau_loopback hline (by decide)).2 frame hframe⟩

end SauUnit

end Rl78Sim
