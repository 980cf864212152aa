import Rl78Sim.Hw.SauFlow

/-! # Transmit Channels That Wait

    A channel starts a transmission when three registers enable it, its shift
    register is idle and its buffer is full. Only the write of a datum and the
    end of a frame start it: a step that makes the channel ready in another way
    leaves the datum in the buffer.
-/

namespace Rl78Sim

open Transition Bits

namespace SauUnit

variable {F : Type}

/-- The channel is enabled and idle with a full buffer, and no completion of it
    is pending. -/
def Stuck (s : Sim F) (ch : Fin sau_channels) : Prop :=
  s.unit.can_start_tx ch = true ∧ ∀ b, ¬ IsDone s.ctl.events ch b

/-- The clock runs before and after the step. -/
def Clocked (s : Sim F × History) (a : Act F) : Prop :=
  s.1.f_clk.Runs ∧ ∀ f_clk, a = .set_f_clk f_clk → f_clk.Runs

/-- The write sets the last of the bits that enable the channel: its bit in `SS`
    or in `SOE`, or `TXE` in its `SCR`. -/
def Enables (u : SauUnit) (ch : Fin sau_channels) (offset : Nat) (value : BitVec 16) : Prop :=
  (offset = 0x22 ∧ value.getLsbD ch.val = true ∧
    u.soe.getLsbD ch.val = true ∧ (u.scr ch).getLsbD scr_txe = true) ∨
  (offset = 0x2A ∧ value.getLsbD ch.val = true ∧
    u.se.getLsbD ch.val = true ∧ (u.scr ch).getLsbD scr_txe = true) ∨
  (offset = 0x18 + 2 * ch.val ∧ value.getLsbD scr_txe = true ∧
    u.se.getLsbD ch.val = true ∧ u.soe.getLsbD ch.val = true)

/-- No idle channel with a full buffer is enabled, and no idle channel that is
    enabled for transmission receives a frame. -/
def Prompt (s : Sim F) : Act F → Prop
  | .write_ctrl offset value => ∀ ch, s.unit.bff ch = true → s.unit.busy ch = false →
      ¬ Enables s.unit ch offset value
  | .receive channel _ => ∀ ch : Fin sau_channels, ch.val = channel → s.unit.can_rx ch = true →
      s.unit.soe.getLsbD ch.val = true → (s.unit.scr ch).getLsbD scr_txe = true →
        s.unit.busy ch = true
  | _ => True

/-- No channel is ready to start. -/
def Settled (u : SauUnit) : Prop := ∀ ch, u.can_start_tx ch = false

/-! ### The clock -/

theorem times_of_runs {f_clk : Hertz} (h : f_clk.Runs) (u : SauUnit) (ch : Fin sau_channels) :
    u.frame_time f_clk ch ≠ none ∧ u.bit_time f_clk ch ≠ none := by
  have hslow : f_clk.hz ≤ 2 * ns_per_sec := Nat.le_trans h.le (by decide)
  exact times_isSome h.1 hslow ch

/-! ### What makes a channel ready -/

theorem can_start_iff (u : SauUnit) (ch : Fin sau_channels) :
    u.can_start_tx ch = true ↔ u.se.getLsbD ch.val = true ∧ u.soe.getLsbD ch.val = true ∧
      (u.scr ch).getLsbD scr_txe = true ∧ u.busy ch = false ∧ u.bff ch = true := by
  simp [can_start_tx, and_assoc]

theorem Settled.not_ready {u : SauUnit} (h : Settled u) (ch : Fin sau_channels) :
    ¬ u.can_start_tx ch = true := by
  rw [h ch]
  decide

/-- A channel that the step leaves as it was is not ready. -/
theorem Settled.same {u u' : SauUnit} (h : Settled u) {ch : Fin sau_channels}
    (hse : u'.se.getLsbD ch.val = u.se.getLsbD ch.val)
    (hsoe : u'.soe.getLsbD ch.val = u.soe.getLsbD ch.val)
    (hscr : u'.scr ch = u.scr ch) (hbusy : u'.busy ch = u.busy ch) (hbff : u'.bff ch = u.bff ch) :
    u'.can_start_tx ch = false := by
  have hsame : u'.can_start_tx ch = u.can_start_tx ch := by
    simp only [can_start_tx, hse, hsoe, hscr, hbusy, hbff]
  rw [hsame]
  exact h ch

/-- The low four bits of a value that is written to `SS` or `SOE`. -/
theorem getLsbD_low_nibble (value : BitVec 16) (ch : Fin sau_channels) :
    (value &&& 0x000F#16).getLsbD ch.val = value.getLsbD ch.val := by
  have hbit : (0x000F#16).getLsbD ch.val = true := by
    revert ch
    decide
  rw [BitVec.getLsbD_and, hbit, Bool.and_true]

theorem Settled.write_se {u : SauUnit} (h : Settled u) (value : BitVec 16)
    (ch : Fin sau_channels) :
    ({ u with se := u.se ||| (value &&& 0x000F#16) } : SauUnit).can_start_tx ch = true ↔
      u.bff ch = true ∧ u.busy ch = false ∧ Enables u ch 0x22 value := by
  have hnot := h.not_ready ch
  rw [can_start_iff] at hnot ⊢
  simp only [BitVec.getLsbD_or, getLsbD_low_nibble, Enables]
  grind

theorem ready_soe (u : SauUnit) (value : BitVec 16) (ch : Fin sau_channels) :
    ({ u with soe := value &&& 0x000F#16 } : SauUnit).can_start_tx ch = true ↔
      u.bff ch = true ∧ u.busy ch = false ∧ Enables u ch 0x2A value := by
  rw [can_start_iff]
  simp only [getLsbD_low_nibble, Enables]
  grind

theorem Settled.write_scr {u : SauUnit} (h : Settled u) (c ch : Fin sau_channels)
    (value : BitVec 16) :
    ({ u with scr := Function.update u.scr c value } : SauUnit).can_start_tx ch = true ↔
      u.bff ch = true ∧ u.busy ch = false ∧ Enables u ch (0x18 + 2 * c.val) value := by
  have hnot := h.not_ready ch
  rw [can_start_iff] at hnot ⊢
  by_cases hch : ch = c
  · subst hch
    simp only [Function.update_self, Enables]
    grind
  · have hne : ¬ c.val = ch.val := fun heq => hch (Fin.ext heq.symm)
    simp only [Function.update_of_ne hch, Enables]
    grind

/-- A stop leaves no stopped channel ready, and touches no other one. -/
theorem Settled.stop {u : SauUnit} (h : Settled u) (ctl : EventCtl (SauEvent F))
    (channels : List (Fin sau_channels)) :
    Settled (for_channels stop_channel channels u ctl).1 := by
  refine for_channels_rule (P := fun u _ => Settled u) h ?_
  intro c _ u ctl h ch
  by_cases hch : ch = c
  · subst hch
    have hlt : ch.val < 16 := Nat.lt_trans ch.isLt (by decide)
    have hoff : (u.stop_channel ctl ch).1.se.getLsbD ch.val = false := by
      simp [stop_channel, cancel_tx, getLsbD_one_shiftLeft hlt]
    simp [can_start_tx, hoff]
  · have hlt : ch.val < 16 := Nat.lt_trans ch.isLt (by decide)
    have hne : ¬ ch.val = c.val := fun heq => hch (Fin.ext heq)
    refine h.same ?_ rfl rfl ?_ rfl
    · show (u.se &&& ~~~(1#16 <<< c.val)).getLsbD ch.val = u.se.getLsbD ch.val
      rw [BitVec.getLsbD_and, BitVec.getLsbD_not, getLsbD_one_shiftLeft hlt]
      simp [hne, hlt]
    · simp [stop_channel, cancel_tx, Function.update_of_ne hch]

/-- A control write makes an idle channel with a full buffer ready when it is the
    one that enables it. -/
theorem Settled.write_ctrl {u : SauUnit} (h : Settled u) (ctl : EventCtl (SauEvent F))
    (offset : Nat) (value : BitVec 16) (ch : Fin sau_channels) :
    (u.write_ctrl ctl offset value).1.can_start_tx ch = true ↔
      u.bff ch = true ∧ u.busy ch = false ∧ Enables u ch offset value := by
  have hnot := h.not_ready ch
  have hlt := ch.isLt
  unfold sau_channels at hlt
  -- A register that no start depends on.
  have hother {u' : SauUnit} (hse : u'.se = u.se) (hsoe : u'.soe = u.soe) (hscr : u'.scr = u.scr)
      (hbusy : u'.busy = u.busy) (hbff : u'.bff = u.bff) (hse' : offset ≠ 0x22)
      (hsoe' : offset ≠ 0x2A) (hscr' : offset ≠ 0x18 + 2 * ch.val) :
      u'.can_start_tx ch = true ↔
        u.bff ch = true ∧ u.busy ch = false ∧ Enables u ch offset value := by
    have hsame : u'.can_start_tx ch = false :=
      h.same (by rw [hse]) (by rw [hsoe]) (by rw [hscr]) (by rw [hbusy]) (by rw [hbff])
    simp [hsame, Enables, hse', hsoe', hscr']
  -- `SCR` of each channel, `SS`, `ST` and `SOE`; the others do not matter.
  unfold SauUnit.write_ctrl
  split
  case h_9 => exact h.write_scr 0 ch value
  case h_10 => exact h.write_scr 1 ch value
  case h_11 => exact h.write_scr 2 ch value
  case h_12 => exact h.write_scr 3 ch value
  case h_13 => exact h.write_se value ch
  case h_14 =>
    have hstopped := h.stop ctl
      ((List.finRange sau_channels).filter fun ch => value.getLsbD ch.val) ch
    have hscr : ¬ 0x24 = 0x18 + 2 * ch.val := by omega
    simp [hstopped, Enables, hscr]
  case h_17 => exact ready_soe u value ch
  case h_19 =>
    simp only [imp_false] at *
    exact hother rfl rfl rfl rfl rfl (by omega) (by omega) (by omega)
  all_goals exact hother rfl rfl rfl rfl rfl (by omega) (by omega) (by omega)

/-- A start leaves no channel ready, if the others were not. -/
theorem settled_start {u : SauUnit} {ctl : EventCtl (SauEvent F)} (hok : Ok u ctl) {f_clk : Hertz}
    (hclock : f_clk.Runs) {c : Fin sau_channels}
    (hothers : ∀ ch, ch ≠ c → u.can_start_tx ch = false) :
    Settled (u.start_tx f_clk ctl c).1 := by
  obtain ⟨hframe, hbit⟩ := times_of_runs hclock u c
  intro ch
  rcases start_cases hok f_clk c with ⟨hsame, hcan | hnone | hnone⟩ | ⟨_, _, -, -, -, -, hstart⟩
  · rw [hsame]
    by_cases hch : ch = c
    · rw [hch]
      exact hcan
    · exact hothers ch hch
  · exact absurd hnone hframe
  · exact absurd (Option.map_eq_none_iff.mp hnone) hbit
  · rw [hstart]
    by_cases hch : ch = c
    · subst hch
      simp [can_start_tx]
    · have hother := hothers ch hch
      simpa [can_start_tx, Function.update_of_ne hch] using hother

/-- A received frame fills the buffer of its channel. -/
theorem Settled.receive {u : SauUnit} (h : Settled u) (f_clk : Hertz) (channel : Nat)
    (frame : UartFrame) (ch : Fin sau_channels) :
    (u.receive f_clk channel frame).can_start_tx ch = true ↔
      ch.val = channel ∧ u.can_rx ch = true ∧ u.soe.getLsbD ch.val = true ∧
        (u.scr ch).getLsbD scr_txe = true ∧ u.busy ch = false := by
  have hnot := h.not_ready ch
  unfold SauUnit.receive
  split
  · rename_i hlt
    dsimp only
    split
    -- A receiver that is off ignores the frame.
    · rename_i hrx
      constructor
      · intro hready
        exact absurd hready hnot
      · rintro ⟨rfl, hcan, -⟩
        simp [hcan] at hrx
    · rename_i hrx
      -- The buffer is full now, whatever it was; nothing else of the channel has
      -- changed that a start depends on.
      by_cases hch : ch = ⟨channel, hlt⟩
      · subst hch
        have hcan : u.can_rx ⟨channel, hlt⟩ = true := by simpa using hrx
        have hse : u.se.getLsbD channel = true := by
          simp only [can_rx, Bool.and_eq_true] at hcan
          exact hcan.1
        rw [can_start_iff]
        simp [hcan, hse]
      · have hne : ¬ ch.val = channel := fun heq => hch (Fin.ext heq)
        have hsame : ({ u with bff := Function.update u.bff ⟨channel, hlt⟩ true } :
            SauUnit).can_start_tx ch = false :=
          h.same rfl rfl rfl rfl (Function.update_of_ne hch _ _)
        simp only [hne, false_and, iff_false]
        intro hready
        exact absurd (hsame.symm.trans hready) (by decide)
  · rename_i hlt
    constructor
    · intro hready
      exact absurd hready hnot
    · rintro ⟨rfl, -⟩
      exact absurd ch.isLt hlt

/-! ### Every step -/

/-- The end of a frame, and its next start. -/
theorem Settled.pop_due {s : Sim F} (hok : Ok s.unit s.ctl) (h : Settled s.unit)
    (hclock : s.f_clk.Runs) : Settled s.pop_due.unit := by
  -- The end of a frame frees one channel, and that one is started again.
  rcases pop_cases hok with ⟨-, hpop, -⟩ | ⟨c, b, frame, -, -, -, -, -, hcomplete, -, hpop⟩
  · rw [hpop]
    exact h
  · rw [hpop]
    refine settled_start hcomplete hclock ?_
    intro ch hch
    exact h.same rfl rfl rfl (Function.update_of_ne hch _ _) rfl

/-- From a settled unit, a step leaves it settled exactly when it is prompt. -/
theorem settled_step {s s' : Sim F × History} {a : Act F} (hok : Ok s.1.unit s.1.ctl)
    (h : Settled s.1.unit) (hclock : Clocked s a) (hstep : s.1.step a = some s'.1) :
    Settled s'.1.unit ↔ Prompt s.1 a := by
  have hruns := hclock.1
  cases a with
  | write_sdr c value =>
    obtain hs' := Option.some.inj hstep
    refine iff_of_true ?_ trivial
    rw [← hs']
    -- The other channels keep what their start depends on.
    refine settled_start (hok.load_sdr c value) hruns ?_
    intro ch hch
    refine h.same rfl rfl rfl rfl ?_
    simp only [load_sdr]
    split
    · exact Function.update_of_ne hch _ _
    · rfl
  | read_sdr c =>
    obtain hs' := Option.some.inj hstep
    refine iff_of_true ?_ trivial
    rw [← hs']
    intro ch
    have hnot := h.not_ready ch
    rw [can_start_iff] at hnot
    rw [← Bool.not_eq_true, can_start_iff]
    unfold SauUnit.read_sdr
    split
    · exact hnot
    · by_cases hch : ch = c
      · subst hch
        simp
      · simpa [Function.update_of_ne hch] using hnot
  | write_ctrl offset value =>
    obtain hs' := Option.some.inj hstep
    have hready := h.write_ctrl s.1.ctl offset value
    rw [← hs']
    constructor
    · intro hsettled ch hfull hidle henables
      exact hsettled.not_ready ch ((hready ch).mpr ⟨hfull, hidle, henables⟩)
    · intro hprompt ch
      rw [← Bool.not_eq_true]
      intro hcan
      obtain ⟨hfull, hidle, henables⟩ := (hready ch).mp hcan
      exact hprompt ch hfull hidle henables
  | receive channel frame =>
    obtain hs' := Option.some.inj hstep
    have hready := h.receive s.1.f_clk channel frame
    rw [← hs']
    constructor
    · intro hsettled ch hch hrx hsoe htxe
      by_contra hidle
      exact hsettled.not_ready ch ((hready ch).mpr ⟨hch, hrx, hsoe, htxe, by simpa using hidle⟩)
    · intro hprompt ch
      rw [← Bool.not_eq_true]
      intro hcan
      obtain ⟨hch, hrx, hsoe, htxe, hidle⟩ := (hready ch).mp hcan
      rw [hprompt ch hch hrx hsoe htxe] at hidle
      cases hidle
  | reset =>
    obtain hs' := Option.some.inj hstep
    refine iff_of_true ?_ trivial
    rw [← hs']
    intro ch
    simp [Sim.next, SauUnit.reset, can_start_tx]
  | pop_due =>
    obtain hs' := Option.some.inj hstep
    refine iff_of_true ?_ trivial
    rw [← hs']
    exact h.pop_due hok hruns
  | set_f_clk f_clk =>
    obtain hs' := Option.some.inj hstep
    refine iff_of_true ?_ trivial
    rw [← hs']
    exact h
  | advance delta =>
    obtain hs' := Option.some.inj hstep
    refine iff_of_true ?_ trivial
    rw [← hs']
    exact h
  | schedule_other at_ event =>
    obtain hs' := Option.some.inj hstep
    refine iff_of_true ?_ trivial
    rw [← hs']
    exact h
  | cancel_other id =>
    obtain ⟨hs', -⟩ := cancel_other_cases hstep
    refine iff_of_true ?_ trivial
    rw [hs']
    exact h

theorem settled_iff {s : Sim F} (hok : Ok s.unit s.ctl) :
    (∀ ch, ¬ Stuck s ch) ↔ Settled s.unit := by
  constructor
  · intro h ch
    rw [← Bool.not_eq_true]
    intro hcan
    have hidle : s.unit.busy ch = false := ((can_start_iff _ _).mp hcan).2.2.2.1
    exact h ch ⟨hcan, (hok.consistent ch).none hidle⟩
  · intro h ch hstuck
    exact h.not_ready ch hstuck.1

theorem settled_new : Settled new := by
  intro ch
  simp [can_start_tx, new]

/-! ### Whole runs -/

theorem settled_of_reachable {s : Sim F × History}
    (h : Reachable (runs F) (fun s a => Clocked s a ∧ Prompt s.1 a) s) : Settled s.1.unit := by
  induction h with
  | init hi =>
    rw [hi.1.1]
    exact settled_new
  | step a hreach hok hstep ih =>
    have hreach' := ok_of_reachable (hreach.mono fun _ _ _ => trivial)
    exact (settled_step hreach' ih hok.1 (System.logged_step_cases hstep).1).mpr hok.2

/-- Under a running clock, no channel is stuck in a run of prompt steps; and a
    further step leaves none stuck exactly when it is prompt too. -/
theorem full_buffer_on_its_way {s : Sim F × History}
    (h : Reachable (runs F) (fun s a => Clocked s a ∧ Prompt s.1 a) s) :
    (∀ ch, ¬ Stuck s.1 ch) ∧ ∀ a s', Clocked s a → (runs F).step s a = some s' →
      ((∀ ch, ¬ Stuck s'.1 ch) ↔ Prompt s.1 a) := by
  have hok := ok_of_reachable (h.mono fun _ _ _ => trivial)
  have hsettled := settled_of_reachable h
  refine ⟨(settled_iff hok).mpr hsettled, ?_⟩
  intro a s' hclock hstep
  -- A channel is stuck when it is ready and idle; from a settled unit, only a
  -- step that is not prompt makes one so.
  have hact := (System.logged_step_cases hstep).1
  rw [settled_iff (hok.step hact)]
  exact settled_step hok hsettled hclock hact

/-! ### Runs at 32 MHz -/

/-- The clock stays as it is. -/
def SameClock (s : Sim Empty × History) (a : Act Empty) : Prop :=
  s.1.f_clk = .from_mhz 32 ∧ ∀ f_clk, a ≠ .set_f_clk f_clk

instance (s : Sim Empty × History) (a : Act Empty) : Decidable (SameClock s a) :=
  match a with
  | .set_f_clk _ => .isFalse fun h => h.2 _ rfl
  | .write_sdr _ _ | .read_sdr _ | .write_ctrl _ _ | .receive _ _ | .reset | .advance _ | .pop_due
  | .schedule_other _ _ | .cancel_other _ =>
    decidable_of_iff (s.1.f_clk = .from_mhz 32) ⟨fun h => ⟨h, nofun⟩, fun h => h.1⟩

theorem SameClock.clocked {s : Sim Empty × History} {a : Act Empty} (h : SameClock s a) :
    Clocked s a := by
  refine ⟨?_, ?_⟩
  · rw [h.1]
    exact Hertz.runs_32_mhz
  · intro f_clk ha
    exact absurd ha (h.2 f_clk)

instance (u : SauUnit) (ch : Fin sau_channels) (offset : Nat) (value : BitVec 16) :
    Decidable (Enables u ch offset value) :=
  inferInstanceAs (Decidable (_ ∨ _ ∨ _))

instance (s : Sim F) (a : Act F) : Decidable (Prompt s a) :=
  match a with
  | .write_ctrl offset value => inferInstanceAs (Decidable (∀ ch, s.unit.bff ch = true →
      s.unit.busy ch = false → ¬ Enables s.unit ch offset value))
  | .receive channel _ => inferInstanceAs (Decidable (∀ ch : Fin sau_channels, ch.val = channel →
      s.unit.can_rx ch = true → s.unit.soe.getLsbD ch.val = true →
        (s.unit.scr ch).getLsbD scr_txe = true → s.unit.busy ch = true))
  | .write_sdr _ _ | .read_sdr _ | .reset | .set_f_clk _ | .advance _ | .pop_due
  | .schedule_other _ _ | .cancel_other _ => .isTrue trivial

/-- The channel is enabled first; a datum is on its way out, and the next one
    waits for it. -/
theorem full_buffer_on_its_way_enabled : ∃ s : Sim Empty × History,
    s.1.unit.busy 0 = true ∧ s.1.unit.bff 0 = true ∧ (∀ ch, ¬ Stuck s.1 ch) ∧
      ∀ a s', Clocked s a → (runs Empty).step s a = some s' →
        ((∀ ch, ¬ Stuck s'.1 ch) ↔ Prompt s.1 a) := by
  obtain ⟨s, hreach, hbusy, hfull⟩ : ∃ s : Sim Empty × History,
      Reachable (runs Empty) (fun s a => SameClock s a ∧ Prompt s.1 a) s ∧
        s.1.unit.busy 0 = true ∧ s.1.unit.bff 0 = true :=
    Reachable.exists_of_exec (enable 0 ++ [.write_sdr 0 0x41, .write_sdr 0 0x42]) init_start
      (by decide +kernel)
  obtain ⟨hnone, hnext⟩ :=
    full_buffer_on_its_way (hreach.mono fun _ _ h => ⟨h.1.clocked, h.2⟩)
  exact ⟨s, hbusy, hfull, hnone, hnext⟩

/-- A datum is written before the output of the channel is enabled; once it is,
    nothing starts the transmission. -/
theorem full_buffer_waits : ∃ s : Sim Empty × History,
    Reachable (runs Empty) Clocked s ∧ Stuck s.1 0 := by
  obtain ⟨s, hreach, hready, hidle⟩ : ∃ s : Sim Empty × History,
      Reachable (runs Empty) SameClock s ∧ s.1.unit.can_start_tx 0 = true ∧
        s.1.unit.busy 0 = false :=
    Reachable.exists_of_exec [.write_ctrl 0x18 0x8000, .write_ctrl 0x22 1, .write_sdr 0 0x41,
      .write_ctrl 0x2A 1] init_start (by decide +kernel)
  have hok := ok_of_reachable (hreach.mono fun _ _ _ => trivial)
  exact ⟨s, hreach.mono fun _ _ h => h.clocked, hready, (hok.consistent 0).none hidle⟩

end SauUnit

end Rl78Sim
