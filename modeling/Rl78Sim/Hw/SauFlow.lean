import Rl78Sim.Hw.Sau

/-! # Serial Transmission

    A datum passes from the buffer of a channel through its shift register to
    the line. For a guest that writes only into an empty buffer, what has been
    driven and what is still pending make up what was written, in order.
-/

namespace Rl78Sim

open Transition Bits

namespace SauUnit

variable {F : Type}

/-- What the transmission of a channel depends on, besides its data. -/
structure Settings where
  se : Bool
  soe : Bool
  scr : BitVec 16
  baud_div : BitVec 16
  prs : Nat
  inverted : Bool
  f_clk : Hertz
  deriving DecidableEq

def settings (s : Sim F) (ch : Fin sau_channels) : Settings where
  se := s.unit.se.getLsbD ch.val
  soe := s.unit.soe.getLsbD ch.val
  scr := s.unit.scr ch
  baud_div := s.unit.baud_div ch
  prs := s.unit.prs ch
  inverted := s.unit.tx_inverted ch
  f_clk := s.f_clk

/-- The channel is enabled for transmission, and its clock runs. -/
structure Enabled (s : Sim F) (ch : Fin sau_channels) : Prop where
  se : s.unit.se.getLsbD ch.val = true
  soe : s.unit.soe.getLsbD ch.val = true
  txe : (s.unit.scr ch).getLsbD scr_txe = true
  clock : s.f_clk.hz ≠ 0

/-- The data register of the channel is written and read only while the buffer
    is empty, and no frame is received into it: a read takes what is in the
    buffer, and so does a write or a frame that comes in. -/
def SparesBuffer (ch : Fin sau_channels) (s : Sim F) : Act F → Prop
  | .write_sdr c _ | .read_sdr c => c = ch → s.unit.bff ch = false
  | .receive c _ => c = ch.val → s.unit.can_rx ch = false
  | _ => True

/-- The guest keeps the settings of the channel, and spares its buffer. -/
def Careful (ch : Fin sau_channels) (s : Sim F × History) (a : Act F) : Prop :=
  (∀ s' ∈ s.1.step a, settings s' ch = settings s.1 ch) ∧ SparesBuffer ch s.1 a

/-- The data of a channel that are still to be driven. -/
def pending (u : SauUnit) (ch : Fin sau_channels) : List (BitVec 16) :=
  (u.tx_shift ch).toList.map UartFrame.data ++
    if u.bff ch then [u.sdr ch &&& data_mask (u.scr ch)] else []

/-- The frames that the channel has driven. -/
def sent_by (h : History) (ch : Fin sau_channels) : List Sent :=
  h.line.filter fun r => r.channel = ch

/-- Frames that follow each other in at least a frame time, as far as the
    clock goes. -/
def Spaced (period : Nat) (out : List Sent) : Prop :=
  out.Pairwise fun r r' => saturating_add r.now period ≤ r'.now

/-- What has happened to a channel since `s₀`: the frames driven and the data
    pending are the data pending then and the data written. -/
structure Transmitted (ch : Fin sau_channels) (s₀ s : Sim F × History) (out : List Sent)
    (data : List (BitVec 16)) : Prop where
  sent : sent_by s.2 ch = sent_by s₀.2 ch ++ out
  written : s.2.written ch = s₀.2.written ch ++ data
  in_order : out.map (fun r => r.frame.data) ++ pending s.1.unit ch =
    pending s₀.1.unit ch ++ data.map fun value => value &&& data_mask (s₀.1.unit.scr ch)
  spaced (period : Nat) : s₀.1.unit.frame_time s₀.1.f_clk ch = some period → Spaced period out

/-! ### One start -/

/-- What a step leaves of a channel when it is about another one. -/
structure Keeps (ch : Fin sau_channels) (u : SauUnit) (ctl : EventCtl (SauEvent F))
    (u' : SauUnit) (ctl' : EventCtl (SauEvent F)) : Prop where
  tx_shift : u'.tx_shift ch = u.tx_shift ch
  busy : u'.busy ch = u.busy ch
  bff : u'.bff ch = u.bff ch
  sdr : u'.sdr ch = u.sdr ch
  done (b : Booking (SauEvent F)) : IsDone ctl'.events ch b → IsDone ctl.events ch b
  now : ctl.now ≤ ctl'.now

theorem Keeps.refl (ch : Fin sau_channels) (u : SauUnit) (ctl : EventCtl (SauEvent F)) :
    Keeps ch u ctl u ctl := ⟨rfl, rfl, rfl, rfl, fun _ hb => hb, Nat.le_refl _⟩

theorem Keeps.trans {ch : Fin sau_channels} {u u' u'' : SauUnit}
    {ctl ctl' ctl'' : EventCtl (SauEvent F)} (h : Keeps ch u ctl u' ctl')
    (h' : Keeps ch u' ctl' u'' ctl'') : Keeps ch u ctl u'' ctl'' where
  tx_shift := h'.tx_shift.trans h.tx_shift
  busy := h'.busy.trans h.busy
  bff := h'.bff.trans h.bff
  sdr := h'.sdr.trans h.sdr
  done b hb := h.done b (h'.done b hb)
  now := Nat.le_trans h.now h'.now

theorem keeps_cancel {u : SauUnit} {ctl : EventCtl (SauEvent F)} (hq : ctl.events.Sound)
    {ch c : Fin sau_channels} (hne : ch ≠ c) :
    Keeps ch u ctl (u.cancel_tx ctl c).1 (u.cancel_tx ctl c).2 := by
  obtain ⟨-, hnow, hbooks⟩ := cancel_spec hq u c
  refine ⟨?_, ?_, rfl, rfl, ?_, Nat.le_of_eq hnow.symm⟩
  · simp [cancel_tx, Function.update_of_ne hne]
  · simp [cancel_tx, Function.update_of_ne hne]
  · intro b hb
    exact hb.of_books ((hbooks b).mp hb.books).1

theorem keeps_start {u : SauUnit} {ctl : EventCtl (SauEvent F)} (h : Ok u ctl) (f_clk : Hertz)
    {ch c : Fin sau_channels} (hne : ch ≠ c) :
    Keeps ch u ctl (u.start_tx f_clk ctl c).1 (u.start_tx f_clk ctl c).2 := by
  rcases start_cases h f_clk c with ⟨hsame, -⟩ | ⟨period, frame, -, -, -, -, hstart⟩
  · rw [hsame]
    exact .refl ch u ctl
  · rw [hstart]
    refine ⟨?_, ?_, ?_, rfl, ?_, Nat.le_refl _⟩
    · simp [Function.update_of_ne hne]
    · simp [Function.update_of_ne hne]
    · simp [Function.update_of_ne hne]
    · intro b hb
      rcases (isDone_schedule h.sound).mp hb with ⟨-, hch⟩ | hold
      · exact absurd hch.symm hne
      · exact hold

/-- A start moves the datum from the buffer to the shift register. -/
theorem pending_start {u : SauUnit} {ctl : EventCtl (SauEvent F)} (h : Ok u ctl) (f_clk : Hertz)
    (ch : Fin sau_channels) : pending (u.start_tx f_clk ctl ch).1 ch = pending u ch := by
  rcases start_cases h f_clk ch with ⟨hsame, -⟩ | ⟨period, frame, hcan, hidle, -, hframe, hstart⟩
  · rw [hsame]
  · have hshift : u.tx_shift ch = none := by
      have hshift := h.shift ch
      rw [hidle] at hshift
      simpa using hshift
    have hfull : u.bff ch = true := by
      simp only [can_start_tx, Bool.and_eq_true] at hcan
      exact hcan.2
    have hdata : frame.data = u.sdr ch &&& data_mask (u.scr ch) := by
      obtain ⟨bit_time, -, rfl⟩ := Option.map_eq_some_iff.mp hframe
      rfl
    rw [hstart]
    simp [pending, hshift, hfull, hdata]

/-! ### Settings -/

theorem times_of_settings {s s' : Sim F} {ch : Fin sau_channels}
    (h : settings s' ch = settings s ch) :
    s'.unit.frame_time s'.f_clk ch = s.unit.frame_time s.f_clk ch ∧
      s'.unit.bit_time s'.f_clk ch = s.unit.bit_time s.f_clk ch := by
  simp only [settings, Settings.mk.injEq] at h
  obtain ⟨-, -, hscr, hbaud, hprs, -, hclk⟩ := h
  unfold frame_time bit_time bit_cycles
  simp [hscr, hbaud, hprs, hclk]

theorem scr_of_settings {s s' : Sim F} {ch : Fin sau_channels}
    (h : settings s' ch = settings s ch) : s'.unit.scr ch = s.unit.scr ch := by
  simp only [settings, Settings.mk.injEq] at h
  exact h.2.2.1

theorem Enabled.of_settings {s s' : Sim F} {ch : Fin sau_channels} (he : Enabled s ch)
    (h : settings s' ch = settings s ch) : Enabled s' ch := by
  simp only [settings, Settings.mk.injEq] at h
  obtain ⟨hse, hsoe, hscr, -, -, -, hclk⟩ := h
  refine ⟨hse.trans he.se, hsoe.trans he.soe, ?_, ?_⟩
  · rw [hscr]
    exact he.txe
  · rw [hclk]
    exact he.clock

/-- A bit takes two clocks at least, so up to two gigahertz it takes a
    nanosecond at least. -/
theorem times_isSome {u : SauUnit} {f_clk : Hertz} (hclock : f_clk.hz ≠ 0)
    (hslow : f_clk.hz ≤ 2 * ns_per_sec) (ch : Fin sau_channels) :
    u.frame_time f_clk ch ≠ none ∧ u.bit_time f_clk ch ≠ none := by
  have hbit : 2 ≤ u.bit_cycles ch := by
    have hone : 1 ≤ saturating_mul (1 <<< u.prs ch) ((u.baud_div ch).toNat + 1) := by
      refine one_le_saturating_mul ?_ (Nat.le_add_left _ _)
      rw [Nat.one_shiftLeft]
      exact Nat.one_le_two_pow
    unfold bit_cycles
    generalize saturating_mul (1 <<< u.prs ch) ((u.baud_div ch).toNat + 1) = n at hone ⊢
    unfold saturating_mul u64_max
    omega
  have htick {cycles : Nat} (hcycles : 2 ≤ cycles) :
      (f_clk.cycles_to_tick cycles).filter (fun t => t != 0) ≠ none := by
    -- Two cycles take a nanosecond at least, up to 2 GHz.
    have hticks : 0 < saturating_mul cycles ns_per_sec / f_clk.hz := by
      refine Nat.div_pos (Nat.le_trans hslow ?_) (Nat.pos_of_ne_zero hclock)
      refine Nat.le_min.mpr ⟨Nat.mul_le_mul_right _ hcycles, by decide⟩
    unfold Hertz.cycles_to_tick
    rw [if_neg hclock]
    simp only [Option.filter]
    rw [if_pos (by simpa using Nat.ne_of_gt hticks)]
    nofun
  have hframe : 2 ≤ saturating_mul (u.bit_cycles ch) (bit_count (u.scr ch)) := by
    refine Nat.le_min.mpr ⟨?_, by decide⟩
    have hcount : 1 ≤ bit_count (u.scr ch) := by
      unfold bit_count
      omega
    calc 2 ≤ u.bit_cycles ch * 1 := by omega
      _ ≤ u.bit_cycles ch * bit_count (u.scr ch) := Nat.mul_le_mul_left _ hcount
  exact ⟨htick hframe, htick hbit⟩

/-- With its times defined, an enabled channel leaves nothing in the buffer of
    an idle shift register. -/
theorem busy_of_start {u : SauUnit} {ctl : EventCtl (SauEvent F)} (h : Ok u ctl) (f_clk : Hertz)
    {ch : Fin sau_channels} (he : Enabled (⟨u, ctl, f_clk⟩ : Sim F) ch)
    (htimes : u.frame_time f_clk ch ≠ none ∧ u.bit_time f_clk ch ≠ none)
    (hfull : (u.start_tx f_clk ctl ch).1.bff ch = true) :
    (u.start_tx f_clk ctl ch).1.busy ch = true := by
  rcases start_cases h f_clk ch with ⟨hsame, hcan | hnone | hnone⟩ | ⟨_, _, -, -, -, -, hstart⟩
  · rw [hsame] at hfull ⊢
    replace hfull : u.bff ch = true := hfull
    simp only [can_start_tx, he.se, he.soe, he.txe, hfull, Bool.and_true, Bool.true_and,
      Bool.not_eq_false'] at hcan
    exact hcan
  · exact absurd hnone htimes.1
  · unfold tx_frame at hnone
    exact absurd (Option.map_eq_none_iff.mp hnone) htimes.2
  · rw [hstart]
    simp

/-! ### One step -/

/-- The state of a transmission: `Transmitted`, and what comes next is due a
    frame time after what was driven. -/
structure Flow (ch : Fin sau_channels) (s₀ s : Sim F × History) (out : List Sent)
    (data : List (BitVec 16)) : Prop extends Transmitted ch s₀ s out data where
  settings_eq : settings s.1 ch = settings s₀.1 ch
  past (r : Sent) : r ∈ out → r.now ≤ s.1.ctl.now
  due (r : Sent) : r ∈ out → ∀ period, s₀.1.unit.frame_time s₀.1.f_clk ch = some period →
    ∀ b, IsDone s.1.ctl.events ch b → saturating_add r.now period ≤ b.at_
  /-- Nothing waits in the buffer of an idle shift register. -/
  drained : s₀.1.f_clk.hz ≤ 2 * ns_per_sec →
    (s₀.1.unit.bff ch = true → s₀.1.unit.busy ch = true) →
      s.1.unit.bff ch = true → s.1.unit.busy ch = true

theorem Flow.keep {ch : Fin sau_channels} {s₀ s s' : Sim F × History} {out : List Sent}
    {data : List (BitVec 16)} (h : Flow ch s₀ s out data)
    (hkeeps : Keeps ch s.1.unit s.1.ctl s'.1.unit s'.1.ctl)
    (hsettings : settings s'.1 ch = settings s.1 ch) (hsent : sent_by s'.2 ch = sent_by s.2 ch)
    (hwritten : s'.2.written ch = s.2.written ch) : Flow ch s₀ s' out data where
  sent := hsent.trans h.sent
  written := hwritten.trans h.written
  in_order := by
    have hsame : pending s'.1.unit ch = pending s.1.unit ch := by
      unfold pending
      rw [hkeeps.tx_shift, hkeeps.bff, hkeeps.sdr, scr_of_settings hsettings]
    rw [hsame]
    exact h.in_order
  spaced := h.spaced
  settings_eq := hsettings.trans h.settings_eq
  past r hr := Nat.le_trans (h.past r hr) hkeeps.now
  due r hr period hperiod b hb := h.due r hr period hperiod b (hkeeps.done b hb)
  drained hslow hbuffer hfull := by
    rw [hkeeps.bff] at hfull
    rw [hkeeps.busy]
    exact h.drained hslow hbuffer hfull

/-- A start of the channel itself: its new completion is due a frame time from
    now. -/
theorem Flow.start {ch : Fin sau_channels} {s₀ s : Sim F × History} {out : List Sent}
    {data : List (BitVec 16)} {u : SauUnit} {ctl : EventCtl (SauEvent F)} {s' : Sim F × History}
    (hs' : s'.1 = s.1.next (u.start_tx s.1.f_clk ctl ch)) (hok : Ok u ctl)
    (he : Enabled s₀.1 ch)
    (hu : settings (⟨u, ctl, s.1.f_clk⟩ : Sim F) ch = settings s₀.1 ch)
    (hsettings : settings s'.1 ch = settings s₀.1 ch)
    (hsent : sent_by s'.2 ch = sent_by s₀.2 ch ++ out)
    (hwritten : s'.2.written ch = s₀.2.written ch ++ data)
    (hin_order : out.map (fun r => r.frame.data) ++ pending u ch =
      pending s₀.1.unit ch ++ data.map fun value => value &&& data_mask (s₀.1.unit.scr ch))
    (hspaced : ∀ period, s₀.1.unit.frame_time s₀.1.f_clk ch = some period → Spaced period out)
    (hpast : ∀ r ∈ out, r.now ≤ ctl.now)
    (hdue : ∀ r ∈ out, ∀ period, s₀.1.unit.frame_time s₀.1.f_clk ch = some period →
      ∀ b, IsDone ctl.events ch b → saturating_add r.now period ≤ b.at_) :
    Flow ch s₀ s' out data where
  sent := hsent
  written := hwritten
  in_order := by
    rw [hs']
    show _ ++ pending (u.start_tx s.1.f_clk ctl ch).1 ch = _
    rw [pending_start hok]
    exact hin_order
  spaced := hspaced
  settings_eq := hsettings
  past r hr := by
    rw [hs']
    show _ ≤ (u.start_tx s.1.f_clk ctl ch).2.now
    rcases start_cases hok s.1.f_clk ch with ⟨hsame, -⟩ | ⟨_, _, -, -, -, -, hstart⟩
    · rw [hsame]
      exact hpast r hr
    · rw [hstart]
      exact hpast r hr
  due r hr period hperiod b hb := by
    rw [hs'] at hb
    replace hb : IsDone (u.start_tx s.1.f_clk ctl ch).2.events ch b := hb
    rcases start_cases hok s.1.f_clk ch with ⟨hsame, -⟩ | ⟨period', _, -, -, hperiod', -, hstart⟩
    · rw [hsame] at hb
      exact hdue r hr period hperiod b hb
    · rw [hstart] at hb
      -- The end that is booked now is a frame time away.
      rcases (isDone_schedule hok.sound).mp hb with ⟨rfl, -⟩ | hold
      · have hframe := (times_of_settings hu).1
        rw [hperiod] at hframe
        obtain rfl : period' = period := Option.some.inj (hperiod'.symm.trans hframe)
        exact saturating_add_mono _ (hpast r hr)
      · exact hdue r hr period hperiod b hold
  drained hslow _ hfull := by
    rw [hs'] at hfull ⊢
    have he' := he.of_settings hu
    have hclk : s.1.f_clk = s₀.1.f_clk := by
      simp only [settings, Settings.mk.injEq] at hu
      exact hu.2.2.2.2.2.2
    exact busy_of_start hok s.1.f_clk he' (times_isSome he'.clock (hclk ▸ hslow) ch) hfull

/-! ### Every step -/

/-- The data that the guest writes have nine bits, more than a frame. -/
theorem mask_written (value scr : BitVec 16) :
    (value &&& 0x1FF#16) &&& data_mask scr = value &&& data_mask scr := by
  have hmask : 0x1FF#16 &&& data_mask scr = data_mask scr := by
    unfold data_mask data_bits
    split
    · decide
    · decide
  rw [BitVec.and_assoc, hmask]

theorem se_stop (te : BitVec 16) (ch c : Fin sau_channels) :
    (te &&& ~~~(1#16 <<< c.val)).getLsbD ch.val = true → ch ≠ c := by
  have hlt : ch.val < 16 := Nat.lt_trans ch.isLt (by decide)
  rw [BitVec.getLsbD_and, BitVec.getLsbD_not, getLsbD_one_shiftLeft hlt]
  rintro hbit rfl
  simp at hbit

/-- A loop that leaves the channel enabled does not visit it. -/
theorem keeps_stop {u : SauUnit} {ctl : EventCtl (SauEvent F)} (h : Ok u ctl)
    {ch : Fin sau_channels} {channels : List (Fin sau_channels)}
    (hon : (for_channels stop_channel channels u ctl).1.se.getLsbD ch.val = true) :
    Keeps ch u ctl (for_channels stop_channel channels u ctl).1
      (for_channels stop_channel channels u ctl).2 := by
  induction channels generalizing u ctl with
  | nil => exact .refl ch u ctl
  | cons c rest ih =>
    have hstopped : Ok { u with se := u.se &&& ~~~(1#16 <<< c.val) } ctl := h.same rfl rfl rfl
    have hrest : Keeps ch (u.stop_channel ctl c).1 (u.stop_channel ctl c).2
        (for_channels stop_channel (c :: rest) u ctl).1
        (for_channels stop_channel (c :: rest) u ctl).2 := ih (hstopped.cancel_tx c) hon
    -- No round enables a channel.
    have hse : (u.stop_channel ctl c).1.se.getLsbD ch.val = true := by
      by_contra hoff
      have hstays : ¬ (for_channels stop_channel rest (u.stop_channel ctl c).1
          (u.stop_channel ctl c).2).1.se.getLsbD ch.val = true := by
        refine for_channels_rule (P := fun u _ => ¬ u.se.getLsbD ch.val = true) hoff ?_
        intro c' _ u ctl hoff hbit
        rw [show (u.stop_channel ctl c').1.se = u.se &&& ~~~(1#16 <<< c'.val) from rfl,
          BitVec.getLsbD_and, Bool.and_eq_true] at hbit
        exact hoff hbit.1
      exact hstays hon
    have hne : ch ≠ c := se_stop u.se ch c hse
    have hkeeps : Keeps ch u ctl (u.stop_channel ctl c).1 (u.stop_channel ctl c).2 := by
      have hcancel := keeps_cancel (u := { u with se := u.se &&& ~~~(1#16 <<< c.val) }) h.sound hne
      exact ⟨hcancel.tx_shift, hcancel.busy, hcancel.bff, hcancel.sdr, hcancel.done, hcancel.now⟩
    exact hkeeps.trans hrest

theorem keeps_write_ctrl {u : SauUnit} {ctl : EventCtl (SauEvent F)} (h : Ok u ctl)
    {ch : Fin sau_channels} {offset : Nat} {value : BitVec 16}
    (hon : (u.write_ctrl ctl offset value).1.se.getLsbD ch.val = true) :
    Keeps ch u ctl (u.write_ctrl ctl offset value).1 (u.write_ctrl ctl offset value).2 := by
  rcases write_ctrl_cases ctl u offset value with
    ⟨-, hwrite⟩ | ⟨u', hwrite, -, hshift, hbusy, hbff, hsdr⟩
  · rw [hwrite] at hon ⊢
    exact keeps_stop h hon
  · rw [hwrite]
    exact ⟨by rw [hshift], by rw [hbusy], by rw [hbff], by rw [hsdr], fun _ hb => hb,
      Nat.le_refl _⟩

theorem keeps_receive (u : SauUnit) (ctl : EventCtl (SauEvent F)) (f_clk : Hertz)
    {ch : Fin sau_channels} {channel : Nat} (frame : UartFrame)
    (hcan : channel = ch.val → u.can_rx ch = false) :
    Keeps ch u ctl (u.receive f_clk channel frame) ctl := by
  unfold receive
  split
  · rename_i hlt
    dsimp only
    split
    · exact .refl ch u ctl
    · rename_i hrx
      have hne : ch ≠ ⟨channel, hlt⟩ := by
        rintro rfl
        rw [hcan rfl] at hrx
        exact hrx rfl
      refine ⟨rfl, rfl, ?_, ?_, fun _ hb => hb, Nat.le_refl _⟩
      · simp [Function.update_of_ne hne]
      · simp [Function.update_of_ne hne]
  · exact .refl ch u ctl

theorem keeps_read_sdr (u : SauUnit) (ctl : EventCtl (SauEvent F)) {ch c : Fin sau_channels}
    (hempty : c = ch → u.bff ch = false) : Keeps ch u ctl (u.read_sdr c).1 ctl := by
  unfold read_sdr
  split
  · exact .refl ch u ctl
  · refine ⟨rfl, rfl, ?_, rfl, fun _ hb => hb, Nat.le_refl _⟩
    by_cases hc : c = ch
    · subst hc
      simp [hempty]
    · simp [Function.update_of_ne (Ne.symm hc)]

theorem Ok.load_sdr {u : SauUnit} {ctl : EventCtl (SauEvent F)} (h : Ok u ctl)
    (c : Fin sau_channels) (value : BitVec 16) : Ok (u.load_sdr c value) ctl :=
  h.same rfl rfl rfl

theorem keeps_write_sdr {u : SauUnit} {ctl : EventCtl (SauEvent F)} (h : Ok u ctl) (f_clk : Hertz)
    {ch c : Fin sau_channels} (hne : ch ≠ c) (value : BitVec 16) :
    Keeps ch u ctl (u.write_sdr f_clk ctl c value).1 (u.write_sdr f_clk ctl c value).2 := by
  have hload : Keeps ch u ctl (u.load_sdr c value) ctl := by
    refine ⟨rfl, rfl, ?_, ?_, fun _ hb => hb, Nat.le_refl _⟩
    · simp only [SauUnit.load_sdr]
      split <;> simp [Function.update_of_ne hne]
    · simp [SauUnit.load_sdr, Function.update_of_ne hne]
  exact hload.trans (keeps_start (h.load_sdr c value) f_clk hne)

/-- The guest writes a datum into the empty buffer. -/
theorem Flow.write_sdr {ch : Fin sau_channels} {s₀ s s' : Sim F × History} {out : List Sent}
    {data : List (BitVec 16)} (h : Flow ch s₀ s out data) (hok : Ok s.1.unit s.1.ctl)
    (he : Enabled s₀.1 ch) {value : BitVec 16} (hempty : s.1.unit.bff ch = false)
    (hsettings : settings s'.1 ch = settings s.1 ch)
    (hact : s.1.step (.write_sdr ch value) = some s'.1)
    (hnote : s'.2 = note s.1 (.write_sdr ch value) s.2) :
    Flow ch s₀ s' out (data ++ [value]) := by
  have hon : s.1.unit.se.getLsbD ch.val = true := (he.of_settings h.settings_eq).se
  refine Flow.start (s := s) (Option.some.inj hact).symm (hok.load_sdr ch value) he ?_
    (hsettings.trans h.settings_eq) ?_ ?_ ?_ h.spaced h.past h.due
  · -- An enabled channel keeps its baud rate.
    rw [← h.settings_eq]
    simp [settings, SauUnit.load_sdr, hon, prs, tx_inverted]
  · rw [hnote]
    exact h.sent
  · rw [hnote]
    simp [note, h.written]
  · have hadd : pending (s.1.unit.load_sdr ch value) ch =
        pending s.1.unit ch ++ [value &&& data_mask (s₀.1.unit.scr ch)] := by
      simp [pending, SauUnit.load_sdr, hon, hempty, mask_written, scr_of_settings h.settings_eq]
    rw [hadd, ← List.append_assoc, h.in_order, List.map_append, List.append_assoc]
    rfl

/-- The frame in the shift register is driven. -/
theorem Flow.complete {ch : Fin sau_channels} {s₀ s s' : Sim F × History} {out : List Sent}
    {data : List (BitVec 16)} (h : Flow ch s₀ s out data) (he : Enabled s₀.1 ch)
    (hsettings : settings s'.1 ch = settings s.1 ch) {b : Booking (SauEvent F)}
    {frame : UartFrame} (hb : IsDone s.1.ctl.events ch b) (hdue : b.at_ ≤ s.1.ctl.now)
    (hshift : s.1.unit.tx_shift ch = some frame) (hok : Ok (s.1.unit.complete ch) s.1.ctl.pop_due.1)
    (hpop : s'.1 = s.1.next ((s.1.unit.complete ch).start_tx s.1.f_clk s.1.ctl.pop_due.1 ch))
    (hline : s'.2.line = s.2.line ++ [⟨ch, s.1.ctl.now, frame⟩])
    (hwritten : s'.2.written = s.2.written) :
    Flow ch s₀ s' (out ++ [⟨ch, s.1.ctl.now, frame⟩]) data := by
  -- The channel has no end booked until it is started again.
  have hnone {b' : Booking (SauEvent F)} : ¬ IsDone s.1.ctl.pop_due.1.events ch b' := by
    intro hb'
    have hid := hok.recorded hb'
    simp [SauUnit.complete] at hid
  refine Flow.start (s := s) hpop hok he ?_ (hsettings.trans h.settings_eq) ?_ ?_ ?_ ?_ ?_ ?_
  · exact h.settings_eq
  · have hgrow : sent_by s'.2 ch = sent_by s.2 ch ++ [⟨ch, s.1.ctl.now, frame⟩] := by
      unfold sent_by
      rw [hline]
      simp
    rw [hgrow, h.sent, List.append_assoc]
  · rw [hwritten]
    exact h.written
  · have htake : pending s.1.unit ch = frame.data :: pending (s.1.unit.complete ch) ch := by
      have htaken : (s.1.unit.complete ch).tx_shift ch = none := by simp [SauUnit.complete]
      unfold pending
      rw [hshift, htaken]
      rfl
    have horder := h.in_order
    rw [htake] at horder
    simpa using horder
  · intro period hperiod
    -- The end was booked a frame time after each earlier one, and is due now.
    refine List.pairwise_append.mpr ⟨h.spaced period hperiod, List.pairwise_singleton _ _, ?_⟩
    intro r hr r' hr'
    obtain rfl := List.mem_singleton.mp hr'
    exact Nat.le_trans (h.due r hr period hperiod b hb) hdue
  · intro r hr
    rcases List.mem_append.mp hr with hold | hnew
    · exact h.past r hold
    · obtain rfl := List.mem_singleton.mp hnew
      exact Nat.le_refl _
  · intro r _ period _ b' hb'
    exact absurd hb' hnone

/-- A careful step carries the transmission on. -/
theorem Flow.step {ch : Fin sau_channels} {s₀ s s' : Sim F × History} {out : List Sent}
    {data : List (BitVec 16)} (h : Flow ch s₀ s out data) (hok : Ok s.1.unit s.1.ctl)
    (he : Enabled s₀.1 ch) {a : Act F} (hcareful : Careful ch s a)
    (hstep : (runs F).step s a = some s') : ∃ out data, Flow ch s₀ s' out data := by
  obtain ⟨hact, hnote⟩ := System.logged_step_cases hstep
  replace hact : s.1.step a = some s'.1 := hact
  have hsettings := hcareful.1 _ hact
  have hon : s'.1.unit.se.getLsbD ch.val = true :=
    (he.of_settings (hsettings.trans h.settings_eq)).se
  have hkeep (hkeeps : Keeps ch s.1.unit s.1.ctl s'.1.unit s'.1.ctl)
      (hsent : sent_by s'.2 ch = sent_by s.2 ch) (hwritten : s'.2.written ch = s.2.written ch) :
      ∃ out data, Flow ch s₀ s' out data :=
    ⟨out, data, h.keep hkeeps hsettings hsent hwritten⟩
  cases a with
  | write_sdr c value =>
    by_cases hc : c = ch
    · subst hc
      exact ⟨out, _, h.write_sdr hok he (hcareful.2 rfl) hsettings hact hnote⟩
    · have hne : ch ≠ c := Ne.symm hc
      refine hkeep ?_ (by rw [hnote]; rfl) ?_
      · rw [← Option.some.inj hact]
        exact keeps_write_sdr hok s.1.f_clk hne value
      · rw [hnote]
        simp [note, Function.update_of_ne hne]
  | read_sdr c =>
    refine hkeep ?_ (by rw [hnote]; rfl) (by rw [hnote]; rfl)
    rw [← Option.some.inj hact]
    exact keeps_read_sdr s.1.unit s.1.ctl hcareful.2
  | write_ctrl offset value =>
    refine hkeep ?_ (by rw [hnote]; rfl) (by rw [hnote]; rfl)
    rw [← Option.some.inj hact] at hon ⊢
    exact keeps_write_ctrl hok hon
  | receive channel frame =>
    refine hkeep ?_ (by rw [hnote]; rfl) (by rw [hnote]; rfl)
    rw [← Option.some.inj hact]
    exact keeps_receive s.1.unit s.1.ctl s.1.f_clk frame hcareful.2
  | reset =>
    rw [← Option.some.inj hact] at hon
    simp [Sim.next, SauUnit.reset] at hon
  | set_f_clk f_clk =>
    refine hkeep ?_ (by rw [hnote]; rfl) (by rw [hnote]; rfl)
    rw [← Option.some.inj hact]
    exact .refl ch _ _
  | advance delta =>
    refine hkeep ?_ (by rw [hnote]; rfl) (by rw [hnote]; rfl)
    rw [← Option.some.inj hact]
    exact ⟨rfl, rfl, rfl, rfl, fun _ hb => hb, s.1.ctl.now_le_advance delta⟩
  | pop_due =>
    have hpopped : s.1.pop_due = s'.1 := Option.some.inj hact
    have hline : s'.2.line = s.2.line ++ s.1.driven := by
      rw [hnote]
      rfl
    have hwritten : s'.2.written = s.2.written := by
      rw [hnote]
      rfl
    rcases pop_cases hok with ⟨-, hpop, hdriven, -, hsame⟩ |
      ⟨c, b, frame, -, hb, hdue, hshift, hdriven, hcomplete, hbooks, hpop⟩
    · refine hkeep ?_ ?_ (by rw [hwritten])
      · rw [← hpopped, hpop]
        exact ⟨rfl, rfl, rfl, rfl, fun b hb => (hsame ch b).mp hb, Nat.le_refl _⟩
      · unfold sent_by
        rw [hline, hdriven, List.append_nil]
    · rw [hpop] at hpopped
      rw [hdriven] at hline
      -- The end of a frame of this channel, or of another one.
      by_cases hc : ch = c
      · subst hc
        exact ⟨_, data, h.complete he hsettings hb hdue hshift hcomplete hpopped.symm hline
          hwritten⟩
      · refine hkeep ?_ ?_ (by rw [hwritten])
        · rw [← hpopped]
          refine Keeps.trans ?_ (keeps_start hcomplete s.1.f_clk hc)
          refine ⟨?_, ?_, rfl, rfl, ?_, Nat.le_refl _⟩
          · simp [SauUnit.complete, Function.update_of_ne hc]
          · simp [SauUnit.complete, Function.update_of_ne hc]
          · intro b' hb'
            exact hb'.of_books ((hbooks b').mp hb'.books).1
        · unfold sent_by
          rw [hline, List.filter_append, List.filter_cons_of_neg (by simpa using Ne.symm hc),
            List.filter_nil, List.append_nil]
  | schedule_other at_ event =>
    refine hkeep ?_ (by rw [hnote]; rfl) (by rw [hnote]; rfl)
    rw [← Option.some.inj hact]
    exact ⟨rfl, rfl, rfl, rfl,
      fun b hb => (isDone_schedule_other hok.sound at_ event ch b).mp hb, Nat.le_refl _⟩
  | cancel_other id =>
    refine hkeep ?_ (by rw [hnote]; rfl) (by rw [hnote]; rfl)
    obtain ⟨hcancel, hsame⟩ := cancel_other_cases hact
    rw [hcancel]
    exact ⟨rfl, rfl, rfl, rfl, fun b hb => (hsame ch b).mp hb, Nat.le_refl _⟩

/-- At the start nothing has been driven or written. -/
theorem Flow.start_of (ch : Fin sau_channels) (s : Sim F × History) : Flow ch s s [] [] where
  sent := (List.append_nil _).symm
  written := (List.append_nil _).symm
  in_order := (List.append_nil _).symm
  spaced _ _ := List.Pairwise.nil
  settings_eq := rfl
  past := nofun
  due := nofun
  drained _ h := h

theorem flow_of_path {ch : Fin sau_channels} {s₀ s : Sim F × History}
    (h : Reachable (runs F) AnyAct s₀) (he : Enabled s₀.1 ch)
    (hpath : Path (runs F) (Careful ch) s₀ s) :
    Ok s.1.unit s.1.ctl ∧ ∃ out data, Flow ch s₀ s out data := by
  induction hpath with
  | refl => exact ⟨ok_of_reachable h, [], [], .start_of ch s₀⟩
  | tail a _ hcareful hstep ih =>
    obtain ⟨hok, out, data, hflow⟩ := ih
    exact ⟨hok.step (System.logged_step_cases hstep).1, hflow.step hok he hcareful hstep⟩

/-! ### Transmission -/

/-- In every run a channel is busy when it has a frame and a recorded
    completion, and then that is the only live one. While it stays enabled and
    its buffer is written only when empty, it drives the data written, masked
    to the data length and in order, a frame time apart as far as the clock
    goes; what is not driven yet is pending, and nothing is once it is idle. -/
theorem sau_transmits_in_order (ch : Fin sau_channels) (F : Type) :
    (∀ s : Sim F × History, Reachable (runs F) AnyAct s → Consistent s.1 ch) ∧
    ∀ s₀ : Sim F × History, Reachable (runs F) AnyAct s₀ → Enabled s₀.1 ch →
      ∀ s, Path (runs F) (Careful ch) s₀ s →
        ∃ out data, Transmitted ch s₀ s out data ∧
          (s₀.1.f_clk.hz ≤ 2 * ns_per_sec →
            (s₀.1.unit.bff ch = true → s₀.1.unit.busy ch = true) →
              s.1.unit.busy ch = false → pending s.1.unit ch = []) := by
  refine ⟨fun s h => (ok_of_reachable h).consistent ch, ?_⟩
  intro s₀ h he s hpath
  obtain ⟨hok, out, data, hflow⟩ := flow_of_path h he hpath
  refine ⟨out, data, hflow.toTransmitted, ?_⟩
  intro hslow hbuffer hidle
  have hempty : s.1.unit.bff ch = false := by
    by_contra hfull
    have hbusy := hflow.drained hslow hbuffer (by simpa using hfull)
    rw [hidle] at hbusy
    cases hbusy
  have hshift : s.1.unit.tx_shift ch = none := by
    have hbusy := hok.busy ch
    rw [hidle, ← hok.shift ch] at hbusy
    simpa using hbusy.symm
  simp [pending, hempty, hshift]

/-! ### Runs of one channel -/

instance (ch : Fin sau_channels) (s : Sim F) (a : Act F) : Decidable (SparesBuffer ch s a) :=
  match a with
  | .write_sdr c _ | .read_sdr c => inferInstanceAs (Decidable (c = ch → s.unit.bff ch = false))
  | .receive c _ => inferInstanceAs (Decidable (c = ch.val → s.unit.can_rx ch = false))
  | .write_ctrl _ _ | .reset | .set_f_clk _ | .advance _ | .pop_due | .schedule_other _ _
  | .cancel_other _ => .isTrue trivial

instance (ch : Fin sau_channels) (s : Sim F × History) (a : Act F) : Decidable (Careful ch s a) :=
  inferInstanceAs (Decidable
    ((∀ s' ∈ s.1.step a, settings s' ch = settings s.1 ch) ∧ SparesBuffer ch s.1 a))

instance (s : Sim F) (ch : Fin sau_channels) : Decidable (Enabled s ch) :=
  decidable_of_iff (s.unit.se.getLsbD ch.val = true ∧ s.unit.soe.getLsbD ch.val = true ∧
      (s.unit.scr ch).getLsbD scr_txe = true ∧ s.f_clk.hz ≠ 0)
    ⟨fun h => ⟨h.1, h.2.1, h.2.2.1, h.2.2.2⟩, fun h => ⟨h.se, h.soe, h.txe, h.clock⟩⟩

/-- A new unit at 32 MHz. -/
def start : Sim Empty × History := (⟨new, .new, .from_mhz 32⟩, ⟨[], fun _ => []⟩)

theorem init_start : (runs Empty).init start := ⟨⟨rfl, rfl⟩, rfl⟩

/-- Enable channel `ch`: a frame of eight bits takes 625 nanoseconds. -/
def enable (ch : Fin sau_channels) : List (Act Empty) :=
  [.write_ctrl (0x18 + 2 * ch.val) 0x8000, .write_ctrl 0x2A (1#16 <<< ch.val),
    .write_ctrl 0x22 (1#16 <<< ch.val)]

/-- The guest keeps the settings of the channel, and writes into an empty buffer;
    it may read the data register at any time, and frames may come in. -/
def WritesWhenEmpty (ch : Fin sau_channels) (s : Sim F × History) (a : Act F) : Prop :=
  (∀ s' ∈ s.1.step a, settings s' ch = settings s.1 ch) ∧
    match a with
    | .write_sdr c _ => c = ch → s.1.unit.bff ch = false
    | _ => True

instance (ch : Fin sau_channels) (s : Sim F × History) (a : Act F) :
    Decidable (WritesWhenEmpty ch s a) :=
  match a with
  | .write_sdr c value => inferInstanceAs (Decidable
      ((∀ s' ∈ s.1.step (.write_sdr c value), settings s' ch = settings s.1 ch) ∧
        (c = ch → s.1.unit.bff ch = false)))
  | .read_sdr _ | .receive _ _ | .write_ctrl _ _ | .reset | .set_f_clk _ | .advance _ | .pop_due
  | .schedule_other _ _ | .cancel_other _ => inferInstanceAs (Decidable (_ ∧ True))

/-- The first channel is enabled, and writes only into its empty buffer put
    `written` there; the frames `driven` come out, and it is idle at the end. -/
def Shows (written : List (BitVec 16)) (driven : List (Nat × BitVec 16)) : Prop :=
  ∃ s₀ s : Sim Empty × History, Reachable (runs Empty) AnyAct s₀ ∧ Enabled s₀.1 0 ∧
    s₀.1.unit.frame_time s₀.1.f_clk 0 = some 625 ∧ s₀.2.line = [] ∧ s₀.2.written 0 = [] ∧
    Path (runs Empty) (WritesWhenEmpty 0) s₀ s ∧ s.2.written 0 = written ∧
    s.2.line.map (fun r => (r.now, r.frame.data)) = driven ∧ s.1.unit.busy 0 = false

theorem shows_of_exec (setup acts : List (Act Empty)) {written : List (BitVec 16)}
    {driven : List (Nat × BitVec 16)}
    (h : (((runs Empty).exec AnyAct start setup).any fun s₀ =>
      Enabled s₀.1 0 ∧ s₀.1.unit.frame_time s₀.1.f_clk 0 = some 625 ∧ s₀.2.line = [] ∧
        s₀.2.written 0 = [] ∧ (((runs Empty).exec (WritesWhenEmpty 0) s₀ acts).any fun s =>
          s.2.written 0 = written ∧ s.2.line.map (fun r => (r.now, r.frame.data)) = driven ∧
            s.1.unit.busy 0 = false) = true) = true) : Shows written driven := by
  obtain ⟨s₀, hreach, he, hframe, hline, hwritten, hexec⟩ :=
    Reachable.exists_of_exec setup init_start h
  obtain ⟨s, hpath, hdone⟩ := Path.exists_of_exec _ hexec
  exact ⟨s₀, s, hreach, he, hframe, hline, hwritten, hpath, hdone⟩

/-- Five nanoseconds before the clock stops a frame is written, and another
    one behind it: both are driven at the last time of the clock. A datum whose
    buffer is read is never driven, and a frame that is received is driven though
    the guest has not written it. -/
theorem sau_transmission_disturbed :
    Shows [0x41, 0x42] [(u64_max, 0x41), (u64_max, 0x42)] ∧
      Shows [0x41, 0x42] [(625, 0x41)] ∧
      Shows [0x41] [(625, 0x41), (1250, 0x55)] := by
  refine ⟨?_, ?_, ?_⟩
  · exact shows_of_exec (enable 0 ++ [.advance (u64_max - 5)])
      [.write_sdr 0 0x41, .write_sdr 0 0x42, .advance 5, .pop_due, .pop_due] (by decide +kernel)
  · exact shows_of_exec (enable 0) [.write_sdr 0 0x41, .write_sdr 0 0x42, .read_sdr 0,
      .advance 625, .pop_due, .advance 625, .pop_due] (by decide +kernel)
  · exact shows_of_exec (enable 0 ++ [.write_ctrl 0x18 0xC000]) [.write_sdr 0 0x41,
      .receive 0 ⟨0x55, 8, 62, .One, .None, false⟩, .advance 625, .pop_due, .advance 625,
      .pop_due] (by decide +kernel)

/-- Three data are written and two frames driven, the second one late. -/
theorem sau_transmits_in_order_late : ∃ s₀ s : Sim Empty × History,
    s.2.line.map (fun r => (r.now, r.frame.data)) = [(625, 0x41#16), (1325, 0x42#16)] ∧
      pending s.1.unit 0 = [0x43#16] ∧ ∃ out data, Transmitted 0 s₀ s out data := by
  obtain ⟨s₀, hreach, he, hexec⟩ : ∃ s₀ : Sim Empty × History,
      Reachable (runs Empty) AnyAct s₀ ∧ Enabled s₀.1 0 ∧
        (((runs Empty).exec (Careful 0) s₀ [.write_sdr 0 0x141, .write_sdr 0 0x42, .advance 625,
          .pop_due, .write_sdr 0 0x43, .advance 700, .pop_due]).any fun s =>
            s.2.line.map (fun r => (r.now, r.frame.data)) = [(625, 0x41#16), (1325, 0x42#16)] ∧
              pending s.1.unit 0 = [0x43#16]) = true :=
    Reachable.exists_of_exec (enable 0) init_start (by decide +kernel)
  obtain ⟨s, hpath, hsent, hpending⟩ := Path.exists_of_exec _ hexec
  obtain ⟨out, data, htransmitted, -⟩ :=
    (sau_transmits_in_order 0 Empty).2 s₀ hreach he s hpath
  exact ⟨s₀, s, hsent, hpending, out, data, htransmitted⟩

end SauUnit

end Rl78Sim
