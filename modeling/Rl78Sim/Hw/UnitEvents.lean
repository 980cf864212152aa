import Rl78Sim.Hw.Adc
import Rl78Sim.Hw.Sau
import Rl78Sim.Hw.Tau

/-! # The Events of the Units

    The serial array unit, the timer array unit and the converter record each
    event that they schedule. Whatever the guest and the kernel do to a unit, a
    live event of it is the one recorded, and its reset leaves it without any. -/

namespace Rl78Sim

/-! ### The serial array unit -/

namespace SauUnit

variable {F : Type}

/-- The channel that a completion belongs to. -/
def slot : SauEvent F → Option (Fin sau_channels)
  | .tx_done ch => some ch
  | .other _ => none

/-- The unit has its completions recorded, and since the queue was `q₀` has left
    the events of others alone. -/
abbrev Kept (q₀ : EventQueue (SauEvent F)) (p : SauUnit × EventCtl (SauEvent F)) : Prop :=
  Since slot q₀ p.1.tx_id p.2.events

variable {q₀ : EventQueue (SauEvent F)} {u : SauUnit} {ctl : EventCtl (SauEvent F)}

theorem Kept.cancel_tx (h : Kept q₀ (u, ctl)) (ch : Fin sau_channels) :
    Kept q₀ (u.cancel_tx ctl ch) := by
  have hcancel := h.cancel ch
  unfold SauUnit.cancel_tx
  cases hid : u.tx_id ch with
  | none =>
    rw [hid] at hcancel
    exact hcancel
  | some id =>
    rw [hid] at hcancel
    exact hcancel

/-- A start cancels what the channel records, so it schedules into a free slot. -/
theorem Kept.start_tx (h : Kept q₀ (u, ctl)) (f_clk : Hertz) (ch : Fin sau_channels) :
    Kept q₀ (u.start_tx f_clk ctl ch) := by
  unfold SauUnit.start_tx
  by_cases hcan : u.can_start_tx ch = true
  · rw [if_neg (by simp [hcan])]
    cases hperiod : u.frame_time f_clk ch with
    | none => exact h
    | some period =>
      cases hframe : u.tx_frame f_clk ch with
      | none => exact h
      | some frame =>
        have hcancel := h.cancel_tx ch
        have hidle : Idle slot (u.cancel_tx ctl ch).2.events ch :=
          hcancel.idle_of_none (by simp [SauUnit.cancel_tx])
        exact hcancel.schedule hidle rfl _
  · rw [if_pos (by simp [hcan])]
    exact h

theorem Kept.write_sdr (h : Kept q₀ (u, ctl)) (f_clk : Hertz) (ch : Fin sau_channels)
    (value : BitVec 16) : Kept q₀ (u.write_sdr f_clk ctl ch value) := by
  have hload : Kept q₀ (u.load_sdr ch value, ctl) := h
  exact hload.start_tx f_clk ch

theorem Kept.write_ctrl (h : Kept q₀ (u, ctl)) (offset : Nat) (value : BitVec 16) :
    Kept q₀ (u.write_ctrl ctl offset value) := by
  rcases write_ctrl_cases ctl u offset value with ⟨-, hwrite⟩ | ⟨u', hwrite, hid, -⟩
  · rw [hwrite]
    refine for_channels_rule (P := fun u ctl => Kept q₀ (u, ctl)) h ?_
    intro ch _ u ctl h
    have hstopped : Kept q₀ ({ u with se := u.se &&& ~~~(1#16 <<< ch.val) }, ctl) := h
    exact hstopped.cancel_tx ch
  · rw [hwrite]
    show Since slot q₀ u'.tx_id ctl.events
    rw [hid]
    exact h

theorem receive_tx_id (u : SauUnit) (f_clk : Hertz) (channel : Nat) (frame : UartFrame) :
    (u.receive f_clk channel frame).tx_id = u.tx_id := by
  unfold receive
  split
  · dsimp only
    split <;> rfl
  · rfl

theorem read_sdr_tx_id (u : SauUnit) (ch : Fin sau_channels) :
    (u.read_sdr ch).1.tx_id = u.tx_id := by
  unfold read_sdr
  split <;> rfl

theorem Kept.reset (h : Kept q₀ (u, ctl)) : Kept q₀ (u.reset ctl) := by
  let p := for_channels SauUnit.cancel_tx (List.finRange sau_channels) u ctl
  have hcancel : Kept q₀ (p.1, p.2) := by
    refine for_channels_rule (P := fun u ctl => Kept q₀ (u, ctl)) h ?_
    intro ch _ u ctl h
    exact h.cancel_tx ch
  exact hcancel

/-- A reset leaves no completion. -/
theorem Kept.idle_reset (h : Kept q₀ (u, ctl)) (ch : Fin sau_channels) :
    Idle slot (u.reset ctl).2.events ch :=
  h.reset.idle_of_none (cancelled_all (List.mem_finRange ch))

/-- A completion that is served finds no other of its channel. -/
theorem Kept.fire (h : Kept q₀ (u, ctl)) {ch : Fin sau_channels} (hidle : Idle slot ctl.events ch)
    (f_clk : Hertz) : Kept q₀ ((u.fire ch f_clk ctl).1, (u.fire ch f_clk ctl).2.1) := by
  have hcomplete : Kept q₀ (u.complete ch, ctl) := h.forget hidle
  exact hcomplete.start_tx f_clk ch

end SauUnit

/-! ### The timer array unit -/

namespace TauUnit

variable {F : Type}

/-- The channel that an expiry belongs to. -/
def slot : TauEvent F → Option (Fin tau_channels)
  | .expire ev => some ev.channel
  | .other _ => none

abbrev Kept (q₀ : EventQueue (TauEvent F)) (p : TauUnit × EventCtl (TauEvent F)) : Prop :=
  Since slot q₀ p.1.expire_id p.2.events

variable {q₀ : EventQueue (TauEvent F)} {t : TauUnit} {ctl : EventCtl (TauEvent F)}

theorem Kept.stop_channel (h : Kept q₀ (t, ctl)) (ch : Fin tau_channels) :
    Kept q₀ (t.stop_channel ctl ch) := by
  have hcancel := h.cancel ch
  show Since slot q₀ (t.stop_channel ctl ch).1.expire_id (t.stop_channel ctl ch).2.events
  rw [(stop_spec ctl t ch).1]
  unfold TauUnit.stop_channel
  dsimp only at hcancel ⊢
  cases hid : t.expire_id ch with
  | none =>
    rw [hid] at hcancel
    exact hcancel
  | some id =>
    rw [hid] at hcancel
    exact hcancel

theorem Kept.start_channel (h : Kept q₀ (t, ctl)) (f_clk : Hertz) (ch : Fin tau_channels) :
    Kept q₀ (t.start_channel f_clk ctl ch) := by
  unfold TauUnit.start_channel
  by_cases hid : (t.expire_id ch).isSome = true
  · rw [if_pos hid]
    exact h
  · rw [if_neg hid]
    cases hperiod : t.interval f_clk ch with
    | none => exact h
    | some period =>
      have hidle : Idle slot ctl.events ch := h.idle_of_none (by simpa using hid)
      exact h.schedule hidle rfl _

theorem Kept.write_ctrl (h : Kept q₀ (t, ctl)) (f_clk : Hertz) (offset : Nat)
    (value : BitVec 16) : Kept q₀ (t.write_ctrl f_clk ctl offset value) := by
  rcases write_ctrl_cases f_clk ctl t offset value with
    ⟨-, hwrite⟩ | ⟨-, hwrite⟩ | ⟨-, t', hwrite, hid, -⟩
  · rw [hwrite]
    exact for_channels_rule (P := fun t ctl => Kept q₀ (t, ctl)) h
      fun ch _ _ _ h => h.start_channel f_clk ch
  · rw [hwrite]
    exact for_channels_rule (P := fun t ctl => Kept q₀ (t, ctl)) h
      fun ch _ _ _ h => h.stop_channel ch
  · rw [hwrite]
    show Since slot q₀ t'.expire_id ctl.events
    rw [hid]
    exact h

theorem Kept.reset (h : Kept q₀ (t, ctl)) : Kept q₀ (t.reset ctl) := by
  have hstop : Kept q₀ (for_channels TauUnit.stop_channel (List.finRange tau_channels) t ctl) :=
    for_channels_rule (P := fun t ctl => Kept q₀ (t, ctl)) h
      fun ch _ _ _ h => h.stop_channel ch
  exact hstop

theorem stopped_all {ch : Fin tau_channels} {channels : List (Fin tau_channels)}
    (hmem : ch ∈ channels) :
    (for_channels TauUnit.stop_channel channels t ctl).1.expire_id ch = none := by
  induction channels generalizing t ctl with
  | nil => cases hmem
  | cons c rest ih =>
    by_cases hrest : ch ∈ rest
    · exact ih hrest
    · obtain rfl : ch = c := by simpa [hrest] using hmem
      -- No later round records an expiry.
      show (for_channels TauUnit.stop_channel rest (t.stop_channel ctl ch).1
        (t.stop_channel ctl ch).2).1.expire_id ch = none
      refine for_channels_rule (P := fun t _ => t.expire_id ch = none) ?_ ?_
      · simp [(stop_spec ctl t ch).1]
      · intro c' _ t ctl hnone
        simp [(stop_spec ctl t c').1, Function.update_apply, hnone]

/-- A reset leaves no expiry. -/
theorem Kept.idle_reset (h : Kept q₀ (t, ctl)) (ch : Fin tau_channels) :
    Idle slot (t.reset ctl).2.events ch :=
  h.reset.idle_of_none (stopped_all (List.mem_finRange ch))

theorem Kept.fire (h : Kept q₀ (t, ctl)) {ev : TauExpire} (hidle : Idle slot ctl.events ev.channel)
    (f_clk : Hertz) : Kept q₀ ((t.fire ev f_clk ctl).unit, (t.fire ev f_clk ctl).ctl) := by
  have hforget := h.forget hidle
  unfold TauUnit.fire
  dsimp only
  split
  · exact hforget
  · split
    · exact hforget
    · split
      · exact h
      · split
        · exact h
        · exact h.schedule hidle rfl _

end TauUnit

/-! ### The converter -/

namespace AdcUnit

variable {Ev : Type} {book : AdcComplete → Ev} {slot : Ev → Option Unit}

/-- The only slot of the converter. -/
def ids (a : AdcUnit) : Unit → Option Nat := fun _ => a.expire_id

abbrev Kept (slot : Ev → Option Unit) (q₀ : EventQueue Ev) (p : AdcUnit × EventCtl Ev) : Prop :=
  Since slot q₀ p.1.ids p.2.events

variable {q₀ : EventQueue Ev} {a : AdcUnit} {ctl : EventCtl Ev}

theorem update_ids (a : AdcUnit) (id : Option Nat) :
    Function.update a.ids () id = ids { a with expire_id := id } := by
  funext _
  simp [ids]

theorem Kept.cancel_pending (h : Kept slot q₀ (a, ctl)) :
    Kept slot q₀ (a.cancel_pending ctl) := by
  have hcancel := h.cancel ()
  rw [update_ids] at hcancel
  have hid : a.ids () = a.expire_id := rfl
  rw [hid] at hcancel
  show Since slot q₀ (a.cancel_pending ctl).1.ids (a.cancel_pending ctl).2.events
  unfold AdcUnit.cancel_pending
  cases hid : a.expire_id with
  | none =>
    rw [hid] at hcancel
    exact hcancel
  | some id =>
    rw [hid] at hcancel
    exact hcancel

theorem Kept.reset (h : Kept slot q₀ (a, ctl)) : Kept slot q₀ (a.reset ctl) := h.cancel_pending

/-- A reset leaves no completion. -/
theorem Kept.idle_reset (h : Kept slot q₀ (a, ctl)) : Idle slot (a.reset ctl).2.events () :=
  h.reset.idle_of_none rfl

theorem Kept.record (h : Kept slot q₀ (a, ctl)) (hbook : ∀ ev, slot (book ev) = some ())
    (hidle : Idle slot ctl.events ()) (at_ : Nat) : Kept slot q₀ (a.record book ctl at_) := by
  have hnew := h.schedule hidle (hbook ⟨a.generation, at_⟩) at_
  rw [update_ids] at hnew
  exact hnew

theorem Kept.schedule (h : Kept slot q₀ (a, ctl)) (hbook : ∀ ev, slot (book ev) = some ())
    (hidle : Idle slot ctl.events ()) (period : Option Nat) :
    Kept slot q₀ (a.schedule book ctl period) := by
  unfold AdcUnit.schedule
  split
  · exact h
  · split
    · exact h
    · exact h.record hbook hidle _

theorem Kept.start (h : Kept slot q₀ (a, ctl)) (hbook : ∀ ev, slot (book ev) = some ())
    (f_clk : Hertz) : Kept slot q₀ (a.start book f_clk ctl) := by
  have hcancel := h.cancel_pending
  have hidle : Idle slot (a.cancel_pending ctl).2.events () := hcancel.idle_of_none rfl
  have hscan : Kept slot q₀ ({ (a.cancel_pending ctl).1 with scan_index := 0, range_hit := false },
    (a.cancel_pending ctl).2) := hcancel
  exact hscan.schedule hbook hidle _

/-- A completion that is served finds no other, so the next one is booked into a
    free slot. -/
theorem Kept.fire (h : Kept slot q₀ (a, ctl)) (hbook : ∀ ev, slot (book ev) = some ())
    (hidle : Idle slot ctl.events ()) (ev : AdcComplete) (f_clk : Hertz) :
    Kept slot q₀ (a.fire book ev f_clk ctl) := by
  have hforget := h.forget hidle
  rw [update_ids] at hforget
  have hfinish : Kept slot q₀ (a.finish, ctl) := hforget
  unfold AdcUnit.fire
  split
  · exact hforget
  · unfold AdcUnit.complete
    dsimp only
    split
    · exact hfinish
    · split
      · exact hfinish
      · split
        · exact hfinish
        · split
          · exact hfinish
          · exact hfinish.record hbook hidle _

theorem Kept.write (h : Kept slot q₀ (a, ctl)) (hbook : ∀ ev, slot (book ev) = some ())
    (f_clk : Hertz) (reg : Register) (value : BitVec 8) :
    Kept slot q₀ (a.write book f_clk ctl reg value) := by
  have hsame {a' : AdcUnit} (hid : a'.expire_id = a.expire_id) : Kept slot q₀ (a', ctl) := by
    show Since slot q₀ a'.ids ctl.events
    unfold ids
    rw [hid]
    exact h
  cases reg with
  | Adm0 =>
    simp only [AdcUnit.write, write_adm0]
    split
    · refine Kept.start ?_ hbook f_clk
      exact hsame rfl
    · refine Kept.cancel_pending ?_
      exact hsame rfl
  | Ads =>
    simp only [AdcUnit.write, write_ads]
    split
    · refine Kept.start ?_ hbook f_clk
      exact hsame rfl
    · exact hsame rfl
  | Adm1 | Adm2 | Adul | Adll | Adtes => exact hsame rfl

end AdcUnit

end Rl78Sim
