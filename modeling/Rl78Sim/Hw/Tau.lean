import Rl78Sim.Framework.Bits
import Rl78Sim.Framework.Transition
import Rl78Sim.Hw.ClockGenerator
import Rl78Sim.Kernel.Bookings

/-! # The Timer Array Unit

    Eight channels count down in interval mode. A channel that is started
    schedules its expiry; an expiry that fires reloads the channel and
    schedules the next one on the grid of the first, past the present time.
    The queue is shared with other devices. The noise filter registers, which
    nothing depends on, are left out.
-/

namespace Rl78Sim

open Transition Bits

/-- `CHANNELS`. -/
abbrev tau_channels : Nat := 8

/-- `TauUnit`. `irq_out` counts the drives of each interrupt line. -/
structure TauUnit where
  tdr : Fin tau_channels → BitVec 16
  tcr : Fin tau_channels → BitVec 16
  tmr : Fin tau_channels → BitVec 16
  tsr : Fin tau_channels → BitVec 16
  tps : BitVec 16
  te : BitVec 16
  to_ : BitVec 16
  toe : BitVec 16
  tol : BitVec 16
  tom : BitVec 16
  irq_out : Fin tau_channels → Nat
  expire_id : Fin tau_channels → Option Nat
  generation : Fin tau_channels → BitVec 32

namespace TauUnit

/-- `TauExpire`. -/
structure TauExpire where
  channel : Fin tau_channels
  generation : BitVec 32
  at_ : Nat

/-- An event of the shared queue: an expiry, or the event of another device. -/
inductive TauEvent (F : Type) where
  | expire (ev : TauExpire)
  | other (event : F)

variable {F : Type}

/-- `TauUnit::new`. -/
def new : TauUnit where
  tdr _ := 0
  tcr _ := 0
  tmr _ := 0
  tsr _ := 0
  tps := 0
  te := 0
  to_ := 0
  toe := 0
  tol := 0
  tom := 0
  irq_out _ := 0
  expire_id _ := none
  generation _ := 0

/-- `TauUnit::channel_enabled`. -/
def channel_enabled (t : TauUnit) (ch : Fin tau_channels) : Bool := t.te.getLsbD ch.val

/-- `TauUnit::ck_divider`. -/
def ck_divider (t : TauUnit) (cks : Nat) : Nat :=
  let prs0 := (t.tps &&& 0xF#16).toNat
  let prs1 := ((t.tps >>> 4) &&& 0xF#16).toNat
  let prs2 := ((t.tps >>> 8) &&& 0x3#16).toNat
  let prs3 := ((t.tps >>> 12) &&& 0x3#16).toNat
  match cks with
  | 0 => 1 <<< prs0
  | 1 => 1 <<< prs1
  | 2 => if prs2 = 0 then 2 else 1 <<< (prs2 * 2)
  | _ => 1 <<< (8 + prs3 * 2)

/-- `TauUnit::interval`. -/
def interval (t : TauUnit) (f_clk : Hertz) (ch : Fin tau_channels) : Option Nat :=
  let cks := ((t.tmr ch >>> 14) &&& 0x3#16).toNat
  let counts := (t.tdr ch).toNat + 1
  f_clk.cycles_to_tick (saturating_mul counts (t.ck_divider cks))

/-- `TauUnit::stop_channel`. -/
def stop_channel (ctl : EventCtl (TauEvent F)) (t : TauUnit) (ch : Fin tau_channels) :
    TauUnit × EventCtl (TauEvent F) :=
  let t := { t with
    te := t.te &&& ~~~(1#16 <<< ch.val)
    generation := Function.update t.generation ch (t.generation ch + 1) }
  match t.expire_id ch with
  | some id => ({ t with expire_id := Function.update t.expire_id ch none }, ctl.cancel id)
  | none => (t, ctl)

/-- `TauUnit::start_channel`. -/
def start_channel (f_clk : Hertz) (ctl : EventCtl (TauEvent F)) (t : TauUnit)
    (ch : Fin tau_channels) : TauUnit × EventCtl (TauEvent F) :=
  if (t.expire_id ch).isSome then (t, ctl)
  else
    match t.interval f_clk ch with
    | none => (t, ctl)
    | some period =>
        let at_ := saturating_add ctl.now period
        let (ctl, id) := ctl.schedule at_ (.expire ⟨ch, t.generation ch, at_⟩)
        ({ t with
            te := t.te ||| (1#16 <<< ch.val)
            expire_id := Function.update t.expire_id ch (some id) }, ctl)

/-- A loop over the channels. -/
def for_channels (op : EventCtl (TauEvent F) → TauUnit → Fin tau_channels →
    TauUnit × EventCtl (TauEvent F)) (channels : List (Fin tau_channels)) (t : TauUnit)
    (ctl : EventCtl (TauEvent F)) : TauUnit × EventCtl (TauEvent F) :=
  channels.foldl (fun s i => op s.2 s.1 i) (t, ctl)

/-- The channels whose bit is set. -/
def selected (value : BitVec 16) : List (Fin tau_channels) :=
  (List.finRange tau_channels).filter fun i => value.getLsbD i.val

/-- `TauUnit::write_tdr`. -/
def write_tdr (t : TauUnit) (channel : Fin tau_channels) (value : BitVec 16) : TauUnit :=
  { t with tdr := Function.update t.tdr channel value }

/-- `TauUnit::write_ctrl`. -/
def write_ctrl (f_clk : Hertz) (ctl : EventCtl (TauEvent F)) (t : TauUnit) (offset : Nat)
    (value : BitVec 16) : TauUnit × EventCtl (TauEvent F) :=
  let ch := Fin.ofNat tau_channels (offset / 2)
  if 0x10 ≤ offset ∧ offset ≤ 0x1E then
    ({ t with tmr := Function.update t.tmr ch value }, ctl)
  else
    match offset with
    | 0x32 => for_channels (start_channel f_clk) (selected value) t ctl
    | 0x34 => for_channels stop_channel (selected value) t ctl
    | 0x36 => ({ t with tps := value }, ctl)
    | 0x38 => ({ t with to_ := value }, ctl)
    | 0x3A => ({ t with toe := value }, ctl)
    | 0x3C => ({ t with tol := value }, ctl)
    | 0x3E => ({ t with tom := value }, ctl)
    | _ => (t, ctl)

/-- `Resettable::reset`. -/
def reset (ctl : EventCtl (TauEvent F)) (t : TauUnit) : TauUnit × EventCtl (TauEvent F) :=
  let (t, ctl) := for_channels stop_channel (List.finRange tau_channels) t ctl
  ({ t with
      tdr := fun _ => 0
      tcr := fun _ => 0xFFFF
      tmr := fun _ => 0
      tsr := fun _ => 0
      tps := 0
      te := 0
      to_ := 0
      toe := 0
      tol := 0
      tom := 0 }, ctl)

/-- `while next <= now { next = next.saturating_add(period) }`, in at most
    `rounds` rounds. -/
def skip_past (period now : Nat) : Nat → Nat → Option Nat
  | 0, next => if next ≤ now then none else some next
  | rounds + 1, next =>
      if next ≤ now then skip_past period now rounds (saturating_add next period) else some next

/-- A unit after an expiry; one that did not return is caught in the loop. -/
structure Fired (F : Type) where
  unit : TauUnit
  ctl : EventCtl (TauEvent F)
  returned : Bool

/-- `TauExpire::fire`. While the clock can show a later time, a round moves
    `next` by a nanosecond at least. -/
def fire (ev : TauExpire) (f_clk : Hertz) (ctl : EventCtl (TauEvent F)) (t : TauUnit) : Fired F :=
  let ch := ev.channel
  if t.generation ch ≠ ev.generation ∨ t.channel_enabled ch = false then
    ⟨{ t with expire_id := Function.update t.expire_id ch none }, ctl, true⟩
  else
    let t := { t with
      tsr := Function.update t.tsr ch (t.tsr ch ||| 0x0001#16)
      tcr := Function.update t.tcr ch (t.tdr ch)
      irq_out := Function.update t.irq_out ch (t.irq_out ch + 1) }
    match t.interval f_clk ch with
    | none => ⟨{ t with expire_id := Function.update t.expire_id ch none }, ctl, true⟩
    | some period =>
        if period = 0 then ⟨t, ctl, true⟩
        else
          let next := saturating_add ev.at_ period
          match skip_past period ctl.now (ctl.now + 1 - next) next with
          | none => ⟨t, ctl, false⟩
          | some next =>
              let (ctl, id) := ctl.schedule next (.expire { ev with at_ := next })
              ⟨{ t with expire_id := Function.update t.expire_id ch (some id) }, ctl, true⟩

/-! ### Runs -/

/-- The unit, its handles, and whether an expiry has caught the simulation
    thread. -/
structure Sim (F : Type) where
  unit : TauUnit
  ctl : EventCtl (TauEvent F)
  f_clk : Hertz
  caught : Bool

/-- What the guest, the clock generator, the kernel and other devices do. -/
inductive Act (F : Type) where
  | write_tdr (channel : Fin tau_channels) (value : BitVec 16)
  | write_ctrl (offset : Nat) (value : BitVec 16)
  | reset
  | set_f_clk (f_clk : Hertz)
  | advance (delta : Nat)
  | pop_due
  | schedule_other (at_ : Nat) (event : F)
  | cancel_other (id : Nat)

/-- A step of the unit that returns. -/
def Sim.next (s : Sim F) (p : TauUnit × EventCtl (TauEvent F)) : Sim F :=
  { s with unit := p.1, ctl := p.2 }

/-- Pop the first event that is due, and fire it. -/
def Sim.pop_due (s : Sim F) : Sim F :=
  match s.ctl.pop_due with
  | (ctl, some (_, .expire ev)) =>
      let fired := s.unit.fire ev s.f_clk ctl
      { s with unit := fired.unit, ctl := fired.ctl, caught := !fired.returned }
  | (ctl, _) => { s with ctl := ctl }

/-- A device cancels its own events only. -/
def Sim.cancel_other (s : Sim F) (id : Nat) : Option (Sim F) :=
  match s.ctl.events.events.lookup id with
  | some (.expire _) => none
  | _ => some { s with ctl := s.ctl.cancel id }

def Sim.act (s : Sim F) : Act F → Option (Sim F)
  | .write_tdr channel value => some { s with unit := s.unit.write_tdr channel value }
  | .write_ctrl offset value => some (s.next (s.unit.write_ctrl s.f_clk s.ctl offset value))
  | .reset => some (s.next (s.unit.reset s.ctl))
  | .set_f_clk f_clk => some { s with f_clk := f_clk }
  | .advance delta => some { s with ctl := s.ctl.advance delta }
  | .pop_due => some s.pop_due
  | .schedule_other at_ event => some { s with ctl := (s.ctl.schedule at_ (.other event)).1 }
  | .cancel_other id => s.cancel_other id

def Sim.step (s : Sim F) (a : Act F) : Option (Sim F) := if s.caught then none else s.act a

/-- An expiry that was served: its deadline, and when. -/
structure Expiry where
  at_ : Nat
  now : Nat
  deriving DecidableEq

/-- The expiries of each channel since its last start. -/
abbrev History := Fin tau_channels → List Expiry

/-- A start begins a new list, and an expiry extends that of its channel. -/
def note (s : Sim F) (a : Act F) (s' : Sim F) (served : History) : History :=
  match a with
  | .write_ctrl _ _ => fun ch =>
      if (s.unit.expire_id ch).isNone && (s'.unit.expire_id ch).isSome then [] else served ch
  | .pop_due =>
      match s.ctl.pop_due.2 with
      | some (_, .expire ev) => Function.update served ev.channel
          (served ev.channel ++ [⟨s.ctl.events.front_deadline, s.ctl.now⟩])
      | _ => served
  | _ => served

/-- All runs of a new unit, from any clock frequency. -/
def runs (F : Type) : System (Sim F × History) (Act F) :=
  System.logged ⟨fun s => s.unit = new ∧ s.ctl = EventCtl.new ∧ s.caught = false, Sim.step⟩
    (fun _ => []) note

def AnyAct (_ : Sim F × History) (_ : Act F) : Prop := True

/-! ### The expiries of a channel -/

/-- A live expiry of the channel. -/
structure IsExpiry (q : EventQueue (TauEvent F)) (ch : Fin tau_channels)
    (b : Booking (TauEvent F)) (ev : TauExpire) : Prop where
  books : q.Books b
  event : b.event = .expire ev
  channel : ev.channel = ch

/-- What is live of a channel: one expiry at most, which is the recorded one
    and of the current generation, and none while the channel is stopped. -/
structure OneExpiry (s : Sim F) (ch : Fin tau_channels) : Prop where
  one {b b' : Booking (TauEvent F)} {ev ev' : TauExpire} : IsExpiry s.ctl.events ch b ev →
    IsExpiry s.ctl.events ch b' ev' → b = b'
  recorded {b : Booking (TauEvent F)} {ev : TauExpire} : IsExpiry s.ctl.events ch b ev →
    s.unit.expire_id ch = some b.id ∧ ev.generation = s.unit.generation ch
  stopped {b : Booking (TauEvent F)} {ev : TauExpire} : s.unit.channel_enabled ch = false →
    ¬ IsExpiry s.ctl.events ch b ev

/-- The action stops the channel. -/
def Stops (ch : Fin tau_channels) : Act F → Prop
  | .write_ctrl offset value => offset = 0x34 ∧ value.getLsbD ch.val = true
  | .reset => True
  | _ => False

/-! ### One expiry for each channel -/

/-- A live expiry is the recorded one of its channel, of the current
    generation, and due when it says; its channel runs. -/
structure Ok (t : TauUnit) (ctl : EventCtl (TauEvent F)) : Prop where
  sound : ctl.events.Sound
  owned {ch : Fin tau_channels} {b : Booking (TauEvent F)} {ev : TauExpire} :
    IsExpiry ctl.events ch b ev → t.expire_id ch = some b.id ∧ ev.generation = t.generation ch ∧
      ev.at_ = b.at_ ∧ t.channel_enabled ch = true

theorem Ok.one {t : TauUnit} {ctl : EventCtl (TauEvent F)} (h : Ok t ctl) {ch : Fin tau_channels}
    {b b' : Booking (TauEvent F)} {ev ev' : TauExpire} (hb : IsExpiry ctl.events ch b ev)
    (hb' : IsExpiry ctl.events ch b' ev') : b = b' := by
  have hid := (h.owned hb).1
  rw [(h.owned hb').1] at hid
  exact hb.books.eq_of_id h.sound hb'.books (Option.some.inj hid).symm

theorem Ok.oneExpiry {s : Sim F} (h : Ok s.unit s.ctl) (ch : Fin tau_channels) :
    OneExpiry s ch where
  one := h.one
  recorded hb := ⟨(h.owned hb).1, (h.owned hb).2.1⟩
  stopped hoff hb := by
    have hon := (h.owned hb).2.2.2
    rw [hoff] at hon
    cases hon

/-- The channel keeps its recorded id, and gets no new expiry. -/
structure Keeps (ch : Fin tau_channels) (t : TauUnit) (ctl : EventCtl (TauEvent F))
    (t' : TauUnit) (ctl' : EventCtl (TauEvent F)) : Prop where
  expire_id : t'.expire_id ch = t.expire_id ch
  sub {b : Booking (TauEvent F)} {ev : TauExpire} : IsExpiry ctl'.events ch b ev →
    IsExpiry ctl.events ch b ev

theorem Keeps.refl (ch : Fin tau_channels) (t : TauUnit) (ctl : EventCtl (TauEvent F)) :
    Keeps ch t ctl t ctl := ⟨rfl, fun hb => hb⟩

theorem Keeps.trans {ch : Fin tau_channels} {t t' t'' : TauUnit}
    {ctl ctl' ctl'' : EventCtl (TauEvent F)} (h : Keeps ch t ctl t' ctl')
    (h' : Keeps ch t' ctl' t'' ctl'') : Keeps ch t ctl t'' ctl'' :=
  ⟨h'.expire_id.trans h.expire_id, fun hb => h.sub (h'.sub hb)⟩

theorem IsExpiry.of_books {q q' : EventQueue (TauEvent F)} {ch : Fin tau_channels}
    {b : Booking (TauEvent F)} {ev : TauExpire} (h : IsExpiry q ch b ev) (hb : q'.Books b) :
    IsExpiry q' ch b ev := ⟨hb, h.event, h.channel⟩

/-! ### Stopping -/

theorem enabled_clear (t : TauUnit) (ch i : Fin tau_channels) :
    ({ t with te := t.te &&& ~~~(1#16 <<< i.val) } : TauUnit).channel_enabled ch =
      (t.channel_enabled ch && decide (ch ≠ i)) := by
  have hlt : ch.val < 16 := Nat.lt_trans ch.isLt (by decide)
  unfold channel_enabled
  rw [BitVec.getLsbD_and, BitVec.getLsbD_not, getLsbD_one_shiftLeft hlt]
  simp [hlt, Fin.ext_iff]

theorem enabled_set (t : TauUnit) (ch i : Fin tau_channels) :
    ({ t with te := t.te ||| (1#16 <<< i.val) } : TauUnit).channel_enabled ch =
      (t.channel_enabled ch || decide (ch = i)) := by
  have hlt : ch.val < 16 := Nat.lt_trans ch.isLt (by decide)
  unfold channel_enabled
  rw [BitVec.getLsbD_or, getLsbD_one_shiftLeft hlt]
  simp [Fin.ext_iff]

/-- What `stop_channel` does to the unit and to the bookings. -/
theorem stop_spec (ctl : EventCtl (TauEvent F)) (t : TauUnit) (i : Fin tau_channels) :
    (t.stop_channel ctl i).1 = { t with
        te := t.te &&& ~~~(1#16 <<< i.val)
        generation := Function.update t.generation i (t.generation i + 1)
        expire_id := Function.update t.expire_id i none } ∧
      ∀ b, (t.stop_channel ctl i).2.events.Books b ↔
        ctl.events.Books b ∧ t.expire_id i ≠ some b.id := by
  unfold stop_channel
  cases hid : t.expire_id i with
  | none =>
    have hsame : Function.update t.expire_id i none = t.expire_id := by
      rw [← hid]
      exact Function.update_eq_self i _
    simp [hid, hsame]
  | some id =>
    refine ⟨by simp [hid], ?_⟩
    intro b
    simp only [hid, EventCtl.cancel, EventQueue.books_cancel, ne_eq, Option.some.injEq]
    rw [eq_comm]

theorem stop_sound {ctl : EventCtl (TauEvent F)} (h : ctl.events.Sound) (t : TauUnit)
    (i : Fin tau_channels) : (t.stop_channel ctl i).2.events.Sound := by
  unfold stop_channel
  cases hid : t.expire_id i with
  | none => simpa [hid] using h
  | some id => simpa [hid, EventCtl.cancel] using h.cancel id

theorem Ok.stop {t : TauUnit} {ctl : EventCtl (TauEvent F)} (h : Ok t ctl)
    (i : Fin tau_channels) : Ok (t.stop_channel ctl i).1 (t.stop_channel ctl i).2 := by
  obtain ⟨hunit, hbooks⟩ := stop_spec ctl t i
  refine ⟨stop_sound h.sound t i, ?_⟩
  intro ch b ev hb
  obtain ⟨hold, hkept⟩ := (hbooks b).mp hb.books
  obtain ⟨hid, hgen, hat, hon⟩ := h.owned (hb.of_books hold)
  have hne : ch ≠ i := by
    rintro rfl
    exact hkept hid
  rw [hunit]
  refine ⟨?_, ?_, hat, ?_⟩
  · simpa [Function.update_of_ne hne] using hid
  · simpa [Function.update_of_ne hne] using hgen
  · exact (enabled_clear t ch i).trans (by simp [hon, hne])

theorem enabled_stop (ctl : EventCtl (TauEvent F)) (t : TauUnit) (ch i : Fin tau_channels) :
    (t.stop_channel ctl i).1.channel_enabled ch = (t.channel_enabled ch && decide (ch ≠ i)) := by
  rw [(stop_spec ctl t i).1]
  exact enabled_clear t ch i

theorem keeps_stop (ctl : EventCtl (TauEvent F)) (t : TauUnit) {ch i : Fin tau_channels}
    (hne : ch ≠ i) : Keeps ch t ctl (t.stop_channel ctl i).1 (t.stop_channel ctl i).2 := by
  obtain ⟨hunit, hbooks⟩ := stop_spec ctl t i
  refine ⟨?_, fun hb => hb.of_books ((hbooks _).mp hb.books).1⟩
  rw [hunit]
  simp [Function.update_of_ne hne]

/-! ### Starting -/

/-- What `start_channel` does. -/
theorem start_cases (f_clk : Hertz) (ctl : EventCtl (TauEvent F)) (t : TauUnit)
    (i : Fin tau_channels) :
    (t.start_channel f_clk ctl i = (t, ctl) ∧
      (t.expire_id i ≠ none ∨ t.interval f_clk i = none)) ∨
    ∃ period, t.expire_id i = none ∧ t.interval f_clk i = some period ∧
      t.start_channel f_clk ctl i =
        ({ t with
            te := t.te ||| (1#16 <<< i.val)
            expire_id := Function.update t.expire_id i (some (ctl.events.next_id + 1)) },
          (ctl.schedule (saturating_add ctl.now period)
            (.expire ⟨i, t.generation i, saturating_add ctl.now period⟩)).1) := by
  unfold start_channel
  cases hid : t.expire_id i with
  | some id => simp
  | none =>
    cases hperiod : t.interval f_clk i with
    | none => simp
    | some period =>
      right
      exact ⟨period, rfl, rfl, rfl⟩

/-- The new expiry is the only one that a start adds. -/
theorem isExpiry_schedule {ctl : EventCtl (TauEvent F)} (hq : ctl.events.Sound)
    {at_ : Nat} {new ev : TauExpire} {ch : Fin tau_channels} {b : Booking (TauEvent F)}
    (hb : IsExpiry (ctl.schedule at_ (.expire new)).1.events ch b ev) :
    (b = ⟨ctl.events.next_id + 1, at_, .expire new⟩ ∧ ev = new ∧ new.channel = ch) ∨
      IsExpiry ctl.events ch b ev := by
  rcases (hq.books_schedule at_ (.expire new) b).mp hb.books with rfl | hold
  · left
    obtain rfl : new = ev := by simpa using hb.event
    exact ⟨rfl, rfl, hb.channel⟩
  · exact .inr (hb.of_books hold)

theorem Ok.start {t : TauUnit} {ctl : EventCtl (TauEvent F)} (h : Ok t ctl) (f_clk : Hertz)
    (i : Fin tau_channels) :
    Ok (t.start_channel f_clk ctl i).1 (t.start_channel f_clk ctl i).2 := by
  rcases start_cases f_clk ctl t i with ⟨hsame, -⟩ | ⟨period, hnone, -, hstart⟩
  · rw [hsame]
    exact h
  · rw [hstart]
    refine ⟨h.sound.schedule _ _, ?_⟩
    intro ch b ev hb
    rcases isExpiry_schedule h.sound hb with ⟨rfl, rfl, rfl⟩ | hold
    · exact ⟨by simp, rfl, rfl, (enabled_set t i i).trans (by simp)⟩
    · obtain ⟨hid, hgen, hat, hon⟩ := h.owned hold
      have hne : ch ≠ i := by
        rintro rfl
        rw [hnone] at hid
        cases hid
      refine ⟨?_, hgen, hat, (enabled_set t ch i).trans (by simp [hon])⟩
      simpa [Function.update_of_ne hne] using hid

theorem keeps_start {ctl : EventCtl (TauEvent F)} {t : TauUnit} (h : Ok t ctl) (f_clk : Hertz)
    {ch i : Fin tau_channels} (hrun : ch ≠ i ∨ t.expire_id ch ≠ none) :
    Keeps ch t ctl (t.start_channel f_clk ctl i).1 (t.start_channel f_clk ctl i).2 := by
  rcases start_cases f_clk ctl t i with ⟨hsame, -⟩ | ⟨period, hnone, -, hstart⟩
  · rw [hsame]
    exact .refl ch t ctl
  · have hne : ch ≠ i := by
      rcases hrun with hne | hsome
      · exact hne
      · rintro rfl
        exact hsome hnone
    rw [hstart]
    refine ⟨by simp [Function.update_of_ne hne], ?_⟩
    intro b ev hb
    rcases isExpiry_schedule h.sound hb with ⟨-, -, hch⟩ | hold
    · exact absurd hch.symm hne
    · exact hold

/-! ### Loops over the channels -/

theorem for_channels_rule {op : EventCtl (TauEvent F) → TauUnit → Fin tau_channels →
    TauUnit × EventCtl (TauEvent F)} {P : TauUnit → EventCtl (TauEvent F) → Prop}
    {channels : List (Fin tau_channels)} {t : TauUnit} {ctl : EventCtl (TauEvent F)}
    (h : P t ctl)
    (hstep : ∀ i ∈ channels, ∀ t ctl, P t ctl → P (op ctl t i).1 (op ctl t i).2) :
    P (for_channels op channels t ctl).1 (for_channels op channels t ctl).2 := by
  induction channels generalizing t ctl with
  | nil => exact h
  | cons i rest ih =>
    refine ih ?_ fun j hj => hstep j (List.mem_cons_of_mem _ hj)
    exact hstep i List.mem_cons_self t ctl h

theorem mem_selected {value : BitVec 16} {ch : Fin tau_channels} :
    ch ∈ selected value ↔ value.getLsbD ch.val = true := by
  simp [selected]

theorem Ok.for_start {t : TauUnit} {ctl : EventCtl (TauEvent F)} (h : Ok t ctl) (f_clk : Hertz)
    (channels : List (Fin tau_channels)) :
    Ok (for_channels (start_channel f_clk) channels t ctl).1
      (for_channels (start_channel f_clk) channels t ctl).2 :=
  for_channels_rule h fun i _ _ _ hok => hok.start f_clk i

theorem Ok.for_stop {t : TauUnit} {ctl : EventCtl (TauEvent F)} (h : Ok t ctl)
    (channels : List (Fin tau_channels)) :
    Ok (for_channels stop_channel channels t ctl).1 (for_channels stop_channel channels t ctl).2 :=
  for_channels_rule h fun i _ _ _ hok => hok.stop i

/-- After the loop every channel that it visits is stopped. -/
theorem for_stop_disabled {channels : List (Fin tau_channels)} {ch : Fin tau_channels}
    (hmem : ch ∈ channels) (t : TauUnit) (ctl : EventCtl (TauEvent F)) :
    (for_channels stop_channel channels t ctl).1.channel_enabled ch = false := by
  induction channels generalizing t ctl with
  | nil => cases hmem
  | cons i rest ih =>
    by_cases hrest : ch ∈ rest
    · exact ih hrest _ _
    · obtain rfl : ch = i := by simpa [hrest] using hmem
      -- No later round starts the channel.
      show (for_channels stop_channel rest (t.stop_channel ctl ch).1
        (t.stop_channel ctl ch).2).1.channel_enabled ch = false
      refine for_channels_rule (P := fun t _ => t.channel_enabled ch = false) ?_ ?_
      · rw [enabled_stop]
        simp
      · intro j _ t ctl hoff
        rw [enabled_stop, hoff]
        rfl

/-! ### One access -/

/-- A write starts channels, stops channels, or changes a register that the
    expiries do not depend on. -/
theorem write_ctrl_cases (f_clk : Hertz) (ctl : EventCtl (TauEvent F)) (t : TauUnit)
    (offset : Nat) (value : BitVec 16) :
    (offset = 0x32 ∧ t.write_ctrl f_clk ctl offset value =
      for_channels (start_channel f_clk) (selected value) t ctl) ∨
    (offset = 0x34 ∧ t.write_ctrl f_clk ctl offset value =
      for_channels stop_channel (selected value) t ctl) ∨
    (offset ≠ 0x34 ∧ ∃ t', t.write_ctrl f_clk ctl offset value = (t', ctl) ∧
      t'.expire_id = t.expire_id ∧ t'.generation = t.generation ∧ t'.te = t.te) := by
  unfold write_ctrl
  by_cases hmode : 0x10 ≤ offset ∧ offset ≤ 0x1E
  · rw [if_pos hmode]
    exact .inr (.inr ⟨by omega, _, rfl, rfl, rfl, rfl⟩)
  · rw [if_neg hmode]
    split
    · exact .inl ⟨rfl, rfl⟩
    · exact .inr (.inl ⟨rfl, rfl⟩)
    · exact .inr (.inr ⟨by decide, _, rfl, rfl, rfl, rfl⟩)
    · exact .inr (.inr ⟨by decide, _, rfl, rfl, rfl, rfl⟩)
    · exact .inr (.inr ⟨by decide, _, rfl, rfl, rfl, rfl⟩)
    · exact .inr (.inr ⟨by decide, _, rfl, rfl, rfl, rfl⟩)
    · exact .inr (.inr ⟨by decide, _, rfl, rfl, rfl, rfl⟩)
    · rename_i hstart hstop _ _ _ _ _
      exact .inr (.inr ⟨hstop, _, rfl, rfl, rfl, rfl⟩)

theorem Ok.same {t t' : TauUnit} {ctl : EventCtl (TauEvent F)} (h : Ok t ctl)
    (hid : t'.expire_id = t.expire_id) (hgen : t'.generation = t.generation)
    (hte : t'.te = t.te) : Ok t' ctl := by
  refine ⟨h.sound, ?_⟩
  intro ch b ev hb
  have howned := h.owned hb
  unfold channel_enabled at howned ⊢
  rw [hid, hgen, hte]
  exact howned

theorem Ok.write_ctrl {t : TauUnit} {ctl : EventCtl (TauEvent F)} (h : Ok t ctl) (f_clk : Hertz)
    (offset : Nat) (value : BitVec 16) :
    Ok (t.write_ctrl f_clk ctl offset value).1 (t.write_ctrl f_clk ctl offset value).2 := by
  rcases write_ctrl_cases f_clk ctl t offset value with
    ⟨-, hwrite⟩ | ⟨-, hwrite⟩ | ⟨-, t', hwrite, hid, hgen, hte⟩
  · rw [hwrite]
    exact h.for_start f_clk _
  · rw [hwrite]
    exact h.for_stop _
  · rw [hwrite]
    exact h.same hid hgen hte

/-- A reset leaves no expiry. -/
theorem Ok.none_after_reset {t : TauUnit} {ctl : EventCtl (TauEvent F)} (h : Ok t ctl)
    {ch : Fin tau_channels} {b : Booking (TauEvent F)} {ev : TauExpire} :
    ¬ IsExpiry (t.reset ctl).2.events ch b ev := by
  intro hb
  have hstop := h.for_stop (List.finRange tau_channels)
  have hoff := for_stop_disabled (List.mem_finRange ch) t ctl
  have hon := (hstop.owned hb).2.2.2
  rw [hoff] at hon
  cases hon

theorem Ok.reset {t : TauUnit} {ctl : EventCtl (TauEvent F)} (h : Ok t ctl) :
    Ok (t.reset ctl).1 (t.reset ctl).2 :=
  ⟨(h.for_stop (List.finRange tau_channels)).sound, fun hb => absurd hb h.none_after_reset⟩

/-! ### One expiry -/

/-- An expiry starts and stops nothing, and leaves the settings alone. -/
theorem fire_keeps (ev : TauExpire) (t : TauUnit) (f_clk : Hertz) (ctl : EventCtl (TauEvent F)) :
    (t.fire ev f_clk ctl).unit.generation = t.generation ∧
      (t.fire ev f_clk ctl).unit.te = t.te ∧ (t.fire ev f_clk ctl).unit.tdr = t.tdr ∧
      (t.fire ev f_clk ctl).unit.tmr = t.tmr ∧ (t.fire ev f_clk ctl).unit.tps = t.tps := by
  unfold fire
  dsimp only
  split
  · simp
  · split
    · simp
    · split
      · simp
      · split <;> simp

/-- An expiry of a channel that runs reschedules itself, or leaves the channel
    without one. -/
theorem fire_cases {ev : TauExpire} {t : TauUnit} (hgen : ev.generation = t.generation ev.channel)
    (hon : t.channel_enabled ev.channel = true) (f_clk : Hertz) (ctl : EventCtl (TauEvent F)) :
    ((t.fire ev f_clk ctl).ctl = ctl ∧
      ((t.fire ev f_clk ctl).unit.expire_id = t.expire_id ∨ t.interval f_clk ev.channel = none ∧
        (t.fire ev f_clk ctl).unit.expire_id = Function.update t.expire_id ev.channel none)) ∨
    ∃ period next, t.interval f_clk ev.channel = some period ∧ 0 < period ∧
      skip_past period ctl.now (ctl.now + 1 - saturating_add ev.at_ period)
        (saturating_add ev.at_ period) = some next ∧
      (t.fire ev f_clk ctl).ctl = (ctl.schedule next (.expire { ev with at_ := next })).1 ∧
      (t.fire ev f_clk ctl).unit.expire_id =
        Function.update t.expire_id ev.channel (some (ctl.events.next_id + 1)) := by
  have hlive : ¬ (t.generation ev.channel ≠ ev.generation ∨
      t.channel_enabled ev.channel = false) := by
    simp [hgen, hon]
  have hsame (tsr tcr : Fin tau_channels → BitVec 16) (irq_out : Fin tau_channels → Nat) :
      ({ t with tsr := tsr, tcr := tcr, irq_out := irq_out } : TauUnit).interval f_clk ev.channel =
        t.interval f_clk ev.channel := rfl
  unfold fire
  rw [if_neg hlive]
  dsimp only
  rw [hsame]
  cases hperiod : t.interval f_clk ev.channel with
  | none => exact .inl ⟨rfl, .inr ⟨rfl, rfl⟩⟩
  | some period =>
    dsimp only
    by_cases hzero : period = 0
    · rw [if_pos hzero]
      exact .inl ⟨rfl, .inl rfl⟩
    · rw [if_neg hzero]
      -- The search for the next expiry can run out of range, and then nothing is booked.
      cases hskip : skip_past period ctl.now (ctl.now + 1 - saturating_add ev.at_ period)
          (saturating_add ev.at_ period) with
      | none => exact .inl ⟨rfl, .inl rfl⟩
      | some next => exact .inr ⟨period, next, rfl, by omega, hskip, rfl, rfl⟩

/-- What a pop does: it serves a live expiry, or it leaves the unit alone. -/
theorem pop_cases {s : Sim F} (h : Ok s.unit s.ctl) :
    (s.pop_due = { s with ctl := s.ctl.pop_due.1 } ∧ s.ctl.pop_due.1.events.Sound ∧
      (∀ b, s.ctl.pop_due.1.events.Books b → s.ctl.events.Books b) ∧
      ∀ id ev, s.ctl.pop_due.2 ≠ some (id, .expire ev)) ∨
    ∃ b ev, IsExpiry s.ctl.events ev.channel b ev ∧ b.at_ ≤ s.ctl.now ∧
      s.ctl.events.front_deadline = b.at_ ∧ s.ctl.pop_due.2 = some (b.id, .expire ev) ∧
      s.ctl.pop_due.1.events.Sound ∧
      (∀ b', s.ctl.pop_due.1.events.Books b' ↔ s.ctl.events.Books b' ∧ b'.id ≠ b.id) ∧
      s.pop_due = { s with
        unit := (s.unit.fire ev s.f_clk s.ctl.pop_due.1).unit
        ctl := (s.unit.fire ev s.f_clk s.ctl.pop_due.1).ctl
        caught := !(s.unit.fire ev s.f_clk s.ctl.pop_due.1).returned } := by
  have hserved := h.sound.served s.ctl.now
  unfold Sim.pop_due EventCtl.pop_due
  cases hpop : s.ctl.events.pop_due s.ctl.now with
  | mk q popped =>
    rw [hpop] at hserved
    cases hserved with
    | nothing _ hlater hsound hnext hbooks =>
      left
      exact ⟨rfl, hsound, fun b hb => (hbooks b).mp hb, nofun⟩
    | event _ b hb hdue hfront hsound hnext hbooks =>
      cases hevent : b.event with
      -- An expiry of the unit fires; another event is only taken off the queue.
      | expire ev =>
        right
        exact ⟨b, ev, ⟨hb, hevent, rfl⟩, hdue, hfront, rfl, hsound, hbooks, rfl⟩
      | other event =>
        left
        refine ⟨rfl, hsound, fun b' hb' => ((hbooks b').mp hb').1, ?_⟩
        intro id ev heq
        simp at heq

theorem Ok.pop_due {s : Sim F} (h : Ok s.unit s.ctl) : Ok s.pop_due.unit s.pop_due.ctl := by
  rcases pop_cases h with
    ⟨hpop, hsound, hsub, -⟩ | ⟨b, ev, hb, hdue, hfront, -, hsound, hbooks, hpop⟩
  · rw [hpop]
    exact ⟨hsound, fun hb => h.owned (hb.of_books (hsub _ hb.books))⟩
  · obtain ⟨hid, hgen, hat, hon⟩ := h.owned hb
    -- The bookings that are left are those of other channels.
    have hleft {ch : Fin tau_channels} {b' : Booking (TauEvent F)} {ev' : TauExpire}
        (hb' : IsExpiry s.ctl.pop_due.1.events ch b' ev') :
        IsExpiry s.ctl.events ch b' ev' ∧ ch ≠ ev.channel := by
      obtain ⟨hold, hne⟩ := (hbooks b').mp hb'.books
      refine ⟨hb'.of_books hold, ?_⟩
      rintro rfl
      exact hne (congrArg Booking.id (h.one (hb'.of_books hold) hb))
    have hkeeps := fire_keeps ev s.unit s.f_clk s.ctl.pop_due.1
    rw [hpop]
    rcases fire_cases hgen hon s.f_clk s.ctl.pop_due.1 with
      ⟨hctl, hids⟩ | ⟨period, next, -, -, -, hctl, hids⟩
    · refine ⟨by rw [hctl]; exact hsound, ?_⟩
      intro ch b' ev' hb'
      rw [hctl] at hb'
      obtain ⟨hold, hne⟩ := hleft hb'
      obtain ⟨hid', hgen', hat', hon'⟩ := h.owned hold
      refine ⟨?_, ?_, hat', ?_⟩
      · rcases hids with hids | ⟨-, hids⟩
        · rw [hids]
          exact hid'
        · rw [hids, Function.update_of_ne hne]
          exact hid'
      · rw [hkeeps.1]
        exact hgen'
      · unfold channel_enabled at hon' ⊢
        rw [hkeeps.2.1]
        exact hon'
    · refine ⟨by rw [hctl]; exact hsound.schedule _ _, ?_⟩
      intro ch b' ev' hb'
      rw [hctl] at hb'
      unfold channel_enabled
      rw [hids, hkeeps.1, hkeeps.2.1]
      rcases isExpiry_schedule hsound hb' with ⟨rfl, rfl, rfl⟩ | hold
      · exact ⟨by simp, hgen, rfl, hon⟩
      · obtain ⟨hold, hne⟩ := hleft hold
        rw [Function.update_of_ne hne]
        exact h.owned hold

theorem cancel_other_eq {s s' : Sim F} {id : Nat} (h : s.cancel_other id = some s') :
    { s with ctl := s.ctl.cancel id } = s' := by
  unfold Sim.cancel_other at h
  split at h
  · cases h
  · exact Option.some.inj h

theorem Ok.step {s s' : Sim F} (h : Ok s.unit s.ctl) {a : Act F} (hstep : s.step a = some s') :
    Ok s'.unit s'.ctl := by
  unfold Sim.step at hstep
  split at hstep
  · cases hstep
  · cases a with
    | write_tdr channel value =>
      obtain rfl := Option.some.inj hstep
      exact h.same rfl rfl rfl
    | write_ctrl offset value =>
      obtain rfl := Option.some.inj hstep
      exact h.write_ctrl s.f_clk offset value
    | reset =>
      obtain rfl := Option.some.inj hstep
      exact h.reset
    | set_f_clk f_clk =>
      obtain rfl := Option.some.inj hstep
      exact h
    | advance delta =>
      obtain rfl := Option.some.inj hstep
      exact ⟨h.sound, h.owned⟩
    | pop_due =>
      obtain rfl := Option.some.inj hstep
      exact h.pop_due
    | schedule_other at_ event =>
      obtain rfl := Option.some.inj hstep
      refine ⟨h.sound.schedule _ _, ?_⟩
      intro ch b ev hb
      -- An event of another device is no expiry.
      rcases (h.sound.books_schedule at_ (.other event) b).mp hb.books with rfl | hold
      · cases hb.event
      · exact h.owned (hb.of_books hold)
    | cancel_other id =>
      obtain rfl := cancel_other_eq hstep
      refine ⟨h.sound.cancel id, ?_⟩
      intro ch b ev hb
      exact h.owned (hb.of_books ((EventQueue.books_cancel _ id b).mp hb.books).1)

theorem ok_of_reachable {s : Sim F × History} (h : Reachable (runs F) AnyAct s) :
    Ok s.1.unit s.1.ctl := by
  induction h with
  | init hi =>
    obtain ⟨⟨hunit, hctl, -⟩, -⟩ := hi
    rw [hunit, hctl]
    exact ⟨EventQueue.sound_new, fun hb => absurd hb.books (EventQueue.not_books_new _)⟩
  | step a _ _ hstep ih => exact ih.step (System.logged_step_cases hstep).1

end TauUnit

end Rl78Sim
