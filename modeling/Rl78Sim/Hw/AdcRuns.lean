import Rl78Sim.Framework.Transition
import Rl78Sim.Hw.UnitEvents

/-! # Runs of the Converter

    The converter with its queue and its clock, which the guest, the input
    channels, the clock generator and the other devices act on in any order. A
    history variable logs the conversions.
-/

namespace Rl78Sim

open Transition Adc

namespace AdcUnit

/-- An event of the shared queue: `AdcComplete`, or the event of another
    device. -/
inductive AdcEvent (F : Type) where
  | complete (ev : AdcComplete)
  | other (event : F)

variable {F : Type}

/-- Where an event belongs. -/
def slot : AdcEvent F → Option Unit
  | .complete _ => some ()
  | .other _ => none

/-- `AdcUnit::read_adm0`. -/
def read_adm0 (a : AdcUnit) : BitVec 8 :=
  (if a.conversion_running then 0x80#8 else 0) |||
    (if a.convert_mode = .Scan then 0x40#8 else 0) ||| ((a.fr &&& 0x7#8) <<< 3) |||
    ((a.lv &&& 0x3#8) <<< 1) ||| (if a.comparator_enabled then 1#8 else 0)

/-- `ADCS`, as the guest reads it. -/
def adcs (a : AdcUnit) : Bool := a.read_adm0.getLsbD 7

/-- The unit and its handles. -/
structure Sim (F : Type) where
  unit : AdcUnit
  ctl : EventCtl (AdcEvent F)
  f_clk : Hertz

/-- What the guest, the channels, the clock generator, the kernel and other
    devices do. -/
inductive Act (F : Type) where
  | write (reg : Register) (value : BitVec 8)
  | set_voltage (index : Nat) (uv : Int)
  | reset
  | set_f_clk (f_clk : Hertz)
  | advance (delta : Nat)
  | pop_due
  | schedule_other (at_ : Nat) (event : F)
  | cancel_other (id : Nat)

def Sim.next (s : Sim F) (p : AdcUnit × EventCtl (AdcEvent F)) : Sim F :=
  { s with unit := p.1, ctl := p.2 }

/-- The completion that is due first. -/
def Sim.due (s : Sim F) : Option AdcComplete :=
  match s.ctl.pop_due.2 with
  | some (_, .complete ev) => some ev
  | _ => none

/-- Pop the first event that is due, and fire it. -/
def Sim.pop_due (s : Sim F) : Sim F :=
  match s.due with
  | some ev => s.next (s.unit.fire .complete ev s.f_clk s.ctl.pop_due.1)
  | none => { s with ctl := s.ctl.pop_due.1 }

/-- A device cancels its own events only. -/
def Sim.cancel_other (s : Sim F) (id : Nat) : Option (Sim F) :=
  match s.ctl.events.events.lookup id with
  | some (.complete _) => none
  | _ => some { s with ctl := s.ctl.cancel id }

def Sim.step (s : Sim F) : Act F → Option (Sim F)
  | .write reg value => some (s.next (s.unit.write .complete s.f_clk s.ctl reg value))
  | .set_voltage index uv => some { s with unit := s.unit.set_voltage index uv }
  | .reset => some (s.next (s.unit.reset s.ctl))
  | .set_f_clk f_clk => some { s with f_clk := f_clk }
  | .advance delta => some { s with ctl := s.ctl.advance delta }
  | .pop_due => some s.pop_due
  | .schedule_other at_ event => some { s with ctl := (s.ctl.schedule at_ (.other event)).1 }
  | .cancel_other id => s.cancel_other id

/-- A conversion: its result, whether it satisfied the range test, and how often
    `INTAD` was driven by it. -/
structure Conversion where
  result : BitVec 16
  valid : Bool
  pulses : Nat
  deriving DecidableEq

/-- The conversion that the next pop completes. -/
def Sim.converted (s : Sim F) : List Conversion :=
  match s.due with
  | some ev =>
      if s.unit.generation = ev.generation ∧ s.unit.conversion_running = true then
        [⟨s.unit.fetch_result, s.unit.is_valid s.unit.fetch_result,
          s.pop_due.unit.irq_out - s.unit.irq_out⟩]
      else []
  | none => []

def note (s : Sim F) (a : Act F) (h : List Conversion) : List Conversion :=
  match a with
  | .pop_due => h ++ s.converted
  | _ => h

/-- All runs of a new unit, from any clock frequency. -/
def runs (F : Type) : System (Sim F × List Conversion) (Act F) :=
  System.logged ⟨fun s => s.unit = new ∧ s.ctl = EventCtl.new, Sim.step⟩ []
    fun s a _ h => note s a h

def AnyAct (_ : Sim F × List Conversion) (_ : Act F) : Prop := True

/-! ### The pending completion -/

/-- A live completion. -/
structure IsComplete (q : EventQueue (AdcEvent F)) (b : Booking (AdcEvent F)) (ev : AdcComplete) :
    Prop where
  books : q.Books b
  event : b.event = .complete ev

/-- The records are in order. A live completion is one of the present start, and in
    select mode no conversion counts for a scan. -/
structure Ok (a : AdcUnit) (ctl : EventCtl (AdcEvent F)) : Prop where
  records : Recorded slot a.ids ctl.events
  current {b : Booking (AdcEvent F)} {ev : AdcComplete} : IsComplete ctl.events b ev →
    ev.generation = a.generation ∧ a.conversion_running = true
  select : a.conversion_running = true → a.convert_mode = .Select →
    a.scan_index = 0 ∧ a.range_hit = false

theorem IsComplete.slot {q : EventQueue (AdcEvent F)} {b : Booking (AdcEvent F)} {ev : AdcComplete}
    (h : IsComplete q b ev) : AdcUnit.slot b.event = some () := by
  rw [h.event]
  rfl

theorem not_complete_of_idle {q : EventQueue (AdcEvent F)} (h : Idle slot q ())
    {b : Booking (AdcEvent F)} {ev : AdcComplete} : ¬ IsComplete q b ev := by
  intro hb
  exact h b hb.books hb.slot

theorem Ok.recorded {a : AdcUnit} {ctl : EventCtl (AdcEvent F)} (h : Ok a ctl)
    {b : Booking (AdcEvent F)} {ev : AdcComplete} (hb : IsComplete ctl.events b ev) :
    a.expire_id = some b.id := (h.records.owns hb.books ()).mpr hb.slot

theorem Ok.one {a : AdcUnit} {ctl : EventCtl (AdcEvent F)} (h : Ok a ctl)
    {b b' : Booking (AdcEvent F)} {ev ev' : AdcComplete} (hb : IsComplete ctl.events b ev)
    (hb' : IsComplete ctl.events b' ev') : b = b' := by
  have hid : b.id = b'.id := Option.some.inj ((h.recorded hb).symm.trans (h.recorded hb'))
  exact hb.books.eq_of_id h.records.sound hb'.books hid

theorem ok_new : Ok new (EventCtl.new : EventCtl (AdcEvent F)) :=
  ⟨Recorded.new _, fun hb => absurd hb.books (EventQueue.not_books_new _), nofun⟩

/-- With nothing booked, only the flags of a running conversion matter. -/
theorem Ok.of_idle {a : AdcUnit} {ctl : EventCtl (AdcEvent F)}
    (hrec : Recorded slot a.ids ctl.events) (hidle : Idle slot ctl.events ())
    (hselect : a.conversion_running = true → a.convert_mode = .Select →
      a.scan_index = 0 ∧ a.range_hit = false) : Ok a ctl :=
  ⟨hrec, fun hb => absurd hb (not_complete_of_idle hidle), hselect⟩

/-- A step that keeps the completion and the settings of the scan. -/
theorem Ok.same {a a' : AdcUnit} {ctl : EventCtl (AdcEvent F)} (h : Ok a ctl)
    (hid : a'.expire_id = a.expire_id) (hgen : a'.generation = a.generation)
    (hrun : a'.conversion_running = a.conversion_running) (hmode : a'.convert_mode = a.convert_mode)
    (hindex : a'.scan_index = a.scan_index) (hhit : a'.range_hit = a.range_hit) : Ok a' ctl := by
  refine ⟨?_, ?_, ?_⟩
  · have hids : a'.ids = a.ids := funext fun _ => hid
    rw [hids]
    exact h.records
  · intro b ev hb
    rw [hgen, hrun]
    exact h.current hb
  · rw [hrun, hmode, hindex, hhit]
    exact h.select

/-- Bookings of other devices come and go. -/
theorem Ok.events {a : AdcUnit} {ctl ctl' : EventCtl (AdcEvent F)} (h : Ok a ctl)
    (hrec : Recorded slot a.ids ctl'.events)
    (hsame : ∀ b ev, IsComplete ctl'.events b ev → IsComplete ctl.events b ev) : Ok a ctl' :=
  ⟨hrec, fun hb => h.current (hsame _ _ hb), h.select⟩

/-! ### Starting -/

theorem idle_cancel {a : AdcUnit} {ctl : EventCtl (AdcEvent F)}
    (h : Recorded slot a.ids ctl.events) :
    Recorded slot (a.cancel_pending ctl).1.ids (a.cancel_pending ctl).2.events ∧
      Idle slot (a.cancel_pending ctl).2.events () := by
  have hkept : Kept slot ctl.events (a, ctl) := h.since
  have hcancel := hkept.cancel_pending.toRecorded
  exact ⟨hcancel, hcancel.idle_of_none rfl⟩

/-- What is booked when the queue holds no completion. -/
theorem isComplete_record {a : AdcUnit} {ctl : EventCtl (AdcEvent F)} (hsound : ctl.events.Sound)
    (hidle : Idle slot ctl.events ()) (at_ : Nat) {b : Booking (AdcEvent F)} {ev : AdcComplete} :
    IsComplete (a.record .complete ctl at_).2.events b ev ↔
      b = ⟨ctl.events.next_id + 1, at_, .complete ⟨a.generation, at_⟩⟩ ∧
        ev = ⟨a.generation, at_⟩ := by
  have hbooks := hsound.books_schedule at_ (.complete ⟨a.generation, at_⟩) b
  constructor
  · intro hb
    rcases hbooks.mp hb.books with rfl | hold
    · have hev := hb.event
      simp only [AdcEvent.complete.injEq] at hev
      exact ⟨rfl, hev.symm⟩
    · exact absurd ⟨hold, hb.event⟩ (not_complete_of_idle hidle)
  · rintro ⟨rfl, rfl⟩
    exact ⟨hbooks.mpr (.inl rfl), rfl⟩

/-- The next completion is booked when no other is. -/
theorem Ok.record {a : AdcUnit} {ctl : EventCtl (AdcEvent F)}
    (hrec : Recorded slot a.ids ctl.events) (hidle : Idle slot ctl.events ())
    (hrun : a.conversion_running = true)
    (hselect : a.convert_mode = .Select → a.scan_index = 0 ∧ a.range_hit = false) (at_ : Nat) :
    Ok (a.record .complete ctl at_).1 (a.record .complete ctl at_).2 := by
  have hkept : Kept slot ctl.events (a, ctl) := hrec.since
  refine ⟨(hkept.record (fun _ => rfl) hidle at_).toRecorded, ?_, fun _ => hselect⟩
  intro b ev hb
  obtain ⟨-, rfl⟩ := (isComplete_record hrec.sound hidle at_).mp hb
  exact ⟨rfl, hrun⟩

theorem Ok.start {a : AdcUnit} {ctl : EventCtl (AdcEvent F)}
    (hrec : Recorded slot a.ids ctl.events) (hrun : a.conversion_running = true) (f_clk : Hertz) :
    Ok (a.start .complete f_clk ctl).1 (a.start .complete f_clk ctl).2 := by
  obtain ⟨hcancel, hidle⟩ := idle_cancel hrec
  unfold AdcUnit.start
  dsimp only
  unfold AdcUnit.schedule
  split
  · exact .of_idle hcancel hidle fun _ _ => ⟨rfl, rfl⟩
  · split
    · exact .of_idle hcancel hidle fun _ _ => ⟨rfl, rfl⟩
    · refine Ok.record ?_ hidle ?_ ?_ _
      · exact hcancel
      · exact hrun
      · exact fun _ => ⟨rfl, rfl⟩

theorem Ok.cancel {a : AdcUnit} {ctl : EventCtl (AdcEvent F)}
    (hrec : Recorded slot a.ids ctl.events) (hrun : a.conversion_running = false) :
    Ok (a.cancel_pending ctl).1 (a.cancel_pending ctl).2 := by
  obtain ⟨hcancel, hidle⟩ := idle_cancel hrec
  refine .of_idle hcancel hidle ?_
  intro hon
  exact absurd (hon.symm.trans hrun) (by decide)

theorem Ok.write {a : AdcUnit} {ctl : EventCtl (AdcEvent F)} (h : Ok a ctl) (f_clk : Hertz)
    (reg : Register) (value : BitVec 8) :
    Ok (a.write .complete f_clk ctl reg value).1 (a.write .complete f_clk ctl reg value).2 := by
  cases reg with
  | Adm0 =>
    simp only [AdcUnit.write, write_adm0]
    split
    · rename_i hon
      refine Ok.start ?_ ?_ f_clk
      · exact h.records
      · exact hon
    · rename_i hoff
      refine Ok.cancel ?_ ?_
      · exact h.records
      · simpa using hoff
  | Ads =>
    simp only [AdcUnit.write, write_ads]
    split
    · rename_i hon
      refine Ok.start ?_ ?_ f_clk
      · exact h.records
      · exact hon
    · exact h.same rfl rfl rfl rfl rfl rfl
  | Adm1 | Adm2 | Adul | Adll | Adtes => exact h.same rfl rfl rfl rfl rfl rfl

theorem Ok.reset {a : AdcUnit} {ctl : EventCtl (AdcEvent F)} (h : Ok a ctl) :
    Ok (a.reset ctl).1 (a.reset ctl).2 := by
  obtain ⟨hcancel, hidle⟩ := idle_cancel h.records
  exact .of_idle hcancel hidle nofun

/-! ### One completion -/

/-- A one-shot ends with its last conversion. -/
theorem finish_running (a : AdcUnit) : a.finish.conversion_running =
    if a.operation_mode = .Oneshot ∧ a.finish.scan_index = 0 then false
    else a.conversion_running := rfl

/-- In select mode every conversion is a scan of its own. -/
theorem finish_select {a : AdcUnit} (hmode : a.convert_mode = .Select) (hindex : a.scan_index = 0) :
    a.finish.scan_index = 0 ∧ a.finish.range_hit = false := by
  simp [finish, hmode, hindex]

/-- How a completion ends: nothing is booked, or the next one is. -/
theorem complete_cases (f_clk : Hertz) (ctl : EventCtl (AdcEvent F)) (a : AdcUnit) (at_ : Nat) :
    a.complete .complete f_clk ctl at_ = (a.finish, ctl) ∨
      ¬ (a.operation_mode = .Oneshot ∧ a.finish.scan_index = 0) ∧
        ∃ deadline,
          a.complete .complete f_clk ctl at_ = a.finish.record .complete ctl deadline := by
  unfold complete
  dsimp only
  split
  · exact .inl rfl
  · rename_i hgoes
    split
    · exact .inl rfl
    · split
      · exact .inl rfl
      · split
        · exact .inl rfl
        · exact .inr ⟨hgoes, _, rfl⟩

theorem record_fields (a : AdcUnit) (ctl : EventCtl (AdcEvent F)) (at_ : Nat) :
    (a.record .complete ctl at_).1 = { a with expire_id := some (ctl.events.next_id + 1) } := rfl

/-- What a pop does: it completes the conversion whose completion is due, or it
    leaves the unit alone. -/
theorem pop_cases {s : Sim F} (h : Ok s.unit s.ctl) :
    (s.pop_due = { s with ctl := s.ctl.pop_due.1 } ∧ s.converted = [] ∧
      Recorded slot s.unit.ids s.ctl.pop_due.1.events ∧
      ∀ b ev, IsComplete s.ctl.pop_due.1.events b ev ↔ IsComplete s.ctl.events b ev) ∨
    ∃ ev : AdcComplete, s.unit.conversion_running = true ∧
      Recorded slot s.unit.finish.ids s.ctl.pop_due.1.events ∧
      Idle slot s.ctl.pop_due.1.events () ∧
      s.pop_due = s.next (s.unit.complete .complete s.f_clk s.ctl.pop_due.1 ev.at_) ∧
      s.converted = [⟨s.unit.fetch_result, s.unit.is_valid s.unit.fetch_result,
        s.pop_due.unit.irq_out - s.unit.irq_out⟩] := by
  have hserved := h.records.sound.served s.ctl.now
  obtain ⟨hrec, hidle⟩ := h.records.pop_due s.ctl.now
  have hctl : s.ctl.pop_due =
      ({ s.ctl with events := (s.ctl.events.pop_due s.ctl.now).1 },
        (s.ctl.events.pop_due s.ctl.now).2) := rfl
  unfold Sim.converted Sim.pop_due Sim.due
  rw [hctl]
  dsimp only
  revert hserved hrec hidle
  generalize s.ctl.events.pop_due s.ctl.now = popped
  intro hserved hrec hidle
  -- What is served is nothing, a completion, or an event of another device.
  cases hserved with
  | nothing q _ hsound hnext hbooks =>
    left
    refine ⟨rfl, rfl, hrec, ?_⟩
    intro b ev
    exact ⟨fun hb => ⟨(hbooks b).mp hb.books, hb.event⟩,
      fun hb => ⟨(hbooks b).mpr hb.books, hb.event⟩⟩
  | event q b hb hdue hfront hsound hnext hbooks =>
    cases hevent : b.event with
    | complete ev =>
      right
      -- The completion is one of the present start.
      obtain ⟨hgen, hrun⟩ := h.current ⟨hb, hevent⟩
      have hslot : slot b.event = some () := by
        rw [hevent]
        rfl
      have hidle' : Idle slot q () := hidle _ _ _ rfl hslot
      refine ⟨ev, hrun, ?_, hidle', ?_, ?_⟩
      · have hforget := hrec.forget hidle'
        rw [update_ids] at hforget
        exact hforget
      · simp [fire, hgen, hrun]
      · simp [hgen, hrun]
    | other event =>
      left
      refine ⟨rfl, rfl, hrec, ?_⟩
      intro b' ev
      constructor
      · intro hb'
        exact ⟨((hbooks b').mp hb'.books).1, hb'.event⟩
      · intro hb'
        refine ⟨(hbooks b').mpr ⟨hb'.books, ?_⟩, hb'.event⟩
        -- The served event is not a completion, so it is another booking.
        intro hid
        have hsame := hb'.books.eq_of_id h.records.sound hb hid
        have hcomplete := hb'.event
        rw [hsame, hevent] at hcomplete
        cases hcomplete

theorem Ok.pop_due {s : Sim F} (h : Ok s.unit s.ctl) : Ok s.pop_due.unit s.pop_due.ctl := by
  rcases pop_cases h with ⟨hpop, -, hrec, hsame⟩ | ⟨ev, hrun, hrec, hidle, hpop, -⟩
  · rw [hpop]
    exact h.events hrec fun b ev hb => (hsame b ev).mp hb
  -- The next completion is booked for the unit after this conversion.
  · have hselect : s.unit.finish.convert_mode = .Select →
        s.unit.finish.scan_index = 0 ∧ s.unit.finish.range_hit = false := fun hmode =>
      finish_select hmode (h.select hrun hmode).1
    rw [hpop]
    rcases complete_cases s.f_clk s.ctl.pop_due.1 s.unit ev.at_ with hend | ⟨hgoes, at_, hnext⟩
    · rw [hend]
      exact .of_idle hrec hidle fun _ => hselect
    · rw [hnext]
      refine Ok.record hrec hidle ?_ hselect at_
      rw [finish_running, if_neg hgoes]
      exact hrun

/-! ### Every step -/

theorem cancel_other_cases {s s' : Sim F} (h : Ok s.unit s.ctl) {id : Nat}
    (hstep : s.cancel_other id = some s') : s' = { s with ctl := s.ctl.cancel id } ∧
      Recorded slot s.unit.ids (s.ctl.cancel id).events ∧
      ∀ b ev, IsComplete (s.ctl.cancel id).events b ev ↔ IsComplete s.ctl.events b ev := by
  have hbooks (b : Booking (AdcEvent F)) := EventQueue.books_cancel s.ctl.events id b
  unfold Sim.cancel_other at hstep
  split at hstep
  · cases hstep
  · rename_i hother
    -- Another device cancels its own events only.
    have hsame (b : Booking (AdcEvent F)) (ev : AdcComplete) :
        IsComplete (s.ctl.cancel id).events b ev ↔ IsComplete s.ctl.events b ev := by
      constructor
      · intro hb
        exact ⟨((hbooks b).mp hb.books).1, hb.event⟩
      · intro hb
        refine ⟨(hbooks b).mpr ⟨hb.books, ?_⟩, hb.event⟩
        rintro rfl
        have hlookup : s.ctl.events.events.lookup b.id = some b.event := hb.books.2
        rw [hb.event] at hlookup
        exact hother ev hlookup
    refine ⟨(Option.some.inj hstep).symm, ?_, hsame⟩
    have hnext : (s.ctl.cancel id).events.next_id = s.ctl.events.next_id := by
      show (s.ctl.events.cancel id).1.next_id = _
      unfold EventQueue.cancel
      split <;> rfl
    refine ⟨h.records.sound.cancel id, fun hid => hnext ▸ h.records.old hid, fun {b} hb => ?_⟩
    exact h.records.owns ((hbooks b).mp hb).1

/-- The events of other devices are no completions. -/
theorem isComplete_schedule_other {ctl : EventCtl (AdcEvent F)} (hq : ctl.events.Sound) (at_ : Nat)
    (event : F) (b : Booking (AdcEvent F)) (ev : AdcComplete) :
    IsComplete (ctl.schedule at_ (.other event)).1.events b ev ↔ IsComplete ctl.events b ev := by
  have hbooks := hq.books_schedule at_ (.other event) b
  constructor
  · intro hb
    rcases hbooks.mp hb.books with rfl | hold
    · cases hb.event
    · exact ⟨hold, hb.event⟩
  · intro hb
    exact ⟨hbooks.mpr (.inr hb.books), hb.event⟩

theorem Ok.step {s s' : Sim F} (h : Ok s.unit s.ctl) {a : Act F} (hstep : s.step a = some s') :
    Ok s'.unit s'.ctl := by
  cases a with
  | write reg value =>
    obtain rfl := Option.some.inj hstep
    exact h.write s.f_clk reg value
  | set_voltage index uv =>
    obtain rfl := Option.some.inj hstep
    dsimp only
    unfold set_voltage
    split
    · exact h.same rfl rfl rfl rfl rfl rfl
    · exact h
  | reset =>
    obtain rfl := Option.some.inj hstep
    exact h.reset
  | set_f_clk f_clk =>
    obtain rfl := Option.some.inj hstep
    exact h
  | advance delta =>
    obtain rfl := Option.some.inj hstep
    exact h.events h.records fun _ _ hb => hb
  | pop_due =>
    obtain rfl := Option.some.inj hstep
    exact h.pop_due
  | schedule_other at_ event =>
    obtain rfl := Option.some.inj hstep
    refine h.events (h.records.schedule_free rfl at_) ?_
    intro b ev hb
    exact (isComplete_schedule_other h.records.sound at_ event b ev).mp hb
  | cancel_other id =>
    obtain ⟨rfl, hrec, hsame⟩ := cancel_other_cases h hstep
    exact h.events hrec fun b ev hb => (hsame b ev).mp hb

theorem ok_of_reachable {s : Sim F × List Conversion} (h : Reachable (runs F) AnyAct s) :
    Ok s.1.unit s.1.ctl := by
  induction h with
  | init hi =>
    obtain ⟨⟨hunit, hctl⟩, -⟩ := hi
    rw [hunit, hctl]
    exact ok_new
  | step a _ _ hstep ih => exact ih.step (System.logged_step_cases hstep).1

end AdcUnit

end Rl78Sim
