import Mathlib.Data.List.Pairwise
import Rl78Sim.Kernel.EventRuns

/-! # Bookings

    Peripherals share one queue through `EventCtl`. A booking is a live event
    as the peripheral sees it, with its id and its deadline. What the
    operations of the queue do to the bookings is all that a peripheral's
    invariant needs to know about them.
-/

namespace Rl78Sim

variable {Ev : Type}

namespace Agenda

/-- The event is on the agenda. -/
def Books (a : Agenda Ev) (b : Booking Ev) : Prop :=
  (∃ seq, ⟨b.at_, seq, b.id⟩ ∈ a.entries) ∧ a.events.lookup b.id = some b.event

end Agenda

namespace EventQueue

/-- The event is live in the queue. -/
def Books (q : EventQueue Ev) (b : Booking Ev) : Prop := q.agenda.Books b

/-- A well-formed queue in which an id stands for one entry. -/
structure Sound (q : EventQueue Ev) : Prop where
  wf : q.Wf
  ids : q.agenda.entries.Pairwise fun x y => x.id ≠ y.id

theorem sound_new : (new : EventQueue Ev).Sound := ⟨wf_new, List.Pairwise.nil⟩

theorem not_books_new (b : Booking Ev) : ¬ (new : EventQueue Ev).Books b := by
  rintro ⟨⟨seq, hmem⟩, -⟩
  cases hmem

theorem Books.id_le {q : EventQueue Ev} (hq : q.Sound) {b : Booking Ev} (hb : q.Books b) :
    b.id ≤ q.next_id := by
  apply hq.wf.events_le
  have hlookup : q.events.lookup b.id = some b.event := hb.2
  simp [hlookup]

/-- An id is that of one booking. -/
theorem Books.eq_of_id {q : EventQueue Ev} (hq : q.Sound) {b b' : Booking Ev} (hb : q.Books b)
    (hb' : q.Books b') (hid : b.id = b'.id) : b = b' := by
  obtain ⟨⟨seq, hmem⟩, hevent⟩ := hb
  obtain ⟨⟨seq', hmem'⟩, hevent'⟩ := hb'
  have hat : b.at_ = b'.at_ := by
    by_contra hne
    have hne' : (⟨b.at_, seq, b.id⟩ : Scheduled) ≠ ⟨b'.at_, seq', b'.id⟩ := by
      intro heq
      exact hne (congrArg Scheduled.at_ heq)
    have hsymm : Std.Symm fun x y : Scheduled => x.id ≠ y.id := ⟨fun _ _ h => Ne.symm h⟩
    exact hq.ids.forall hmem hmem' hne' hid
  have hbody : b.event = b'.event := by
    rw [hid, hevent'] at hevent
    exact (Option.some.inj hevent).symm
  obtain ⟨id, at_, event⟩ := b
  obtain ⟨id', at_', event'⟩ := b'
  simp only at hid hat hbody
  simp [hid, hat, hbody]

/-! ### Scheduling and cancelling -/

theorem ids_heap_push {item : Scheduled} {heap : List Scheduled}
    (hnew : ∀ x ∈ heap, item.id ≠ x.id) (h : heap.Pairwise fun x y => x.id ≠ y.id) :
    (heap_push item heap).Pairwise fun x y => x.id ≠ y.id := by
  induction heap with
  | nil => exact List.pairwise_singleton _ _
  | cons top rest ih =>
    obtain ⟨htop, hrest⟩ := List.pairwise_cons.mp h
    rw [heap_push]
    split
    · exact List.pairwise_cons.mpr ⟨hnew, h⟩
    · refine List.pairwise_cons.mpr
        ⟨?_, ih (fun x hx => hnew x (List.mem_cons_of_mem _ hx)) hrest⟩
      intro x hx
      rcases mem_heap_push.mp hx with rfl | hx
      · exact (hnew top List.mem_cons_self).symm
      · exact htop x hx

theorem Sound.schedule {q : EventQueue Ev} (h : q.Sound) (at_ : Nat) (event : Ev) :
    (q.schedule at_ event).1.Sound := by
  refine ⟨h.wf.schedule at_ event, ?_⟩
  rw [h.wf.agenda_schedule]
  apply ids_heap_push ?_ h.ids
  intro x hx
  have hle := h.wf.heap_le x (mem_agenda.mp hx).mem
  show q.next_id + 1 ≠ x.id
  omega

/-- A new event is booked, and nothing else changes. -/
theorem Sound.books_schedule {q : EventQueue Ev} (h : q.Sound) (at_ : Nat) (event : Ev)
    (b : Booking Ev) : (q.schedule at_ event).1.Books b ↔
      b = ⟨q.next_id + 1, at_, event⟩ ∨ q.Books b := by
  have hagenda : (q.schedule at_ event).1.Books b ↔ (q.agenda.schedule at_ event).Books b := by
    unfold Books
    rw [h.wf.agenda_schedule]
  have hlookup : (q.agenda.schedule at_ event).events.lookup b.id =
      if b.id = q.next_id + 1 then some event else q.agenda.events.lookup b.id :=
    lookup_schedule q at_ event b.id
  rw [hagenda]
  constructor
  · rintro ⟨⟨seq, hmem⟩, hevent⟩
    rw [hlookup] at hevent
    -- An old booking has an old id, so the two lookups do not meet.
    rcases mem_heap_push.mp hmem with hnew | hold
    · left
      have hid : b.id = q.next_id + 1 := congrArg Scheduled.id hnew
      have hat : b.at_ = at_ := congrArg Scheduled.at_ hnew
      rw [if_pos hid] at hevent
      obtain ⟨id, at_', event'⟩ := b
      simp only at hid hat
      simp [hid, hat, Option.some.inj hevent]
    · right
      have hle := h.wf.heap_le _ (mem_agenda.mp hold).mem
      simp only at hle
      rw [if_neg (by omega)] at hevent
      exact ⟨⟨seq, hold⟩, hevent⟩
  · rintro (rfl | hold)
    · refine ⟨⟨q.next_seq + 1, mem_heap_push.mpr (.inl rfl)⟩, ?_⟩
      rw [hlookup, if_pos rfl]
    · obtain ⟨seq, hmem⟩ := hold.1
      have hle := hold.id_le h
      refine ⟨⟨seq, mem_heap_push.mpr (.inr hmem)⟩, ?_⟩
      rw [hlookup, if_neg (by omega)]
      exact hold.2

theorem Agenda.books_remove (a : Agenda Ev) (id : Nat) (b : Booking Ev) :
    (a.remove id).Books b ↔ a.Books b ∧ b.id ≠ id := by
  have hlookup : (a.remove id).events.lookup b.id =
      if b.id = id then none else a.events.lookup b.id :=
    lookup_remove_event (⟨0, 0, [], a.events, []⟩ : EventQueue Ev)
  have hmem (seq : Nat) : (⟨b.at_, seq, b.id⟩ : Scheduled) ∈ (a.remove id).entries ↔
      ⟨b.at_, seq, b.id⟩ ∈ a.entries ∧ b.id ≠ id := by
    simp [Agenda.remove]
  unfold Agenda.Books
  simp only [hlookup, hmem]
  by_cases hid : b.id = id
  · simp [hid]
  · simp [hid]

theorem Sound.cancel {q : EventQueue Ev} (h : q.Sound) (id : Nat) : (q.cancel id).1.Sound := by
  refine ⟨h.wf.cancel id, ?_⟩
  rw [agenda_cancel]
  exact h.ids.sublist List.filter_sublist

theorem books_cancel (q : EventQueue Ev) (id : Nat) (b : Booking Ev) :
    (q.cancel id).1.Books b ↔ q.Books b ∧ b.id ≠ id := by
  unfold Books
  rw [agenda_cancel]
  exact Agenda.books_remove _ id b

/-! ### Popping -/

/-- What `pop_due` does to the bookings. -/
inductive Served (q : EventQueue Ev) (now : Nat) : EventQueue Ev × Option (Nat × Ev) → Prop where
  | nothing (q' : EventQueue Ev) : (∀ b, q.Books b → now < b.at_) → q'.Sound →
      q'.next_id = q.next_id → (∀ b, q'.Books b ↔ q.Books b) → Served q now (q', none)
  | event (q' : EventQueue Ev) (b : Booking Ev) : q.Books b → b.at_ ≤ now →
      q.front_deadline = b.at_ → q'.Sound → q'.next_id = q.next_id →
      (∀ b', q'.Books b' ↔ q.Books b' ∧ b'.id ≠ b.id) → Served q now (q', some (b.id, b.event))

theorem Sound.served {q : EventQueue Ev} (h : q.Sound) (now : Nat) :
    Served q now (q.pop_due now) := by
  rcases h.wf.pop_agenda now with ⟨hpop, hlater⟩ |
    ⟨item, rest, event, q', hentries, hdue, hlookup, hpop, hagenda, hwf, hfront⟩
  · rw [hpop]
    have hsame : q.drop_stale.agenda = q.agenda := h.wf.agenda_drop_stale
    refine .nothing _ ?_ ⟨h.wf.drop_stale, ?_⟩ rfl ?_
    · intro b hb
      obtain ⟨seq, hmem⟩ := hb.1
      exact hlater _ hmem
    · rw [hsame]
      exact h.ids
    · intro b
      unfold Books
      rw [hsame]
  · rw [hpop]
    have hnext : q'.next_id = q.next_id := congrArg Agenda.next_id hagenda
    refine .event q' ⟨item.id, item.at_, event⟩ ⟨⟨item.seq, ?_⟩, hlookup⟩ hdue hfront ⟨hwf, ?_⟩
      hnext ?_
    · rw [hentries]
      exact List.mem_cons_self
    · rw [hagenda]
      exact h.ids.sublist List.filter_sublist
    · intro b
      unfold Books
      rw [hagenda]
      exact Agenda.books_remove _ _ b

end EventQueue

/-! ### The handle of a peripheral -/

/-- `EventCtl`: the virtual time, and the queue. -/
structure EventCtl (Ev : Type) where
  clock : VirtualClock
  events : EventQueue Ev

namespace EventCtl

def new : EventCtl Ev := ⟨.new, .new⟩

/-- `EventCtl::now`. -/
def now (ctl : EventCtl Ev) : Nat := ctl.clock.now

/-- `EventCtl::schedule`. -/
def schedule (ctl : EventCtl Ev) (at_ : Nat) (event : Ev) : EventCtl Ev × Nat :=
  ({ ctl with events := (ctl.events.schedule at_ event).1 }, (ctl.events.schedule at_ event).2)

/-- `EventCtl::cancel`. -/
def cancel (ctl : EventCtl Ev) (id : Nat) : EventCtl Ev :=
  { ctl with events := (ctl.events.cancel id).1 }

/-- `EventQueue::pop_due` at the time of the handle. -/
def pop_due (ctl : EventCtl Ev) : EventCtl Ev × Option (Nat × Ev) :=
  ({ ctl with events := (ctl.events.pop_due ctl.now).1 }, (ctl.events.pop_due ctl.now).2)

/-- Virtual time passes. -/
def advance (ctl : EventCtl Ev) (delta : Nat) : EventCtl Ev :=
  { ctl with clock := ctl.clock.advance delta }

@[simp] theorem schedule_now (ctl : EventCtl Ev) (at_ : Nat) (event : Ev) :
    (ctl.schedule at_ event).1.now = ctl.now := rfl

@[simp] theorem cancel_now (ctl : EventCtl Ev) (id : Nat) : (ctl.cancel id).now = ctl.now := rfl

@[simp] theorem pop_due_now (ctl : EventCtl Ev) : ctl.pop_due.1.now = ctl.now := rfl

theorem now_le (ctl : EventCtl Ev) : ctl.now ≤ u64_max := ctl.clock.le_max

theorem now_le_advance (ctl : EventCtl Ev) (delta : Nat) : ctl.now ≤ (ctl.advance delta).now :=
  ctl.clock.le_advance delta

end EventCtl

end Rl78Sim
