import Rl78Sim.Framework.Transition
import Rl78Sim.Kernel.Agenda

/-! # The Event Queue as a Set of Live Events

    A history keeps what the callers of a queue know: the events they
    scheduled, the ids that `cancel` confirmed, and the ids that `pop_due`
    handed out. An event is live when it was scheduled and is in neither list.
    The queue answers every call as the set of live events does, whatever
    tombstones its heap holds.
-/

namespace Rl78Sim

open Transition

/-- An event as its caller scheduled it. -/
structure Booking (Ev : Type) where
  id : Nat
  at_ : Nat
  event : Ev

/-- The order in which events are due: by deadline, then by insertion. -/
def Booking.le {Ev : Type} (b b' : Booking Ev) : Prop :=
  b.at_ < b'.at_ ∨ b.at_ = b'.at_ ∧ b.id ≤ b'.id

/-- What the callers of a queue know; `scheduled` is in the order of the
    calls. -/
structure QueueLog (Ev : Type) where
  scheduled : List (Booking Ev)
  cancelled : List Nat
  popped : List Nat

namespace QueueLog

variable {Ev : Type}

def empty : QueueLog Ev := ⟨[], [], []⟩

/-- Scheduled, and neither cancelled nor popped. -/
structure Live (h : QueueLog Ev) (b : Booking Ev) : Prop where
  scheduled : b ∈ h.scheduled
  not_cancelled : b.id ∉ h.cancelled
  not_popped : b.id ∉ h.popped

end QueueLog

/-! ### Runs -/

/-- The public calls of `EventQueue`. -/
inductive QueueOp (Ev : Type) where
  | schedule (at_ : Nat) (event : Ev)
  | cancel (id : Nat)
  | next_deadline
  | pop_due (now : Nat)

variable {Ev : Type}

def QueueOp.step (q : EventQueue Ev) : QueueOp Ev → EventQueue Ev
  | .schedule at_ event => (q.schedule at_ event).1
  | .cancel id => (q.cancel id).1
  | .next_deadline => q.next_deadline.1
  | .pop_due now => (q.pop_due now).1

/-- Record the answer of the call. -/
def QueueLog.note (q : EventQueue Ev) (op : QueueOp Ev) (h : QueueLog Ev) : QueueLog Ev :=
  match op with
  | .schedule at_ event =>
      { h with scheduled := h.scheduled ++ [⟨(q.schedule at_ event).2, at_, event⟩] }
  | .cancel id => if (q.cancel id).2 then { h with cancelled := id :: h.cancelled } else h
  | .next_deadline => h
  | .pop_due now =>
      match (q.pop_due now).2 with
      | some (id, _) => { h with popped := id :: h.popped }
      | none => h

/-- All sequences of calls on a new queue, with their history. -/
def queue_runs (Ev : Type) : System (EventQueue Ev × QueueLog Ev) (QueueOp Ev) :=
  System.logged ⟨fun q => q = EventQueue.new, fun q op => some (op.step q)⟩ QueueLog.empty
    fun q op _ h => h.note q op

/-- All runs of a queue. -/
def AnyCalls (_ : EventQueue Ev × QueueLog Ev) (_ : QueueOp Ev) : Prop := True

/-! ### What the history has to do with the agenda -/

/-- The agenda of a queue is its live events, in the order in which they are
    due. -/
structure Tracks (a : Agenda Ev) (h : QueueLog Ev) : Prop where
  seq_eq : a.next_seq = a.next_id
  scheduled_le : ∀ b ∈ h.scheduled, b.id ≤ a.next_id
  scheduled_order : h.scheduled.Pairwise fun b b' => b.id < b'.id
  cancelled_le : ∀ id ∈ h.cancelled, id ≤ a.next_id
  popped_le : ∀ id ∈ h.popped, id ≤ a.next_id
  popped_nodup : h.popped.Nodup
  popped_kept : ∀ id ∈ h.popped, id ∉ h.cancelled
  entries (item : Scheduled) : item ∈ a.entries ↔
    item.seq = item.id ∧ ∃ event, h.Live ⟨item.id, item.at_, event⟩
  events (id : Nat) (event : Ev) :
    a.events.lookup id = some event ↔ ∃ at_, h.Live ⟨id, at_, event⟩
  sorted : a.entries.Pairwise fun x y => x.at_ < y.at_ ∨ x.at_ = y.at_ ∧ x.seq < y.seq

namespace Tracks

variable {a : Agenda Ev} {h : QueueLog Ev}

theorem new : Tracks (EventQueue.new : EventQueue Ev).agenda QueueLog.empty where
  seq_eq := rfl
  scheduled_le := nofun
  scheduled_order := List.Pairwise.nil
  cancelled_le := nofun
  popped_le := nofun
  popped_nodup := List.nodup_nil
  popped_kept := nofun
  entries item := by
    constructor
    · intro hmem
      cases hmem
    · rintro ⟨-, event, hlive⟩
      cases hlive.scheduled
  events id event := by
    constructor
    · intro hlookup
      cases hlookup
    · rintro ⟨at_, hlive⟩
      cases hlive.scheduled
  sorted := List.Pairwise.nil

/-- An id is that of one event. -/
theorem eq_of_id (ht : Tracks a h) {b b' : Booking Ev} (hb : b ∈ h.scheduled)
    (hb' : b' ∈ h.scheduled) (hid : b.id = b'.id) : b = b' := by
  obtain ⟨i, hi, rfl⟩ := List.mem_iff_getElem.mp hb
  obtain ⟨j, hj, rfl⟩ := List.mem_iff_getElem.mp hb'
  have horder := List.pairwise_iff_getElem.mp ht.scheduled_order
  rcases Nat.lt_trichotomy i j with hlt | rfl | hlt
  · have := horder i j hi hj hlt
    omega
  · rfl
  · have := horder j i hj hi hlt
    omega

theorem id_le (ht : Tracks a h) {b : Booking Ev} (hb : h.Live b) : b.id ≤ a.next_id :=
  ht.scheduled_le b hb.scheduled

theorem sorted_heap_push {item : Scheduled} {heap : List Scheduled}
    (hseq : ∀ x ∈ heap, x.seq < item.seq)
    (hsorted : heap.Pairwise fun x y => x.at_ < y.at_ ∨ x.at_ = y.at_ ∧ x.seq < y.seq) :
    (heap_push item heap).Pairwise fun x y => x.at_ < y.at_ ∨ x.at_ = y.at_ ∧ x.seq < y.seq := by
  induction heap with
  | nil => exact List.pairwise_singleton _ _
  | cons top rest ih =>
    obtain ⟨htop, hrest⟩ := List.pairwise_cons.mp hsorted
    have hlt := hseq top List.mem_cons_self
    rw [heap_push]
    split
    · rename_i hbefore
      simp only [Scheduled.before, Bool.or_eq_true, decide_eq_true_eq, Bool.and_eq_true,
        beq_iff_eq] at hbefore
      refine List.pairwise_cons.mpr ⟨?_, hsorted⟩
      -- Before the head, hence before all of the rest.
      intro x hx
      rcases List.mem_cons.mp hx with rfl | hx
      · omega
      · have := htop x hx
        omega
    · rename_i hbefore
      simp only [Scheduled.before, Bool.or_eq_true, decide_eq_true_eq, Bool.and_eq_true,
        beq_iff_eq] at hbefore
      refine List.pairwise_cons.mpr
        ⟨?_, ih (fun x hx => hseq x (List.mem_cons_of_mem _ hx)) hrest⟩
      intro x hx
      rcases EventQueue.mem_heap_push.mp hx with rfl | hx
      · omega
      · exact htop x hx

/-- A new event is live, and the others stay as they are. -/
theorem live_schedule (ht : Tracks a h) (at_ : Nat) (event : Ev) (b : Booking Ev) :
    ({ h with scheduled := h.scheduled ++ [⟨a.next_id + 1, at_, event⟩] } : QueueLog Ev).Live b ↔
      b = ⟨a.next_id + 1, at_, event⟩ ∨ h.Live b := by
  constructor
  · rintro ⟨hscheduled, hcancelled, hpopped⟩
    rcases List.mem_append.mp hscheduled with hold | hnew
    · exact .inr ⟨hold, hcancelled, hpopped⟩
    · exact .inl (List.mem_singleton.mp hnew)
  · rintro (rfl | hold)
    · refine ⟨List.mem_append_right _ List.mem_cons_self, ?_, ?_⟩
      · intro hid
        have := ht.cancelled_le _ hid
        dsimp only at this
        omega
      · intro hid
        have := ht.popped_le _ hid
        dsimp only at this
        omega
    · exact ⟨List.mem_append_left _ hold.scheduled, hold.not_cancelled, hold.not_popped⟩

theorem schedule (ht : Tracks a h) (at_ : Nat) (event : Ev) :
    Tracks (a.schedule at_ event)
      { h with scheduled := h.scheduled ++ [⟨a.next_id + 1, at_, event⟩] } where
  seq_eq := congrArg (· + 1) ht.seq_eq
  scheduled_le b hb := by
    show b.id ≤ a.next_id + 1
    rcases List.mem_append.mp hb with hold | hnew
    · exact Nat.le_succ_of_le (ht.scheduled_le b hold)
    · exact Nat.le_of_eq (congrArg Booking.id (List.mem_singleton.mp hnew))
  scheduled_order := by
    refine List.pairwise_append.mpr ⟨ht.scheduled_order, List.pairwise_singleton _ _, ?_⟩
    intro b hb b' hb'
    rw [List.mem_singleton.mp hb']
    exact Nat.lt_succ_of_le (ht.scheduled_le b hb)
  cancelled_le id hid := Nat.le_succ_of_le (ht.cancelled_le id hid)
  popped_le id hid := Nat.le_succ_of_le (ht.popped_le id hid)
  popped_nodup := ht.popped_nodup
  popped_kept := ht.popped_kept
  entries item := by
    have hseq := ht.seq_eq
    show item ∈ heap_push ⟨at_, a.next_seq + 1, a.next_id + 1⟩ a.entries ↔ _
    rw [EventQueue.mem_heap_push, ht.entries]
    simp only [ht.live_schedule, Booking.mk.injEq]
    constructor
    · rintro (rfl | ⟨hid, event', hlive⟩)
      · exact ⟨by dsimp only; omega, event, .inl ⟨rfl, rfl, rfl⟩⟩
      · exact ⟨hid, event', .inr hlive⟩
    -- An entry of the new id is the new entry: its sequence number is the id too.
    · rintro ⟨hid, event', ⟨hnew, hat, -⟩ | hlive⟩
      · left
        cases item
        dsimp only at hid hnew hat
        subst hnew hat hid
        simp [hseq]
      · exact .inr ⟨hid, event', hlive⟩
  events id event' := by
    show List.lookup id ((a.next_id + 1, event) :: a.events) = _ ↔ _
    simp only [ht.live_schedule, Booking.mk.injEq]
    rw [List.lookup_cons]
    by_cases hid : id = a.next_id + 1
    · rw [beq_iff_eq.mpr hid]
      constructor
      · intro heq
        exact ⟨at_, .inl ⟨hid, rfl, (Option.some.inj heq).symm⟩⟩
      · rintro ⟨at', ⟨-, -, rfl⟩ | hlive⟩
        · rfl
        · have := ht.id_le hlive
          dsimp only at this
          omega
    · rw [beq_false_of_ne hid]
      dsimp only
      rw [ht.events]
      constructor
      · rintro ⟨at', hlive⟩
        exact ⟨at', .inr hlive⟩
      · rintro ⟨at', ⟨hnew, -, -⟩ | hlive⟩
        · exact absurd hnew hid
        · exact ⟨at', hlive⟩
  sorted := by
    apply sorted_heap_push ?_ ht.sorted
    intro x hx
    obtain ⟨hid, event', hlive⟩ := (ht.entries x).mp hx
    have := ht.id_le hlive
    have hseq := ht.seq_eq
    dsimp only at this ⊢
    omega

/-- An event that leaves the queue leaves its agenda. -/
theorem remove (ht : Tracks a h) {id : Nat} {cancelled popped : List Nat}
    (hlive : ∀ b, (QueueLog.mk h.scheduled cancelled popped).Live b ↔ h.Live b ∧ b.id ≠ id)
    (hcancelled : ∀ x ∈ cancelled, x ≤ a.next_id) (hpopped : ∀ x ∈ popped, x ≤ a.next_id)
    (hnodup : popped.Nodup) (hkept : ∀ x ∈ popped, x ∉ cancelled) :
    Tracks (a.remove id) ⟨h.scheduled, cancelled, popped⟩ where
  seq_eq := ht.seq_eq
  scheduled_le := ht.scheduled_le
  scheduled_order := ht.scheduled_order
  cancelled_le := hcancelled
  popped_le := hpopped
  popped_nodup := hnodup
  popped_kept := hkept
  entries item := by
    show item ∈ a.entries.filter (fun item => item.id != id) ↔ _
    simp only [List.mem_filter, ht.entries, hlive, bne_iff_ne]
    constructor
    · rintro ⟨⟨hseq, event, hold⟩, hne⟩
      exact ⟨hseq, event, hold, hne⟩
    · rintro ⟨hseq, event, hold, hne⟩
      exact ⟨⟨hseq, event, hold⟩, hne⟩
  events id' event := by
    show List.lookup id' (a.events.filter fun e => e.1 != id) = _ ↔ _
    have hlookup : List.lookup id' (a.events.filter fun e => e.1 != id) =
        if id' = id then none else a.events.lookup id' :=
      EventQueue.lookup_remove_event (⟨0, 0, [], a.events, []⟩ : EventQueue Ev)
    rw [hlookup]
    simp only [hlive]
    by_cases hid : id' = id
    · simp [hid]
    · simp [hid, ht.events]
  sorted := ht.sorted.sublist List.filter_sublist

end Tracks

theorem Tracks.logged {q : EventQueue Ev} {h : QueueLog Ev} (hwf : q.Wf)
    (ht : Tracks q.agenda h) (op : QueueOp Ev) : Tracks (op.step q).agenda (h.note q op) := by
  cases op with
  | schedule at_ event =>
    have hagenda := hwf.agenda_schedule at_ event
    show Tracks (q.schedule at_ event).1.agenda _
    rw [hagenda]
    exact ht.schedule at_ event
  | cancel id =>
    show Tracks (q.cancel id).1.agenda (if (q.cancel id).2 then _ else _)
    by_cases hdone : (q.cancel id).2 = true
    · rw [if_pos hdone, EventQueue.agenda_cancel]
      have hsome : ∃ event, q.events.lookup id = some event := by
        unfold EventQueue.cancel at hdone
        split at hdone
        · rename_i hsome
          exact Option.isSome_iff_exists.mp hsome
        · cases hdone
      obtain ⟨event, hlookup⟩ := hsome
      -- What is cancelled was live, so it was neither cancelled nor popped before.
      obtain ⟨at_, hlive⟩ := (ht.events id event).mp hlookup
      refine ht.remove ?_ ?_ ht.popped_le ht.popped_nodup ?_
      · intro b
        constructor
        · rintro ⟨hscheduled, hcancelled, hpopped⟩
          simp only [List.mem_cons, not_or] at hcancelled
          exact ⟨⟨hscheduled, hcancelled.2, hpopped⟩, hcancelled.1⟩
        · rintro ⟨hb, hne⟩
          refine ⟨hb.scheduled, ?_, hb.not_popped⟩
          simp only [List.mem_cons, not_or]
          exact ⟨hne, hb.not_cancelled⟩
      · intro x hx
        rcases List.mem_cons.mp hx with rfl | hx
        · exact ht.id_le hlive
        · exact ht.cancelled_le x hx
      · intro x hx
        simp only [List.mem_cons, not_or]
        refine ⟨?_, ht.popped_kept x hx⟩
        rintro rfl
        exact hlive.not_popped hx
    · -- A call that finds nothing leaves the queue alone.
      have hsame : q.cancel id = (q, false) := by
        unfold EventQueue.cancel at hdone ⊢
        split
        · rename_i hsome
          rw [if_pos hsome] at hdone
          exact absurd rfl hdone
        · rfl
      rw [if_neg hdone, hsame]
      exact ht
  | next_deadline =>
    show Tracks q.drop_stale.agenda h
    rw [hwf.agenda_drop_stale]
    exact ht
  | pop_due now =>
    show Tracks (q.pop_due now).1.agenda (match (q.pop_due now).2 with
      | some (id, _) => { h with popped := id :: h.popped }
      | none => h)
    rcases hwf.pop_agenda now with
      ⟨hpop, -⟩ | ⟨item, rest, event, q', hentries, -, -, hpop, hagenda, -⟩
    · rw [hpop]
      show Tracks q.drop_stale.agenda h
      rw [hwf.agenda_drop_stale]
      exact ht
    · rw [hpop]
      show Tracks q'.agenda { h with popped := item.id :: h.popped }
      rw [hagenda]
      -- The entry that is popped was live, and is popped only this once.
      obtain ⟨-, event', hlive⟩ := (ht.entries item).mp (hentries ▸ List.mem_cons_self)
      refine ht.remove ?_ ht.cancelled_le ?_ ?_ ?_
      · intro b
        constructor
        · rintro ⟨hscheduled, hcancelled, hpopped⟩
          simp only [List.mem_cons, not_or] at hpopped
          exact ⟨⟨hscheduled, hcancelled, hpopped.2⟩, hpopped.1⟩
        · rintro ⟨hb, hne⟩
          refine ⟨hb.scheduled, hb.not_cancelled, ?_⟩
          simp only [List.mem_cons, not_or]
          exact ⟨hne, hb.not_popped⟩
      · intro x hx
        rcases List.mem_cons.mp hx with rfl | hx
        · exact ht.id_le hlive
        · exact ht.popped_le x hx
      · exact List.nodup_cons.mpr ⟨hlive.not_popped, ht.popped_nodup⟩
      · intro x hx
        rcases List.mem_cons.mp hx with rfl | hx
        · exact hlive.not_cancelled
        · exact ht.popped_kept x hx

theorem queue_step_wf {q : EventQueue Ev} (hwf : q.Wf) (op : QueueOp Ev) : (op.step q).Wf := by
  cases op with
  | schedule at_ event => exact hwf.schedule at_ event
  | cancel id => exact hwf.cancel id
  | next_deadline => exact hwf.drop_stale
  | pop_due now => exact (EventQueue.Used.pop_due q now .refl).wf hwf

theorem tracks_of_reachable {s : EventQueue Ev × QueueLog Ev}
    (h : Reachable (queue_runs Ev) AnyCalls s) : s.1.Wf ∧ Tracks s.1.agenda s.2 := by
  induction h with
  | init hi =>
    rw [hi.1, hi.2]
    exact ⟨EventQueue.wf_new, Tracks.new⟩
  | step op _ _ hstep ih =>
    obtain ⟨hq, hlog⟩ := System.logged_step_cases hstep
    have hq : op.step _ = _ := Option.some.inj hq
    rw [hlog, ← hq]
    exact ⟨queue_step_wf ih.1 op, ih.2.logged ih.1 op⟩

/-! ### The answers -/

/-- The queue answers every call as the set of live events does. -/
structure Answers (q : EventQueue Ev) (h : QueueLog Ev) : Prop where
  pop_none (now : Nat) : (q.pop_due now).2 = none ↔ ∀ b, h.Live b → now < b.at_
  pop_some (now id : Nat) (event : Ev) : (q.pop_due now).2 = some (id, event) ↔
    ∃ b, h.Live b ∧ b.id = id ∧ b.event = event ∧ b.at_ ≤ now ∧
      ∀ b', h.Live b' → b'.at_ ≤ now → b.le b'
  cancel (id : Nat) : (q.cancel id).2 = true ↔ ∃ b, h.Live b ∧ b.id = id
  deadline_none : q.next_deadline.2 = none ↔ ∀ b, ¬ h.Live b
  deadline_some (at_ : Nat) : q.next_deadline.2 = some at_ ↔
    (∃ b, h.Live b ∧ b.at_ = at_) ∧ ∀ b, h.Live b → at_ ≤ b.at_
  /-- Ids are in insertion order. -/
  schedule_id (at_ : Nat) (event : Ev) : ∀ b ∈ h.scheduled, b.id < (q.schedule at_ event).2
  scheduled_order : h.scheduled.Pairwise fun b b' => b.id < b'.id
  popped_once : h.popped.Nodup
  popped_kept : ∀ id ∈ h.popped, id ∉ h.cancelled

namespace Tracks

variable {q : EventQueue Ev} {h : QueueLog Ev}

theorem mem_of_live (ht : Tracks q.agenda h) {b : Booking Ev} (hb : h.Live b) :
    ⟨b.at_, b.id, b.id⟩ ∈ q.agenda.entries :=
  (ht.entries _).mpr ⟨rfl, b.event, hb⟩

/-- The first entry of the agenda is the least live event. -/
theorem head_le (ht : Tracks q.agenda h) {item : Scheduled} {rest : List Scheduled}
    (hentries : q.agenda.entries = item :: rest) {b : Booking Ev} (hb : h.Live b) :
    item.at_ < b.at_ ∨ item.at_ = b.at_ ∧ item.id ≤ b.id := by
  have hmem := ht.mem_of_live hb
  have hsorted := ht.sorted
  have hseq := ((ht.entries item).mp (hentries ▸ List.mem_cons_self)).1
  rw [hentries] at hmem hsorted
  rcases List.mem_cons.mp hmem with rfl | hrest
  · exact .inr ⟨rfl, Nat.le_refl _⟩
  · have hle := (List.pairwise_cons.mp hsorted).1 _ hrest
    dsimp only at hle
    omega

theorem pop_due (hwf : q.Wf) (ht : Tracks q.agenda h) (now : Nat) :
    ((q.pop_due now).2 = none ∧ ∀ b, h.Live b → now < b.at_) ∨
    ∃ b, (q.pop_due now).2 = some (b.id, b.event) ∧ h.Live b ∧ b.at_ ≤ now ∧
      ∀ b', h.Live b' → b.le b' := by
  rcases hwf.pop_agenda now with
    ⟨hpop, hlater⟩ | ⟨item, rest, event, q', hentries, hdue, hlookup, hpop, -⟩
  · left
    rw [hpop]
    exact ⟨rfl, fun b hb => hlater _ (ht.mem_of_live hb)⟩
  · right
    obtain ⟨-, event', hlive⟩ := (ht.entries item).mp (hentries ▸ List.mem_cons_self)
    obtain rfl : event' = event := by
      have hsame := (ht.events item.id event').mpr ⟨_, hlive⟩
      rw [hlookup] at hsame
      exact (Option.some.inj hsame).symm
    refine ⟨⟨item.id, item.at_, event'⟩, ?_, hlive, hdue, ?_⟩
    · rw [hpop]
    · intro b' hb'
      exact ht.head_le hentries hb'

theorem answers (hwf : q.Wf) (ht : Tracks q.agenda h) : Answers q h where
  pop_none now := by
    constructor
    · intro hnone
      rcases ht.pop_due hwf now with ⟨-, hlater⟩ | ⟨b, hsome, -⟩
      · exact hlater
      · rw [hnone] at hsome
        cases hsome
    · intro hlater
      rcases ht.pop_due hwf now with ⟨hnone, -⟩ | ⟨b, -, hlive, hdue, -⟩
      · exact hnone
      · have := hlater b hlive
        omega
  pop_some now id event := by
    constructor
    · intro hpop
      rcases ht.pop_due hwf now with ⟨hnone, -⟩ | ⟨b, hsome, hlive, hdue, hleast⟩
      · rw [hnone] at hpop
        cases hpop
      · rw [hpop] at hsome
        simp only [Option.some.injEq, Prod.mk.injEq] at hsome
        exact ⟨b, hlive, hsome.1.symm, hsome.2.symm, hdue, fun b' hb' _ => hleast b' hb'⟩
    · rintro ⟨b, hlive, rfl, rfl, hdue, hleast⟩
      rcases ht.pop_due hwf now with ⟨-, hlater⟩ | ⟨b', hsome, hlive', hdue', hleast'⟩
      · have := hlater b hlive
        omega
      · -- Two least events have one id, and an id is that of one event.
        have hle := hleast b' hlive' hdue'
        have hle' := hleast' b hlive
        unfold Booking.le at hle hle'
        obtain rfl := ht.eq_of_id hlive.scheduled hlive'.scheduled (by omega)
        exact hsome
  cancel id := by
    have hsome : (q.cancel id).2 = true ↔ ∃ event, q.events.lookup id = some event := by
      unfold EventQueue.cancel
      rw [← Option.isSome_iff_exists]
      split <;> simp [*]
    rw [hsome]
    constructor
    · rintro ⟨event, hlookup⟩
      obtain ⟨at_, hlive⟩ := (ht.events id event).mp hlookup
      exact ⟨_, hlive, rfl⟩
    · rintro ⟨b, hlive, rfl⟩
      exact ⟨b.event, (ht.events b.id b.event).mpr ⟨b.at_, hlive⟩⟩
  deadline_none := by
    rw [hwf.next_deadline_agenda, Option.map_eq_none_iff, List.head?_eq_none_iff]
    constructor
    · intro hnil b hb
      have hmem := ht.mem_of_live hb
      rw [hnil] at hmem
      cases hmem
    · intro hnone
      apply List.eq_nil_iff_forall_not_mem.mpr
      intro item hitem
      obtain ⟨-, event, hlive⟩ := (ht.entries item).mp hitem
      exact hnone _ hlive
  deadline_some at_ := by
    rw [hwf.next_deadline_agenda]
    -- The head of the agenda is the least live event.
    cases hentries : q.agenda.entries with
    | nil =>
      simp only [List.head?_nil, Option.map_none, reduceCtorEq, false_iff, not_and]
      rintro ⟨b, hb, -⟩
      have hmem := ht.mem_of_live hb
      rw [hentries] at hmem
      cases hmem
    | cons item rest =>
      obtain ⟨-, event, hlive⟩ := (ht.entries item).mp (hentries ▸ List.mem_cons_self)
      simp only [List.head?_cons, Option.map_some, Option.some.injEq]
      constructor
      · rintro rfl
        refine ⟨⟨_, hlive, rfl⟩, ?_⟩
        intro b hb
        have := ht.head_le hentries hb
        omega
      · rintro ⟨⟨b, hb, rfl⟩, hleast⟩
        have hle := hleast _ hlive
        have hle' := ht.head_le hentries hb
        dsimp only at hle
        omega
  schedule_id at_ event b hb := Nat.lt_succ_of_le (ht.scheduled_le b hb)
  scheduled_order := ht.scheduled_order
  popped_once := ht.popped_nodup
  popped_kept := ht.popped_kept

end Tracks

/-- After every sequence of calls on a new queue, the queue answers as its live
    events do. -/
theorem event_queue_refines {s : EventQueue Ev × QueueLog Ev}
    (h : Reachable (queue_runs Ev) AnyCalls s) : Answers s.1 s.2 := by
  obtain ⟨hwf, ht⟩ := tracks_of_reachable h
  exact ht.answers hwf

instance (s : EventQueue Ev × QueueLog Ev) (op : QueueOp Ev) : Decidable (AnyCalls s op) :=
  .isTrue trivial

/-- Two events are due at 5; the first of them was cancelled and left a
    tombstone in front of the heap. -/
theorem event_queue_refines_tombstone : ∃ s : EventQueue Char × QueueLog Char,
    Reachable (queue_runs Char) AnyCalls s ∧ s.2.cancelled = [2] ∧
      s.1.heap.map Scheduled.id = [2, 3, 1] ∧ (s.1.pop_due 7).2 = some (3, 'c') ∧
      Answers s.1 s.2 := by
  obtain ⟨s, hs, hcancelled, hheap, hpop⟩ : ∃ s : EventQueue Char × QueueLog Char,
      Reachable (queue_runs Char) AnyCalls s ∧ s.2.cancelled = [2] ∧
        s.1.heap.map Scheduled.id = [2, 3, 1] ∧ (s.1.pop_due 7).2 = some (3, 'c') :=
    Reachable.exists_of_exec (s := (EventQueue.new, QueueLog.empty))
      [.schedule 10 'a', .schedule 5 'b', .schedule 5 'c', .cancel 2] ⟨rfl, rfl⟩
      (by decide +kernel)
  exact ⟨s, hs, hcancelled, hheap, hpop, event_queue_refines hs⟩

end Rl78Sim
