import Rl78Sim.Kernel.EventLaws

/-! # The Agenda of an Event Queue

    Tombstones are an implementation detail of the queue: when they are
    dropped depends on when the front was looked at. The agenda of a queue is
    what is left without them, and every operation of the queue is the same
    operation of the agenda.
-/

namespace Rl78Sim

/-- The live entries in order, with their events. -/
structure Agenda (Ev : Type) where
  next_id : Nat
  next_seq : Nat
  entries : List Scheduled
  events : List (Nat × Ev)

namespace Agenda

variable {Ev : Type}

def schedule (a : Agenda Ev) (at_ : Nat) (event : Ev) : Agenda Ev where
  next_id := a.next_id + 1
  next_seq := a.next_seq + 1
  entries := heap_push ⟨at_, a.next_seq + 1, a.next_id + 1⟩ a.entries
  events := (a.next_id + 1, event) :: a.events

/-- Take the event `id` off the agenda. -/
def remove (a : Agenda Ev) (id : Nat) : Agenda Ev :=
  { a with
    entries := a.entries.filter fun item => item.id != id
    events := a.events.filter fun e => e.1 != id }

end Agenda

namespace EventQueue

variable {Ev : Type}

def agenda (q : EventQueue Ev) : Agenda Ev where
  next_id := q.next_id
  next_seq := q.next_seq
  entries := q.heap.filter fun item => (q.events.lookup item.id).isSome
  events := q.events

theorem mem_agenda {q : EventQueue Ev} {item : Scheduled} :
    item ∈ q.agenda.entries ↔ q.Live item := by
  constructor
  · intro hmem
    obtain ⟨hheap, hsome⟩ := List.mem_filter.mp hmem
    exact ⟨hheap, hsome⟩
  · intro hlive
    exact List.mem_filter.mpr ⟨hlive.mem, hlive.event⟩

/-- A new entry, with the highest sequence number, is pushed behind every entry
    with an earlier or the same deadline, whatever else the heap holds. -/
theorem filter_heap_push {item : Scheduled} {heap : List Scheduled} (p : Scheduled → Bool)
    (hp : p item = true) (hsorted : heap.Pairwise fun a b => a.at_ ≤ b.at_)
    (hseq : ∀ x ∈ heap, x.seq < item.seq) :
    (heap_push item heap).filter p = heap_push item (heap.filter p) := by
  have hbefore {x : Scheduled} (hx : x.seq < item.seq) :
      item.before x = true ↔ item.at_ < x.at_ := by
    simp only [Scheduled.before, Bool.or_eq_true, decide_eq_true_eq, Bool.and_eq_true, beq_iff_eq]
    omega
  induction heap with
  | nil => simp [heap_push, hp]
  | cons top rest ih =>
    obtain ⟨htop, hrest⟩ := List.pairwise_cons.mp hsorted
    have hseq' : ∀ x ∈ rest, x.seq < item.seq := fun x hx =>
      hseq x (List.mem_cons_of_mem _ hx)
    by_cases hfirst : item.before top = true
    · -- The entry goes in front of everything that is kept.
      have hfront : heap_push item ((top :: rest).filter p) = item :: (top :: rest).filter p := by
        cases hkept : (top :: rest).filter p with
        | nil => rfl
        | cons x xs =>
          have hmem : x ∈ top :: rest :=
            (List.mem_filter.mp (hkept ▸ List.mem_cons_self)).1
          have hle : top.at_ ≤ x.at_ := by
            rcases List.mem_cons.mp hmem with rfl | hin
            · exact Nat.le_refl _
            · exact htop x hin
          have hlt := (hbefore (hseq top List.mem_cons_self)).mp hfirst
          rw [heap_push, if_pos ((hbefore (hseq x hmem)).mpr (by omega))]
      rw [hfront, heap_push, if_pos hfirst, List.filter_cons_of_pos hp]
    · rw [heap_push, if_neg hfirst]
      by_cases hkeep : p top = true
      · rw [List.filter_cons_of_pos hkeep, List.filter_cons_of_pos hkeep, ih hrest hseq',
          heap_push, if_neg hfirst]
      · rw [List.filter_cons_of_neg hkeep, List.filter_cons_of_neg hkeep, ih hrest hseq']

theorem Wf.agenda_schedule {q : EventQueue Ev} (h : q.Wf) (at_ : Nat) (event : Ev) :
    (q.schedule at_ event).1.agenda = q.agenda.schedule at_ event := by
  have hentries : (q.schedule at_ event).1.agenda.entries =
      (q.agenda.schedule at_ event).entries := by
    show (heap_push ⟨at_, q.next_seq + 1, q.next_id + 1⟩ q.heap).filter _ = _
    rw [filter_heap_push]
    · show heap_push _ _ = heap_push _ _
      congr 1
      apply List.filter_congr
      intro item hitem
      have hle := h.heap_le item hitem
      rw [lookup_schedule, if_neg (by omega)]
    · rw [lookup_schedule, if_pos rfl]
      rfl
    · exact h.sorted
    · intro x hx
      exact Nat.lt_succ_of_le (h.seq_le x hx)
  unfold agenda Agenda.schedule at hentries ⊢
  dsimp only at hentries ⊢
  rw [hentries]
  rfl

/-- Removing an event removes its entry. -/
theorem agenda_remove_event (q : EventQueue Ev) (id : Nat) :
    (q.remove_event id).agenda = q.agenda.remove id := by
  have hentries : (q.remove_event id).agenda.entries = (q.agenda.remove id).entries := by
    show q.heap.filter _ = (q.heap.filter _).filter _
    rw [List.filter_filter]
    apply List.filter_congr
    intro item _
    rw [lookup_remove_event]
    by_cases hid : item.id = id
    · simp [hid]
    · simp [hid]
  unfold agenda Agenda.remove at hentries ⊢
  dsimp only at hentries ⊢
  rw [hentries]
  rfl

theorem agenda_cancel (q : EventQueue Ev) (id : Nat) :
    (q.cancel id).1.agenda = q.agenda.remove id := by
  unfold EventQueue.cancel
  split
  · exact agenda_remove_event q id
  · rename_i hgone
    have hnone : q.events.lookup id = none := Option.not_isSome_iff_eq_none.mp hgone
    have hentries : (q.agenda.remove id).entries = q.agenda.entries := by
      apply List.filter_eq_self.mpr
      intro item hitem
      have hsome := (mem_agenda.mp hitem).event
      simp only [bne_iff_ne, ne_eq]
      intro heq
      rw [heq, hnone] at hsome
      cases hsome
    have hevents : (q.agenda.remove id).events = q.agenda.events := by
      apply List.filter_eq_self.mpr
      intro e he
      simp only [bne_iff_ne, ne_eq]
      intro heq
      have hmem : (q.events.lookup id).isSome = true := by
        rw [List.lookup_isSome_iff]
        exact ⟨e, he, by simp [heq]⟩
      rw [hnone] at hmem
      cases hmem
    unfold Agenda.remove at hentries hevents ⊢
    dsimp only at hentries hevents
    rw [hentries, hevents]

/-- Dropping tombstones leaves the agenda alone. -/
theorem Wf.agenda_drop_stale {q : EventQueue Ev} (h : q.Wf) :
    q.drop_stale.agenda = q.agenda := by
  have hfilter (events : List (Nat × Ev)) (heap : List Scheduled) (cancelled : List Nat)
      (hgone : ∀ id ∈ cancelled, events.lookup id = none) :
      (drop_stale_from events heap cancelled).1.filter
        (fun item => (events.lookup item.id).isSome) =
      heap.filter fun item => (events.lookup item.id).isSome := by
    induction heap generalizing cancelled with
    | nil => rfl
    | cons top rest ih =>
      rw [drop_stale_from]
      split
      · rename_i hcancelled
        rw [ih _ fun id hid => hgone id (List.mem_of_mem_erase hid),
          List.filter_cons_of_neg (by simp [hgone _ hcancelled])]
      · split
        · rename_i hnone
          rw [ih _ hgone,
            List.filter_cons_of_neg (by rw [Option.isNone_iff_eq_none.mp hnone]; simp)]
        · rfl
  have hentries := hfilter q.events q.heap q.cancelled h.cancelled_gone
  unfold agenda EventQueue.drop_stale
  dsimp only
  rw [hentries]

/-- The front that is left by `drop_stale` is the first entry of the agenda. -/
theorem Wf.head_agenda {q : EventQueue Ev} (h : q.Wf) {item : Scheduled}
    {rest : List Scheduled} (hheap : q.drop_stale.heap = item :: rest) :
    q.agenda.entries =
      item :: rest.filter fun item => (q.events.lookup item.id).isSome := by
  have hsome : (q.events.lookup item.id).isSome = true := head_drop_stale_from hheap
  rw [← h.agenda_drop_stale]
  show q.drop_stale.heap.filter (fun item => (q.events.lookup item.id).isSome) = _
  rw [hheap]
  exact List.filter_cons_of_pos hsome

theorem Wf.next_deadline_agenda {q : EventQueue Ev} (h : q.Wf) :
    q.next_deadline.2 = q.agenda.entries.head?.map Scheduled.at_ := by
  show q.drop_stale.heap.head?.map Scheduled.at_ = _
  cases hheap : q.drop_stale.heap with
  | nil =>
    rw [← h.agenda_drop_stale]
    show _ = (List.filter _ q.drop_stale.heap).head?.map _
    rw [hheap]
    rfl
  | cons item rest =>
    rw [h.head_agenda hheap]
    rfl

/-- `pop_due` takes the first entry of the agenda when it is due. -/
theorem Wf.pop_agenda {q : EventQueue Ev} (h : q.Wf) (now : Nat) :
    (q.pop_due now = (q.drop_stale, none) ∧ ∀ item ∈ q.agenda.entries, now < item.at_) ∨
    ∃ item rest event q', q.agenda.entries = item :: rest ∧ item.at_ ≤ now ∧
      q.agenda.events.lookup item.id = some event ∧
      q.pop_due now = (q', some (item.id, event)) ∧ q'.agenda = q.agenda.remove item.id ∧
      q'.Wf ∧ q.front_deadline = item.at_ := by
  have hpopped := h.popped now
  cases hpop : q.pop_due now with
  | mk q' result =>
    rw [hpop] at hpopped
    cases hpopped with
    | nothing hnone =>
      left
      exact ⟨rfl, fun item hitem => hnone item (mem_agenda.mp hitem)⟩
    | event _ item event hlive hdue hfront hwf hid hsub =>
      right
      unfold pop_due at hpop
      dsimp only at hpop
      split at hpop
      · cases hpop
      · rename_i top rest hheap
        split at hpop
        · cases hpop
        · split at hpop
          · cases hpop
          · rename_i event' hlookup
            have hentries := h.head_agenda hheap
            obtain ⟨hq', htop, rfl⟩ : _ ∧ top.id = item.id ∧ event' = event := by
              simpa only [Prod.mk.injEq, Option.some.injEq] using hpop
            have hat : q.front_deadline = top.at_ := by
              rw [front_deadline, hheap]
              rfl
            refine ⟨top, _, event', q', hentries, by omega, hlookup, by rw [htop], ?_, hwf, hat⟩
            -- The front leaves the heap, and its event the table.
            have hremoved := agenda_remove_event q.drop_stale top.id
            rw [h.agenda_drop_stale] at hremoved
            rw [← hremoved, ← hq']
            unfold agenda
            dsimp only
            congr 1
            show _ = List.filter _ q.drop_stale.heap
            rw [hheap, List.filter_cons_of_neg]
            rw [lookup_remove_event, if_pos rfl]
            exact Bool.false_ne_true

end EventQueue

end Rl78Sim
