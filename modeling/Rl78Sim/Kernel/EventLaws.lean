import Rl78Sim.Kernel.Event

/-! # What the Event Queue Guarantees

    An entry of the heap is live while the table still holds its event. The
    front of the heap is the live entry that is due first, whatever has been
    scheduled, cancelled and popped before.
-/

namespace Rl78Sim

namespace EventQueue

variable {Ev : Type}

/-- The event of the heap entry is still scheduled. -/
structure Live (q : EventQueue Ev) (item : Scheduled) : Prop where
  mem : item ∈ q.heap
  event : (q.events.lookup item.id).isSome = true

/-- Well-formed queues: the heap is in order, tombstones are for events that
    are gone, and every id was handed out. -/
structure Wf (q : EventQueue Ev) : Prop where
  sorted : q.heap.Pairwise fun a b => a.at_ ≤ b.at_
  cancelled_gone : ∀ id ∈ q.cancelled, q.events.lookup id = none
  heap_le : ∀ item ∈ q.heap, item.id ≤ q.next_id
  events_le (id : Nat) : (q.events.lookup id).isSome = true → id ≤ q.next_id
  cancelled_le : ∀ id ∈ q.cancelled, id ≤ q.next_id
  seq_le : ∀ item ∈ q.heap, item.seq ≤ q.next_seq

theorem wf_new : (new : EventQueue Ev).Wf := by
  refine ⟨List.Pairwise.nil, ?_, ?_, ?_, ?_, ?_⟩
  · intro id hid
    cases hid
  · intro item hitem
    cases hitem
  · intro id hid
    cases hid
  · intro id hid
    cases hid
  · intro item hitem
    cases hitem

/-! ### Scheduling and cancelling -/

theorem mem_heap_push {item x : Scheduled} {heap : List Scheduled} :
    x ∈ heap_push item heap ↔ x = item ∨ x ∈ heap := by
  induction heap with
  | nil => simp [heap_push]
  | cons top rest ih =>
    rw [heap_push]
    split
    · simp
    · simp only [List.mem_cons, ih]
      exact or_left_comm

theorem sorted_heap_push (item : Scheduled) {heap : List Scheduled}
    (h : heap.Pairwise fun a b => a.at_ ≤ b.at_) :
    (heap_push item heap).Pairwise fun a b => a.at_ ≤ b.at_ := by
  induction heap with
  | nil => exact List.pairwise_singleton _ _
  | cons top rest ih =>
    obtain ⟨htop, hrest⟩ := List.pairwise_cons.mp h
    rw [heap_push]
    -- The item goes before the top, or below it by induction.
    split
    · rename_i hbefore
      have hle : item.at_ ≤ top.at_ := by
        simp only [Scheduled.before, Bool.or_eq_true, decide_eq_true_eq, Bool.and_eq_true,
          beq_iff_eq] at hbefore
        omega
      refine List.pairwise_cons.mpr ⟨?_, h⟩
      intro x hx
      rcases List.mem_cons.mp hx with rfl | hx
      · exact hle
      · exact Nat.le_trans hle (htop x hx)
    · rename_i hbefore
      have hle : top.at_ ≤ item.at_ := by
        simp only [Scheduled.before, Bool.or_eq_true, decide_eq_true_eq, Bool.and_eq_true,
          beq_iff_eq] at hbefore
        omega
      refine List.pairwise_cons.mpr ⟨?_, ih hrest⟩
      intro x hx
      rcases mem_heap_push.mp hx with rfl | hx
      · exact hle
      · exact htop x hx

/-- Looking up another id in a table with one event removed. -/
theorem lookup_remove_event (q : EventQueue Ev) {id id' : Nat} :
    (q.remove_event id).events.lookup id' = if id' = id then none else q.events.lookup id' := by
  have hlookup (events : List (Nat × Ev)) :
      (events.filter fun e => e.1 != id).lookup id' =
        if id' = id then none else events.lookup id' := by
    induction events with
    | nil => simp
    | cons e rest ih =>
      by_cases he : e.1 = id
      · rw [List.filter_cons_of_neg (by simpa using he), ih]
        split
        · rfl
        · rename_i hne
          rw [List.lookup_cons, beq_false_of_ne (by omega)]
      · rw [List.filter_cons_of_pos (by simpa using he), List.lookup_cons, List.lookup_cons, ih]
        by_cases hid : id' = id
        · subst hid
          rw [if_pos rfl, if_pos rfl, beq_false_of_ne (Ne.symm he)]
        · rw [if_neg hid, if_neg hid]
  exact hlookup q.events

theorem lookup_schedule (q : EventQueue Ev) (at_ : Nat) (event : Ev) (id : Nat) :
    (q.schedule at_ event).1.events.lookup id =
      if id = q.next_id + 1 then some event else q.events.lookup id := by
  show List.lookup id ((q.next_id + 1, event) :: q.events) = _
  rw [List.lookup_cons]
  by_cases hid : id = q.next_id + 1
  · rw [if_pos hid, beq_iff_eq.mpr hid]
  · rw [if_neg hid, beq_false_of_ne hid]

theorem Wf.schedule {q : EventQueue Ev} (h : q.Wf) (at_ : Nat) (event : Ev) :
    (q.schedule at_ event).1.Wf := by
  refine ⟨sorted_heap_push _ h.sorted, ?_, ?_, ?_, ?_, ?_⟩
  · intro id hid
    have hle := h.cancelled_le id hid
    rw [lookup_schedule, if_neg (by omega)]
    exact h.cancelled_gone id hid
  · intro item hitem
    show item.id ≤ q.next_id + 1
    rcases mem_heap_push.mp hitem with rfl | hold
    · exact Nat.le_refl _
    · exact Nat.le_succ_of_le (h.heap_le item hold)
  · intro id hid
    show id ≤ q.next_id + 1
    rw [lookup_schedule] at hid
    split at hid
    · omega
    · exact Nat.le_succ_of_le (h.events_le id hid)
  · intro id hid
    exact Nat.le_succ_of_le (h.cancelled_le id hid)
  · intro item hitem
    show item.seq ≤ q.next_seq + 1
    rcases mem_heap_push.mp hitem with rfl | hold
    · exact Nat.le_refl _
    · exact Nat.le_succ_of_le (h.seq_le item hold)

theorem Wf.cancel {q : EventQueue Ev} (h : q.Wf) (id : Nat) : (q.cancel id).1.Wf := by
  unfold EventQueue.cancel
  split
  · rename_i hsome
    refine ⟨h.sorted, ?_, h.heap_le, ?_, ?_, h.seq_le⟩
    · intro id' hid'
      show (q.remove_event id).events.lookup id' = none
      rw [lookup_remove_event]
      split
      · rfl
      · rename_i hne
        rcases List.mem_cons.mp hid' with heq | hold
        · exact absurd heq hne
        · exact h.cancelled_gone id' hold
    · intro id' hid'
      replace hid' : ((q.remove_event id).events.lookup id').isSome = true := hid'
      rw [lookup_remove_event] at hid'
      split at hid'
      · cases hid'
      · exact h.events_le id' hid'
    · intro id' hid'
      rcases List.mem_cons.mp hid' with rfl | hold
      · exact h.events_le _ hsome
      · exact h.cancelled_le id' hold
  · exact h

/-! ### Dropping tombstones and popping -/

/-- `drop_stale` shortens the heap from the front, and the cancelled set. -/
theorem drop_stale_from_sub (events : List (Nat × Ev)) (heap : List Scheduled)
    (cancelled : List Nat) :
    (drop_stale_from events heap cancelled).1 <:+ heap ∧
      ∀ id ∈ (drop_stale_from events heap cancelled).2, id ∈ cancelled := by
  induction heap generalizing cancelled with
  | nil => exact ⟨List.suffix_refl _, fun _ h => h⟩
  | cons item rest ih =>
    rw [drop_stale_from]
    split
    · obtain ⟨hheap, hcancelled⟩ := ih (cancelled.erase item.id)
      refine ⟨hheap.trans (List.suffix_cons _ _), ?_⟩
      intro id hid
      exact List.mem_of_mem_erase (hcancelled id hid)
    · split
      · obtain ⟨hheap, hcancelled⟩ := ih cancelled
        exact ⟨hheap.trans (List.suffix_cons _ _), hcancelled⟩
      · exact ⟨List.suffix_refl _, fun _ h => h⟩

/-- What `drop_stale` drops is not live. -/
theorem mem_drop_stale_from {events : List (Nat × Ev)} {heap : List Scheduled}
    {cancelled : List Nat} (hgone : ∀ id ∈ cancelled, events.lookup id = none)
    {item : Scheduled} (hmem : item ∈ heap) (hlive : (events.lookup item.id).isSome = true) :
    item ∈ (drop_stale_from events heap cancelled).1 := by
  induction heap generalizing cancelled with
  | nil => cases hmem
  | cons top rest ih =>
    have hrest {top : Scheduled} (hdead : (events.lookup top.id).isSome ≠ true)
        (hmem : item ∈ top :: rest) : item ∈ rest := by
      rcases List.mem_cons.mp hmem with rfl | hmem
      · exact absurd hlive hdead
      · exact hmem
    rw [drop_stale_from]
    split
    · rename_i hcancelled
      refine ih (fun id hid => hgone id (List.mem_of_mem_erase hid)) (hrest ?_ hmem)
      rw [hgone _ hcancelled]
      nofun
    · split
      · rename_i hnone
        refine ih hgone (hrest ?_ hmem)
        rw [Option.isNone_iff_eq_none.mp hnone]
        nofun
      · exact hmem

/-- The front that `drop_stale` leaves is live. -/
theorem head_drop_stale_from {events : List (Nat × Ev)} {heap rest : List Scheduled}
    {cancelled : List Nat} {item : Scheduled}
    (h : (drop_stale_from events heap cancelled).1 = item :: rest) :
    (events.lookup item.id).isSome = true := by
  induction heap generalizing cancelled with
  | nil => cases h
  | cons top heap ih =>
    rw [drop_stale_from] at h
    split at h
    · exact ih h
    · split at h
      · exact ih h
      · rename_i hsome
        cases h
        simpa using hsome

theorem Wf.drop_stale {q : EventQueue Ev} (h : q.Wf) : q.drop_stale.Wf := by
  obtain ⟨hheap, hcancelled⟩ := drop_stale_from_sub q.events q.heap q.cancelled
  refine ⟨h.sorted.sublist hheap.sublist, ?_, ?_, h.events_le, ?_, ?_⟩
  · intro id hid
    exact h.cancelled_gone id (hcancelled id hid)
  · intro item hitem
    exact h.heap_le item (hheap.subset hitem)
  · intro id hid
    exact h.cancelled_le id (hcancelled id hid)
  · intro item hitem
    exact h.seq_le item (hheap.subset hitem)

theorem Wf.live_drop_stale {q : EventQueue Ev} (h : q.Wf) {item : Scheduled} :
    q.drop_stale.Live item ↔ q.Live item := by
  constructor
  · intro hlive
    exact ⟨(drop_stale_from_sub _ _ _).1.subset hlive.mem, hlive.event⟩
  · intro hlive
    exact ⟨mem_drop_stale_from h.cancelled_gone hlive.mem hlive.event, hlive.event⟩

/-- `next_deadline` is at or before the deadline of every live entry. -/
theorem Wf.next_deadline_le {q : EventQueue Ev} (h : q.Wf) {item : Scheduled}
    (hlive : q.Live item) : ∃ at_, q.next_deadline.2 = some at_ ∧ at_ ≤ item.at_ := by
  have hmem := (h.live_drop_stale.mpr hlive).mem
  have hsorted := h.drop_stale.sorted
  unfold next_deadline
  cases hheap : q.drop_stale.heap with
  | nil =>
    rw [hheap] at hmem
    cases hmem
  | cons top rest =>
    refine ⟨top.at_, by simp [hheap], ?_⟩
    rw [hheap] at hmem hsorted
    rcases List.mem_cons.mp hmem with rfl | hrest
    · exact Nat.le_refl _
    · exact (List.pairwise_cons.mp hsorted).1 item hrest

/-- The deadline of the event that `pop_due` pops: the front of the heap. -/
def front_deadline (q : EventQueue Ev) : Nat := (q.drop_stale.heap.head?.map Scheduled.at_).getD 0

/-- What a `pop_due` does to a well-formed queue. -/
inductive Popped (q : EventQueue Ev) (now : Nat) :
    EventQueue Ev → Option (Nat × Ev) → Prop where
  | nothing : (∀ item, q.Live item → now < item.at_) → Popped q now q.drop_stale none
  | event (q' : EventQueue Ev) (item : Scheduled) (event : Ev) :
      q.Live item → item.at_ ≤ now → q.front_deadline = item.at_ → q'.Wf →
      q'.next_id = q.next_id → (∀ x, q'.Live x → q.Live x) →
      Popped q now q' (some (item.id, event))

theorem Wf.remove_event {q : EventQueue Ev} (h : q.Wf) (id : Nat) : (q.remove_event id).Wf := by
  have hsub {id' : Nat} (hsome : ((q.remove_event id).events.lookup id').isSome = true) :
      (q.events.lookup id').isSome = true := by
    rw [lookup_remove_event] at hsome
    split at hsome
    · cases hsome
    · exact hsome
  refine ⟨h.sorted, ?_, h.heap_le, fun id' hid' => h.events_le id' (hsub hid'), h.cancelled_le,
    h.seq_le⟩
  intro id' hid'
  rw [lookup_remove_event]
  split
  · rfl
  · exact h.cancelled_gone id' hid'

theorem Wf.tail {q : EventQueue Ev} (h : q.Wf) {item : Scheduled} {rest : List Scheduled}
    (hheap : q.heap = item :: rest) : ({ q with heap := rest } : EventQueue Ev).Wf := by
  have hsorted := h.sorted
  rw [hheap] at hsorted
  have hmem {x : Scheduled} (hx : x ∈ rest) : x ∈ q.heap := by
    rw [hheap]
    exact List.mem_cons_of_mem _ hx
  exact ⟨(List.pairwise_cons.mp hsorted).2, h.cancelled_gone, fun x hx => h.heap_le x (hmem hx),
    h.events_le, h.cancelled_le, fun x hx => h.seq_le x (hmem hx)⟩

theorem Wf.popped {q : EventQueue Ev} (h : q.Wf) (now : Nat) :
    Popped q now (q.pop_due now).1 (q.pop_due now).2 := by
  have hwf := h.drop_stale
  unfold pop_due
  dsimp only
  split
  · rename_i hnil
    refine .nothing fun item hlive => ?_
    have hmem := (h.live_drop_stale.mpr hlive).mem
    rw [hnil] at hmem
    cases hmem
  · rename_i item rest hheap
    have hsome : (q.events.lookup item.id).isSome = true := head_drop_stale_from hheap
    have hlive : q.Live item :=
      h.live_drop_stale.mp ⟨by rw [hheap]; exact List.mem_cons_self, hsome⟩
    split
    -- The front of the heap is the next deadline, which lies ahead of the clock.
    · rename_i hlater
      refine .nothing fun x hx => ?_
      obtain ⟨at_, hnext, hle⟩ := h.next_deadline_le hx
      rw [next_deadline] at hnext
      dsimp only at hnext
      rw [hheap] at hnext
      obtain rfl : item.at_ = at_ := Option.some.inj hnext
      omega
    · rename_i hdue
      split
      -- `drop_stale` has left a live item at the front.
      · rename_i hnone
        have hgone : q.events.lookup item.id = none := hnone
        rw [hgone] at hsome
        cases hsome
      · rename_i event _
        refine .event _ item event hlive (by omega) ?_ ?_ rfl ?_
        · rw [front_deadline, hheap]
          rfl
        · exact (hwf.tail hheap).remove_event item.id
        · intro x hx
          apply h.live_drop_stale.mp
          refine ⟨?_, ?_⟩
          · rw [hheap]
            exact List.mem_cons_of_mem _ hx.mem
          · have hevent : ((q.drop_stale.remove_event item.id).events.lookup x.id).isSome = true :=
              hx.event
            rw [lookup_remove_event] at hevent
            split at hevent
            · cases hevent
            · exact hevent

/-! ### What a device can do to the queue -/

/-- `q'` is `q` after any calls of the queue's operations. -/
inductive Used (q : EventQueue Ev) : EventQueue Ev → Prop where
  | refl : Used q q
  | schedule (q' : EventQueue Ev) (at_ : Nat) (event : Ev) :
      Used q q' → Used q (q'.schedule at_ event).1
  | cancel (q' : EventQueue Ev) (id : Nat) : Used q q' → Used q (q'.cancel id).1
  | next_deadline (q' : EventQueue Ev) : Used q q' → Used q q'.next_deadline.1
  | pop_due (q' : EventQueue Ev) (now : Nat) : Used q q' → Used q (q'.pop_due now).1

theorem Used.wf {q q' : EventQueue Ev} (h : Used q q') (hwf : q.Wf) : q'.Wf := by
  induction h with
  | refl => exact hwf
  | schedule q' at_ event _ ih => exact ih.schedule at_ event
  | cancel q' id _ ih => exact ih.cancel id
  | next_deadline q' _ ih => exact ih.drop_stale
  | pop_due q' now _ ih =>
    cases hpop : q'.pop_due now with
    | mk q₁ popped =>
      have hpopped := ih.popped now
      rw [hpop] at hpopped
      cases hpopped with
      | nothing => exact ih.drop_stale
      | event _ item event _ _ _ hwf' => exact hwf'

/-- Ids only grow, and what is old and live was live before. -/
theorem Used.old {q q' : EventQueue Ev} (h : Used q q') (hwf : q.Wf) :
    q.next_id ≤ q'.next_id ∧
      ∀ item, q'.Live item → item.id ≤ q.next_id → q.Live item := by
  induction h with
  | refl => exact ⟨Nat.le_refl _, fun _ hlive _ => hlive⟩
  | schedule q' at_ event _ ih =>
    obtain ⟨hle, hold⟩ := ih
    refine ⟨Nat.le_succ_of_le hle, fun item hlive hid => hold item ⟨?_, ?_⟩ hid⟩
    -- The new item has the next id, which is beyond those of `q`.
    · rcases mem_heap_push.mp hlive.mem with rfl | hmem
      · exact absurd hid (by dsimp only; omega)
      · exact hmem
    · have hevent := hlive.event
      rw [lookup_schedule, if_neg (by omega)] at hevent
      exact hevent
  | cancel q' id _ ih =>
    obtain ⟨hle, hold⟩ := ih
    unfold EventQueue.cancel
    split
    · refine ⟨hle, fun item hlive hid => hold item ⟨hlive.mem, ?_⟩ hid⟩
      have hevent : ((q'.remove_event id).events.lookup item.id).isSome = true := hlive.event
      rw [lookup_remove_event] at hevent
      split at hevent
      · cases hevent
      · exact hevent
    · exact ⟨hle, hold⟩
  | next_deadline q' hused ih =>
    obtain ⟨hle, hold⟩ := ih
    exact ⟨hle, fun item hlive => hold item ((hused.wf hwf).live_drop_stale.mp hlive)⟩
  | pop_due q' now hused ih =>
    obtain ⟨hle, hold⟩ := ih
    have hwf' := hused.wf hwf
    cases hpop : q'.pop_due now with
    | mk q₁ popped =>
      have hpopped := hwf'.popped now
      rw [hpop] at hpopped
      cases hpopped with
      | nothing => exact ⟨hle, fun item hlive => hold item (hwf'.live_drop_stale.mp hlive)⟩
      | event _ item event _ _ _ _ hid hsub =>
        exact ⟨hid ▸ hle, fun x hx => hold x (hsub x hx)⟩

end EventQueue

end Rl78Sim
