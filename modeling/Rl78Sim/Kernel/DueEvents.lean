import Mathlib.Data.List.Count
import Rl78Sim.Kernel.EventLaws
import Rl78Sim.Kernel.Machine

/-! # The Due Events

    The kernel pops events until none is due. Each pop takes an entry off the
    heap. Where an event that is fired adds only entries that are due later, what
    is due runs out. -/

namespace Rl78Sim

/-! ### Entries of the heap -/

/-- The entries that are due. -/
def heap_due (now : Nat) (heap : List Scheduled) : Nat := heap.countP fun item => item.at_ ≤ now

/-- What is added to the heap is due later. -/
def Ahead (now : Nat) (heap heap' : List Scheduled) : Prop :=
  ∃ added : List Scheduled, (∀ item ∈ added, now < item.at_) ∧ heap'.Perm (added ++ heap)

theorem perm_heap_push (item : Scheduled) (heap : List Scheduled) :
    (heap_push item heap).Perm (item :: heap) := by
  induction heap with
  | nil => exact .refl _
  | cons top rest ih =>
    unfold heap_push
    split
    · exact .refl _
    · exact (ih.cons top).trans (.swap item top rest)

namespace Ahead

variable {Ev : Type} {now : Nat} {heap heap' : List Scheduled} {q : EventQueue Ev}

theorem refl (now : Nat) (heap : List Scheduled) : Ahead now heap heap :=
  ⟨[], by simp, .refl _⟩

theorem schedule (h : Ahead now heap q.heap) {at_ : Nat} (hat : now < at_) (event : Ev) :
    Ahead now heap (q.schedule at_ event).1.heap := by
  obtain ⟨added, hadded, hperm⟩ := h
  refine ⟨⟨at_, q.next_seq + 1, q.next_id + 1⟩ :: added, ?_, ?_⟩
  · intro item hitem
    rcases List.mem_cons.mp hitem with rfl | hold
    · exact hat
    · exact hadded item hold
  · exact (perm_heap_push _ _).trans (hperm.cons _)

theorem cancel (h : Ahead now heap q.heap) (id : Nat) : Ahead now heap (q.cancel id).1.heap := by
  unfold EventQueue.cancel
  split
  · exact h
  · exact h

/-- No more is due. -/
theorem due_le (h : Ahead now heap heap') : heap_due now heap' ≤ heap_due now heap := by
  obtain ⟨added, hadded, hperm⟩ := h
  have hnone : added.countP (fun item => item.at_ ≤ now) = 0 := by
    refine List.countP_eq_zero.mpr fun item hitem => ?_
    have hlater := hadded item hitem
    simp only [decide_eq_true_eq]
    omega
  unfold heap_due
  refine Nat.le_of_eq ?_
  rw [hperm.countP_eq, List.countP_append, hnone, Nat.zero_add]

theorem later (h : Ahead now heap heap') {item : Scheduled} (hitem : item ∈ heap')
    (hnew : item ∉ heap) : now < item.at_ := by
  obtain ⟨added, hadded, hperm⟩ := h
  rcases List.mem_append.mp (hperm.mem_iff.mp hitem) with hin | hold
  · exact hadded item hin
  · exact absurd hold hnew

end Ahead

/-- An event that is popped was due, and its entry is gone. -/
theorem EventQueue.due_pop {Ev : Type} {q q' : EventQueue Ev} {now : Nat} {e : Nat × Ev}
    (h : q.pop_due now = (q', some e)) : heap_due now q'.heap < heap_due now q.heap := by
  have hstale : heap_due now q.drop_stale.heap ≤ heap_due now q.heap :=
    (drop_stale_from_sub q.events q.heap q.cancelled).1.sublist.countP_le
  unfold EventQueue.pop_due at h
  dsimp only at h
  split at h
  · cases h
  · rename_i item rest hheap
    split at h
    · cases h
    · rename_i hdue
      -- The head of the heap is due, and it is the one that goes.
      have hpopped : heap_due now q.drop_stale.heap = heap_due now rest + 1 := by
        unfold heap_due
        rw [hheap, List.countP_cons_of_pos (by simp only [decide_eq_true_eq]; omega)]
      split at h
      · cases h
      · cases h
        show heap_due now rest < _
        omega

namespace Machine

variable {C Ev F : Type} [Cpu C Ev F]

/-- Firing the events adds only later ones, and stops nothing. -/
def FiresAhead (C : Type) {Ev F : Type} [Cpu C Ev F] (now : Nat) : Prop :=
  ∀ (m : Machine C Ev F) (event : Ev), m.clock.now = now →
    Ahead now m.events.heap (m.call (Cpu.fire event)).1.events.heap ∧
      (m.call (Cpu.fire event)).2 = none

/-- At most the events that are due in the beginning are fired. -/
theorem fire_due_events_returns {now : Nat} (hfire : FiresAhead C now) {fuel : Nat}
    {m : Machine C Ev F} (hnow : m.clock.now = now) (hfuel : heap_due now m.events.heap < fuel) :
    ∃ m', fire_due_events fuel m = some (m', none) := by
  -- On the number of entries that are due: each pop takes one away, and firing
  -- adds none.
  induction fuel generalizing m with
  | zero => omega
  | succ fuel ih =>
    simp only [fire_due_events, hnow]
    cases hpop : m.events.pop_due now with
    | mk events popped =>
      cases popped with
      | none => exact ⟨_, rfl⟩
      | some e =>
        obtain ⟨id, event⟩ := e
        have hless := EventQueue.due_pop hpop
        obtain ⟨hahead, hstop⟩ := hfire { m with events := events } event hnow
        -- the event that was popped is not replaced by one that is due
        have hleft := hahead.due_le
        dsimp only at hleft ⊢
        cases hcall : ({ m with events := events } : Machine C Ev F).call (Cpu.fire event) with
        | mk fired stop =>
          rw [hcall] at hstop hleft
          cases hstop
          have hclock : fired.clock.now = now := by
            rw [← hnow]
            exact congrArg (fun r => r.1.clock.now) hcall.symm
          exact ih hclock (by dsimp only at hleft; omega)

end Machine

end Rl78Sim
