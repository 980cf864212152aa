import Rl78Sim.Kernel.EventLaws
import Rl78Sim.Kernel.MachineLaws

/-! # Polls and Deadlines

    A poll never moves the clock past the deadline of an event that is in the
    queue when the poll sizes its budget. This rests on the queue, which a
    chip and its devices use through its operations only.
-/

namespace Rl78Sim

/-! ### Chips and the event queue -/

/-- The operation changes the event queue through the queue's operations. -/
def ChipOp.UsesQueue {C Ev F α : Type} (op : ChipOp C Ev F α) : Prop :=
  ∀ now soc q, EventQueue.Used q (op now soc q).events

/-- The fields of an event queue are private: a chip, its devices and its
    events only call it. -/
class LawfulCpu (C : Type) {Ev F : outParam Type} [Cpu C Ev F] : Prop where
  run_quantum (max : Nat) : (Cpu.run_quantum max : ChipOp C Ev F (Quantum max)).UsesQueue
  fire (ev : Ev) : (Cpu.fire ev : ChipOp C Ev F (Option StopReason)).UsesQueue
  reset : (Cpu.reset : ChipOp C Ev F Unit).UsesQueue
  read_mem (addr len : Nat) :
    (Cpu.read_mem addr len : ChipOp C Ev F (Except BusError (List Nat))).UsesQueue
  write_mem (addr : Nat) (data : List Nat) :
    (Cpu.write_mem addr data : ChipOp C Ev F (Except BusError Unit)).UsesQueue
  poll_actions : (Cpu.poll_actions : ChipOp C Ev F Unit).UsesQueue
  apply_action (req : ActionRequest) :
    (Cpu.apply_action req : ChipOp C Ev F (Option ActionFailure)).UsesQueue
  drive_in (port : String) (v : F) : (Cpu.drive_in port v : ChipOp C Ev F Unit).UsesQueue

namespace EventQueue

theorem Used.trans {Ev : Type} {q q' q'' : EventQueue Ev} (h : Used q q') (h' : Used q' q'') :
    Used q q'' := by
  induction h' with
  | refl => exact h
  | schedule q₁ at_ event _ ih => exact .schedule q₁ at_ event ih
  | cancel q₁ id _ ih => exact .cancel q₁ id ih
  | next_deadline q₁ _ ih => exact .next_deadline q₁ ih
  | pop_due q₁ now _ ih => exact .pop_due q₁ now ih

end EventQueue

namespace Machine

variable {C Ev F : Type}

/-! ### The bound of one poll -/

/-- The budget of a poll ends at the first deadline. -/
theorem budget_le_deadline {m : Machine C Ev F} (hwf : m.events.Wf) (ctx : AdvanceCtx)
    {item : Scheduled} (hlive : m.events.Live item) (hle : m.clock.now ≤ item.at_) :
    m.clock.now + m.budget_ns ctx ≤ item.at_ := by
  obtain ⟨at_, hnext, hat⟩ := hwf.next_deadline_le hlive
  have hbudget : m.budget_ns ctx ≤ m.events.next_deadline.2.getD u64_max - m.clock.now :=
    Nat.le_trans (Nat.min_le_left _ _) (Nat.min_le_left _ _)
  rw [hnext, Option.getD_some] at hbudget
  omega

/-- Without a single step, a quantum ends within its budget. -/
theorem charge_now_le (m : Machine C Ev F) {ns_per_insn budget k : Nat}
    (hk : k ≤ min ((saturating_add m.clock.now budget - m.last_insn_at) / ns_per_insn) u32_max) :
    (m.charge ns_per_insn k (saturating_add m.clock.now budget)).clock.now ≤
      m.clock.now + budget := by
  have hcharged := charged_le_target m hk
  have hsum := saturating_add_le m.clock.now budget
  rw [charge_now, Nat.max_eq_right hcharged]
  refine Nat.le_trans (saturating_add_le _ _) ?_
  omega

variable [Cpu C Ev F]

theorem idle_le {fuel : Nat} {m m' : Machine C Ev F} {budget : Nat} {r : EntityPoll}
    (h : m.idle fuel budget = some (m', r)) : m'.clock.now ≤ m.clock.now + budget := by
  rcases idle_spec h with ⟨rfl, -⟩ | ⟨-, hnow, -⟩
  · exact Nat.le_add_right _ _
  · rw [hnow]
    exact saturating_add_le _ _

theorem run_le_budget {fuel : Nat} {m m' : Machine C Ev F} {ctx : AdvanceCtx} {r : EntityPoll}
    (honce : ctx.step_once = false) (h : m.run fuel ctx = some (m', r)) :
    m'.clock.now ≤ m.clock.now + m.budget_ns ctx := by
  unfold run at h
  dsimp only at h
  split at h
  · have hle := idle_le h
    exact hle
  · split at h
    · cases h
      exact Nat.le_add_right _ _
    · split at h
      · have hle := idle_le h
        exact hle
      · rename_i ns_per_insn _ _ n hn
        simp only [max_instructions, honce, Bool.false_eq_true, if_false] at hn
        rcases quantum_spec h with ⟨hframe, -⟩ | ⟨k, hk, -, hnow, -⟩
        · rw [hframe.clock_eq]
          exact Nat.le_add_right _ _
        · rw [hnow]
          exact charge_now_le { m with events := m.events.next_deadline.1 }
            (Nat.le_trans hk (Nat.le_of_eq hn.symm))

/-- The clock after a poll is at most the deadline of every event that is live
    when the events already due have fired. -/
theorem poll_le_deadline {fuel : Nat} {m m₁ m' : Machine C Ev F} {ctx : AdvanceCtx}
    {stop : Option StopReason} {r : EntityPoll} (honce : ctx.step_once = false)
    (hfire : m.fire_due_events fuel = some (m₁, stop)) (hwf : m₁.events.Wf)
    (h : m.poll fuel ctx = some (m', r)) {item : Scheduled} (hlive : m₁.events.Live item)
    (hle : m.clock.now ≤ item.at_) : m'.clock.now ≤ item.at_ := by
  have hclock := (frame_fire_due_events hfire).clock_eq
  rw [← hclock] at hle
  unfold poll at h
  rw [hfire] at h
  cases stop with
  | some reason =>
    cases h
    exact hle
  | none => exact Nat.le_trans (run_le_budget honce h) (budget_le_deadline hwf ctx hlive hle)

/-! ### A machine uses its queue -/

variable [LawfulCpu C]

theorem used_fire_due_events {fuel : Nat} {m m' : Machine C Ev F} {stop : Option StopReason}
    (h : m.fire_due_events fuel = some (m', stop)) : EventQueue.Used m.events m'.events := by
  induction fuel generalizing m with
  | zero => cases h
  | succ fuel ih =>
    rw [fire_due_events] at h
    have hpop := EventQueue.Used.pop_due m.events m.clock.now .refl
    split at h
    · rename_i events heq
      rw [heq] at hpop
      cases h
      exact hpop
    · rename_i events id event heq
      rw [heq] at hpop
      have hcall : EventQueue.Used events
          (({ m with events := events } : Machine C Ev F).call (Cpu.fire event)).1.events :=
        LawfulCpu.fire event _ _ _
      split at h
      · rename_i m₁ reason hm₁
        cases h
        rw [hm₁] at hcall
        exact hpop.trans hcall
      · rename_i m₁ hm₁
        rw [hm₁] at hcall
        exact (hpop.trans hcall).trans (ih h)

theorem used_finish_poll {fuel : Nat} {m m' : Machine C Ev F} {r : EntityPoll}
    (h : m.finish_poll fuel = some (m', r)) : EventQueue.Used m.events m'.events := by
  obtain ⟨⟨m₁, stop⟩, hfire, heq⟩ := Option.map_eq_some_iff.mp h
  have hused := used_fire_due_events hfire
  cases stop <;> cases heq <;> exact hused

theorem used_idle {fuel : Nat} {m m' : Machine C Ev F} {budget : Nat} {r : EntityPoll}
    (h : m.idle fuel budget = some (m', r)) : EventQueue.Used m.events m'.events := by
  unfold idle at h
  split at h
  · cases h
    exact .refl
  · have hused := used_finish_poll h
    exact hused

theorem used_settle {fuel : Nat} {m m' : Machine C Ev F} {stop : Option StopReason}
    {r : EntityPoll} (h : m.settle fuel stop = some (m', r)) :
    EventQueue.Used m.events m'.events := by
  unfold settle at h
  split at h
  · cases h
    exact .refl
  · cases stop with
    | some reason =>
      cases h
      exact .refl
    | none =>
      have hused := used_finish_poll h
      exact hused

theorem used_quantum {fuel : Nat} {m m' : Machine C Ev F} {ns_per_insn budget n : Nat}
    {r : EntityPoll} (h : m.quantum fuel ns_per_insn budget n = some (m', r)) :
    EventQueue.Used m.events m'.events := by
  have hcall : EventQueue.Used m.events (m.call (Cpu.run_quantum n)).1.events :=
    LawfulCpu.run_quantum n _ _ _
  unfold quantum at h
  split at h
  rename_i ran result heq
  rw [heq] at hcall
  split at h
  · cases h
    exact hcall
  · have hused := used_settle h
    exact hcall.trans hused

theorem used_poll {fuel : Nat} {m m' : Machine C Ev F} {ctx : AdvanceCtx} {r : EntityPoll}
    (h : m.poll fuel ctx = some (m', r)) : EventQueue.Used m.events m'.events := by
  unfold poll at h
  split at h
  · cases h
  · rename_i m₁ reason hfire
    cases h
    exact used_fire_due_events hfire
  · rename_i m₁ hfire
    refine (used_fire_due_events hfire).trans ?_
    have hpeek : EventQueue.Used m₁.events m₁.events.next_deadline.1 := .next_deadline _ .refl
    unfold run at h
    dsimp only at h
    split at h
    · exact hpeek.trans (used_idle h)
    · split at h
      · cases h
        exact hpeek
      · split at h
        · exact hpeek.trans (used_idle h)
        · exact hpeek.trans (used_quantum h)

theorem used_inspect_command (m : Machine C Ev F) (cmd : InspectCommand) :
    EventQueue.Used m.events (m.inspect_command cmd).1.events := by
  cases cmd with
  | ReadMem addr len =>
    have hcall : EventQueue.Used m.events (m.call (Cpu.read_mem addr len)).1.events :=
      LawfulCpu.read_mem addr len _ _ _
    unfold inspect_command
    dsimp only
    split <;> rename_i heq <;> rw [heq] at hcall <;> exact hcall
  | WriteMem addr data =>
    have hcall : EventQueue.Used m.events (m.call (Cpu.write_mem addr data)).1.events :=
      LawfulCpu.write_mem addr data _ _ _
    unfold inspect_command
    dsimp only
    split <;> rename_i heq <;> rw [heq] at hcall <;> exact hcall
  | _ =>
    unfold inspect_command
    dsimp only
    first
      | exact .refl
      | (split <;> exact .refl)

end Machine

end Rl78Sim
