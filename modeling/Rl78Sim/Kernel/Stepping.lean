import Rl78Sim.Kernel.EventLaws
import Rl78Sim.Kernel.MachineLaws

/-! # Single Steps

    Which polls of a machine complete a single step. With `step_once` an
    instruction may be retired whatever the ceiling, so a poll that gets to the
    core answers as soon as the core retires one or stops; a guest whose clock is
    stopped has to be carried forward in time instead, which takes room below
    the ceiling. A poll that gets nowhere is tried again. -/

namespace Rl78Sim

/-! ### A queue without due events -/

namespace EventQueue

variable {Ev : Type}

theorem drop_stale_from_idem (events : List (Nat × Ev)) (heap : List Scheduled)
    (cancelled : List Nat) :
    drop_stale_from events (drop_stale_from events heap cancelled).1
        (drop_stale_from events heap cancelled).2 = drop_stale_from events heap cancelled := by
  induction heap generalizing cancelled with
  | nil => rfl
  | cons item rest ih =>
    by_cases hcancelled : item.id ∈ cancelled
    · simp only [drop_stale_from, hcancelled, if_true]
      exact ih _
    · by_cases hnone : (events.lookup item.id).isNone = true
      · simp only [drop_stale_from, hcancelled, hnone, if_true, if_false]
        exact ih _
      · simp [drop_stale_from, hcancelled, hnone]

theorem drop_stale_idem (q : EventQueue Ev) : q.drop_stale.drop_stale = q.drop_stale := by
  unfold drop_stale
  dsimp only
  rw [drop_stale_from_idem]

/-- A queue that has nothing due stays as it is when it is asked again. -/
theorem pop_due_none {q q' : EventQueue Ev} {now : Nat} (h : q.pop_due now = (q', none)) :
    q'.pop_due now = (q', none) ∧ q'.next_deadline.1 = q' := by
  -- Popping nothing leaves a queue with no stale item and no due one at its front.
  have hq' : q' = q.drop_stale ∧ (q.drop_stale.heap = [] ∨
      ∃ item rest, q.drop_stale.heap = item :: rest ∧ now < item.at_) := by
    unfold pop_due at h
    dsimp only at h
    cases hheap : q.drop_stale.heap with
    | nil =>
      rw [hheap] at h
      exact ⟨(congrArg Prod.fst h).symm, .inl rfl⟩
    | cons item rest =>
      rw [hheap] at h
      by_cases hlt : now < item.at_
      · simp only [hlt, if_true] at h
        exact ⟨(congrArg Prod.fst h).symm, .inr ⟨item, rest, rfl, hlt⟩⟩
      · have hlive : (q.events.lookup item.id).isSome = true := head_drop_stale_from hheap
        obtain ⟨event, hevent⟩ := Option.isSome_iff_exists.mp hlive
        have hevent' : q.drop_stale.events.lookup item.id = some event := hevent
        simp only [hlt, if_false, hevent'] at h
        cases congrArg Prod.snd h
  obtain ⟨rfl, hdue⟩ := hq'
  refine ⟨?_, drop_stale_idem q⟩
  unfold pop_due
  dsimp only
  rw [drop_stale_idem]
  rcases hdue with hnil | ⟨item, rest, hheap, hlt⟩
  · rw [hnil]
  · rw [hheap]
    simp only [hlt, if_true]

end EventQueue

namespace Machine

variable {C Ev F : Type} [Cpu C Ev F]

/-! ### Enough fuel -/

theorem fire_due_events_mono {fuel fuel' : Nat} {m : Machine C Ev F}
    {x : Machine C Ev F × Option StopReason} (hle : fuel ≤ fuel')
    (h : fire_due_events fuel m = some x) : fire_due_events fuel' m = some x := by
  induction fuel generalizing m fuel' with
  | zero => cases h
  | succ fuel ih =>
    obtain ⟨fuel', rfl⟩ : ∃ k, fuel' = k + 1 := ⟨fuel' - 1, by omega⟩
    simp only [fire_due_events] at h ⊢
    split at h
    · exact h
    · split at h
      · exact h
      · exact ih (by omega) h

theorem finish_poll_mono {fuel fuel' : Nat} {m : Machine C Ev F}
    {x : Machine C Ev F × EntityPoll} (hle : fuel ≤ fuel')
    (h : finish_poll fuel m = some x) : finish_poll fuel' m = some x := by
  obtain ⟨y, hfire, rfl⟩ := Option.map_eq_some_iff.mp h
  rw [finish_poll, fire_due_events_mono hle hfire]
  rfl

theorem settle_mono {fuel fuel' : Nat} {m : Machine C Ev F} {stop : Option StopReason}
    {x : Machine C Ev F × EntityPoll} (hle : fuel ≤ fuel') (h : settle fuel m stop = some x) :
    settle fuel' m stop = some x := by
  unfold settle at h ⊢
  split at h
  · exact h
  · split at h
    · exact h
    · exact finish_poll_mono hle h

theorem idle_mono {fuel fuel' budget : Nat} {m : Machine C Ev F}
    {x : Machine C Ev F × EntityPoll} (hle : fuel ≤ fuel') (h : m.idle fuel budget = some x) :
    m.idle fuel' budget = some x := by
  unfold idle at h ⊢
  by_cases hroom : budget = 0
  · rwa [if_pos hroom] at h ⊢
  · rw [if_neg hroom] at h ⊢
    exact finish_poll_mono hle h

theorem quantum_mono {fuel fuel' ns_per_insn budget k : Nat} {m : Machine C Ev F}
    {x : Machine C Ev F × EntityPoll} (hle : fuel ≤ fuel')
    (h : m.quantum fuel ns_per_insn budget k = some x) :
    m.quantum fuel' ns_per_insn budget k = some x := by
  unfold quantum at h ⊢
  dsimp only at h ⊢
  by_cases hidle : (m.call (Cpu.run_quantum k)).2.instructions = 0 ∧
      (m.call (Cpu.run_quantum k)).2.stop = none
  · rwa [if_pos hidle] at h ⊢
  · rw [if_neg hidle] at h ⊢
    exact settle_mono hle h

theorem run_mono {fuel fuel' : Nat} {m : Machine C Ev F} {ctx : AdvanceCtx}
    {x : Machine C Ev F × EntityPoll} (hle : fuel ≤ fuel') (h : m.run fuel ctx = some x) :
    m.run fuel' ctx = some x := by
  unfold run at h ⊢
  dsimp only at h ⊢
  revert h
  generalize ({ m with events := m.events.next_deadline.1 } : Machine C Ev F) = m₁
  -- Fuel is read only in `idle` and `quantum`.
  generalize m.budget_ns ctx = budget
  intro h
  cases hperiod : m₁.period with
  | none =>
    rw [hperiod] at h
    exact idle_mono hle h
  | some ns_per_insn =>
    rw [hperiod] at h
    dsimp only at h ⊢
    by_cases hlong : ctx.max_quantum < ns_per_insn
    · rwa [if_pos hlong] at h ⊢
    · rw [if_neg hlong] at h ⊢
      cases hmax : m₁.max_instructions ctx ns_per_insn budget with
      | zero =>
        rw [hmax] at h
        exact idle_mono hle h
      | succ k =>
        rw [hmax] at h
        exact quantum_mono hle h

theorem poll_mono {fuel fuel' : Nat} {m : Machine C Ev F} {ctx : AdvanceCtx}
    {x : Machine C Ev F × EntityPoll} (hle : fuel ≤ fuel') (h : m.poll fuel ctx = some x) :
    m.poll fuel' ctx = some x := by
  unfold poll at h ⊢
  cases hfire : fire_due_events fuel m with
  | none =>
    rw [hfire] at h
    cases h
  | some fired =>
    obtain ⟨m₁, stop⟩ := fired
    rw [hfire] at h
    rw [fire_due_events_mono hle hfire]
    cases stop with
    | none => exact run_mono hle h
    | some reason => exact h

/-- The events due fire to an end. -/
def Settles (m m' : Machine C Ev F) (stop : Option StopReason) : Prop :=
  ∃ fuel, fire_due_events fuel m = some (m', stop)

theorem Settles.unique {m m₁ m₂ : Machine C Ev F} {stop₁ stop₂ : Option StopReason}
    (h₁ : Settles m m₁ stop₁) (h₂ : Settles m m₂ stop₂) : m₁ = m₂ ∧ stop₁ = stop₂ := by
  obtain ⟨fuel₁, h₁⟩ := h₁
  obtain ⟨fuel₂, h₂⟩ := h₂
  have h₁ := fire_due_events_mono (Nat.le_max_left fuel₁ fuel₂) h₁
  have h₂ := fire_due_events_mono (Nat.le_max_right fuel₁ fuel₂) h₂
  rw [h₁] at h₂
  cases h₂
  exact ⟨rfl, rfl⟩

/-- After the due events have fired without a stop nothing is due. -/
theorem settled_of_fire {fuel : Nat} {m m' : Machine C Ev F}
    (h : fire_due_events fuel m = some (m', none)) :
    (∀ k, fire_due_events (k + 1) m' = some (m', none)) ∧
      m'.events.next_deadline.1 = m'.events := by
  induction fuel generalizing m with
  | zero => cases h
  | succ fuel ih =>
    simp only [fire_due_events] at h
    split at h
    · rename_i events hpop
      cases h
      obtain ⟨hagain, hnext⟩ := EventQueue.pop_due_none hpop
      refine ⟨fun k => ?_, hnext⟩
      simp only [fire_due_events, hagain]
    · split at h
      · cases h
      · exact ih h

theorem Settles.again {m m' : Machine C Ev F} (h : Settles m m' none) :
    Settles m' m' none ∧ m'.events.next_deadline.1 = m'.events := by
  obtain ⟨fuel, h⟩ := h
  obtain ⟨hagain, hnext⟩ := settled_of_fire h
  exact ⟨⟨1, hagain 0⟩, hnext⟩

/-! ### The kinds of polls of a single step -/

/-- The core, given one instruction, retires it or stops. -/
def Engages (m : Machine C Ev F) : Prop :=
  (m.call (Cpu.run_quantum 1)).2.instructions ≠ 0 ∨ (m.call (Cpu.run_quantum 1)).2.stop ≠ none

/-- The machine when the quantum of one instruction has been accounted for. -/
def stepped (m : Machine C Ev F) (ctx : AdvanceCtx) (ns_per_insn : Nat) : Machine C Ev F :=
  (m.call (Cpu.run_quantum 1)).1.charge ns_per_insn
    (m.call (Cpu.run_quantum 1)).2.instructions (saturating_add m.clock.now (m.budget_ns ctx))

/-- The poll ends after the quantum: for a trap, for the core's own stop, or
    when the events that became due have fired. -/
def Concludes (m : Machine C Ev F) (ctx : AdvanceCtx) (ns_per_insn : Nat) : Prop :=
  ∃ fuel, (settle fuel (m.stepped ctx ns_per_insn)
    (m.call (Cpu.run_quantum 1)).2.stop).isSome = true

/-- A single step completes within `polls` retries. In each poll the due events
    fire first; one of them may request the stop. -/
inductive StepAnswers (ctx : AdvanceCtx) : Nat → Machine C Ev F → Prop where
  | stop_event {polls : Nat} {m m' : Machine C Ev F} {reason : StopReason} :
      Settles m m' (some reason) → StepAnswers ctx polls m
  /-- The guest clock is stopped, and there is room below the ceiling. -/
  | clock_stopped {polls : Nat} {m m' : Machine C Ev F} :
      Settles m m' none → m'.period = none → m'.budget_ns ctx ≠ 0 →
      (∃ m'' stop, Settles (m'.advance_clock (m'.budget_ns ctx)) m'' stop) →
      StepAnswers ctx polls m
  /-- An instruction fits into a quantum, and the core engages. -/
  | engaged {polls : Nat} {m m' : Machine C Ev F} {ns_per_insn : Nat} :
      Settles m m' none → m'.period = some ns_per_insn → ns_per_insn ≤ ctx.max_quantum →
      m'.Engages → m'.Concludes ctx ns_per_insn → StepAnswers ctx polls m
  /-- The core comes back without an instruction, and is asked again. -/
  | retried {polls : Nat} {m m' : Machine C Ev F} {ns_per_insn : Nat} :
      Settles m m' none → m'.period = some ns_per_insn → ns_per_insn ≤ ctx.max_quantum →
      ¬ m'.Engages → StepAnswers ctx polls (m'.call (Cpu.run_quantum 1)).1 →
      StepAnswers ctx (polls + 1) m

/-- A machine that no poll moves: its clock is stopped and it has no room. -/
def Stuck (ctx : AdvanceCtx) (m : Machine C Ev F) : Prop :=
  ∃ m', Settles m m' none ∧ m'.period = none ∧ m'.budget_ns ctx = 0

theorem Stuck.not_answers {ctx : AdvanceCtx} {m : Machine C Ev F} (h : Stuck ctx m)
    {polls : Nat} : ¬ StepAnswers ctx polls m := by
  obtain ⟨m', hset, hperiod, hbudget⟩ := h
  intro hans
  cases hans with
  | stop_event hset' => cases (hset.unique hset').2
  | clock_stopped hset' _ hroom =>
    obtain ⟨rfl, -⟩ := hset.unique hset'
    exact hroom hbudget
  | engaged hset' hp =>
    obtain ⟨rfl, -⟩ := hset.unique hset'
    rw [hperiod] at hp
    cases hp
  | retried hset' hp =>
    obtain ⟨rfl, -⟩ := hset.unique hset'
    rw [hperiod] at hp
    cases hp

/-! ### The polls of a single step -/

/-- A result that completes a single step. -/
def Answered (r : EntityPoll) : Prop := r = .Progressed ∨ ∃ reason, r = .Done (.Stopped reason)

theorem answered_finish_poll {fuel : Nat} {m m' : Machine C Ev F} {r : EntityPoll}
    (h : finish_poll fuel m = some (m', r)) : Answered r := by
  obtain ⟨⟨fired, stop⟩, -, heq⟩ := Option.map_eq_some_iff.mp h
  cases stop with
  | none =>
    cases heq
    exact .inl rfl
  | some reason =>
    cases heq
    exact .inr ⟨reason, rfl⟩

theorem answered_settle {fuel : Nat} {m m' : Machine C Ev F} {stop : Option StopReason}
    {r : EntityPoll} (h : settle fuel m stop = some (m', r)) : Answered r := by
  unfold settle at h
  split at h
  · cases h
    exact .inr ⟨_, rfl⟩
  · split at h
    · cases h
      exact .inr ⟨_, rfl⟩
    · exact answered_finish_poll h

/-- A settled machine is polled as it is. -/
theorem run_of_settled {m : Machine C Ev F} {ctx : AdvanceCtx} (fuel : Nat)
    (honce : ctx.step_once = true) (hnext : m.events.next_deadline.1 = m.events) :
    m.run fuel ctx =
      match m.period with
      | none => m.idle fuel (m.budget_ns ctx)
      | some ns_per_insn =>
          if ctx.max_quantum < ns_per_insn then
            some (m, .Done (.Error
              (.InstructionPeriodExceedsQuantum ns_per_insn ctx.max_quantum)))
          else m.quantum fuel ns_per_insn (m.budget_ns ctx) 1 := by
  have hsame : ({ m with events := m.events.next_deadline.1 } : Machine C Ev F) = m := by
    rw [hnext]
  unfold run
  dsimp only
  rw [hsame]
  cases m.period with
  | none => rfl
  | some ns_per_insn =>
    dsimp only
    simp only [max_instructions, honce, if_true]

/-- What one poll of a single step comes to. -/
inductive StepPoll (ctx : AdvanceCtx) (m : Machine C Ev F) :
    Machine C Ev F → EntityPoll → Prop where
  | answered {m' : Machine C Ev F} {r : EntityPoll} :
      Answered r → (∀ polls, StepAnswers ctx polls m) → StepPoll ctx m m' r
  | stuck {m' : Machine C Ev F} : Stuck ctx m → Stuck ctx m' → StepPoll ctx m m' .NoProgress
  | again {m₁ : Machine C Ev F} {ns_per_insn : Nat} :
      Settles m m₁ none → m₁.period = some ns_per_insn → ns_per_insn ≤ ctx.max_quantum →
      ¬ m₁.Engages → StepPoll ctx m (m₁.call (Cpu.run_quantum 1)).1 .NoProgress
  | failed {m' : Machine C Ev F} {err : SimError} : (∀ polls, ¬ StepAnswers ctx polls m) →
      StepPoll ctx m m' (.Done (.Error err))

theorem not_answers_of_period {ctx : AdvanceCtx} {m m₁ : Machine C Ev F} {ns_per_insn : Nat}
    (hset : Settles m m₁ none) (hperiod : m₁.period = some ns_per_insn)
    (hlong : ctx.max_quantum < ns_per_insn) (polls : Nat) : ¬ StepAnswers ctx polls m := by
  have hfits : ∀ {m' p}, Settles m m' none → m'.period = some p → ¬ p ≤ ctx.max_quantum := by
    intro m' p hset' hp hle
    obtain ⟨rfl, -⟩ := hset.unique hset'
    rw [hperiod] at hp
    cases hp
    omega
  intro hans
  cases hans with
  | stop_event hset' => cases (hset.unique hset').2
  | clock_stopped hset' hp =>
    obtain ⟨rfl, -⟩ := hset.unique hset'
    rw [hperiod] at hp
    cases hp
  | engaged hset' hp hle => exact hfits hset' hp hle
  | retried hset' hp hle => exact hfits hset' hp hle

theorem step_poll {fuel : Nat} {m m' : Machine C Ev F} {ctx : AdvanceCtx} {r : EntityPoll}
    (honce : ctx.step_once = true) (h : m.poll fuel ctx = some (m', r)) : StepPoll ctx m m' r := by
  unfold poll at h
  split at h
  · cases h
  · rename_i fired reason hfire
    cases h
    exact .answered (.inr ⟨reason, rfl⟩) fun _ => .stop_event ⟨fuel, hfire⟩
  · rename_i m₁ hfire
    have hset : Settles m m₁ none := ⟨fuel, hfire⟩
    rw [run_of_settled fuel honce hset.again.2] at h
    cases hperiod : m₁.period with
    | none =>
      simp only [hperiod, idle] at h
      by_cases hroom : m₁.budget_ns ctx = 0
      · simp only [hroom, if_true] at h
        cases h
        exact .stuck ⟨_, hset, hperiod, hroom⟩ ⟨_, hset.again.1, hperiod, hroom⟩
      · simp only [hroom, if_false] at h
        refine .answered (answered_finish_poll h) fun _ => .clock_stopped hset hperiod hroom ?_
        obtain ⟨⟨fired, stop⟩, hlate, -⟩ := Option.map_eq_some_iff.mp h
        exact ⟨fired, stop, fuel, hlate⟩
    | some ns_per_insn =>
      simp only [hperiod] at h
      by_cases hlong : ctx.max_quantum < ns_per_insn
      · simp only [hlong, if_true] at h
        cases h
        exact .failed (not_answers_of_period hset hperiod hlong)
      · simp only [hlong, if_false, quantum] at h
        -- A quantum that retires nothing and stops for nothing is tried again.
        by_cases hengage : m₁.Engages
        · rw [if_neg (by rintro ⟨hi, hs⟩; exact hengage.elim (· hi) (· hs))] at h
          refine .answered (answered_settle h) fun _ =>
            .engaged hset hperiod (Nat.not_lt.mp hlong) hengage ⟨fuel, ?_⟩
          exact Option.isSome_of_eq_some h
        · have hidle : (m₁.call (Cpu.run_quantum 1)).2.instructions = 0 ∧
              (m₁.call (Cpu.run_quantum 1)).2.stop = none := by
            simpa [Engages, not_or] using hengage
          rw [if_pos hidle] at h
          cases h
          exact .again hset hperiod (Nat.not_lt.mp hlong) hengage

/-- With enough fuel, a step that can complete is completed or tried again. -/
theorem poll_of_answers {m : Machine C Ev F} {ctx : AdvanceCtx} {polls : Nat}
    (honce : ctx.step_once = true) (h : StepAnswers ctx polls m) :
    (∃ fuel m' r, m.poll fuel ctx = some (m', r) ∧ Answered r) ∨
      ∃ fuel m' k, polls = k + 1 ∧ m.poll fuel ctx = some (m', .NoProgress) ∧
        StepAnswers ctx k m' := by
  cases h with
  | @stop_event _ _ m' reason hset =>
    obtain ⟨fuel, hfire⟩ := hset
    exact .inl ⟨fuel, m', _, by simp only [poll, hfire], .inr ⟨reason, rfl⟩⟩
  | @clock_stopped _ _ m₁ hset hperiod hroom hlate =>
    obtain ⟨fuel₁, hfire⟩ := hset
    obtain ⟨m₂, stop, fuel₂, hlate⟩ := hlate
    -- one amount of fuel for the events before and after the clock moves
    obtain ⟨fuel, hle₁, hle₂⟩ : ∃ fuel, fuel₁ ≤ fuel ∧ fuel₂ ≤ fuel :=
      ⟨max fuel₁ fuel₂, Nat.le_max_left _ _, Nat.le_max_right _ _⟩
    have hfire := fire_due_events_mono hle₁ hfire
    obtain ⟨⟨m', r⟩, hfinish⟩ : ∃ x,
        finish_poll fuel (m₁.advance_clock (m₁.budget_ns ctx)) = some x := by
      rw [finish_poll, fire_due_events_mono hle₂ hlate]
      exact ⟨_, rfl⟩
    refine .inl ⟨fuel, m', r, ?_, answered_finish_poll hfinish⟩
    have hrun := run_of_settled fuel honce (Settles.again ⟨_, hfire⟩).2
    simp only [hperiod, idle, hroom, if_false, hfinish] at hrun
    simp only [poll, hfire, hrun]
  | @engaged _ _ m₁ ns_per_insn hset hperiod hfits hengage hend =>
    obtain ⟨fuel₁, hfire⟩ := hset
    obtain ⟨fuel₂, hend⟩ := hend
    obtain ⟨fuel, hle₁, hle₂⟩ : ∃ fuel, fuel₁ ≤ fuel ∧ fuel₂ ≤ fuel :=
      ⟨max fuel₁ fuel₂, Nat.le_max_left _ _, Nat.le_max_right _ _⟩
    have hfire := fire_due_events_mono hle₁ hfire
    obtain ⟨⟨m', r⟩, hsettle⟩ := Option.isSome_iff_exists.mp hend
    have hsettle := settle_mono hle₂ hsettle
    refine .inl ⟨fuel, m', r, ?_, answered_settle hsettle⟩
    have hbusy : ¬ ((m₁.call (Cpu.run_quantum 1)).2.instructions = 0 ∧
        (m₁.call (Cpu.run_quantum 1)).2.stop = none) := by
      rintro ⟨hi, hs⟩
      exact hengage.elim (· hi) (· hs)
    have hrun := run_of_settled fuel honce (Settles.again ⟨_, hfire⟩).2
    simp only [hperiod, Nat.not_lt.mpr hfits, if_false, quantum, if_neg hbusy] at hrun
    simp only [poll, hfire, hrun]
    exact hsettle
  | @retried k _ m₁ ns_per_insn hset hperiod hfits hidle hans =>
    obtain ⟨fuel, hfire⟩ := hset
    refine .inr ⟨fuel, _, k, rfl, ?_, hans⟩
    have hrun := run_of_settled fuel honce (Settles.again ⟨_, hfire⟩).2
    have hzero : (m₁.call (Cpu.run_quantum 1)).2.instructions = 0 ∧
        (m₁.call (Cpu.run_quantum 1)).2.stop = none := by
      simpa [Engages, not_or] using hidle
    simp only [hperiod, Nat.not_lt.mpr hfits, if_false, quantum, if_pos hzero] at hrun
    simp only [poll, hfire, hrun]

end Machine

end Rl78Sim
