import Rl78Sim.Kernel.Machine

/-! # What a Machine Guarantees

    The laws of `LawfulEntity` for machines. They hold for every chip: the
    clock moves only in `idle` and `quantum`, and by amounts that the kernel
    computes.
-/

namespace Rl78Sim

namespace Machine

variable {C Ev F : Type}

/-! ### Steps at one instant -/

/-- `m'` is `m` after chip calls at one instant. -/
structure Frame (m m' : Machine C Ev F) : Prop where
  clock_eq : m'.clock = m.clock
  last_eq : m'.last_insn_at = m.last_insn_at
  retired_eq : m'.retired = m.retired
  ports : m.ports.Extends m'.ports m.clock.now m.clock.now

theorem Frame.refl (m : Machine C Ev F) : Frame m m :=
  ⟨rfl, rfl, rfl, OutPorts.Extends.refl _ _ _⟩

theorem Frame.trans {m m' m'' : Machine C Ev F} (h : Frame m m') (h' : Frame m' m'') :
    Frame m m'' := by
  obtain ⟨hclock, hlast, hret, hports⟩ := h
  obtain ⟨hclock', hlast', hret', hports'⟩ := h'
  rw [hclock] at hports'
  exact ⟨hclock'.trans hclock, hlast'.trans hlast, hret'.trans hret, hports.trans hports'⟩

/-- A chip call is a frame step. -/
theorem frame_call {α : Type} (m : Machine C Ev F) (op : ChipOp C Ev F α) :
    Frame m (m.call op).1 :=
  ⟨rfl, rfl, rfl, call_ports m op⟩

theorem frame_fire_due_events [Cpu C Ev F] {fuel : Nat} {m m' : Machine C Ev F}
    {stop : Option StopReason} (h : fire_due_events fuel m = some (m', stop)) :
    Frame m m' := by
  induction fuel generalizing m with
  | zero => simp [fire_due_events] at h
  | succ fuel ih =>
    simp only [fire_due_events] at h
    split at h
    · obtain ⟨rfl, -⟩ : _ ∧ none = stop := by simpa using h
      exact ⟨rfl, rfl, rfl, OutPorts.Extends.refl _ _ _⟩
    · rename_i events _ event _
      have hcall := frame_call ({ m with events := events } : Machine C Ev F) (Cpu.fire event)
      have hfire : Frame m (({ m with events := events } : Machine C Ev F).call
          (Cpu.fire event)).1 := ⟨hcall.1, hcall.2, hcall.3, hcall.4⟩
      split at h <;> rename_i heq
      · obtain ⟨rfl, -⟩ : _ ∧ some _ = stop := by simpa using h
        rw [heq] at hfire
        exact hfire
      · rw [heq] at hfire
        exact hfire.trans (ih h)

/-! ### Steps that move the clock -/

/-- `m'` is `m` after moving the clock forward, retiring `n` instructions. -/
structure Advance (m m' : Machine C Ev F) (n : Nat) : Prop where
  clock_le : m.clock.now ≤ m'.clock.now
  retired_eq : m'.retired = m.retired + n
  ports : m.ports.Extends m'.ports m.clock.now m'.clock.now

theorem Advance.of_frame {m m' : Machine C Ev F} (h : Frame m m') : Advance m m' 0 := by
  have hclock := h.clock_eq
  refine ⟨Nat.le_of_eq (by rw [hclock]), h.retired_eq, ?_⟩
  rw [hclock]
  exact h.ports

theorem Advance.trans_frame {m m' m'' : Machine C Ev F} {n : Nat} (h : Advance m m' n)
    (h' : Frame m' m'') : Advance m m'' n := by
  refine ⟨by rw [h'.clock_eq]; exact h.clock_le, by rw [h'.retired_eq]; exact h.retired_eq, ?_⟩
  have hlast := h'.ports.mono h.clock_le (Nat.le_refl _)
  rw [h'.clock_eq]
  exact h.ports.trans hlast

theorem Frame.trans_advance {m m' m'' : Machine C Ev F} {n : Nat} (h : Frame m m')
    (h' : Advance m' m'' n) : Advance m m'' n := by
  have hclock := h'.clock_le
  have hports := h'.ports
  rw [h.clock_eq] at hclock hports
  refine ⟨hclock, by rw [h'.retired_eq, h.retired_eq], ?_⟩
  exact (h.ports.mono (Nat.le_refl _) hclock).trans hports

theorem finish_poll_frame [Cpu C Ev F] {fuel : Nat} {m m' : Machine C Ev F} {r : EntityPoll}
    (h : finish_poll fuel m = some (m', r)) :
    Frame m m' ∧ (r = .Progressed ∨ ∃ reason, r = .Done (.Stopped reason)) := by
  simp only [finish_poll, Option.map_eq_some_iff] at h
  obtain ⟨⟨fired, stop⟩, hfire, heq⟩ := h
  have hframe := frame_fire_due_events hfire
  cases stop with
  | none =>
    obtain ⟨rfl, rfl⟩ : fired = m' ∧ .Progressed = r := by simpa using heq
    exact ⟨hframe, .inl rfl⟩
  | some reason =>
    obtain ⟨rfl, rfl⟩ : fired = m' ∧ .Done (.Stopped reason) = r := by simpa using heq
    exact ⟨hframe, .inr ⟨reason, rfl⟩⟩

/-- What `idle` does: nothing without a budget, else the clock moves by
    exactly the budget. -/
theorem idle_spec [Cpu C Ev F] {fuel : Nat} {m m' : Machine C Ev F} {budget : Nat} {r : EntityPoll}
    (h : m.idle fuel budget = some (m', r)) :
    (m' = m ∧ r = .NoProgress) ∨
      (Advance m m' 0 ∧ m'.clock.now = saturating_add m.clock.now budget ∧
        (r = .Progressed ∨ ∃ reason, r = .Done (.Stopped reason))) := by
  unfold idle at h
  split at h
  · obtain ⟨rfl, rfl⟩ : m = m' ∧ .NoProgress = r := by simpa using h
    exact .inl ⟨rfl, rfl⟩
  · obtain ⟨hframe, hr⟩ := finish_poll_frame h
    have hadv : Advance m (m.advance_clock budget) 0 := by
      refine ⟨m.clock.le_advance budget, rfl, ?_⟩
      exact OutPorts.Extends.refl _ _ _
    refine .inr ⟨hadv.trans_frame hframe, ?_, hr⟩
    rw [hframe.clock_eq, advance_clock_now]

/-- The clock after charging a quantum that fits its target. -/
theorem charge_now (m : Machine C Ev F) (ns_per_insn instructions target : Nat) :
    (m.charge ns_per_insn instructions target).clock.now =
      saturating_add m.clock.now
        (max (saturating_add m.last_insn_at (saturating_mul ns_per_insn instructions)) target
          - m.clock.now) := rfl

theorem charge_advance (m : Machine C Ev F) (ns_per_insn instructions target : Nat) :
    Advance m (m.charge ns_per_insn instructions target) instructions :=
  ⟨m.clock.le_advance _, rfl, OutPorts.Extends.refl _ _ _⟩

/-- Settling a quantum changes the chip and the event queue only. -/
theorem settle_frame [Cpu C Ev F] {fuel : Nat} {m m' : Machine C Ev F}
    {stop : Option StopReason} {r : EntityPoll} (h : m.settle fuel stop = some (m', r)) :
    Frame m m' ∧ (r = .Progressed ∨ ∃ reason, r = .Done (.Stopped reason)) := by
  have hsoc (soc : C) : Frame m { m with soc := soc } :=
    ⟨rfl, rfl, rfl, OutPorts.Extends.refl _ _ _⟩
  unfold settle at h
  split at h
  · simp only [Option.some.injEq, Prod.mk.injEq] at h
    obtain ⟨rfl, rfl⟩ := h
    exact ⟨hsoc _, .inr ⟨_, rfl⟩⟩
  · cases stop with
    | some reason =>
      simp only [Option.some.injEq, Prod.mk.injEq] at h
      obtain ⟨rfl, rfl⟩ := h
      exact ⟨hsoc _, .inr ⟨_, rfl⟩⟩
    | none =>
      obtain ⟨hframe, hr⟩ := finish_poll_frame h
      exact ⟨(hsoc _).trans hframe, hr⟩

/-- What `quantum` does: no instruction and no clock, or at most `n`
    instructions charged against the target. -/
theorem quantum_spec [Cpu C Ev F] {fuel : Nat} {m m' : Machine C Ev F}
    {ns_per_insn budget n : Nat} {r : EntityPoll}
    (h : m.quantum fuel ns_per_insn budget n = some (m', r)) :
    (Frame m m' ∧ r = .NoProgress) ∨
      (∃ k ≤ n, Advance m m' k ∧
        m'.clock.now = saturating_add m.clock.now
          (max (saturating_add m.last_insn_at (saturating_mul ns_per_insn k))
            (saturating_add m.clock.now budget) - m.clock.now) ∧
        (r = .Progressed ∨ ∃ reason, r = .Done (.Stopped reason))) := by
  unfold quantum at h
  have hcall := frame_call m (@Cpu.run_quantum C Ev F _ n)
  split at h
  rename_i ran result heq
  replace hcall : Frame m ran := by simpa only [heq] using hcall
  split at h
  · obtain ⟨rfl, rfl⟩ : ran = m' ∧ .NoProgress = r := by simpa using h
    exact .inl ⟨hcall, rfl⟩
  · obtain ⟨hframe, hr⟩ := settle_frame h
    have hadv := hcall.trans_advance (charge_advance ran ns_per_insn result.instructions
      (saturating_add ran.clock.now budget))
    refine .inr ⟨result.instructions, result.le_max, hadv.trans_frame hframe, ?_, hr⟩
    rw [hframe.clock_eq, charge_now, hcall.clock_eq, hcall.last_eq]

/-! ### One poll -/

/-- Without `step_once` a quantum is sized to end within its budget. -/
theorem charged_le_target (m : Machine C Ev F) {ns_per_insn budget k : Nat}
    (hk : k ≤ min ((saturating_add m.clock.now budget - m.last_insn_at) / ns_per_insn) u32_max) :
    saturating_add m.last_insn_at (saturating_mul ns_per_insn k) ≤
      saturating_add m.clock.now budget := by
  have hmax := saturating_add_le_max m.clock.now budget
  have hbase : m.last_insn_at ≤ saturating_add m.clock.now budget :=
    Nat.le_trans m.last_insn_le (le_saturating_add_left budget m.clock.le_max)
  have hfit : ns_per_insn * k ≤ saturating_add m.clock.now budget - m.last_insn_at :=
    calc ns_per_insn * k
        ≤ ns_per_insn * ((saturating_add m.clock.now budget - m.last_insn_at) / ns_per_insn) :=
          Nat.mul_le_mul_left _ (Nat.le_trans hk (Nat.min_le_left _ _))
      _ ≤ saturating_add m.clock.now budget - m.last_insn_at := Nat.mul_div_le _ _
  have hmul := saturating_mul_le ns_per_insn k
  have hsum := saturating_add_le m.last_insn_at (saturating_mul ns_per_insn k)
  omega

/-- What a poll does to a machine, by its result. -/
structure PollSpec (m m' : Machine C Ev F) (ctx : AdvanceCtx) (r : EntityPoll) : Prop where
  advance : ∃ k, Advance m m' k ∧ (ctx.step_once = true → k ≤ 1) ∧
    (r = .NoProgress → k = 0)
  le_budget : ctx.step_once = false → m'.clock.now ≤ m.clock.now + ctx.budget
  le_quantum : ctx.step_once = false → m'.clock.now ≤ m.clock.now + ctx.max_quantum
  /-- The three results that are not a stop. -/
  result : (r = .NoProgress ∧ m'.clock = m.clock) ∨ r = .Progressed ∨
    (∃ reason, r = .Done (.Stopped reason)) ∨
    (∃ err, r = .Done (.Error err) ∧ m'.clock = m.clock)

theorem PollSpec.of_frame {m m' : Machine C Ev F} {ctx : AdvanceCtx} {r : EntityPoll}
    (h : Frame m m') (hr : r = .NoProgress ∨ (∃ reason, r = .Done (.Stopped reason)) ∨
      ∃ err, r = .Done (.Error err)) : PollSpec m m' ctx r := by
  have hclock := h.clock_eq
  refine ⟨⟨0, .of_frame h, fun _ => Nat.zero_le _, fun _ => rfl⟩, fun _ => ?_, fun _ => ?_, ?_⟩
  · rw [hclock]; omega
  · rw [hclock]; omega
  · rcases hr with rfl | ⟨reason, rfl⟩ | ⟨err, rfl⟩
    · exact .inl ⟨rfl, hclock⟩
    · exact .inr (.inr (.inl ⟨reason, rfl⟩))
    · exact .inr (.inr (.inr ⟨err, rfl, hclock⟩))

theorem Frame.trans_pollSpec {m m' m'' : Machine C Ev F} {ctx : AdvanceCtx} {r : EntityPoll}
    (h : Frame m m') (h' : PollSpec m' m'' ctx r) : PollSpec m m'' ctx r := by
  have hclock := h.clock_eq
  obtain ⟨⟨k, hadv, hstep, hnone⟩, hbudget, hquantum, hr⟩ := h'
  rw [hclock] at hbudget hquantum hr
  exact ⟨⟨k, h.trans_advance hadv, hstep, hnone⟩, hbudget, hquantum, hr⟩

theorem budget_ns_le [Cpu C Ev F] (m : Machine C Ev F) (ctx : AdvanceCtx) :
    m.budget_ns ctx ≤ ctx.budget ∧ m.budget_ns ctx ≤ ctx.max_quantum := by
  unfold budget_ns
  omega

theorem idle_pollSpec [Cpu C Ev F] {fuel : Nat} {m m' : Machine C Ev F} {ctx : AdvanceCtx}
    {budget : Nat} {r : EntityPoll} (hle : budget ≤ ctx.budget ∧ budget ≤ ctx.max_quantum)
    (h : m.idle fuel budget = some (m', r)) : PollSpec m m' ctx r := by
  rcases idle_spec h with ⟨rfl, rfl⟩ | ⟨hadv, hnow, hr⟩
  · exact .of_frame (.refl _) (.inl rfl)
  · have hsum := saturating_add_le m.clock.now budget
    refine ⟨⟨0, hadv, fun _ => Nat.zero_le _, fun _ => rfl⟩, fun _ => by omega,
      fun _ => by omega, ?_⟩
    rcases hr with rfl | ⟨reason, rfl⟩
    · exact .inr (.inl rfl)
    · exact .inr (.inr (.inl ⟨reason, rfl⟩))

theorem quantum_pollSpec [Cpu C Ev F] {fuel : Nat} {m m' : Machine C Ev F} {ctx : AdvanceCtx}
    {ns_per_insn budget n : Nat} {r : EntityPoll}
    (hle : budget ≤ ctx.budget ∧ budget ≤ ctx.max_quantum)
    (hn : n = m.max_instructions ctx ns_per_insn budget)
    (h : m.quantum fuel ns_per_insn budget n = some (m', r)) : PollSpec m m' ctx r := by
  rcases quantum_spec h with ⟨hframe, rfl⟩ | ⟨k, hk, hadv, hnow, hr⟩
  · exact .of_frame hframe (.inl rfl)
  · have htarget : ctx.step_once = false → m'.clock.now ≤ m.clock.now + budget := by
      intro honce
      simp only [max_instructions, honce, Bool.false_eq_true, if_false] at hn
      -- The instructions charged fit in the budget they were computed from.
      have hcharged := charged_le_target m (hn ▸ hk)
      have hsum := saturating_add_le m.clock.now budget
      rw [hnow, Nat.max_eq_right hcharged]
      refine Nat.le_trans (saturating_add_le _ _) ?_
      omega
    refine ⟨⟨k, hadv, ?_, ?_⟩, fun honce => ?_, fun honce => ?_, ?_⟩
    · intro honce
      simp only [max_instructions, honce, if_true] at hn
      omega
    · rcases hr with rfl | ⟨_, rfl⟩ <;> simp
    · have := htarget honce
      omega
    · have := htarget honce
      omega
    · rcases hr with rfl | ⟨reason, rfl⟩
      · exact .inr (.inl rfl)
      · exact .inr (.inr (.inl ⟨reason, rfl⟩))

theorem run_pollSpec [Cpu C Ev F] {fuel : Nat} {m m' : Machine C Ev F} {ctx : AdvanceCtx}
    {r : EntityPoll} (h : m.run fuel ctx = some (m', r)) : PollSpec m m' ctx r := by
  have hle := budget_ns_le m ctx
  unfold run at h
  dsimp only at h
  generalize hpeek : ({ m with events := m.events.next_deadline.1 } : Machine C Ev F) = peeked at h
  have hframe : Frame m peeked := by
    subst hpeek
    exact ⟨rfl, rfl, rfl, OutPorts.Extends.refl _ _ _⟩
  refine hframe.trans_pollSpec ?_
  split at h
  · exact idle_pollSpec hle h
  · split at h
    · simp only [Option.some.injEq, Prod.mk.injEq] at h
      obtain ⟨rfl, rfl⟩ := h
      exact .of_frame (.refl _) (.inr (.inr ⟨_, rfl⟩))
    · split at h
      · exact idle_pollSpec hle h
      · rename_i n hn
        exact quantum_pollSpec hle hn.symm h

theorem poll_spec [Cpu C Ev F] {fuel : Nat} {m m' : Machine C Ev F} {ctx : AdvanceCtx}
    {r : EntityPoll} (h : m.poll fuel ctx = some (m', r)) : PollSpec m m' ctx r := by
  unfold poll at h
  split at h
  · cases h
  · rename_i hfire
    simp only [Option.some.injEq, Prod.mk.injEq] at h
    obtain ⟨rfl, rfl⟩ := h
    exact .of_frame (frame_fire_due_events hfire) (.inr (.inl ⟨_, rfl⟩))
  · rename_i hfire
    exact (frame_fire_due_events hfire).trans_pollSpec (run_pollSpec h)

/-! ### The laws -/

theorem Frame.timeless [Cpu C Ev F] {m m' : Machine C Ev F} (h : Frame m m') :
    Entity.Timeless m m' :=
  ⟨congrArg VirtualClock.now h.clock_eq, h.retired_eq, h.ports⟩

/-- Inspecting a machine takes no virtual time. -/
theorem frame_inspect_command [Cpu C Ev F] (m : Machine C Ev F) (cmd : InspectCommand) :
    Frame m (m.inspect_command cmd).1 := by
  have hsame {m' : Machine C Ev F} (hclock : m'.clock = m.clock)
      (hlast : m'.last_insn_at = m.last_insn_at) (hret : m'.retired = m.retired)
      (hports : m'.ports = m.ports) : Frame m m' :=
    ⟨hclock, hlast, hret, by rw [hports]; exact OutPorts.Extends.refl _ _ _⟩
  cases cmd <;> simp only [inspect_command]
  case ReadMem addr len =>
    have hcall := frame_call m (@Cpu.read_mem C Ev F _ addr len)
    split <;> simpa only [*] using hcall
  case WriteMem addr data =>
    have hcall := frame_call m (@Cpu.write_mem C Ev F _ addr data)
    split <;> simpa only [*] using hcall
  all_goals first
    | exact hsame rfl rfl rfl rfl
    | (split <;> exact hsame rfl rfl rfl rfl)

instance [Cpu C Ev F] : LawfulEntity (Machine C Ev F) where
  now_le_max m := m.clock.le_max
  poll_now_le h := by
    obtain ⟨k, hadv, -⟩ := (poll_spec h).advance
    exact hadv.clock_le
  poll_le_budget h := (poll_spec h).le_budget
  poll_noProgress h := by
    -- Only the first result is the one given; the others are no `NoProgress`.
    rcases (poll_spec h).result with ⟨-, hclock⟩ | hr | ⟨_, hr⟩ | ⟨_, hr, -⟩
    · exact congrArg VirtualClock.now hclock
    all_goals cases hr
  poll_error h := by
    rcases (poll_spec h).result with ⟨hr, -⟩ | hr | ⟨_, hr⟩ | ⟨_, -, hclock⟩
    · cases hr
    · cases hr
    · cases hr
    · exact congrArg VirtualClock.now hclock
  poll_done h := by
    rcases (poll_spec h).result with ⟨hr, -⟩ | hr | ⟨reason, hr⟩ | ⟨err, hr, -⟩
    · cases hr
    · cases hr
    · exact .inl ⟨reason, EntityPoll.Done.inj hr⟩
    · exact .inr ⟨err, EntityPoll.Done.inj hr⟩
  poll_retired {_ m m' _ _} h honce := by
    obtain ⟨k, hadv, hstep, -⟩ := (poll_spec h).advance
    have := hstep honce
    show m'.retired ≤ m.retired + 1
    rw [hadv.retired_eq]
    omega
  poll_noProgress_retired {_ m m' _} h := by
    obtain ⟨k, hadv, -, hnone⟩ := (poll_spec h).advance
    show m'.retired = m.retired
    rw [hadv.retired_eq, hnone rfl, Nat.add_zero]
  poll_ports h := by
    obtain ⟨k, hadv, -⟩ := (poll_spec h).advance
    exact hadv.ports
  poll_drive_quantum h honce := .inr ((poll_spec h).le_quantum honce)
  reset_timeless m := ⟨rfl, rfl, (frame_call m Cpu.reset).ports⟩
  inspect_timeless m cmd := (frame_inspect_command m cmd).timeless
  poll_actions_timeless m := (frame_call m Cpu.poll_actions).timeless
  apply_action_timeless m req := (frame_call m (Cpu.apply_action req)).timeless
  receive_timeless m port frame := (frame_call m (Cpu.drive_in port frame)).timeless
  drain_now _ _ := rfl
  drain_retired _ _ := rfl
  drain_ports _ _ := rfl

end Machine

end Rl78Sim
