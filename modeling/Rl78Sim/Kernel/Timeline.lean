import Rl78Sim.Kernel.Deadlines
import Rl78Sim.Kernel.SimRuns

/-! # When Events Fire

    A machine is run together with a history of its events: which have fired,
    at which deadline and at which time, and which were scheduled in a way
    that no clock can serve, in the past or within the quantum that scheduled
    them. The history reads the machine and never changes it.
-/

namespace Rl78Sim

open Transition

/-! ### Histories -/

/-- An event that has fired: `at_` is its deadline, `fired_at` its
    `EventCtx::now`, and `retired` the number of instructions before it. -/
structure Firing (Ev : Type) where
  id : Nat
  event : Ev
  at_ : Nat
  fired_at : Nat
  retired : Nat
  deriving DecidableEq

/-- The events that have fired, oldest first, and the ids of those scheduled
    for a time in the past, for a time that the instructions of the same
    quantum went past, and for a time that the clock went past at the end of
    the same quantum. -/
structure Timeline (Ev : Type) where
  fired : List (Firing Ev)
  past : List Nat
  passed_by_insns : List Nat
  passed_by_clock : List Nat

/-- The ids that `q'` has scheduled since `q` for a time before `t`. -/
def EventQueue.scheduled_before {Ev : Type} (q q' : EventQueue Ev) (t : Nat) : List Nat :=
  (q'.heap.filter fun item => q.next_id < item.id ∧ item.at_ < t).map Scheduled.id

/-- A machine with its history. -/
structure Traced (C Ev F : Type) where
  machine : Machine C Ev F
  log : Timeline Ev

namespace Traced

variable {C Ev F : Type}

def new (soc : C) : Traced C Ev F := ⟨Machine.new soc, ⟨[], [], [], []⟩⟩

/-- `Machine::call`, noting what is scheduled in the past. -/
def call {α : Type} (t : Traced C Ev F) (op : ChipOp C Ev F α) : Traced C Ev F × α :=
  match t.machine.call op with
  | (m, result) =>
      (⟨m, { t.log with
        past := t.log.past ++ t.machine.events.scheduled_before m.events m.clock.now }⟩, result)

/-- Replace the queue of the machine. -/
def set_events (t : Traced C Ev F) (events : EventQueue Ev) : Traced C Ev F :=
  { t with machine := { t.machine with events := events } }

/-- The event `id` is about to fire. -/
def note_fired (t : Traced C Ev F) (id : Nat) (event : Ev) : Traced C Ev F :=
  { t with log := { t.log with
      fired := t.log.fired ++
        [⟨id, event, t.machine.events.front_deadline, t.machine.clock.now, t.machine.retired⟩] } }

/-- The quantum from `t` has ended at `m`. -/
def note_quantum (t : Traced C Ev F) (m : Machine C Ev F) : Traced C Ev F :=
  ⟨m, { t.log with
    past := t.log.past ++ t.machine.events.scheduled_before m.events t.machine.clock.now
    passed_by_insns := t.log.passed_by_insns ++
      t.machine.events.scheduled_before m.events m.last_insn_at
    passed_by_clock := t.log.passed_by_clock ++
      t.machine.events.scheduled_before m.events m.clock.now }⟩

section poll

variable [Cpu C Ev F]

/-- `Machine::fire_due_events`. -/
def fire_due_events : Nat → Traced C Ev F → Option (Traced C Ev F × Option StopReason)
  | 0, _ => none
  | fuel + 1, t =>
      match t.machine.events.pop_due t.machine.clock.now with
      | (events, none) => some (t.set_events events, none)
      | (events, some (id, event)) =>
          match ((t.note_fired id event).set_events events).call (Cpu.fire event) with
          | (t, some stop) => some (t, some stop)
          | (t, none) => fire_due_events fuel t

def finish_poll (fuel : Nat) (t : Traced C Ev F) : Option (Traced C Ev F × EntityPoll) :=
  (fire_due_events fuel t).map fun
    | (t, some stop) => (t, .Done (.Stopped stop))
    | (t, none) => (t, .Progressed)

def idle (fuel : Nat) (t : Traced C Ev F) (budget_ns : Nat) :
    Option (Traced C Ev F × EntityPoll) :=
  if budget_ns = 0 then some (t, .NoProgress)
  else finish_poll fuel { t with machine := t.machine.advance_clock budget_ns }

def settle (fuel : Nat) (t : Traced C Ev F) (stop : Option StopReason) :
    Option (Traced C Ev F × EntityPoll) :=
  match Cpu.take_trap t.machine.soc with
  | (soc, some access) =>
      some ({ t with machine := { t.machine with soc := soc } },
        .Done (.Stopped (.Unmapped access.addr access.write)))
  | (soc, none) =>
      match stop with
      | some reason =>
          some ({ t with machine := { t.machine with soc := soc } }, .Done (.Stopped reason))
      | none => finish_poll fuel { t with machine := { t.machine with soc := soc } }

def quantum (fuel : Nat) (t : Traced C Ev F) (ns_per_insn budget_ns : Nat) (n : Nat) :
    Option (Traced C Ev F × EntityPoll) :=
  match t.machine.call (Cpu.run_quantum n) with
  | (ran, result) =>
      if result.instructions = 0 ∧ result.stop = none then
        some (t.note_quantum ran, .NoProgress)
      else
        settle fuel
          (t.note_quantum (ran.charge ns_per_insn result.instructions
            (saturating_add ran.clock.now budget_ns)))
          result.stop

def run (fuel : Nat) (t : Traced C Ev F) (ctx : AdvanceCtx) :
    Option (Traced C Ev F × EntityPoll) :=
  let budget := t.machine.budget_ns ctx
  let t := t.set_events t.machine.events.next_deadline.1
  match t.machine.period with
  | none => t.idle fuel budget
  | some ns_per_insn =>
      if ctx.max_quantum < ns_per_insn then
        some (t, .Done (.Error (.InstructionPeriodExceedsQuantum ns_per_insn ctx.max_quantum)))
      else
        match t.machine.max_instructions ctx ns_per_insn budget with
        | 0 => t.idle fuel budget
        | n + 1 => t.quantum fuel ns_per_insn budget (n + 1)

def poll (fuel : Nat) (t : Traced C Ev F) (ctx : AdvanceCtx) :
    Option (Traced C Ev F × EntityPoll) :=
  match fire_due_events fuel t with
  | none => none
  | some (t, some stop) => some (t, .Done (.Stopped stop))
  | some (t, none) => t.run fuel ctx

def reset (t : Traced C Ev F) : Traced C Ev F :=
  let t := (t.call Cpu.reset).1
  { t with machine :=
    { t.machine with last_insn_at := t.machine.clock.now, last_insn_le := Nat.le_refl _ } }

/-- A command that works on the chip of a stopped guest may schedule events. -/
def inspect_command (t : Traced C Ev F) (cmd : InspectCommand) : Traced C Ev F × Response :=
  match t.machine.inspect_command cmd with
  | (m, rsp) =>
      (⟨m, { t.log with
        past := t.log.past ++ t.machine.events.scheduled_before m.events m.clock.now }⟩, rsp)

instance : Entity (Traced C Ev F) F where
  poll := poll
  reset := reset
  now t := t.machine.clock.now
  inspect := inspect_command
  poll_actions t := (t.call Cpu.poll_actions).1
  apply_action t req := t.call (Cpu.apply_action req)
  receive t port frame := (t.call (Cpu.drive_in port frame)).1
  ports t := t.machine.ports
  drain_pending t names :=
    { t with machine := { t.machine with ports := t.machine.ports.drain_pending names } }
  retired t := t.machine.retired

end poll

/-! ### The history changes nothing -/

/-- Forget the history. -/
def erase {α : Type} (x : Traced C Ev F × α) : Machine C Ev F × α := (x.1.machine, x.2)

section erase

variable [Cpu C Ev F]

theorem erase_fire_due_events (fuel : Nat) (t : Traced C Ev F) :
    (fire_due_events fuel t).map erase = t.machine.fire_due_events fuel := by
  induction fuel generalizing t with
  | zero => rfl
  | succ fuel ih =>
    rw [fire_due_events, Machine.fire_due_events]
    rcases hpop : t.machine.events.pop_due t.machine.clock.now with ⟨events, _ | ⟨id, event⟩⟩
    · rfl
    · dsimp only
      rcases hcall : ((t.note_fired id event).set_events events).call (Cpu.fire event) with
        ⟨t', _ | stop⟩
      · have hmachine : (({ t.machine with events := events } : Machine C Ev F).call
            (Cpu.fire event)) = (t'.machine, none) := congrArg erase hcall
        rw [hmachine]
        exact ih t'
      · have hmachine : (({ t.machine with events := events } : Machine C Ev F).call
            (Cpu.fire event)) = (t'.machine, some stop) := congrArg erase hcall
        rw [hmachine]
        rfl

theorem erase_finish_poll (fuel : Nat) (t : Traced C Ev F) :
    (finish_poll fuel t).map erase = t.machine.finish_poll fuel := by
  rw [finish_poll, Machine.finish_poll, ← erase_fire_due_events, Option.map_map, Option.map_map]
  congr 1
  funext x
  obtain ⟨t', stop⟩ := x
  cases stop <;> rfl

theorem erase_idle (fuel : Nat) (t : Traced C Ev F) (budget : Nat) :
    (t.idle fuel budget).map erase = t.machine.idle fuel budget := by
  unfold idle Machine.idle
  split
  · rfl
  · exact erase_finish_poll fuel _

theorem erase_settle (fuel : Nat) (t : Traced C Ev F) (stop : Option StopReason) :
    (t.settle fuel stop).map erase = t.machine.settle fuel stop := by
  unfold settle Machine.settle
  cases Cpu.take_trap t.machine.soc with
  | mk soc trap =>
    cases trap with
    | some access => rfl
    | none =>
      cases stop with
      | some reason => rfl
      | none => exact erase_finish_poll fuel _

theorem erase_quantum (fuel : Nat) (t : Traced C Ev F) (ns_per_insn budget n : Nat) :
    (t.quantum fuel ns_per_insn budget n).map erase =
      t.machine.quantum fuel ns_per_insn budget n := by
  unfold quantum Machine.quantum
  cases t.machine.call (Cpu.run_quantum n) with
  | mk ran result =>
    dsimp only
    split
    · rfl
    · exact erase_settle fuel _ _

theorem erase_run (fuel : Nat) (t : Traced C Ev F) (ctx : AdvanceCtx) :
    (t.run fuel ctx).map erase = t.machine.run fuel ctx := by
  unfold run Machine.run
  dsimp only
  cases hperiod : (t.set_events t.machine.events.next_deadline.1).machine.period with
  | none =>
    rw [show ({ t.machine with events := t.machine.events.next_deadline.1 } :
      Machine C Ev F).period = none from hperiod]
    exact erase_idle fuel _ _
  | some ns_per_insn =>
    rw [show ({ t.machine with events := t.machine.events.next_deadline.1 } :
      Machine C Ev F).period = some ns_per_insn from hperiod]
    dsimp only
    split
    · rfl
    · cases hmax : (t.set_events t.machine.events.next_deadline.1).machine.max_instructions ctx
        ns_per_insn (t.machine.budget_ns ctx) with
      | zero =>
        rw [show ({ t.machine with events := t.machine.events.next_deadline.1 } :
          Machine C Ev F).max_instructions ctx ns_per_insn (t.machine.budget_ns ctx) = 0 from hmax]
        exact erase_idle fuel _ _
      | succ n =>
        rw [show ({ t.machine with events := t.machine.events.next_deadline.1 } :
          Machine C Ev F).max_instructions ctx ns_per_insn (t.machine.budget_ns ctx) = n + 1
          from hmax]
        exact erase_quantum fuel _ _ _ _

theorem erase_poll (fuel : Nat) (t : Traced C Ev F) (ctx : AdvanceCtx) :
    (t.poll fuel ctx).map erase = t.machine.poll fuel ctx := by
  rw [poll, Machine.poll, ← erase_fire_due_events]
  cases fire_due_events fuel t with
  | none => rfl
  | some x =>
    obtain ⟨t', stop⟩ := x
    cases stop with
    | some reason => rfl
    | none => exact erase_run fuel t' ctx

theorem hom_machine : Entity.Hom (machine : Traced C Ev F → Machine C Ev F) where
  poll fuel t ctx := (erase_poll fuel t ctx).symm
  reset _ := rfl
  now _ := rfl
  inspect _ _ := rfl
  poll_actions _ := rfl
  apply_action _ _ := rfl
  receive _ _ _ := rfl
  drain_pending _ _ := rfl

end erase

/-! ### Events are on time -/

/-- The event was scheduled for a time that the clock had passed, or did pass
    in the same quantum. -/
def Excused (log : Timeline Ev) (id : Nat) : Prop := id ∈ log.past ∨ id ∈ log.passed_by_clock

/-- No event waits behind the clock, and none has fired behind its deadline,
    unless it is excused. -/
structure Timed (t : Traced C Ev F) : Prop where
  wf : t.machine.events.Wf
  on_time (item : Scheduled) : t.machine.events.Live item →
    t.machine.clock.now ≤ item.at_ ∨ Excused t.log item.id
  fired : ∀ f ∈ t.log.fired, f.fired_at = f.at_ ∨ Excused t.log f.id

theorem timed_new (soc : C) : (new soc : Traced C Ev F).Timed := by
  refine ⟨EventQueue.wf_new, ?_, ?_⟩
  · intro item hlive
    cases hlive.mem
  · intro f hf
    cases hf

/-- What `scheduled_before` lists: new entries due before `t`. -/
theorem mem_scheduled_before {q q' : EventQueue Ev} {t : Nat} {item : Scheduled}
    (hmem : item ∈ q'.heap) (hnew : q.next_id < item.id) (hat : item.at_ < t) :
    item.id ∈ q.scheduled_before q' t :=
  List.mem_map.mpr ⟨item, List.mem_filter.mpr ⟨hmem, by simp [hnew, hat]⟩, rfl⟩

/-- The chip used the queue, the clock moved to `m.clock`, and the log notes
    what was scheduled before that. -/
theorem Timed.used {t : Traced C Ev F} (h : t.Timed) {m : Machine C Ev F} {log : Timeline Ev}
    (hused : EventQueue.Used t.machine.events m.events)
    (hclock : ∀ item, t.machine.events.Live item → t.machine.clock.now ≤ item.at_ →
      m.clock.now ≤ item.at_)
    (hfired : log.fired = t.log.fired) (hkeep : ∀ id, Excused t.log id → Excused log id)
    (hnew : ∀ id ∈ t.machine.events.scheduled_before m.events m.clock.now, Excused log id) :
    Timed ⟨m, log⟩ := by
  refine ⟨hused.wf h.wf, ?_, ?_⟩
  · intro item hlive
    by_cases hid : item.id ≤ t.machine.events.next_id
    · have hold := (hused.old h.wf).2 item hlive hid
      rcases h.on_time item hold with hle | hexcused
      · exact .inl (hclock item hold hle)
      · exact .inr (hkeep _ hexcused)
    · by_cases hat : m.clock.now ≤ item.at_
      · exact .inl hat
      · right
        apply hnew
        exact mem_scheduled_before hlive.mem (by omega) (by omega)
  · intro f hf
    rw [hfired] at hf
    exact (h.fired f hf).imp_right (hkeep _)

theorem Timed.call {α : Type} {t : Traced C Ev F} (h : t.Timed) {op : ChipOp C Ev F α}
    (hop : op.UsesQueue) : (t.call op).1.Timed := by
  apply h.used (hop _ _ _)
  · intro item _ hle
    exact hle
  · rfl
  · intro id hid
    exact hid.imp_left (List.mem_append_left _)
  · intro id hid
    exact .inl (List.mem_append_right _ hid)

/-- Removing events, or looking for stale ones. -/
theorem Timed.set_events {t : Traced C Ev F} (h : t.Timed) {events : EventQueue Ev}
    (hwf : events.Wf) (hsub : ∀ item, events.Live item → t.machine.events.Live item) :
    (t.set_events events).Timed :=
  ⟨hwf, fun item hlive => h.on_time item (hsub item hlive), h.fired⟩

section poll

variable [Cpu C Ev F] [LawfulCpu C]

theorem Timed.fire_due_events {fuel : Nat} {t t' : Traced C Ev F} {stop : Option StopReason}
    (h : t.Timed) (hfire : fire_due_events fuel t = some (t', stop)) :
    t'.Timed := by
  induction fuel generalizing t with
  | zero => cases hfire
  | succ fuel ih =>
    rw [Traced.fire_due_events] at hfire
    have hpopped := h.wf.popped t.machine.clock.now
    split at hfire
    · rename_i events hpop
      rw [hpop] at hpopped
      cases hfire
      cases hpopped with
      | nothing => exact h.set_events h.wf.drop_stale fun item => h.wf.live_drop_stale.mp
    · rename_i events id event hpop
      rw [hpop] at hpopped
      cases hpopped with
      | event _ item _ hlive hdue hfront hwf hid hsub =>
        -- The event that fires is due, and it was not due before now.
        have hnoted : (t.note_fired item.id event).Timed := by
          refine ⟨h.wf, h.on_time, ?_⟩
          intro f hf
          rcases List.mem_append.mp hf with hold | hlast
          · exact h.fired f hold
          · rw [List.mem_singleton.mp hlast]
            rcases h.on_time item hlive with hle | hexcused
            · left
              show t.machine.clock.now = t.machine.events.front_deadline
              omega
            · exact .inr hexcused
        have hcalled := (hnoted.set_events hwf hsub).call (LawfulCpu.fire event)
        split at hfire
        · rename_i t₁ reason hcall
          cases hfire
          rw [hcall] at hcalled
          exact hcalled
        · rename_i t₁ hcall
          rw [hcall] at hcalled
          exact ih hcalled hfire

theorem Timed.finish_poll {fuel : Nat} {t t' : Traced C Ev F} {r : EntityPoll} (h : t.Timed)
    (hfinish : t.finish_poll fuel = some (t', r)) : t'.Timed := by
  obtain ⟨⟨t₁, stop⟩, hfire, heq⟩ := Option.map_eq_some_iff.mp hfinish
  have htimed := h.fire_due_events hfire
  cases stop <;> cases heq <;> exact htimed

theorem Timed.idle {fuel : Nat} {t t' : Traced C Ev F} {budget : Nat} {r : EntityPoll}
    (h : t.Timed)
    (hbudget : ∀ item, t.machine.events.Live item → t.machine.clock.now ≤ item.at_ →
      t.machine.clock.now + budget ≤ item.at_)
    (hidle : t.idle fuel budget = some (t', r)) : t'.Timed := by
  unfold Traced.idle at hidle
  split at hidle
  · cases hidle
    exact h
  · have hmoved : Timed { t with machine := t.machine.advance_clock budget } := by
      refine ⟨h.wf, ?_, h.fired⟩
      intro item hlive
      rcases h.on_time item hlive with hle | hexcused
      · left
        exact Nat.le_trans (saturating_add_le _ _) (hbudget item hlive hle)
      · exact .inr hexcused
    exact hmoved.finish_poll hidle

theorem Timed.settle {fuel : Nat} {t t' : Traced C Ev F} {stop : Option StopReason}
    {r : EntityPoll} (h : t.Timed) (hsettle : t.settle fuel stop = some (t', r)) :
    t'.Timed := by
  have hsoc (soc : C) : Timed { t with machine := { t.machine with soc := soc } } :=
    ⟨h.wf, h.on_time, h.fired⟩
  unfold Traced.settle at hsettle
  split at hsettle
  · cases hsettle
    exact hsoc _
  · cases stop with
    | some reason =>
      cases hsettle
      exact hsoc _
    | none => exact (hsoc _).finish_poll hsettle

theorem Timed.quantum {fuel : Nat} {t t' : Traced C Ev F} {ns_per_insn budget n : Nat}
    {r : EntityPoll} (h : t.Timed)
    (hbudget : ∀ item, t.machine.events.Live item → t.machine.clock.now ≤ item.at_ →
      t.machine.clock.now + budget ≤ item.at_)
    (hn : n ≤ min ((saturating_add t.machine.clock.now budget - t.machine.last_insn_at) /
      ns_per_insn) u32_max)
    (hquantum : t.quantum fuel ns_per_insn budget n = some (t', r)) : t'.Timed := by
  have hused := LawfulCpu.run_quantum (C := C) n t.machine.clock.now t.machine.soc
    t.machine.events
  -- Whatever the quantum ends at, it is within the budget.
  have hnoted (m : Machine C Ev F)
      (hevents : m.events = (t.machine.call (Cpu.run_quantum n)).1.events)
      (hclock : m.clock.now ≤ t.machine.clock.now + budget) : (t.note_quantum m).Timed := by
    refine h.used (hevents ▸ hused) ?_ rfl ?_ ?_
    · intro item hlive hle
      exact Nat.le_trans hclock (hbudget item hlive hle)
    · intro id hid
      exact hid.imp (List.mem_append_left _) (List.mem_append_left _)
    · intro id hid
      exact .inr (List.mem_append_right _ hid)
  unfold Traced.quantum at hquantum
  split at hquantum
  rename_i ran result hcall
  have hran : ran.events = (t.machine.call (Cpu.run_quantum n)).1.events := by rw [hcall]
  have hclock : ran.clock = t.machine.clock := by
    rw [show ran = (t.machine.call (Cpu.run_quantum n)).1 by rw [hcall]]
    rfl
  have hlast : ran.last_insn_at = t.machine.last_insn_at := by
    rw [show ran = (t.machine.call (Cpu.run_quantum n)).1 by rw [hcall]]
    rfl
  split at hquantum
  · cases hquantum
    exact hnoted ran hran (by rw [hclock]; omega)
  · have hk := Nat.le_trans result.le_max hn
    rw [← hclock, ← hlast] at hk
    have hle := Machine.charge_now_le ran hk
    have hcharged : (t.note_quantum (ran.charge ns_per_insn result.instructions
        (saturating_add ran.clock.now budget))).Timed := by
      apply hnoted
      · exact hran
      · rw [hclock] at hle ⊢
        exact hle
    exact hcharged.settle hquantum

theorem Timed.run {fuel : Nat} {t t' : Traced C Ev F} {ctx : AdvanceCtx} {r : EntityPoll}
    (h : t.Timed) (honce : ctx.step_once = false) (hrun : t.run fuel ctx = some (t', r)) :
    t'.Timed := by
  have hpeeked : (t.set_events t.machine.events.next_deadline.1).Timed :=
    h.set_events h.wf.drop_stale fun item => h.wf.live_drop_stale.mp
  have hbudget : ∀ item,
      (t.set_events t.machine.events.next_deadline.1).machine.events.Live item →
      t.machine.clock.now ≤ item.at_ →
      t.machine.clock.now + t.machine.budget_ns ctx ≤ item.at_ := by
    intro item hlive hle
    exact Machine.budget_le_deadline h.wf ctx (h.wf.live_drop_stale.mp hlive) hle
  unfold Traced.run at hrun
  dsimp only at hrun
  split at hrun
  · exact hpeeked.idle hbudget hrun
  · split at hrun
    · cases hrun
      exact hpeeked
    · split at hrun
      · exact hpeeked.idle hbudget hrun
      · rename_i n hn
        refine hpeeked.quantum hbudget ?_ hrun
        rw [Machine.max_instructions, honce] at hn
        exact Nat.le_of_eq hn.symm

theorem Timed.poll {fuel : Nat} {t t' : Traced C Ev F} {ctx : AdvanceCtx} {r : EntityPoll}
    (h : t.Timed) (honce : ctx.step_once = false) (hpoll : t.poll fuel ctx = some (t', r)) :
    t'.Timed := by
  unfold Traced.poll at hpoll
  split at hpoll
  · cases hpoll
  · rename_i t₁ stop hfire
    cases hpoll
    exact h.fire_due_events hfire
  · rename_i t₁ hfire
    exact (h.fire_due_events hfire).run honce hpoll

theorem keeps_timed : Entity.Keeps (fun ctx => ctx.step_once = false)
    (Timed : Traced C Ev F → Prop) where
  poll _ _ _ _ _ honce h hpoll := h.poll honce hpoll
  reset t h := by
    have hcall := h.call (LawfulCpu.reset (C := C))
    exact ⟨hcall.wf, hcall.on_time, hcall.fired⟩
  inspect t cmd h := by
    have hclock := (Machine.frame_inspect_command t.machine cmd).clock_eq
    apply h.used (Machine.used_inspect_command t.machine cmd)
    · intro item _ hle
      rw [hclock]
      exact hle
    · rfl
    · intro id hid
      exact hid.imp_left (List.mem_append_left _)
    · intro id hid
      exact .inl (List.mem_append_right _ hid)
  poll_actions t h := h.call LawfulCpu.poll_actions
  apply_action t req h := h.call (LawfulCpu.apply_action req)
  receive t port v h := h.call (LawfulCpu.drive_in port v)
  drain_pending t _ h := ⟨h.wf, h.on_time, h.fired⟩

end poll

end Traced

/-! ### Runs of a machine -/

section runs

variable {C Ev F : Type} [Cpu C Ev F]

/-- A machine at power-on. -/
def power_on (m : Machine C Ev F) : Prop := ∃ soc, m = Machine.new soc

/-- The same with an empty history. -/
def power_on_traced (t : Traced C Ev F) : Prop := ∃ soc, t = Traced.new soc

/-- Every run of a machine is the run of one with a history. -/
theorem projects_traced : Projects (sim_runs (power_on_traced : Traced C Ev F → Prop))
    (sim_runs power_on) (Entity.Hom.sim Traced.machine) := by
  apply Traced.hom_machine.projects
  · rintro t ⟨soc, rfl⟩
    exact ⟨soc, rfl⟩
  · rintro m ⟨soc, rfl⟩
    exact ⟨Traced.new soc, ⟨soc, rfl⟩, rfl⟩

variable [LawfulCpu C]

theorem keeps_wf : Entity.Keeps (fun _ => True) fun m : Machine C Ev F => m.events.Wf where
  poll _ _ _ _ _ _ h hpoll := (Machine.used_poll hpoll).wf h
  reset _ h := (LawfulCpu.reset _ _ _).wf h
  inspect m cmd h := (Machine.used_inspect_command m cmd).wf h
  poll_actions _ h := (LawfulCpu.poll_actions _ _ _).wf h
  apply_action _ req h := (LawfulCpu.apply_action req _ _ _).wf h
  receive _ port v h := (LawfulCpu.drive_in port v _ _ _).wf h
  drain_pending _ _ h := h

/-- The clock of a machine under a ceiling: it never runs back, and never past
    the ceiling or a queued deadline. Without single steps, every event fires
    at its deadline, but for those that were scheduled for a time in the past
    or that the clock had passed when the quantum that scheduled them ended;
    the events of a run are those of its history. -/
theorem clock_respects_deadlines :
    (∀ s : Simulator (Machine C Ev F), Reachable (sim_runs power_on) AnySimRun s →
      s.entity.last_insn_at ≤ s.now ∧
      ∀ fuel a s' rsp, s.step_once = false → s.allowed = some a →
        s.poll fuel = some (s', rsp) →
        s.now ≤ s'.now ∧ s'.now ≤ max s.now a ∧
        ∀ m stop, s.entity.fire_due_events fuel = some (m, stop) →
          ∀ item, m.events.Live item → s.now ≤ item.at_ → s'.now ≤ item.at_) ∧
    (∀ s : Simulator (Machine C Ev F), Reachable (sim_runs power_on) NoStep s →
      ∃ t : Simulator (Traced C Ev F), Reachable (sim_runs power_on_traced) NoStep t ∧
        Entity.Hom.sim Traced.machine t = s) ∧
    (∀ t : Simulator (Traced C Ev F), Reachable (sim_runs power_on_traced) NoStep t →
      ∀ f ∈ t.entity.log.fired, f.fired_at = f.at_ ∨ f.id ∈ t.entity.log.past ∨
        f.id ∈ t.entity.log.passed_by_clock) := by
  refine ⟨?_, fun s hs => projects_traced.lift hs, ?_⟩
  · intro s hs
    have hwf : s.entity.events.Wf := by
      refine keeps_wf.reachable ?_ hs
      rintro m ⟨soc, rfl⟩
      exact EventQueue.wf_new
    refine ⟨s.entity.last_insn_le, ?_⟩
    intro fuel a s' rsp honce ha hpoll
    by_cases hrun : s.state = .Running
    · have hspec := Simulator.poll_spec hrun hpoll
      refine ⟨hspec.now_le, hspec.le_allowed honce a ha, ?_⟩
      intro m stop hfire item hlive hle
      rcases Simulator.poll_cases hpoll with ⟨hidle, -⟩ | ⟨-, -, r, hmachine, -⟩
      · exact absurd hrun hidle
      · exact Machine.poll_le_deadline honce hfire ((Machine.used_fire_due_events hfire).wf hwf)
          hmachine hlive hle
    · rw [Simulator.poll_of_not_running hrun] at hpoll
      cases hpoll
      exact ⟨Nat.le_refl _, Nat.le_max_left _ _, fun _ _ _ _ _ hle => hle⟩
  · intro t ht
    have htimed : t.entity.Timed := by
      refine Traced.keeps_timed.reachable_noStep ?_ ht
      rintro t ⟨soc, rfl⟩
      exact Traced.timed_new soc
    exact htimed.fired

end runs

end Rl78Sim
