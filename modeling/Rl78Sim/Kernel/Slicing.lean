import Rl78Sim.Hw.TauChannel
import Rl78Sim.Kernel.Course

/-! # Ceilings and the Course of a Guest

    A machine reaches a time in polls whose lengths depend on the ceilings in
    force. While the bus accesses of its guest are passive, every poll moves
    it along its course, so the events that it has fired when it gets there do
    not depend on the ceilings.
-/

namespace Rl78Sim

open Transition

variable {D A Ev : Type} [Devices D A Ev]

/-! ### Queues and agendas -/

namespace EventQueue

omit [Devices D A Ev] in
theorem Wf.serve {q : EventQueue Ev} (h : q.Wf) (calls : List (QueueCall Ev)) :
    (q.serve calls).Wf ∧ (q.serve calls).agenda = q.agenda.serve calls := by
  refine ⟨(used_serve .refl calls).wf h, ?_⟩
  induction calls generalizing q with
  | nil => rfl
  | cons call calls ih =>
    cases call with
    | schedule at_ event =>
      have hwf := (Used.schedule q at_ event .refl).wf h
      show ((q.schedule at_ event).1.serve calls).agenda = _
      rw [ih hwf, h.agenda_schedule]
      rfl
    | cancel id =>
      have hwf := (Used.cancel q id .refl).wf h
      show ((q.cancel id).1.serve calls).agenda = _
      rw [ih hwf, agenda_cancel]
      rfl

end EventQueue

namespace ListCore

/-- Passive accesses do on the queue what they do on the agenda, at any time. -/
theorem accesses_course {as : List A} (has : ∀ a ∈ as, PassiveAccess D a) (now : Nat) (d : D)
    {q : EventQueue Ev} (h : q.Wf) :
    (accesses now as d q).1 = (Course.accesses as d q.agenda).1 ∧
      (accesses now as d q).2.agenda = (Course.accesses as d q.agenda).2 ∧
      (accesses now as d q).2.Wf := by
  induction as generalizing d q with
  | nil => exact ⟨rfl, rfl, h⟩
  | cons a as ih =>
    have hserve := h.serve (Devices.access a 0 0 d).2
    have hrest := ih (fun b hb => has b (List.mem_cons_of_mem _ hb)) (Devices.access a 0 0 d).1
      hserve.1
    rw [hserve.2] at hrest
    rw [accesses, (has a List.mem_cons_self now q.next_id d).1]
    exact hrest

theorem execute_course (now k : Nat) {c : ListCore D A} {q : EventQueue Ev} (h : q.Wf)
    (hpassive : c.Passive) {x : Course D A Ev} (hcore : x.core = c)
    (hagenda : x.agenda = q.agenda) :
    (Course.insn^[k] x).core = (execute now k c q).1 ∧
      (Course.insn^[k] x).agenda = (execute now k c q).2.agenda ∧ (execute now k c q).2.Wf := by
  induction k generalizing c q x with
  | zero => exact ⟨hcore, hagenda, h⟩
  | succ k ih =>
    have hnow := fun a ha => hpassive c.pc (Nat.le_refl _) a ha
    obtain ⟨hd, hq, hwf⟩ := accesses_course hnow now c.devices h
    rw [Function.iterate_succ_apply]
    apply ih hwf
    · -- The accesses that remain are among those of before.
      intro i hi a ha
      exact hpassive i (by have hlt : c.pc + 1 ≤ i := hi; omega) a ha
    · show { x.core with
        pc := x.core.pc + 1
        devices := (Course.accesses (x.core.program x.core.pc) x.core.devices x.agenda).1 } = _
      rw [hcore, hagenda, ← hd]
    · show (Course.accesses (x.core.program x.core.pc) x.core.devices x.agenda).2 = _
      rw [hcore, hagenda, ← hq]

end ListCore

/-! ### A machine on its course -/

namespace Traced

/-- The machine as its course shows it. -/
def view (t : Traced (ListCore D A) Ev Empty) : Course D A Ev where
  clock := t.machine.clock.now
  last_insn_at := t.machine.last_insn_at
  retired := t.machine.retired
  core := t.machine.soc
  agenda := t.machine.events.agenda
  fired := t.log.fired

/-- `t'` is `t` further along its course. -/
def Follows (t t' : Traced (ListCore D A) Ev Empty) : Prop := ∃ k, t'.view = Course.step^[k] t.view

theorem Follows.trans {t t' t'' : Traced (ListCore D A) Ev Empty} (h : Follows t t')
    (h' : Follows t' t'') : Follows t t'' := by
  obtain ⟨k, hk⟩ := h
  obtain ⟨k', hk'⟩ := h'
  refine ⟨k' + k, ?_⟩
  rw [hk', hk, Function.iterate_add_apply]

omit [Devices D A Ev] in
theorem sound_view (t : Traced (ListCore D A) Ev Empty) : t.view.Sound :=
  ⟨t.machine.last_insn_le, t.machine.clock.le_max⟩

/-- What polls keep of a machine that is on its course. `cap` bounds what one
    quantum may cover. -/
structure Ready (cap : Nat) (t : Traced (ListCore D A) Ev Empty) : Prop where
  wf : t.machine.events.Wf
  passive : t.machine.soc.Passive
  /-- The instructions that fit can be counted in a `u32`. -/
  fits : (t.machine.clock.now - t.machine.last_insn_at + cap) / t.machine.soc.period ≤ u32_max
  cap_fits : cap / t.machine.soc.period < u32_max

/-- Firing the first entry of the agenda is a step of the course. -/
theorem follows_fire {cap : Nat} {t : Traced (ListCore D A) Ev Empty} (h : Ready cap t)
    {item : Scheduled} {rest : List Scheduled} {event : Ev} {q : EventQueue Ev}
    (hentries : t.machine.events.agenda.entries = item :: rest)
    (hdue : item.at_ ≤ t.machine.clock.now)
    (hlookup : t.machine.events.agenda.events.lookup item.id = some event)
    (hq : q.agenda = t.machine.events.agenda.remove item.id) (hwf : q.Wf)
    (hfront : t.machine.events.front_deadline = item.at_) :
    ∃ t₁, ((t.note_fired item.id event).set_events q).call (Cpu.fire event) = (t₁, none) ∧
      Ready cap t₁ ∧ Follows t t₁ ∧ t₁.machine.clock = t.machine.clock := by
  -- The machine's queue and the agenda give out the same id next, so the
  -- devices do the same in both.
  have hserve := hwf.serve (Devices.fire event t.machine.clock.now q.next_id
    t.machine.soc.devices).2
  refine ⟨_, rfl, ⟨hserve.1, h.passive, h.fits, h.cap_fits⟩, ⟨1, ?_⟩, rfl⟩
  have hstep : t.view.step = t.view.fire item := by
    unfold Course.step
    rw [show t.view.agenda.entries = item :: rest from hentries]
    exact if_pos hdue
  rw [Function.iterate_one, hstep, Course.fire,
    show t.view.agenda.events.lookup item.id = some event from hlookup]
  have hnext : q.next_id = (t.view.agenda.remove item.id).next_id := congrArg Agenda.next_id hq
  have hagenda := hserve.2
  rw [hq, hnext] at hagenda
  unfold view
  congr 1
  · show { t.machine.soc with
      devices := (Devices.fire event t.machine.clock.now q.next_id t.machine.soc.devices).1 } = _
    rw [hnext]
    rfl
  · show (q.serve (Devices.fire event t.machine.clock.now q.next_id
      t.machine.soc.devices).2).agenda = _
    rw [hnext]
    exact hagenda
  · show t.log.fired ++ [⟨item.id, event, t.machine.events.front_deadline, _, _⟩] = _
    rw [hfront]

/-- Firing what is due follows the course, and stops nothing. -/
theorem follows_fire_due_events {fuel cap : Nat} {t t' : Traced (ListCore D A) Ev Empty}
    {stop : Option StopReason} (h : Ready cap t)
    (hfire : fire_due_events fuel t = some (t', stop)) :
    stop = none ∧ Ready cap t' ∧ Follows t t' ∧
      ∀ item ∈ t'.view.agenda.entries, t'.view.clock < item.at_ := by
  induction fuel generalizing t with
  | zero => cases hfire
  | succ fuel ih =>
    rw [fire_due_events] at hfire
    rcases h.wf.pop_agenda t.machine.clock.now with
      ⟨hpop, hlater⟩ | ⟨item, rest, event, q, hentries, hdue, hlookup, hpop, hq, hwf, hfront⟩
    -- Nothing is due: the queue has only dropped entries that were cancelled.
    · rw [hpop] at hfire
      cases hfire
      have hview : (t.set_events t.machine.events.drop_stale).view = t.view := by
        unfold view
        congr 1
        exact h.wf.agenda_drop_stale
      refine ⟨rfl, ⟨h.wf.drop_stale, h.passive, h.fits, h.cap_fits⟩, ⟨0, hview⟩, ?_⟩
      rw [hview]
      exact hlater
    · rw [hpop] at hfire
      obtain ⟨t₁, hcall, hready, hfollows, -⟩ :=
        follows_fire h hentries hdue hlookup hq hwf hfront
      dsimp only at hfire
      rw [hcall] at hfire
      obtain ⟨hstop, hready', hfollows', hlater⟩ := ih hready hfire
      exact ⟨hstop, hready', hfollows.trans hfollows', hlater⟩

theorem follows_finish_poll {fuel cap : Nat} {t t' : Traced (ListCore D A) Ev Empty}
    {r : EntityPoll} (h : Ready cap t) (hfinish : t.finish_poll fuel = some (t', r)) :
    Ready cap t' ∧ Follows t t' := by
  obtain ⟨⟨t₁, stop⟩, hfire, heq⟩ := Option.map_eq_some_iff.mp hfinish
  obtain ⟨rfl, hready, hfollows, -⟩ := follows_fire_due_events h hfire
  cases heq
  exact ⟨hready, hfollows⟩

/-- Once the clock is at the end of a budget, with the instructions that fit
    retired, the machine is as its course is there. -/
theorem Ready.advanced {cap budget : Nat} {t t' : Traced (ListCore D A) Ev Empty}
    (h : Ready cap t) (hlater : ∀ item ∈ t.view.agenda.entries, t.view.clock < item.at_)
    (hbudget : ∀ item ∈ t.view.agenda.entries, t.view.clock + budget ≤ item.at_)
    (hview : t'.view = t.view.advance (saturating_add t.machine.clock.now budget))
    (hwf : t'.machine.events.Wf) :
    Ready cap t' ∧ Follows t t' := by
  -- No event falls into the budget, so the course only retires instructions.
  obtain ⟨k, hk⟩ := t.sound_view.steps h.passive hlater hbudget
  have hmoved := t.sound_view.advance (le_saturating_add_left budget t.machine.clock.le_max)
    (saturating_add_le_max _ _)
  have hretired := Course.retired_insns t.view
    ((saturating_add t.machine.clock.now budget - t.view.last_insn_at) / t.view.core.period)
  have hcore : t'.machine.soc =
      (t.view.advance (saturating_add t.machine.clock.now budget)).core :=
    congrArg Course.core hview
  have hperiod : t'.machine.soc.period = t.machine.soc.period := by
    rw [hcore]
    exact hretired.period_eq
  refine ⟨⟨hwf, ?_, ?_, ?_⟩, ⟨k, hview.trans hk.symm⟩⟩
  · rw [hcore]
    exact hretired.passive h.passive
  · -- Less than one instruction is outstanding now.
    have hnone : (t'.machine.clock.now - t'.machine.last_insn_at) / t'.machine.soc.period = 0 := by
      have houtstanding : (t.view.advance (saturating_add t.machine.clock.now budget)).outstanding =
        0 := hmoved.2
      rw [← hview] at houtstanding
      exact houtstanding
    have hfits := h.cap_fits
    rw [← hperiod] at hfits
    by_cases hzero : t'.machine.soc.period = 0
    · rw [hzero, Nat.div_zero]
      exact Nat.zero_le _
    · have hpos := Nat.pos_of_ne_zero hzero
      have hlt := (Nat.div_eq_zero_iff_lt hpos).mp hnone
      have hle : (t'.machine.clock.now - t'.machine.last_insn_at + cap) / t'.machine.soc.period ≤
          (cap + t'.machine.soc.period) / t'.machine.soc.period :=
        Nat.div_le_div_right (by omega)
      rw [Nat.add_div_right _ hpos] at hle
      omega
  · rw [hperiod]
    exact h.cap_fits

theorem follows_idle {fuel cap budget : Nat} {t t' : Traced (ListCore D A) Ev Empty}
    {r : EntityPoll} (h : Ready cap t)
    (hlater : ∀ item ∈ t.view.agenda.entries, t.view.clock < item.at_)
    (hbudget : ∀ item ∈ t.view.agenda.entries, t.view.clock + budget ≤ item.at_)
    (hnone : (saturating_add t.machine.clock.now budget - t.machine.last_insn_at) /
      t.machine.soc.period = 0)
    (hidle : t.idle fuel budget = some (t', r)) : Ready cap t' ∧ Follows t t' := by
  unfold idle at hidle
  split at hidle
  · cases hidle
    exact ⟨h, 0, rfl⟩
  · have hview : view { t with machine := t.machine.advance_clock budget } =
        t.view.advance (saturating_add t.machine.clock.now budget) := by
      show _ = { Course.insn^[(saturating_add t.machine.clock.now budget -
        t.machine.last_insn_at) / t.machine.soc.period] t.view with
        clock := saturating_add t.machine.clock.now budget }
      rw [hnone]
      rfl
    obtain ⟨hready, hfollows⟩ := h.advanced hlater hbudget hview h.wf
    obtain ⟨hready', hfollows'⟩ := follows_finish_poll hready hidle
    exact ⟨hready', hfollows.trans hfollows'⟩

theorem follows_quantum {fuel cap budget n : Nat} {t t' : Traced (ListCore D A) Ev Empty}
    {r : EntityPoll} (h : Ready cap t)
    (hlater : ∀ item ∈ t.view.agenda.entries, t.view.clock < item.at_)
    (hbudget : ∀ item ∈ t.view.agenda.entries, t.view.clock + budget ≤ item.at_)
    (hn : n = (saturating_add t.machine.clock.now budget - t.machine.last_insn_at) /
      t.machine.soc.period) (hpos : n ≠ 0)
    (hquantum : t.quantum fuel t.machine.soc.period budget n = some (t', r)) :
    Ready cap t' ∧ Follows t t' := by
  have hretired := Course.retired_insns t.view n
  obtain ⟨hcore, hagenda, hwf⟩ := ListCore.execute_course t.machine.clock.now n h.wf h.passive
    (x := t.view) rfl rfl
  have hmul : t.machine.soc.period * n ≤
      saturating_add t.machine.clock.now budget - t.machine.last_insn_at := by
    rw [hn]
    exact Nat.mul_div_le _ _
  have hlast_le := t.machine.last_insn_le
  have hclock_le := le_saturating_add_left budget t.machine.clock.le_max
  have hmax := saturating_add_le_max t.machine.clock.now budget
  -- Nothing saturates: the instructions end within the budget.
  have hlast : saturating_add t.machine.last_insn_at (saturating_mul t.machine.soc.period n) =
      t.machine.last_insn_at + t.machine.soc.period * n := by
    unfold saturating_mul
    unfold saturating_add at hmul hmax hclock_le ⊢
    omega
  -- The machine when the quantum is charged.
  have hcharged : t.quantum fuel t.machine.soc.period budget n = finish_poll fuel
      (t.note_quantum ((t.machine.call (Cpu.run_quantum n)).1.charge t.machine.soc.period n
        (saturating_add t.machine.clock.now budget))) := by
    unfold quantum
    show (if n = 0 ∧ _ then _ else _) = _
    rw [if_neg (by rintro ⟨hzero, -⟩; exact hpos hzero)]
    rfl
  rw [hcharged] at hquantum
  have hview : view (t.note_quantum ((t.machine.call (Cpu.run_quantum n)).1.charge
      t.machine.soc.period n (saturating_add t.machine.clock.now budget))) =
      t.view.advance (saturating_add t.machine.clock.now budget) := by
    show _ = { Course.insn^[(saturating_add t.machine.clock.now budget -
      t.machine.last_insn_at) / t.machine.soc.period] t.view with
      clock := saturating_add t.machine.clock.now budget }
    rw [← hn]
    unfold view note_quantum
    congr 1
    · show saturating_add t.machine.clock.now (max (saturating_add t.machine.last_insn_at
        (saturating_mul t.machine.soc.period n)) (saturating_add t.machine.clock.now budget) -
        t.machine.clock.now) = _
      rw [hlast]
      unfold saturating_add at hmul hmax hclock_le ⊢
      omega
    · show saturating_add t.machine.last_insn_at (saturating_mul t.machine.soc.period n) = _
      rw [hlast]
      exact hretired.last_eq.symm
    · exact hretired.retired_eq.symm
    · exact hcore.symm
    · exact hagenda.symm
    · exact hretired.fired_eq.symm
  obtain ⟨hready, hfollows⟩ := h.advanced hlater hbudget hview hwf
  obtain ⟨hready', hfollows'⟩ := follows_finish_poll hready hquantum
  exact ⟨hready', hfollows.trans hfollows'⟩

theorem follows_run {fuel : Nat} {t t' : Traced (ListCore D A) Ev Empty} {ctx : AdvanceCtx}
    {r : EntityPoll} (h : Ready ctx.max_quantum t) (honce : ctx.step_once = false)
    (hlater : ∀ item ∈ t.view.agenda.entries, t.view.clock < item.at_)
    (hrun : t.run fuel ctx = some (t', r)) : Ready ctx.max_quantum t' ∧ Follows t t' := by
  have hview : (t.set_events t.machine.events.next_deadline.1).view = t.view := by
    unfold view
    congr 1
    exact h.wf.agenda_drop_stale
  have hpeeked : Ready ctx.max_quantum (t.set_events t.machine.events.next_deadline.1) :=
    ⟨h.wf.drop_stale, h.passive, h.fits, h.cap_fits⟩
  have hbudget : ∀ item ∈ t.view.agenda.entries,
      t.view.clock + t.machine.budget_ns ctx ≤ item.at_ := by
    intro item hitem
    apply Machine.budget_le_deadline h.wf ctx (EventQueue.mem_agenda.mp hitem)
    exact Nat.le_of_lt (hlater item hitem)
  have hcap : t.machine.budget_ns ctx ≤ ctx.max_quantum :=
    Nat.le_trans (Nat.min_le_left _ _) (Nat.min_le_right _ _)
  -- Peeking at the front changes nothing of the course.
  suffices hpeek : Ready ctx.max_quantum t' ∧
      Follows (t.set_events t.machine.events.next_deadline.1) t' by
    unfold Follows at hpeek ⊢
    rw [hview] at hpeek
    exact hpeek
  rw [← hview] at hlater hbudget
  unfold run at hrun
  dsimp only at hrun
  split at hrun
  · rename_i hperiod
    apply follows_idle hpeeked hlater hbudget ?_ hrun
    have hzero : t.machine.soc.period = 0 := by
      by_contra hne
      have hsome : (t.set_events t.machine.events.next_deadline.1).machine.period =
          some t.machine.soc.period :=
        Option.filter_eq_some_iff.mpr ⟨rfl, decide_eq_true hne⟩
      rw [hperiod] at hsome
      cases hsome
    show _ / t.machine.soc.period = 0
    rw [hzero, Nat.div_zero]
  · rename_i ns_per_insn hperiod
    obtain rfl : t.machine.soc.period = ns_per_insn :=
      Option.some.inj (Option.filter_eq_some_iff.mp hperiod).1
    split at hrun
    · cases hrun
      exact ⟨hpeeked, 0, rfl⟩
    · -- The count is not cut off at `u32::MAX`.
      have hcount : (t.set_events t.machine.events.next_deadline.1).machine.max_instructions ctx
          t.machine.soc.period (t.machine.budget_ns ctx) =
          (saturating_add t.machine.clock.now (t.machine.budget_ns ctx) -
            t.machine.last_insn_at) / t.machine.soc.period := by
        rw [Machine.max_instructions, honce]
        apply Nat.min_eq_left
        refine Nat.le_trans ?_ h.fits
        have hsum := saturating_add_le t.machine.clock.now (t.machine.budget_ns ctx)
        have hlast := t.machine.last_insn_le
        apply Nat.div_le_div_right
        show saturating_add t.machine.clock.now (t.machine.budget_ns ctx) -
          t.machine.last_insn_at ≤ _
        omega
      split at hrun
      · rename_i hnone
        rw [hcount] at hnone
        exact follows_idle hpeeked hlater hbudget hnone hrun
      · rename_i n hn
        rw [hcount] at hn
        exact follows_quantum hpeeked hlater hbudget hn.symm (Nat.succ_ne_zero n) hrun

/-- A poll follows the course. -/
theorem follows_poll {fuel : Nat} {t t' : Traced (ListCore D A) Ev Empty} {ctx : AdvanceCtx}
    {r : EntityPoll} (h : Ready ctx.max_quantum t) (honce : ctx.step_once = false)
    (hpoll : t.poll fuel ctx = some (t', r)) : Ready ctx.max_quantum t' ∧ Follows t t' := by
  unfold poll at hpoll
  split at hpoll
  · cases hpoll
  · rename_i t₁ reason hfire
    obtain ⟨hstop, -⟩ := follows_fire_due_events h hfire
    cases hstop
  · rename_i t₁ hfire
    obtain ⟨-, hready, hfollows, hlater⟩ := follows_fire_due_events h hfire
    obtain ⟨hready', hfollows'⟩ := follows_run hready honce hlater hpoll
    exact ⟨hready', hfollows.trans hfollows'⟩

end Traced

/-! ### Ceilings -/

/-- Nothing but ceilings and polls. -/
def Sliced {E F : Type} (_ : Simulator E) : SimAct F → Prop
  | .command (.SetAllowed _) | .poll _ => True
  | _ => False

instance {E F : Type} (s : Simulator E) (l : SimAct F) : Decidable (Sliced s l) := by
  unfold Sliced
  split <;> infer_instance

/-- The simulator lets its machine follow its course. -/
structure Following (s : Simulator (Traced (ListCore D A) Ev Empty)) : Prop where
  once : s.step_once = false
  ready : s.entity.Ready s.max_quantum

theorem Following.step {s s' : Simulator (Traced (ListCore D A) Ev Empty)} {l : SimAct Empty}
    (h : Following s) (hok : Sliced s l) (hstep : SimAct.step s l = some s') :
    Following s' ∧ s.entity.Follows s'.entity := by
  cases l with
  | command cmd =>
    cases hstep
    cases cmd with
    | SetAllowed tick =>
      unfold Simulator.command
      split
      · exact ⟨h, 0, rfl⟩
      · exact ⟨⟨h.once, h.ready⟩, 0, rfl⟩
    | _ => exact hok.elim
  | poll fuel =>
    obtain ⟨⟨s₁, rsp⟩, hpoll, heq⟩ := Option.map_eq_some_iff.mp hstep
    cases heq
    rcases Simulator.poll_cases hpoll with ⟨-, rfl, -⟩ | ⟨-, hquantum, r, hentity, hcomplete⟩
    · exact ⟨h, 0, rfl⟩
    · -- Completing the poll changes the simulator, not the machine.
      obtain ⟨hready, hfollows⟩ := Traced.follows_poll h.ready h.once hentity
      have honce := Simulator.complete_once (s := { s with entity := s₁.entity }) h.once r
      rw [hcomplete] at honce
      refine ⟨⟨honce, ?_⟩, hfollows⟩
      show s₁.entity.Ready s₁.max_quantum
      rw [hquantum]
      exact hready
  | _ => exact hok.elim

theorem Following.path {s s' : Simulator (Traced (ListCore D A) Ev Empty)} (h : Following s)
    (hpath : Path (sim_runs power_on_traced) Sliced s s') :
    Following s' ∧ s.entity.Follows s'.entity := by
  induction hpath with
  | refl => exact ⟨h, 0, rfl⟩
  | tail l _ hok hstep ih =>
    obtain ⟨hmid, hfollows⟩ := ih
    obtain ⟨hnext, hfollows'⟩ := hmid.step hok hstep
    exact ⟨hnext, hfollows.trans hfollows'⟩

/-- Two machines on the course of the same one agree on the past of both. -/
theorem Traced.Follows.fired_before {t t₁ t₂ : Traced (ListCore D A) Ev Empty} {T : Nat}
    (h₁ : t.Follows t₁) (h₂ : t.Follows t₂) (hT₁ : T ≤ t₁.machine.clock.now)
    (hT₂ : T ≤ t₂.machine.clock.now) :
    t₁.log.fired.filter (fun f => f.fired_at < T) =
      t₂.log.fired.filter fun f => f.fired_at < T := by
  obtain ⟨k₁, hk₁⟩ := h₁
  obtain ⟨k₂, hk₂⟩ := h₂
  -- One of the two is ahead.
  have hahead {t₁ t₂ : Traced (ListCore D A) Ev Empty} {k₁ k₂ : Nat}
      (hk₁ : t₁.view = Course.step^[k₁] t.view) (hk₂ : t₂.view = Course.step^[k₂] t.view)
      (hT₁ : T ≤ t₁.machine.clock.now) (hle : k₁ ≤ k₂) :
      t₂.view.fired.filter (fun f => f.fired_at < T) =
        t₁.view.fired.filter fun f => f.fired_at < T := by
    have hsplit : t₂.view = Course.step^[k₂ - k₁] t₁.view := by
      rw [hk₁, ← Function.iterate_add_apply, Nat.sub_add_cancel hle]
      exact hk₂
    rw [hsplit]
    exact t₁.sound_view.fired_before hT₁ _
  rcases Nat.le_total k₁ k₂ with hle | hle
  · exact (hahead hk₁ hk₂ hT₁ hle).symm
  · exact hahead hk₂ hk₁ hT₂ hle

/-- Raise the ceiling step by step, and poll up to each. -/
def slices (ceilings : List Nat) : List (SimAct Empty) :=
  ceilings.flatMap fun a => [.command (.SetAllowed a), .poll 5, .poll 5, .poll 5]

/-- The timer core of `timer_core`, started. -/
def timer_started (interval k : Nat) : Simulator TimerTraced :=
  ((timer_sim interval k).command .Start).1

theorem timer_started_reachable (interval k : Nat) :
    Reachable (sim_runs power_on_traced) AnySimRun (timer_started interval k) :=
  .step (.command .Start) (.init (init_timer_sim interval k)) trivial rfl

/-- The same when its first instruction has started the timer. -/
def timer_waiting : Simulator TimerTraced :=
  ((sim_runs power_on_traced).exec NoStep (timer_started 9990 0)
    [.command (.SetAllowed 31), .poll 5]).getD (timer_started 9990 0)

theorem timer_waiting_reachable :
    Reachable (sim_runs power_on_traced) AnySimRun timer_waiting := by
  have hexec : (sim_runs power_on_traced).exec NoStep (timer_started 9990 0)
      [.command (.SetAllowed 31), .poll 5] = some timer_waiting := rfl
  have hpath : Path (sim_runs power_on_traced) AnySimRun (timer_started 9990 0) timer_waiting :=
    (Path.of_exec hexec).mono fun _ _ _ => trivial
  exact (timer_started_reachable 9990 0).of_path hpath

end Rl78Sim
