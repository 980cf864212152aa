import Mathlib.Logic.Function.Iterate
import Rl78Sim.Kernel.Agenda
import Rl78Sim.Kernel.ListCore

/-! # The Course of a Guest

    What a guest does with time alone: nanosecond by nanosecond the
    instructions that fit are retired, and every event fires when it is due.
    No quantum and no ceiling appears in the course.
-/

namespace Rl78Sim

variable {D A Ev : Type} [Devices D A Ev]

/-! ### The course -/

namespace Agenda

omit [Devices D A Ev] in
def serve (a : Agenda Ev) : List (QueueCall Ev) → Agenda Ev
  | [] => a
  | .schedule at_ event :: calls => (a.schedule at_ event).serve calls
  | .cancel id :: calls => (a.remove id).serve calls

end Agenda

/-- The access cancels events at most, and sees neither the time nor the ids
    of events to come. -/
def PassiveAccess (D : Type) {A Ev : Type} [Devices D A Ev] (a : A) : Prop :=
  ∀ (now next_id : Nat) (d : D), Devices.access a now next_id d = Devices.access a 0 0 d ∧
    ∀ call ∈ (Devices.access a 0 0 d).2, ∃ id, call = .cancel id

/-- Every access that is still to come is passive. -/
def ListCore.Passive (c : ListCore D A) : Prop :=
  ∀ k, c.pc ≤ k → ∀ a ∈ c.program k, PassiveAccess D a

/-- The guest at a moment of its course. -/
structure Course (D A Ev : Type) where
  clock : Nat
  last_insn_at : Nat
  retired : Nat
  core : ListCore D A
  agenda : Agenda Ev
  fired : List (Firing Ev)

namespace Course

def accesses : List A → D → Agenda Ev → D × Agenda Ev
  | [], d, agenda => (d, agenda)
  | a :: rest, d, agenda =>
      let (d, calls) := Devices.access a 0 0 d
      accesses rest d (agenda.serve calls)

/-- Retire one instruction. -/
def insn (x : Course D A Ev) : Course D A Ev :=
  let (d, agenda) := accesses (x.core.program x.core.pc) x.core.devices x.agenda
  { x with
    last_insn_at := x.last_insn_at + x.core.period
    retired := x.retired + 1
    core := { x.core with pc := x.core.pc + 1, devices := d }
    agenda := agenda }

/-- Move the clock to `target` and retire the instructions that fit. -/
def advance (x : Course D A Ev) (target : Nat) : Course D A Ev :=
  { insn^[(target - x.last_insn_at) / x.core.period] x with clock := target }

/-- One nanosecond. -/
def tick (x : Course D A Ev) : Course D A Ev := x.advance (min (x.clock + 1) u64_max)

/-- Fire the first entry of the agenda. -/
def fire (x : Course D A Ev) (item : Scheduled) : Course D A Ev :=
  match x.agenda.events.lookup item.id with
  | none => x
  | some event =>
      let agenda := x.agenda.remove item.id
      let (d, calls) := Devices.fire event x.clock agenda.next_id x.core.devices
      { x with
        core := { x.core with devices := d }
        agenda := agenda.serve calls
        fired := x.fired ++ [⟨item.id, event, item.at_, x.clock, x.retired⟩] }

/-- The instructions that have fitted and are not retired. -/
def outstanding (x : Course D A Ev) : Nat := (x.clock - x.last_insn_at) / x.core.period

/-- While nothing is due: retire what is outstanding, or else wait. -/
def pass (x : Course D A Ev) : Course D A Ev :=
  if x.outstanding = 0 then x.tick else x.advance x.clock

def step (x : Course D A Ev) : Course D A Ev :=
  match x.agenda.entries with
  | [] => x.pass
  | item :: _ => if item.at_ ≤ x.clock then x.fire item else x.pass

/-- The instruction clock is behind the clock. -/
structure Sound (x : Course D A Ev) : Prop where
  last_le : x.last_insn_at ≤ x.clock
  le_max : x.clock ≤ u64_max

/-! ### Instructions -/

/-- What `k` instructions leave alone, and what they count. -/
structure Retired (x x' : Course D A Ev) (k : Nat) : Prop where
  clock_eq : x'.clock = x.clock
  last_eq : x'.last_insn_at = x.last_insn_at + x.core.period * k
  retired_eq : x'.retired = x.retired + k
  period_eq : x'.core.period = x.core.period
  program_eq : x'.core.program = x.core.program
  pc_eq : x'.core.pc = x.core.pc + k
  fired_eq : x'.fired = x.fired

theorem retired_insns (x : Course D A Ev) (k : Nat) : Retired x (insn^[k] x) k := by
  induction k with
  | zero => exact ⟨rfl, rfl, rfl, rfl, rfl, rfl, rfl⟩
  | succ k ih =>
    obtain ⟨hclock, hlast, hretired, hperiod, hprogram, hpc, hfired⟩ := ih
    rw [Function.iterate_succ_apply']
    refine ⟨hclock, ?_, congrArg (· + 1) hretired, hperiod, hprogram, congrArg (· + 1) hpc, hfired⟩
    show (insn^[k] x).last_insn_at + (insn^[k] x).core.period = _
    rw [hlast, hperiod, Nat.mul_succ, Nat.add_assoc]

theorem Retired.passive {x x' : Course D A Ev} {k : Nat} (h : Retired x x' k)
    (hpassive : x.core.Passive) : x'.core.Passive := by
  intro i hi a ha
  have hpc := h.pc_eq
  rw [h.program_eq] at ha
  exact hpassive i (by omega) a ha

/-- Instructions do not see the clock. -/
theorem insns_clock (x : Course D A Ev) (c k : Nat) :
    insn^[k] { x with clock := c } = { insn^[k] x with clock := c } := by
  induction k with
  | zero => rfl
  | succ k ih =>
    rw [Function.iterate_succ_apply', Function.iterate_succ_apply', ih]
    rfl

/-- Advancing in two steps is advancing in one. -/
theorem advance_advance (x : Course D A Ev) {c₁ c₂ : Nat} (hle : c₁ ≤ c₂) :
    (x.advance c₁).advance c₂ = x.advance c₂ := by
  have hlast : (x.advance c₁).last_insn_at =
      x.last_insn_at + x.core.period * ((c₁ - x.last_insn_at) / x.core.period) :=
    (retired_insns x _).last_eq
  have hperiod : (x.advance c₁).core.period = x.core.period := (retired_insns x _).period_eq
  have hcount : (c₂ - (x.advance c₁).last_insn_at) / (x.advance c₁).core.period +
      (c₁ - x.last_insn_at) / x.core.period = (c₂ - x.last_insn_at) / x.core.period := by
    rw [hlast, hperiod, ← Nat.sub_sub, Nat.sub_mul_div]
    have hmono : (c₁ - x.last_insn_at) / x.core.period ≤ (c₂ - x.last_insn_at) / x.core.period :=
      Nat.div_le_div_right (Nat.sub_le_sub_right hle _)
    omega
  have hinsns (k : Nat) : insn^[k] (x.advance c₁) =
      { insn^[k + (c₁ - x.last_insn_at) / x.core.period] x with clock := c₁ } := by
    rw [Function.iterate_add_apply, ← insns_clock]
    rfl
  rw [advance, hinsns, hcount]
  rfl

/-- With nothing outstanding there is nothing to catch up with. -/
theorem advance_clock {x : Course D A Ev} (h : x.outstanding = 0) : x.advance x.clock = x := by
  show { insn^[x.outstanding] x with clock := x.clock } = x
  rw [h]
  rfl

theorem Sound.advance {x : Course D A Ev} (h : Sound x) {target : Nat} (hle : x.clock ≤ target)
    (hmax : target ≤ u64_max) : Sound (x.advance target) ∧ (x.advance target).outstanding = 0 := by
  have hlast : (x.advance target).last_insn_at =
      x.last_insn_at + x.core.period * ((target - x.last_insn_at) / x.core.period) :=
    (retired_insns x _).last_eq
  have hperiod : (x.advance target).core.period = x.core.period := (retired_insns x _).period_eq
  have hclock : (x.advance target).clock = target := rfl
  have hlast_le := h.last_le
  have hdiv := Nat.mul_div_le (target - x.last_insn_at) x.core.period
  refine ⟨⟨?_, hmax⟩, ?_⟩
  · rw [hclock, hlast]
    omega
  · rw [outstanding, hclock, hlast, hperiod]
    by_cases hzero : x.core.period = 0
    · rw [hzero, Nat.div_zero]
    · -- What is left is the remainder of a division by the period.
      have hmod := Nat.lt_mul_div_succ (target - x.last_insn_at) (Nat.pos_of_ne_zero hzero)
      rw [Nat.mul_succ] at hmod
      apply Nat.div_eq_of_lt
      omega

theorem Sound.ticks {x : Course D A Ev} (h : Sound x) (hnone : x.outstanding = 0) (b : Nat) :
    tick^[b] x = x.advance (min (x.clock + b) u64_max) := by
  have hmax := h.le_max
  induction b with
  | zero =>
    rw [Nat.add_zero, Nat.min_eq_left hmax, advance_clock hnone]
    rfl
  | succ b ih =>
    have hclock : (x.advance (min (x.clock + b) u64_max)).clock = min (x.clock + b) u64_max := rfl
    rw [Function.iterate_succ_apply', ih, tick, hclock, advance_advance]
    · congr 1
      omega
    · omega

/-! ### The agenda in between -/

omit [Devices D A Ev] in
theorem serve_cancels (calls : List (QueueCall Ev))
    (hcancel : ∀ call ∈ calls, ∃ id, call = .cancel id)
    (a : Agenda Ev) : ∀ item ∈ (a.serve calls).entries, item ∈ a.entries := by
  induction calls generalizing a with
  | nil =>
    intro item hitem
    exact hitem
  | cons call calls ih =>
    obtain ⟨id, rfl⟩ := hcancel call List.mem_cons_self
    intro item hitem
    have hrest := ih (fun c hc => hcancel c (List.mem_cons_of_mem _ hc)) (a.remove id) item hitem
    exact List.mem_of_mem_filter hrest

/-- Instructions take entries off the agenda at most. -/
theorem entries_insn {x : Course D A Ev} (hpassive : x.core.Passive) :
    ∀ item ∈ x.insn.agenda.entries, item ∈ x.agenda.entries := by
  have haccesses (as : List A) (has : ∀ a ∈ as, PassiveAccess D a) (d : D) (agenda : Agenda Ev) :
      ∀ item ∈ (accesses as d agenda).2.entries, item ∈ agenda.entries := by
    induction as generalizing d agenda with
    | nil =>
      intro item hitem
      exact hitem
    | cons a as ih =>
      intro item hitem
      have hrest := ih (fun b hb => has b (List.mem_cons_of_mem _ hb)) _ _ item hitem
      exact serve_cancels _ (has a List.mem_cons_self 0 0 d).2 agenda item hrest
  apply haccesses
  intro a ha
  exact hpassive x.core.pc (Nat.le_refl _) a ha

theorem entries_insns {x : Course D A Ev} (hpassive : x.core.Passive) (k : Nat) :
    ∀ item ∈ (insn^[k] x).agenda.entries, item ∈ x.agenda.entries := by
  induction k with
  | zero =>
    intro item hitem
    exact hitem
  | succ k ih =>
    intro item hitem
    rw [Function.iterate_succ_apply'] at hitem
    exact ih item (entries_insn ((retired_insns x k).passive hpassive) item hitem)

/-- While nothing is due, a step passes the time. -/
theorem step_eq_pass {x : Course D A Ev} (hdue : ∀ item ∈ x.agenda.entries, x.clock < item.at_) :
    x.step = x.pass := by
  unfold step
  split
  · rfl
  · rename_i item rest hentries
    have hlater := hdue item (hentries ▸ List.mem_cons_self)
    rw [if_neg (by omega)]

theorem Sound.steps_eq_ticks {x : Course D A Ev} {b : Nat} (h : Sound x)
    (hpassive : x.core.Passive) (hnone : x.outstanding = 0)
    (hdue : ∀ item ∈ x.agenda.entries, x.clock + b ≤ item.at_) : step^[b] x = tick^[b] x := by
  induction b generalizing x with
  | zero => rfl
  | succ b ih =>
    have hstep : x.step = x.tick := by
      rw [step_eq_pass, pass, if_pos hnone]
      intro item hitem
      have hlater := hdue item hitem
      omega
    have hmax := h.le_max
    have htick : Sound (x.advance (min (x.clock + 1) u64_max)) ∧
        (x.advance (min (x.clock + 1) u64_max)).outstanding = 0 :=
      h.advance (by omega) (Nat.min_le_right _ _)
    rw [Function.iterate_succ_apply, Function.iterate_succ_apply, hstep]
    apply ih htick.1 ((retired_insns x _).passive hpassive) htick.2
    intro item hitem
    have hlater := hdue item (entries_insns hpassive _ item hitem)
    show min (x.clock + 1) u64_max + b ≤ item.at_
    omega

/-- So the course reaches every time before which nothing is due. -/
theorem Sound.steps {x : Course D A Ev} (h : Sound x) (hpassive : x.core.Passive) {b : Nat}
    (hlater : ∀ item ∈ x.agenda.entries, x.clock < item.at_)
    (hdue : ∀ item ∈ x.agenda.entries, x.clock + b ≤ item.at_) :
    ∃ k, step^[k] x = x.advance (min (x.clock + b) u64_max) := by
  have hmax := h.le_max
  -- One step retires what is outstanding.
  have hsettled := h.advance (Nat.le_refl _) hmax
  have hentries (item : Scheduled) (hitem : item ∈ (x.advance x.clock).agenda.entries) :
      item ∈ x.agenda.entries := entries_insns hpassive _ item hitem
  have hrest : step^[b] (x.advance x.clock) = x.advance (min (x.clock + b) u64_max) := by
    rw [hsettled.1.steps_eq_ticks ((retired_insns x _).passive hpassive) hsettled.2,
      hsettled.1.ticks hsettled.2]
    · show (x.advance x.clock).advance (min (x.clock + b) u64_max) = _
      apply advance_advance
      omega
    · intro item hitem
      exact hdue item (hentries item hitem)
  by_cases hnone : x.outstanding = 0
  · refine ⟨b, ?_⟩
    rw [← hrest, advance_clock hnone]
  · refine ⟨b + 1, ?_⟩
    rw [Function.iterate_succ_apply, step_eq_pass hlater, pass, if_neg hnone, hrest]

/-! ### What is settled -/

theorem Sound.step_le {x : Course D A Ev} (h : Sound x) :
    Sound x.step ∧ x.clock ≤ x.step.clock := by
  have hmax := h.le_max
  have hpass : Sound x.pass ∧ x.clock ≤ x.pass.clock := by
    unfold pass
    split
    · have hle : x.clock ≤ min (x.clock + 1) u64_max := by omega
      exact ⟨(h.advance hle (Nat.min_le_right _ _)).1, hle⟩
    · exact ⟨(h.advance (Nat.le_refl _) hmax).1, Nat.le_refl _⟩
  unfold Course.step
  split
  · exact hpass
  · split
    · unfold fire
      split
      · exact ⟨h, Nat.le_refl _⟩
      · exact ⟨⟨h.last_le, h.le_max⟩, Nat.le_refl _⟩
    · exact hpass

/-- Whatever fires, fires now. -/
theorem fired_step (x : Course D A Ev) :
    ∃ later, x.step.fired = x.fired ++ later ∧ ∀ f ∈ later, f.fired_at = x.clock := by
  have hsame {x' : Course D A Ev} (h : x'.fired = x.fired) :
      ∃ later, x'.fired = x.fired ++ later ∧ ∀ f ∈ later, f.fired_at = x.clock := by
    refine ⟨[], h.trans (List.append_nil _).symm, ?_⟩
    nofun
  have hpass : x.pass.fired = x.fired := by
    unfold pass
    split
    · exact (retired_insns x _).fired_eq
    · exact (retired_insns x _).fired_eq
  unfold step
  split
  · exact hsame hpass
  · split
    · unfold fire
      split
      · exact hsame rfl
      · refine ⟨_, rfl, ?_⟩
        intro f hf
        rw [List.mem_singleton.mp hf]
    · exact hsame hpass

/-- What has fired before a time that the clock has reached is settled. -/
theorem Sound.fired_before {x : Course D A Ev} (h : Sound x) {T : Nat} (hT : T ≤ x.clock)
    (k : Nat) :
    (step^[k] x).fired.filter (fun f => f.fired_at < T) =
      x.fired.filter fun f => f.fired_at < T := by
  induction k generalizing x with
  | zero => rfl
  | succ k ih =>
    obtain ⟨hsound, hle⟩ := h.step_le
    obtain ⟨later, hfired, hnow⟩ := fired_step x
    rw [Function.iterate_succ_apply, ih hsound (Nat.le_trans hT hle), hfired, List.filter_append]
    have hnone : later.filter (fun f => f.fired_at < T) = [] := by
      apply List.filter_eq_nil_iff.mpr
      intro f hf
      rw [hnow f hf, decide_eq_true_eq]
      omega
    rw [hnone, List.append_nil]

end Course

end Rl78Sim
