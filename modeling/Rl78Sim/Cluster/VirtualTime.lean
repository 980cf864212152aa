import Rl78Sim.Cluster.Skew

/-! # The Published Virtual Time

    The virtual time that the arbiter publishes is a lower bound of every
    clock and never goes back, so a run that ends because its target is
    reached has reached it on every board. A reset that overtakes a clock, or
    a report in flight, breaks this at once.
-/

namespace Rl78Sim

open Transition

variable {n m : Nat} {E F : Type} [Entity E F]
variable {cfg : Config n m} {s s' : Cluster n m E F} {l : Step n}

/-- A reset finds every board, and every report in flight, at or past the time
    that it writes into the reports. -/
def ResetGuard (s : Cluster n m E F) (l : Step n) : Prop :=
  is_reset l = true → ResetBelowClocks s ∧ ResetBelowFlight s

instance (s : Cluster n m E F) (l : Step n) : Decidable (ResetGuard s l) :=
  inferInstanceAs (Decidable (is_reset l = true → ResetBelowClocks s ∧ ResetBelowFlight s))

theorem reportsSorted_of_reachable [LawfulEntity E]
    (h : Reachable (system cfg) ResetGuard s) : ReportsSorted s :=
  invariant_of_moved (fun _ => initial_reportsSorted)
    (fun _ _ _ hs _ hok hm => hs.moved hm hok) h

theorem ReportsBelow.vt_le (h : ReportsBelow s) (i : Fin n) : s.hub.vt ≤ (s.spoke i).now :=
  Nat.le_trans (s.hub.ceiling.virtual_time_le i) (h.report_le i)

/-- Every report that the arbiter takes raises the published time, if anything. -/
theorem ReportsSorted.vt_le [LawfulEntity E] (h : ReportsSorted s) (hm : Moved cfg s l s') :
    s.hub.vt ≤ s'.hub.vt := by
  refine TimeCeiling.le_virtual_time _ cfg.boards_pos fun i => ?_
  refine Nat.le_trans (s.hub.ceiling.virtual_time_le i) ?_
  cases hm.timesStep i with
  | same _ hrep => exact Nat.le_of_eq hrep.symm
  | sent _ hrep => exact Nat.le_of_eq hrep.symm
  | received htimes =>
    exact (List.pairwise_cons.mp (h i)).1 _ (by rw [htimes]; simp)
  | raised _ _ hrep => exact hrep ▸ Nat.le_max_left _ _

/-- The time that a reset publishes is the one that it writes. -/
theorem reset_vt (hm : Moved cfg s (.hub (.host .Reset)) s') :
    s'.hub.vt = max s.hub.allowed s.hub.vt := by
  have hceil : s'.hub.ceiling = s.hub.ceiling.advance_to (max s.hub.allowed s.hub.vt) := by
    cases hm with
    | hub _ _ _ heff => cases heff with | reset => rfl
  obtain ⟨i, hi⟩ := s.hub.ceiling.exists_virtual_time cfg.boards_pos
  have hle := s'.hub.ceiling.virtual_time_le i
  rw [hceil, TimeCeiling.advance_to_reports, hi] at hle
  refine Nat.le_antisymm ?_ (TimeCeiling.le_virtual_time _ cfg.boards_pos fun j => ?_)
  · have hvt : s.hub.ceiling.virtual_time_ns ≤ max s.hub.allowed s.hub.vt := Nat.le_max_right _ _
    rw [← hceil] at hle
    exact Nat.le_trans hle (Nat.max_le.mpr ⟨hvt, Nat.le_refl _⟩)
  · rw [hceil, TimeCeiling.advance_to_reports]
    exact Nat.le_max_right _ _

/-- A reset keeps the published time below the clocks only if it finds them
    there. -/
theorem reset_vt_le_iff [LawfulEntity E] (hm : Moved cfg s (.hub (.host .Reset)) s') :
    (∀ i, s'.hub.vt ≤ (s'.spoke i).now) ↔ ResetBelowClocks s := by
  have hspoke : s'.spoke = s.spoke := by cases hm; rfl
  simp only [reset_vt hm, hspoke, ResetBelowClocks]

/-! ### Runs with a target -/

/-- The arbiter ends or refuses a run because target `u` is reached: a start
    leaves it stopped, or an iteration that found no stop report ends the run. -/
inductive Arbiter.EndsForUntil (u : Nat) (a a' : Arbiter n) : Arbiter.Act n → Prop where
  | start : a'.running = false → EndsForUntil u a a' (.host (.Start (some u)))
  | sync (changed : Bool) : a.pc = .sync changed none none → a.until_cap = some u →
      a.running = true → a'.running = false → EndsForUntil u a a' .sync_finish

theorem Arbiter.EndsForUntil.le_vt {u : Nat} {a a' : Arbiter n} {act : Arbiter.Act n}
    {out : List (ControlToNode n)} (h : EndsForUntil u a a' act) (heff : a.Effect act a' out) :
    u ≤ a.vt := by
  cases h with
  | start hidle =>
    cases heff with
    | refuse _ _ hu => exact hu
    | start_stops _ _ hu => exact hu
    | start => cases hidle
  | sync changed hpc hcap hrun hidle =>
    have hreach {b : Bool} (h : reached_until a.until_cap a.vt = b) : b = decide (u ≤ a.vt) := by
      rw [← h, hcap]
      rfl
    cases heff with
    | host_stop _ _ _ hpc' => rw [hpc] at hpc'; cases hpc'
    | catch_up _ _ hpc' => rw [hpc] at hpc'; cases hpc'
    | unchanged => rw [hrun] at hidle; cases hidle
    | republish => rw [hrun] at hidle; cases hidle
    | until_stop _ _ _ hr => exact of_decide_eq_true (hreach hr).symm
    | republish_until_stop _ hr => exact of_decide_eq_true (hreach hr).symm

/-- The published time bounds every clock from below and never goes back, and a
    run that ends for its target leaves every board at or past it. -/
theorem until_stop_reached {C Ev M : Type} [Cpu C Ev F] [Model M F]
    {s : Cluster n m (Board C Ev M F) F} (h : Reachable (system cfg) ResetGuard s) :
    (∀ i, s.hub.vt ≤ (s.spoke i).now) ∧
      (∀ l s', (system cfg).step s l = some s' → s.hub.vt ≤ s'.hub.vt) ∧
      ∀ u act s', (system cfg).step s (.hub act) = some s' →
        Arbiter.EndsForUntil u s.hub s'.hub act → ∀ i, u ≤ (s'.spoke i).now := by
  have hsorted : ReportsSorted s := reportsSorted_of_reachable h
  have hwf : ClusterWf s := wf_of_reachable h
  refine ⟨hsorted.below.vt_le, fun l s' hstep => hsorted.vt_le (step_moved hwf hstep), ?_⟩
  intro u act s' hstep hends i
  have hm := step_moved hwf hstep
  cases hm with
  | hub _ _ _ heff => exact Nat.le_trans (hends.le_vt heff) (hsorted.below.vt_le i)

/-- Both boards reach their target of 500 and report it. -/
def until_run : List (Step 2) :=
  host (.Start (some 500)) :: receive 0 1 ++ receive 1 1 ++ full_loop 0 ++ full_loop 0 ++
    full_loop 1 ++ full_loop 1 ++ [.hub .sync_begin, .deliver 0, .deliver 1]

theorem until_stop_reached_pair :
    ∃ s s' : GuestCluster 2 0, Reachable (system (unwired 1000 100)) ResetGuard s ∧
      (system (unwired 1000 100)).step s (.hub .sync_finish) = some s' ∧
      s'.hub.running = false ∧ ∀ i, 500 ≤ (s'.spoke i).now := by
  obtain ⟨s, s', hs, hstep, hpc, hcap, hrun, hidle⟩ : ∃ s s' : GuestCluster 2 0,
      Reachable (system (unwired 1000 100)) ResetGuard s ∧
      (system (unwired 1000 100)).step s (.hub .sync_finish) = some s' ∧
      s.hub.pc = .sync true none none ∧ s.hub.until_cap = some 500 ∧ s.hub.running = true ∧
      s'.hub.running = false :=
    Reachable.exists_step_of_exec until_run (initial_plants (unwired 1000 100) 10000 false)
      (by decide +kernel)
  exact ⟨s, s', hs, hstep, hidle,
    (until_stop_reached hs).2.2 500 .sync_finish s' hstep (.sync true hpc hcap hrun hidle)⟩

/-- A reset right after the boot raises the published time over every clock,
    and a start is refused whose target no board has reached. -/
theorem reset_breaks_virtual_time :
    ∃ s s' : GuestCluster 2 0, Reachable (system (unwired 1000 100)) NoGdbStep s ∧
      (system (unwired 1000 100)).step s (host (.Start (some 500))) = some s' ∧
      s'.hub.running = false ∧ ¬ ∀ i, 500 ≤ (s'.spoke i).now :=
  Reachable.exists_step_of_exec [host .Reset, host .Stop]
    (initial_plants (unwired 1000 100) 10000 false) (by decide +kernel)

end Rl78Sim
