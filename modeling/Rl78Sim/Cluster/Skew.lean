import Rl78Sim.Cluster.Guests
import Rl78Sim.Cluster.Observe

/-! # Virtual Time Across Boards

    Two laws tie the arbiter's view of time to the boards' clocks. The reports
    are lower bounds of the clocks, so the published virtual time is one; and
    every ceiling in use is within the margin of every clock, so no board runs
    further ahead. Both rest on reports being written by the boards: a host
    reset writes them too, and keeps the laws only when the boards have caught
    up with the value it writes.
-/

namespace Rl78Sim

open Transition

variable {n m : Nat} {E F : Type} [Entity E F]

/-! ### Reports -/

/-- The reports of every board, taken or in flight, are in order and end at
    its clock. -/
def ReportsSorted (s : Cluster n m E F) : Prop :=
  ∀ i, (s.hub.ceiling.reports i :: (times (s.up i) ++ [(s.spoke i).now])).Pairwise (· ≤ ·)

/-- The reports of every board, taken or in flight, are within its clock. -/
structure ReportsBelow (s : Cluster n m E F) : Prop where
  report_le (i : Fin n) : s.hub.ceiling.reports i ≤ (s.spoke i).now
  flight_le (i : Fin n) : ∀ v ∈ times (s.up i), v ≤ (s.spoke i).now

theorem ReportsSorted.below {s : Cluster n m E F} (h : ReportsSorted s) : ReportsBelow s := by
  refine ⟨fun i => ?_, fun i v hv => ?_⟩
  · exact (List.pairwise_cons.mp (h i)).1 _ (by simp)
  · have hi := (List.pairwise_append.mp (List.pairwise_cons.mp (h i)).2).2.2 v hv
    exact hi _ (by simp)

/-- What a reset may write without passing any clock. -/
def ResetBelowClocks (s : Cluster n m E F) : Prop :=
  ∀ i, max s.hub.allowed s.hub.vt ≤ (s.spoke i).now

/-- What a reset may write without passing a report in flight. -/
def ResetBelowFlight (s : Cluster n m E F) : Prop :=
  ∀ i, ∀ v ∈ times (s.up i), max s.hub.allowed s.hub.vt ≤ v

variable {cfg : Config n m} {s s' : Cluster n m E F} {l : Step n}

theorem ReportsBelow.moved [LawfulEntity E] (h : ReportsBelow s) (hm : Moved cfg s l s')
    (hreset : is_reset l = true → ResetBelowClocks s) : ReportsBelow s' := by
  refine ⟨fun i => ?_, fun i v hv => ?_⟩
  · have hnow := hm.now_le i
    have hrep := h.report_le i
    cases hm.timesStep i with
    | same _ heq => omega
    | sent _ heq => omega
    | received hup heq =>
      have hflight := h.flight_le i _ (hup ▸ List.mem_cons_self)
      omega
    | raised hl _ heq =>
      have hclock := hreset (hl ▸ rfl) i
      omega
  · have hnow := hm.now_le i
    cases hm.timesStep i with
    | same heq => exact Nat.le_trans (h.flight_le i v (heq ▸ hv)) hnow
    | sent heq =>
      rw [heq] at hv
      rcases List.mem_append.mp hv with hold | hnew
      · exact Nat.le_trans (h.flight_le i v hold) hnow
      · exact Nat.le_of_eq (List.mem_singleton.mp hnew)
    | received heq =>
      exact Nat.le_trans (h.flight_le i v (heq ▸ List.mem_cons_of_mem _ hv)) hnow
    | raised _ heq => exact Nat.le_trans (h.flight_le i v (heq ▸ hv)) hnow

/-- Raising the last entry of a sorted list keeps it sorted. -/
theorem pairwise_concat_mono (xs : List Nat) {v w : Nat} (h : (xs ++ [v]).Pairwise (· ≤ ·))
    (hvw : v ≤ w) : (xs ++ [w]).Pairwise (· ≤ ·) := by
  obtain ⟨hxs, -, hcross⟩ := List.pairwise_append.mp h
  refine List.pairwise_append.mpr ⟨hxs, List.pairwise_singleton _ _, fun a ha b hb => ?_⟩
  rw [List.mem_singleton.mp hb]
  exact Nat.le_trans (hcross a ha v (List.mem_singleton_self v)) hvw

theorem ReportsSorted.moved [LawfulEntity E] (h : ReportsSorted s) (hm : Moved cfg s l s')
    (hreset : is_reset l = true → ResetBelowClocks s ∧ ResetBelowFlight s) :
    ReportsSorted s' := by
  intro i
  have hnow := hm.now_le i
  have hi := h i
  cases hm.timesStep i with
  | same htimes hrep =>
    rw [htimes, hrep]
    exact pairwise_concat_mono (_ :: _) hi hnow
  | sent htimes hrep =>
    rw [htimes, hrep]
    have hmono := pairwise_concat_mono (_ :: _) hi hnow
    refine List.pairwise_append.mpr ⟨hmono, List.pairwise_singleton _ _, fun a ha b hb => ?_⟩
    rw [List.mem_singleton.mp hb]
    rcases List.mem_append.mp ha with hold | hlast
    · exact (List.pairwise_append.mp hmono).2.2 a hold _ (List.mem_singleton_self _)
    · exact Nat.le_of_eq (List.mem_singleton.mp hlast)
  | received htimes heq =>
    rw [htimes] at hi
    rw [heq]
    exact (List.pairwise_cons.mp hi).2
  | raised hl htimes hrep =>
    -- A reset puts its time before every report and every clock.
    obtain ⟨hclocks, hflight⟩ := hreset (hl ▸ rfl)
    obtain ⟨hhead, htail⟩ := List.pairwise_cons.mp hi
    rw [htimes, hrep]
    refine pairwise_concat_mono (_ :: _) (List.pairwise_cons.mpr ⟨fun v hv => ?_, htail⟩) hnow
    have hold := hhead v hv
    rcases List.mem_append.mp hv with hin | hlast
    · have := hflight i v hin
      omega
    · have := hclocks i
      rw [List.mem_singleton.mp hlast] at hold ⊢
      omega

theorem initial_times (h : Initial cfg s) (i : Fin n) : times (s.up i) = [] := by
  simp only [times, List.filterMap_eq_nil_iff]
  intro r hr
  rw [h.up i r hr]

theorem initial_reportsSorted (h : Initial cfg s) : ReportsSorted s := by
  intro i
  rw [initial_times h, h.hub_eq]
  simp [Arbiter.new, TimeCeiling.new]

/-! ### Ceilings -/

/-- Every ceiling in use is within the margin of every clock, and so is every
    clock. -/
structure SkewInv (cfg : Config n m) (s : Cluster n m E F) : Prop where
  margin_eq : s.hub.ceiling.margin_ns = cfg.margin_ns
  below : ReportsBelow s
  queued_le (i j : Fin n) : ∀ msg ∈ s.down i, ∀ a, msg.ceiling_of = some a →
    a ≤ (s.spoke j).now + cfg.margin_ns
  allowed_le (i j : Fin n) : (s.spoke i).allowed_ns ≤ (s.spoke j).now + cfg.margin_ns
  clock_le (i j : Fin n) : (s.spoke i).now ≤ (s.spoke j).now + cfg.margin_ns
  no_step (i b : Fin n) : .GdbStep b ∉ s.down i

/-- The runs of the skew bound: no gdb step, and a reset finds every board at
    or past the time that it writes into the reports. -/
def SkewGuard (s : Cluster n m E F) (l : Step n) : Prop :=
  is_gdb_step l = false ∧ (is_reset l = true → ResetBelowClocks s)

theorem SkewInv.initial (h : Initial cfg s) : SkewInv cfg s := by
  have hnow (i : Fin n) : (s.spoke i).now = 0 := (h.spoke i).now_eq
  refine
    { margin_eq := by rw [h.hub_eq]; rfl
      below := (initial_reportsSorted h).below
      queued_le := fun i j msg hmsg a ha => ?_
      allowed_le := fun i j => by rw [(h.spoke i).allowed_ns_eq]; exact Nat.zero_le _
      clock_le := fun i j => by rw [hnow i]; exact Nat.zero_le _
      no_step := fun i b hmsg => ?_ }
  · rw [h.down i msg hmsg] at ha
    cases ha
  · cases h.down i _ hmsg

theorem SkewInv.moved [LawfulEntity E] (h : SkewInv cfg s) (hwf : ClusterWf s)
    (hok : SkewGuard s l) (hm : Moved cfg s l s') : SkewInv cfg s' := by
  have hbelow := h.below.moved hm hok.2
  have hmargin := hm.margin_eq.trans h.margin_eq
  -- Old bounds only get weaker, since the clocks move forward.
  have hweaken {a : Nat} (j : Fin n) (ha : a ≤ (s.spoke j).now + cfg.margin_ns) :
      a ≤ (s'.spoke j).now + cfg.margin_ns :=
    Nat.le_trans ha (Nat.add_le_add_right (hm.now_le j) _)
  refine
    { margin_eq := hmargin
      below := hbelow
      queued_le := fun i j msg hmsg a ha => ?_
      allowed_le := fun i j => ?_
      clock_le := fun i j => ?_
      no_step := fun i b hmsg => ?_ }
  · rcases hm.mem_down hmsg with hold | ⟨act, out, -, heff, hnew⟩
    · exact hweaken j (h.queued_le i j msg hold a ha)
    · have hle := heff.ceiling_le hnew ha j
      have hrep := hbelow.report_le j
      omega
  · rcases hm.allowed_ns_cases i with heq | ⟨msg, hmsg, hceil⟩
    · exact hweaken j (heq ▸ h.allowed_le i j)
    · exact hweaken j (h.queued_le i j msg hmsg _ hceil)
  · have hle := hm.now_le_ceiling hwf (h.no_step i i)
    refine hweaken j (Nat.le_trans hle (Nat.max_le.mpr ⟨h.clock_le i j, h.allowed_le i j⟩))
  · rcases hm.mem_down hmsg with hold | ⟨act, out, rfl, heff, hnew⟩
    · exact h.no_step i b hold
    · have hfree := hok.1
      rw [heff.gdb_step_mem hnew] at hfree
      cases hfree

theorem skewInv_of_reachable [LawfulEntity E] (h : Reachable (system cfg) SkewGuard s) :
    SkewInv cfg s :=
  invariant_of_moved (fun _ => SkewInv.initial)
    (fun _ _ _ hs hwf hok hm => hs.moved hwf hok hm) h

instance (s : Cluster n m E F) : Decidable (ResetBelowClocks s) :=
  inferInstanceAs (Decidable (∀ i, max s.hub.allowed s.hub.vt ≤ (s.spoke i).now))

instance (s : Cluster n m E F) : Decidable (ResetBelowFlight s) :=
  inferInstanceAs (Decidable (∀ i, ∀ v ∈ times (s.up i), max s.hub.allowed s.hub.vt ≤ v))

instance (s : Cluster n m E F) (l : Step n) : Decidable (SkewGuard s l) :=
  inferInstanceAs (Decidable (is_gdb_step l = false ∧ (is_reset l = true → ResetBelowClocks s)))

/-- A poll never takes a board further than the margin ahead of another. -/
theorem poll_within_margin {C Ev M : Type} [Cpu C Ev F] [Model M F]
    {s s' : Cluster n m (Board C Ev M F) F} {i : Fin n} {fuel : Nat}
    (h : Reachable (system cfg) SkewGuard s)
    (hstep : (system cfg).step s (.spoke i (.poll fuel)) = some s') (j : Fin n) :
    (s'.spoke i).now ≤ (s'.spoke j).now + cfg.margin_ns := by
  have hguard : SkewGuard s (.spoke i (.poll fuel)) := ⟨rfl, nofun⟩
  have hinv : SkewInv cfg s' := skewInv_of_reachable (.step _ h hguard hstep)
  exact hinv.clock_le i j

/-- Board 0 stands at its ceiling of 1000 and board 1 at 0 when a reset moves
    the ceiling of board 0 to 2000. -/
def reset_run : List (Step 2) :=
  host (.Start none) :: receive 0 1 ++ full_loop 0 ++ full_loop 0 ++
    host .Reset :: receive 0 3 ++ full_loop 0 ++ running_loop 0

/-- The same run, where the reset waits for the boards to stop at the ceiling
    that it writes. -/
def late_reset_run : List (Step 2) :=
  host (.Start none) :: receive 0 1 ++ receive 1 1 ++ full_loop 0 ++ full_loop 0 ++
    full_loop 1 ++ full_loop 1 ++ host .Reset :: receive 0 3 ++ full_loop 0 ++ running_loop 0

theorem poll_within_margin_late_reset :
    ∃ s s' : GuestCluster 2 0, Reachable (system (unwired 1000 100)) SkewGuard s ∧
      (system (unwired 1000 100)).step s (.spoke 0 (.poll 2)) = some s' ∧
      (s.spoke 0).now < (s'.spoke 0).now ∧
      ∀ j, (s'.spoke 0).now ≤ (s'.spoke j).now + 1000 := by
  obtain ⟨s, s', hs, hstep, hadv⟩ : ∃ s s' : GuestCluster 2 0,
      Reachable (system (unwired 1000 100)) SkewGuard s ∧
      (system (unwired 1000 100)).step s (.spoke 0 (.poll 2)) = some s' ∧
      (s.spoke 0).now < (s'.spoke 0).now :=
    Reachable.exists_step_of_exec late_reset_run
      (initial_plants (unwired 1000 100) 10000 false) (by decide +kernel)
  exact ⟨s, s', hs, hstep, hadv, poll_within_margin hs hstep⟩

/-- A reset lets the fast board run two margins ahead. -/
theorem reset_breaks_margin :
    ∃ s s' : GuestCluster 2 0, Reachable (system (unwired 1000 100)) NoGdbStep s ∧
      (system (unwired 1000 100)).step s (.spoke 0 (.poll 2)) = some s' ∧
      (s.spoke 0).now < (s'.spoke 0).now ∧
      ¬ ∀ j, (s'.spoke 0).now ≤ (s'.spoke j).now + 1000 :=
  Reachable.exists_step_of_exec reset_run (initial_plants (unwired 1000 100) 10000 false)
    (by decide +kernel)

end Rl78Sim
