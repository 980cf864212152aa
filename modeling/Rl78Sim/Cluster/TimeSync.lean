import Rl78Sim.Kernel.Clock
import Mathlib.Data.List.FinRange
import Mathlib.Data.List.MinMax

/-! # The Virtual-Time Ceiling

    The arbiter keeps the last virtual time each board reported and allows the
    boards to run up to `min(reports) + margin`.
-/

namespace Rl78Sim

/-- `TimeCeiling`, with one report for each board. -/
structure TimeCeiling (n : Nat) where
  margin_ns : Nat
  reports : Fin n → Nat

namespace TimeCeiling

variable {n : Nat}

/-- `TimeCeiling::new`. -/
def new (n margin_ns : Nat) : TimeCeiling n := ⟨margin_ns, fun _ => 0⟩

/-- `TimeCeiling::report`. -/
def report (c : TimeCeiling n) (board : Fin n) (virtual_time_ns : Nat) : TimeCeiling n :=
  { c with reports := Function.update c.reports board virtual_time_ns }

/-- `TimeCeiling::last_report`. -/
def last_report (c : TimeCeiling n) (board : Fin n) : Option Nat := some (c.reports board)

/-- `TimeCeiling::advance_to`. -/
def advance_to (c : TimeCeiling n) (now_ns : Nat) : TimeCeiling n :=
  { c with reports := fun i => if c.reports i < now_ns then now_ns else c.reports i }

/-- `TimeCeiling::virtual_time_ns`. -/
def virtual_time_ns (c : TimeCeiling n) : Nat := (List.ofFn c.reports).min?.getD 0

/-- `TimeCeiling::allowed_ns`. -/
def allowed_ns (c : TimeCeiling n) : Nat := saturating_add c.virtual_time_ns c.margin_ns

/-- `TimeCeiling::allowed_ns_until`. -/
def allowed_ns_until (c : TimeCeiling n) : Option Nat → Nat
  | some until_ns => min c.allowed_ns until_ns
  | none => c.allowed_ns

/-! ### The minimum of the reports -/

theorem virtual_time_le (c : TimeCeiling n) (i : Fin n) : c.virtual_time_ns ≤ c.reports i := by
  have hmem : c.reports i ∈ List.ofFn c.reports := List.mem_ofFn.mpr ⟨i, rfl⟩
  unfold virtual_time_ns
  cases hmin : (List.ofFn c.reports).min? with
  | none => exact Nat.zero_le _
  | some m => exact (List.min?_eq_some_iff.mp hmin).2 _ hmem

/-- The virtual time of a cluster with a board is one of the reports. -/
theorem exists_virtual_time (c : TimeCeiling n) (hn : 0 < n) :
    ∃ i, c.reports i = c.virtual_time_ns := by
  unfold virtual_time_ns
  cases hmin : (List.ofFn c.reports).min? with
  | none =>
    have hlen := congrArg List.length (List.min?_eq_none_iff.mp hmin)
    rw [List.length_ofFn] at hlen
    exact absurd hlen (Nat.ne_of_gt hn)
  | some m => exact List.mem_ofFn.mp (List.min?_eq_some_iff.mp hmin).1

theorem le_virtual_time (c : TimeCeiling n) (hn : 0 < n) {v : Nat}
    (h : ∀ i, v ≤ c.reports i) : v ≤ c.virtual_time_ns := by
  obtain ⟨i, hi⟩ := c.exists_virtual_time hn
  rw [← hi]
  exact h i

@[simp] theorem report_margin (c : TimeCeiling n) (i : Fin n) (v : Nat) :
    (c.report i v).margin_ns = c.margin_ns := rfl

@[simp] theorem report_self (c : TimeCeiling n) (i : Fin n) (v : Nat) :
    (c.report i v).reports i = v :=
  Function.update_self _ _ _

theorem report_ne (c : TimeCeiling n) {i j : Fin n} (v : Nat) (h : j ≠ i) :
    (c.report i v).reports j = c.reports j :=
  Function.update_of_ne h _ _

@[simp] theorem advance_to_margin (c : TimeCeiling n) (now_ns : Nat) :
    (c.advance_to now_ns).margin_ns = c.margin_ns := rfl

theorem advance_to_reports (c : TimeCeiling n) (now_ns : Nat) (i : Fin n) :
    (c.advance_to now_ns).reports i = max (c.reports i) now_ns := by
  unfold advance_to
  dsimp only
  split <;> omega

/-! ### Ceilings -/

theorem allowed_le (c : TimeCeiling n) (i : Fin n) : c.allowed_ns ≤ c.reports i + c.margin_ns :=
  Nat.le_trans (saturating_add_le _ _) (Nat.add_le_add_right (c.virtual_time_le i) _)

theorem allowed_until_le_allowed (c : TimeCeiling n) (until_ns : Option Nat) :
    c.allowed_ns_until until_ns ≤ c.allowed_ns := by
  cases until_ns with
  | none => exact Nat.le_refl _
  | some u => exact Nat.min_le_left _ _

theorem allowed_until_le (c : TimeCeiling n) (u : Nat) : c.allowed_ns_until (some u) ≤ u :=
  Nat.min_le_right _ _

theorem allowed_until_le_report (c : TimeCeiling n) (until_ns : Option Nat) (i : Fin n) :
    c.allowed_ns_until until_ns ≤ c.reports i + c.margin_ns :=
  Nat.le_trans (c.allowed_until_le_allowed until_ns) (c.allowed_le i)

end TimeCeiling

end Rl78Sim
