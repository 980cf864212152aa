import Mathlib.Order.Basic
import Rl78Sim.Framework.Fins

/-! # Virtual Time

    A `Tick` is a number of nanoseconds held in a `u64`. Ticks are modelled by
    natural numbers; the operations saturate at `u64_max` exactly where the
    source's do. `saturating_sub` is subtraction on `Nat`, and
    `saturating_div` is division on `Nat` (both give `0` for a zero divisor).
-/

namespace Rl78Sim

/-- `u64::MAX`. -/
def u64_max : Nat := 18446744073709551615

/-- `u32::MAX`. -/
def u32_max : Nat := 4294967295

def saturating_add (a b : Nat) : Nat := min (a + b) u64_max

def saturating_mul (a b : Nat) : Nat := min (a * b) u64_max

theorem saturating_add_le (a b : Nat) : saturating_add a b ≤ a + b :=
  Nat.min_le_left _ _

theorem saturating_add_le_max (a b : Nat) : saturating_add a b ≤ u64_max :=
  Nat.min_le_right _ _

theorem saturating_mul_le (a b : Nat) : saturating_mul a b ≤ a * b :=
  Nat.min_le_left _ _

theorem saturating_add_mono {a a' : Nat} (b : Nat) (h : a ≤ a') :
    saturating_add a b ≤ saturating_add a' b := by
  unfold saturating_add
  omega

theorem one_le_saturating_mul {a b : Nat} (ha : 1 ≤ a) (hb : 1 ≤ b) : 1 ≤ saturating_mul a b :=
  Nat.le_min.mpr ⟨Nat.one_le_iff_ne_zero.mpr (Nat.mul_ne_zero (by omega) (by omega)), by decide⟩

theorem one_le_saturating_add {a b : Nat} (ha : 1 ≤ a) : 1 ≤ saturating_add a b :=
  Nat.le_min.mpr ⟨Nat.le_trans ha (Nat.le_add_right a b), by decide⟩

/-- A saturating sum is at least every bound that its exact sum and
    `u64_max` are. -/
theorem le_saturating_add {a b c : Nat} (h : c ≤ a + b) (hmax : c ≤ u64_max) :
    c ≤ saturating_add a b :=
  Nat.le_min.mpr ⟨h, hmax⟩

theorem le_saturating_add_left {a : Nat} (b : Nat) (ha : a ≤ u64_max) :
    a ≤ saturating_add a b :=
  le_saturating_add (Nat.le_add_right a b) ha

/-- A counter goes up as long as it does not end at `u64_max`. -/
theorem lt_saturating_succ {n : Nat} (h : saturating_add n 1 < u64_max) :
    n < saturating_add n 1 := by
  unfold saturating_add at h ⊢
  omega

/-- `VirtualClock`: the time shown is a `u64`. -/
structure VirtualClock where
  now : Nat
  le_max : now ≤ u64_max
  deriving DecidableEq

namespace VirtualClock

/-- `VirtualClock::new`. -/
def new : VirtualClock := ⟨0, Nat.zero_le _⟩

/-- `VirtualClock::advance`. -/
def advance (c : VirtualClock) (delta : Nat) : VirtualClock :=
  ⟨saturating_add c.now delta, saturating_add_le_max _ _⟩

@[simp] theorem new_now : new.now = 0 := rfl

@[simp] theorem advance_now (c : VirtualClock) (delta : Nat) :
    (c.advance delta).now = saturating_add c.now delta := rfl

/-- The clock never runs backwards. -/
theorem le_advance (c : VirtualClock) (delta : Nat) : c.now ≤ (c.advance delta).now :=
  le_saturating_add_left delta c.le_max

end VirtualClock

end Rl78Sim
