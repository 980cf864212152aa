import Mathlib.Data.List.Pairwise
import Mathlib.Order.Lattice

/-! # Bisection

    The search for the place where a predicate on indices changes from true to
    false, and where a list in order passes a bound.
-/

namespace Bisect

/-- The loop over `lo` and `hi`. -/
def bisect (p : Nat → Bool) (lo hi : Nat) : Nat :=
  if lo < hi then
    let mid := (lo + hi) / 2
    if p mid then bisect p (mid + 1) hi else bisect p lo mid
  else lo
termination_by hi - lo

/-- Between `lo` and `hi` the predicate never comes back. -/
def Falls (p : Nat → Bool) (lo hi : Nat) : Prop :=
  ∀ i j, lo ≤ i → i ≤ j → j < hi → p j = true → p i = true

variable {p : Nat → Bool} {lo hi : Nat}

theorem Falls.above {lo' : Nat} (h : Falls p lo hi) (hlo : lo ≤ lo') : Falls p lo' hi :=
  fun i j hi' => h i j (Nat.le_trans hlo hi')

theorem Falls.below {hi' : Nat} (h : Falls p lo hi) (hhi : hi' ≤ hi) : Falls p lo hi' :=
  fun i j hi' hij hj => h i j hi' hij (Nat.lt_of_lt_of_le hj hhi)

/-- The result parts the range: the predicate holds before it and not from it on. -/
theorem bisect_parts (h : Falls p lo hi) (hle : lo ≤ hi) :
    lo ≤ bisect p lo hi ∧ bisect p lo hi ≤ hi ∧
    (∀ i, lo ≤ i → i < bisect p lo hi → p i = true) ∧
    (∀ i, bisect p lo hi ≤ i → i < hi → p i = false) := by
  fun_induction bisect p lo hi with
  | case1 lo hi hlt mid hmid ih =>
    have hlo : lo ≤ mid := by omega
    have hhi : mid + 1 ≤ hi := by omega
    obtain ⟨hbelow, habove, hbefore, hfrom⟩ := ih (h.above (by omega)) hhi
    refine ⟨by omega, habove, ?_, hfrom⟩
    intro i hi' hlt'
    by_cases hi : i ≤ mid
    · exact h i mid hi' hi hhi hmid
    · exact hbefore i (by omega) hlt'
  | case2 lo hi hlt mid hmid ih =>
    have hlo : lo ≤ mid := by omega
    have hhi : mid ≤ hi := by omega
    obtain ⟨hbelow, habove, hbefore, hfrom⟩ := ih (h.below hhi) hlo
    refine ⟨hbelow, by omega, hbefore, ?_⟩
    intro i hle' hi'
    by_cases hi : i < mid
    · exact hfrom i hle' hi
    · -- the predicate fails at `mid` and does not come back
      refine Bool.eq_false_iff.mpr fun hp => hmid ?_
      exact h mid i hlo (Nat.le_of_not_lt hi) hi' hp
  | case3 lo hi hlt =>
    refine ⟨Nat.le_refl _, hle, ?_, ?_⟩
    · intro i hi' hlt'
      exact absurd hlt' (Nat.not_lt.mpr hi')
    · intro i hle' hi'
      omega

variable {α : Type} [LinearOrder α]

/-- The entries below a bound come first in a list in order. -/
theorem falls_of_sorted {l : List α} (h : l.Pairwise (· ≤ ·)) (bound : α) :
    Falls (fun i => l[i]?.any (· < bound)) 0 l.length := by
  intro i j _ hij hj hp
  have hi : i < l.length := Nat.lt_of_le_of_lt hij hj
  simp only [List.getElem?_eq_getElem hj, List.getElem?_eq_getElem hi, Option.any_some,
    decide_eq_true_eq] at hp ⊢
  exact lt_of_le_of_lt (h.rel_get_of_le (a := ⟨i, hi⟩) (b := ⟨j, hj⟩) hij) hp

end Bisect
