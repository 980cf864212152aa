import Mathlib.Data.Nat.Find

/-! # Walks

    A walk along a partial function: it ends where the function has no value, or it
    comes back to a place where it was.
-/

namespace Walk

variable {α : Type} {next : α → Option α} {a b c : α} {i m n : Nat}

/-- Where a walk from `a` is after some hops, if it gets that far. -/
def after (next : α → Option α) (a : α) : Nat → Option α
  | 0 => some a
  | n + 1 => (after next a n).bind next

/-- The walk comes back to a place. -/
def Returns (next : α → Option α) (a : α) : Prop :=
  ∃ i j b, i < j ∧ after next a i = some b ∧ after next a j = some b

/-- The walk goes on from where it is. -/
theorem after_add (h : after next a i = some b) (n : Nat) :
    after next a (i + n) = after next b n := by
  induction n with
  | zero => exact h
  | succ n ih =>
    show (after next a (i + n)).bind next = (after next b n).bind next
    rw [ih]

/-- A walk that ends is nowhere later. -/
theorem le_of_end (hend : after next a n = some b) (hnext : next b = none)
    (h : after next a m = some c) : m ≤ n := by
  by_contra hlt
  obtain ⟨k, rfl⟩ := Nat.exists_eq_add_of_lt (Nat.lt_of_not_le hlt)
  have hnone : ∀ k, after next a (n + k + 1) = none := by
    intro k
    induction k with
    | zero =>
      show (after next a n).bind next = none
      rw [hend]
      exact hnext
    | succ k ih =>
      show (after next a (n + k + 1)).bind next = none
      rw [ih]
      rfl
  rw [hnone k] at h
  cases h

/-- A walk has one end. -/
theorem end_unique (hend : after next a n = some b) (hnext : next b = none)
    (hend' : after next a m = some c) (hnext' : next c = none) : n = m ∧ b = c := by
  have hle := le_of_end hend hnext hend'
  have hge := le_of_end hend' hnext' hend
  have heq : n = m := Nat.le_antisymm hge hle
  subst heq
  rw [hend] at hend'
  exact ⟨rfl, Option.some.inj hend'⟩

/-- A walk that comes back does not end. -/
theorem Returns.endless (h : Returns next a) (hend : after next a n = some b) : next b ≠ none := by
  intro hnext
  obtain ⟨i, j, c, hij, hi, hj⟩ := h
  have hj' : j ≤ n := le_of_end hend hnext hj
  -- The end, reached from the first visit and from the second.
  have hrest : after next c (n - j) = some b := by
    rw [← after_add hj, Nat.add_sub_cancel' hj']
    exact hend
  rw [← after_add hi] at hrest
  obtain ⟨heq, -⟩ := end_unique hend hnext hrest hnext
  omega

end Walk
