import Mathlib.Algebra.Group.Nat.Defs
import Mathlib.Order.Basic

/-! # Bits of a Register

    Single bits of words that are built by masking, shifting and merging, as
    register files do it.
-/

namespace Bits

variable {w : Nat}

/-- The low `width` bits set. -/
def low_mask (w width : Nat) : BitVec w := (1#w <<< width) - 1#w

theorem low_mask_eq {width : Nat} (hw : width < w) :
    low_mask w width = BitVec.ofNat w (2 ^ width - 1) := by
  have hpow : 2 ^ width < 2 ^ w := Nat.pow_lt_pow_right (by decide) hw
  have hpos : 0 < 2 ^ width := Nat.two_pow_pos width
  have hone : 1 < 2 ^ w := Nat.one_lt_two_pow (by omega)
  apply BitVec.eq_of_toNat_eq
  simp only [low_mask, BitVec.toNat_sub, BitVec.toNat_shiftLeft, BitVec.toNat_ofNat,
    Nat.shiftLeft_eq, Nat.mod_eq_of_lt hone, Nat.one_mul, Nat.mod_eq_of_lt hpow]
  rw [show 2 ^ w - 1 + 2 ^ width = (2 ^ width - 1) + 2 ^ w by omega, Nat.add_mod_right]

theorem getLsbD_low_mask {width : Nat} (hw : width < w) (i : Nat) :
    (low_mask w width).getLsbD i = decide (i < width) := by
  rw [low_mask_eq hw, BitVec.getLsbD_ofNat, Nat.testBit_two_pow_sub_one]
  by_cases hi : i < width
  · simp [hi, Nat.lt_trans hi hw]
  · simp [hi]

/-- `field` in place of the `width` bits of `dst` from `shift` on. -/
def deposit (dst field : BitVec w) (shift width : Nat) : BitVec w :=
  (dst &&& ~~~(low_mask w width <<< shift)) ||| ((field &&& low_mask w width) <<< shift)

theorem getLsbD_deposit {dst field : BitVec w} {shift width : Nat} (hw : width < w) {i : Nat}
    (hi : i < w) : (deposit dst field shift width).getLsbD i =
      if shift ≤ i ∧ i < shift + width then field.getLsbD (i - shift) else dst.getLsbD i := by
  simp only [deposit, BitVec.getLsbD_or, BitVec.getLsbD_and, BitVec.getLsbD_not,
    BitVec.getLsbD_shiftLeft, getLsbD_low_mask hw, hi, decide_true, Bool.true_and]
  by_cases hlow : i < shift
  · simp [hlow, Nat.not_le_of_lt hlow]
  · by_cases hhigh : i - shift < width
    · simp [hlow, hhigh, show shift ≤ i ∧ i < shift + width by omega]
    · simp [hlow, hhigh, show ¬ (shift ≤ i ∧ i < shift + width) by omega]

/-- The word whose bit `i`, for the `i` of a list, is set where `p` holds. -/
def gather (w : Nat) (p : Nat → Bool) (is : List Nat) : BitVec w :=
  is.foldl (fun word i => if p i then word ||| (1#w <<< i) else word) 0

theorem getLsbD_one_shiftLeft {i j : Nat} (hj : j < w) :
    (1#w <<< i).getLsbD j = decide (j = i) := by
  simp only [BitVec.getLsbD_shiftLeft, hj, decide_true, Bool.true_and, BitVec.getLsbD_one]
  by_cases hlt : j < i
  · simp [hlt, Nat.ne_of_lt hlt]
  · by_cases heq : j = i
    · simp [heq, show 0 < w by omega]
    · simp [hlt, heq, show j - i ≠ 0 by omega]

theorem getLsbD_gather (p : Nat → Bool) (is : List Nat) {j : Nat} (hj : j < w) :
    (gather w p is).getLsbD j = (decide (j ∈ is) && p j) := by
  have hfold (word : BitVec w) : (is.foldl
      (fun word i => if p i then word ||| (1#w <<< i) else word) word).getLsbD j =
        (word.getLsbD j || (decide (j ∈ is) && p j)) := by
    induction is generalizing word with
    | nil => simp
    | cons i is ih =>
      rw [List.foldl_cons, ih]
      by_cases heq : j = i
      · subst heq
        by_cases hp : p j = true
        · simp [hp, getLsbD_one_shiftLeft hj]
        · simp [hp]
      · by_cases hp : p i = true
        · simp [hp, heq, getLsbD_one_shiftLeft hj]
        · simp [hp, heq]
  rw [gather, hfold]
  simp

end Bits
