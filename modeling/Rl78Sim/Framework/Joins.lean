import Mathlib.Data.List.Basic

/-! # Texts Joined by a Separator

    When two pairs of lists joined by the same separator give the same text.
    For a separator that does not overlap itself the only way, other than the
    pairs being equal, is that a separator inside one of the parts was taken
    for the joint. -/

namespace Joins

variable {α : Type}

/-- The text of `x` and `y` with the separator between them. -/
def join (sep x y : List α) : List α := x ++ sep ++ y

/-- No proper end of the separator is also its beginning. -/
def Borderless (sep : List α) : Prop :=
  sep ≠ [] ∧ ∀ u v w : List α, sep = u ++ v → sep = v ++ w → u = [] ∨ v = []

/-- The joint of `x'` and `y'` is a separator inside `x`. -/
def Shift (sep x y x' y' : List α) : Prop := ∃ t, x = join sep x' t ∧ y' = join sep t y

theorem borderless_single (c : α) : Borderless [c] := by
  refine ⟨by simp, fun u v w hu _ => ?_⟩
  rcases List.append_eq_singleton_iff.mp hu.symm with ⟨h, -⟩ | ⟨-, h⟩
  · exact .inl h
  · exact .inr h

theorem borderless_pair {c d : α} (h : c ≠ d) : Borderless [c, d] := by
  refine ⟨by simp, fun u v w hu hv => ?_⟩
  match u, v, hu with
  | [], _, _ => exact .inl rfl
  | [_], [_], hu =>
    simp only [List.cons_append, List.nil_append, List.cons.injEq, and_true] at hu hv
    exact absurd (hv.1.trans hu.2.symm) h
  | [_, _], [], _ => exact .inr rfl
  | _ :: _ :: _ :: _, _, hu => simp at hu
  | [_, _], _ :: _, hu => simp at hu
  | [_], [], hu => simp at hu
  | [_], _ :: _ :: _, hu => simp at hu

theorem shift_join {sep x y x' y' : List α} (h : Shift sep x y x' y') :
    join sep x y = join sep x' y' := by
  obtain ⟨t, rfl, rfl⟩ := h
  simp [join, List.append_assoc]

/-- The comparison of two joints when the first part of one is the longer. -/
theorem join_eq_of_prefix {sep x y a y' : List α} (hsep : Borderless sep)
    (h : sep ++ y = a ++ (sep ++ y')) :
    (a = [] ∧ y = y') ∨ Shift sep (x ++ a) y' x y := by
  rcases List.append_eq_append_iff.mp h with ⟨t, ha, hy⟩ | ⟨v, hs, hv⟩
  · refine .inr ⟨t, ?_, ?_⟩
    · rw [ha]
      simp [join, List.append_assoc]
    · rw [hy]
      simp [join, List.append_assoc]
  · -- the joints overlap in `v`, an end of the separator and a beginning of it
    have hlen : v.length ≤ sep.length := by
      rw [hs]
      simp
    have hprefix : v <+: sep := by
      refine List.prefix_of_prefix_length_le ?_ (List.prefix_append sep y') hlen
      exact ⟨y, hv.symm⟩
    obtain ⟨w, hw⟩ := hprefix
    have hw := hw.symm
    rcases hsep.2 a v w hs hw with ha | hv'
    · subst ha
      refine .inl ⟨rfl, ?_⟩
      simpa using h
    · subst hv'
      refine .inr ⟨[], ?_, ?_⟩
      · have ha : a = sep := by simpa using hs.symm
        simp [join, ha]
      · simpa [join] using hv.symm

/-- Two pairs have the same text exactly when they are equal or cut the text at
    different separators. -/
theorem join_eq_iff {sep : List α} (hsep : Borderless sep) (x y x' y' : List α) :
    join sep x y = join sep x' y' ↔
      (x = x' ∧ y = y') ∨ Shift sep x y x' y' ∨ Shift sep x' y' x y := by
  constructor
  · intro h
    simp only [join, List.append_assoc] at h
    rcases List.append_eq_append_iff.mp h with ⟨a, rfl, ha⟩ | ⟨a, rfl, ha⟩
    · rcases join_eq_of_prefix (x := x) hsep ha with ⟨rfl, hy⟩ | hshift
      · exact .inl ⟨by simp, hy⟩
      · exact .inr (.inr hshift)
    · rcases join_eq_of_prefix (x := x') hsep ha with ⟨rfl, hy⟩ | hshift
      · exact .inl ⟨by simp, hy.symm⟩
      · exact .inr (.inl hshift)
  · rintro (⟨rfl, rfl⟩ | h | h)
    · rfl
    · exact shift_join h
    · exact (shift_join h).symm

/-- A shifted joint lies in both texts: after the first part of one, and before
    the second part of the other. -/
theorem Shift.infix_left {sep x y x' y' : List α} (h : Shift sep x y x' y') : sep <:+: x := by
  obtain ⟨t, rfl, -⟩ := h
  exact ⟨x', t, rfl⟩

/-- First parts without the separator are read back from the text. -/
theorem join_inj {sep x y x' y' : List α} (hsep : Borderless sep) (hx : ¬ sep <:+: x)
    (hx' : ¬ sep <:+: x') (h : join sep x y = join sep x' y') : x = x' ∧ y = y' := by
  rcases (join_eq_iff hsep x y x' y').mp h with heq | hshift | hshift
  · exact heq
  · exact absurd hshift.infix_left hx
  · exact absurd hshift.infix_left hx'

end Joins
