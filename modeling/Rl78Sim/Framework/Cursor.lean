import Mathlib.Data.List.Pairwise
import Mathlib.Order.Lattice

/-! # Reading a Log with a Cursor

    The items of a log carry keys that do not fall. A reader remembers the
    highest key that it has read, its cursor, and asks for what is above it.
    What it reads in this way is a window of the log, each item once, as long as
    the log still holds everything above the cursor.
-/

namespace Cursor

variable {α κ : Type*} [LinearOrder κ] (key : α → κ)

/-- The items above `a` and up to `b`. -/
def window (a b : κ) (log : List α) : List α := log.filter fun x => a < key x ∧ key x ≤ b

/-- The items above `a`. -/
def above (a : κ) (log : List α) : List α := log.filter fun x => a < key x

/-- The cursor after the items have been read. -/
def advance (a : κ) (items : List α) : κ := items.foldl (fun a x => max a (key x)) a

variable {key} {a b c : κ} {log new items : List α}

theorem window_self : window key a a log = [] :=
  List.filter_eq_nil_iff.mpr fun x _ => by
    rw [decide_eq_true_eq]
    exact fun h => absurd h.1 (not_lt_of_ge h.2)

/-- Two windows that meet are one. -/
theorem window_append (hlog : log.Pairwise fun x y => key x ≤ key y) (hab : a ≤ b)
    (hbc : b ≤ c) : window key a b log ++ window key b c log = window key a c log := by
  induction log with
  | nil => rfl
  | cons x tail ih =>
    have htail := ih hlog.of_cons
    by_cases hxb : key x ≤ b
    · unfold window at htail ⊢
      rw [List.filter_cons, List.filter_cons, List.filter_cons, ← htail]
      by_cases hxa : a < key x
      · simp [hxa, hxb.trans hbc, hxb]
      · simp [hxa, hxb]
    · -- Everything from `x` on is above `b`.
      have hnil : window key a b (x :: tail) = [] := by
        refine List.filter_eq_nil_iff.mpr fun y hy => ?_
        rw [decide_eq_true_eq]
        rintro ⟨-, hyb⟩
        rcases List.mem_cons.mp hy with rfl | hmem
        · exact hxb hyb
        · exact hxb ((List.rel_of_pairwise_cons hlog hmem).trans hyb)
      have hlt (y : α) (hy : y ∈ x :: tail) : b < key y := by
        rcases List.mem_cons.mp hy with rfl | hmem
        · exact lt_of_not_ge hxb
        · exact (lt_of_not_ge hxb).trans_le (List.rel_of_pairwise_cons hlog hmem)
      rw [hnil, List.nil_append]
      refine List.filter_congr fun y hy => ?_
      have hby := hlt y hy
      simp [hby, hab.trans_lt hby]

/-- What is added above the window does not change it. -/
theorem window_add (hnew : ∀ x ∈ new, b < key x) :
    window key a b (log ++ new) = window key a b log := by
  unfold window
  have hnil : (new.filter fun x => a < key x ∧ key x ≤ b) = [] :=
    List.filter_eq_nil_iff.mpr fun x hx => by
      rw [decide_eq_true_eq]
      exact fun h => absurd (hnew x hx) (not_lt_of_ge h.2)
  rw [List.filter_append, hnil, List.append_nil]

theorem window_sublist_add : (window key a b log).Sublist (window key a b (log ++ new)) :=
  (List.sublist_append_left log new).filter _

theorem le_advance (a : κ) (items : List α) : a ≤ advance key a items := by
  unfold advance
  induction items generalizing a with
  | nil => exact le_rfl
  | cons x tail ih => exact (le_max_left a (key x)).trans (ih (max a (key x)))

theorem le_advance_of_mem {x : α} (hx : x ∈ items) : key x ≤ advance key a items := by
  unfold advance
  induction items generalizing a with
  | nil => cases hx
  | cons y tail ih =>
    rcases List.mem_cons.mp hx with rfl | hmem
    · exact (le_max_right a (key x)).trans (le_advance (max a (key x)) tail)
    · exact ih hmem

/-- What is above the cursor is the window up to where the cursor goes. -/
theorem above_eq_window : above key a log = window key a (advance key a (above key a log)) log := by
  unfold above window
  refine List.filter_congr fun x hx => ?_
  by_cases hax : a < key x
  · have hmem : x ∈ log.filter fun x => a < key x :=
      List.mem_filter.mpr ⟨hx, decide_eq_true hax⟩
    have hle : key x ≤ advance key a (log.filter fun x => a < key x) := le_advance_of_mem hmem
    simp [hax, hle]
  · simp [hax]

/-- The cursor stays below a bound of the keys. -/
theorem advance_le (ha : a ≤ c) (hitems : ∀ x ∈ items, key x ≤ c) : advance key a items ≤ c := by
  unfold advance
  induction items generalizing a with
  | nil => exact ha
  | cons x tail ih =>
    exact ih (max_le ha (hitems x List.mem_cons_self)) fun y hy =>
      hitems y (List.mem_cons_of_mem _ hy)

/-- A log that has dropped only what the cursor has passed. -/
theorem above_drop (n : Nat) (hdropped : ∀ x ∈ log.take n, key x ≤ a) :
    above key a (log.drop n) = above key a log := by
  have hnil : above key a (log.take n) = [] :=
    List.filter_eq_nil_iff.mpr fun x hx => by
      rw [decide_eq_true_eq]
      exact not_lt_of_ge (hdropped x hx)
  calc above key a (log.drop n) = above key a (log.take n) ++ above key a (log.drop n) := by
        rw [hnil, List.nil_append]
    _ = above key a log := by
        unfold above
        rw [← List.filter_append, List.take_append_drop]

/-- The keys are the places of the items, counted from one. -/
theorem window_places {key : α → Nat} {a b : Nat}
    (hkey : ∀ i (hi : i < log.length), key log[i] = i + 1) (hb : b ≤ log.length) :
    window key a b log = (log.take b).drop a := by
  have hlow : ((log.take b).take a).filter (fun x => a < key x ∧ key x ≤ b) = [] :=
    List.filter_eq_nil_iff.mpr fun x hx => by
      obtain ⟨i, hi, rfl⟩ := List.mem_iff_getElem.mp hx
      simp only [List.length_take] at hi
      rw [List.getElem_take, List.getElem_take, hkey i (by omega), decide_eq_true_eq]
      omega
  have hmid : ((log.take b).drop a).filter (fun x => a < key x ∧ key x ≤ b) =
      (log.take b).drop a :=
    List.filter_eq_self.mpr fun x hx => by
      obtain ⟨i, hi, rfl⟩ := List.mem_iff_getElem.mp hx
      simp only [List.length_drop, List.length_take] at hi
      rw [List.getElem_drop, List.getElem_take, hkey (a + i) (by omega), decide_eq_true_eq]
      omega
  have hhigh : (log.drop b).filter (fun x => a < key x ∧ key x ≤ b) = [] :=
    List.filter_eq_nil_iff.mpr fun x hx => by
      obtain ⟨i, hi, rfl⟩ := List.mem_iff_getElem.mp hx
      rw [List.length_drop] at hi
      rw [List.getElem_drop, hkey (b + i) (by omega), decide_eq_true_eq]
      omega
  calc window key a b log
      = window key a b ((log.take b).take a ++ (log.take b).drop a ++ log.drop b) := by
        rw [List.take_append_drop, List.take_append_drop]
    _ = (log.take b).drop a := by
        unfold window
        rw [List.filter_append, List.filter_append, hlow, hmid, hhigh, List.nil_append,
          List.append_nil]

end Cursor
