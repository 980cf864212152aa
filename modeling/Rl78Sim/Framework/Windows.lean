import Mathlib.Order.Lattice
import Mathlib.Data.List.Pairwise

/-! # Windows of an Address Space

    A window runs from its first address up to, and without, its end. In a list
    of windows no two of which meet, an address lies in one of them at most, so
    that a search for the window of an address has one answer whatever its
    order.
-/

namespace Windows

variable {α : Type*} [LinearOrder α]

/-- A half-open interval of addresses. -/
structure Window (α : Type*) where
  first : α
  stop : α

namespace Window

/-- The window holds the address. -/
def Holds (w : Window α) (a : α) : Prop := w.first ≤ a ∧ a < w.stop

instance (w : Window α) (a : α) : Decidable (w.Holds a) :=
  inferInstanceAs (Decidable (w.first ≤ a ∧ a < w.stop))

/-- Each window starts before the other one ends. -/
def Meets (v w : Window α) : Prop := v.first < w.stop ∧ w.first < v.stop

instance (v w : Window α) : Decidable (v.Meets w) :=
  inferInstanceAs (Decidable (v.first < w.stop ∧ w.first < v.stop))

theorem Meets.symm {v w : Window α} (h : v.Meets w) : w.Meets v := And.symm h

/-- Two windows that hold an address in common meet. -/
theorem meets_of_holds {v w : Window α} {a : α} (hv : v.Holds a) (hw : w.Holds a) :
    v.Meets w :=
  ⟨hv.1.trans_lt hw.2, hw.1.trans_lt hv.2⟩

end Window

/-- No two windows of the list meet. -/
def Apart (windows : List (Window α)) : Prop := windows.Pairwise fun v w => ¬ v.Meets w

theorem Apart.nil : Apart ([] : List (Window α)) := List.Pairwise.nil

/-- A window that meets none of the others may be added. -/
theorem Apart.concat {windows : List (Window α)} {w : Window α} (h : Apart windows)
    (hw : ∀ v ∈ windows, ¬ v.Meets w) : Apart (windows ++ [w]) := by
  unfold Apart
  rw [List.pairwise_append]
  refine ⟨h, List.pairwise_singleton _ _, ?_⟩
  intro v hv w' hw'
  rw [List.mem_singleton.mp hw']
  exact hw v hv

/-- Two places of the list whose windows meet are one place. -/
theorem Apart.eq_of_meets {windows : List (Window α)} (h : Apart windows) {i j : Nat}
    {v w : Window α} (hi : windows[i]? = some v) (hj : windows[j]? = some w) (hvw : v.Meets w) :
    i = j := by
  obtain ⟨hilt, hv⟩ := List.getElem?_eq_some_iff.mp hi
  obtain ⟨hjlt, hw⟩ := List.getElem?_eq_some_iff.mp hj
  have hpair := List.pairwise_iff_getElem.mp h
  subst hv hw
  by_contra hne
  rcases Nat.lt_or_gt_of_ne hne with hlt | hlt
  · exact hpair i j hilt hjlt hlt hvw
  · exact hpair j i hjlt hilt hlt hvw.symm

/-- An address lies in at most one window. -/
theorem Apart.eq_of_holds {windows : List (Window α)} (h : Apart windows) {i j : Nat}
    {v w : Window α} {a : α} (hi : windows[i]? = some v) (hj : windows[j]? = some w)
    (hv : v.Holds a) (hw : w.Holds a) : i = j :=
  h.eq_of_meets hi hj (Window.meets_of_holds hv hw)

/-- A search for a property that one place has finds that place. -/
theorem findIdx?_of_unique {β : Type*} {l : List β} {p : β → Bool} {i : Nat} {b : β}
    (hi : l[i]? = some b) (hp : p b = true)
    (hone : ∀ j c, l[j]? = some c → p c = true → j = i) : l.findIdx? p = some i := by
  obtain ⟨hlt, hb⟩ := List.getElem?_eq_some_iff.mp hi
  rw [List.findIdx?_eq_some_iff_getElem]
  refine ⟨hlt, by rw [hb, hp], ?_⟩
  intro j hj hpj
  have hjlt : j < l.length := Nat.lt_trans hj hlt
  have : j = i := hone j l[j] (List.getElem?_eq_getElem hjlt) hpj
  omega

/-- What a search finds has the property. -/
theorem findIdx?_spec {β : Type*} {l : List β} {p : β → Bool} {i : Nat}
    (h : l.findIdx? p = some i) : ∃ b, l[i]? = some b ∧ p b = true := by
  obtain ⟨hlt, hp, -⟩ := List.findIdx?_eq_some_iff_getElem.mp h
  exact ⟨l[i], List.getElem?_eq_getElem hlt, hp⟩

/-- A search for an element and a search for its place agree. -/
theorem find?_of_findIdx? {β : Type*} {l : List β} {p : β → Bool} {i : Nat} {b : β}
    (h : l.findIdx? p = some i) (hi : l[i]? = some b) : l.find? p = some b := by
  obtain ⟨hlt, hp, hfirst⟩ := List.findIdx?_eq_some_iff_getElem.mp h
  obtain ⟨_, hb⟩ := List.getElem?_eq_some_iff.mp hi
  rw [List.find?_eq_some_iff_getElem]
  subst hb
  exact ⟨hp, i, hlt, rfl, fun j hj => by simpa using hfirst j hj⟩

theorem findIdx?_of_find? {β : Type*} {l : List β} {p : β → Bool} {b : β}
    (h : l.find? p = some b) : ∃ i, l.findIdx? p = some i ∧ l[i]? = some b := by
  obtain ⟨hp, i, hlt, hb, hfirst⟩ := List.find?_eq_some_iff_getElem.mp h
  refine ⟨i, ?_, by rw [List.getElem?_eq_getElem hlt, hb]⟩
  rw [List.findIdx?_eq_some_iff_getElem]
  exact ⟨hlt, hb ▸ hp, fun j hj => by simpa using hfirst j hj⟩

end Windows
