import Mathlib.Data.List.Basic
import Mathlib.Data.List.TakeDrop

/-! # Bounded Queues

    A queue of at most `cap` messages. In overflow mode a message sent to a
    full queue replaces the oldest one; otherwise its sender has to wait. A
    receiver takes the oldest message.
-/

namespace Ring

variable {α β : Type*} {cap : Nat} {q : List α} {x : α}

/-- Send into a queue in overflow mode. -/
def push (cap : Nat) (q : List α) (x : α) : List α :=
  if q.length < cap then q ++ [x] else q.tail ++ [x]

/-- What a send into a queue in overflow mode drops. -/
def dropped (cap : Nat) (q : List α) : List α := if q.length < cap then [] else q.take 1

/-- Send the messages one after the other. -/
def push_all (cap : Nat) (q : List α) (xs : List α) : List α := xs.foldl (push cap) q

theorem push_of_lt (h : q.length < cap) : push cap q x = q ++ [x] := if_pos h

theorem push_of_le (h : cap ≤ q.length) : push cap q x = q.tail ++ [x] :=
  if_neg (Nat.not_lt.mpr h)

/-- Nothing is made up, and nothing is reordered. -/
theorem push_sublist (cap : Nat) (q : List α) (x : α) : (push cap q x).Sublist (q ++ [x]) := by
  unfold push
  split
  · exact List.Sublist.refl _
  · exact (List.tail_sublist q).append (List.Sublist.refl _)

theorem push_all_sublist (cap : Nat) (q xs : List α) :
    (push_all cap q xs).Sublist (q ++ xs) := by
  induction xs generalizing q with
  | nil =>
    rw [List.append_nil]
    exact List.Sublist.refl q
  | cons x xs ih =>
    have hrest := ih (push cap q x)
    have hfirst := (push_sublist cap q x).append (List.Sublist.refl xs)
    rw [List.append_assoc] at hfirst
    exact hrest.trans hfirst

/-- The newest messages stay. -/
theorem push_all_eq_drop (hcap : 0 < cap) {q : List α} (hq : q.length ≤ cap) (xs : List α) :
    push_all cap q xs = (q ++ xs).drop ((q ++ xs).length - cap) := by
  induction xs generalizing q with
  | nil =>
    rw [List.append_nil, Nat.sub_eq_zero_of_le hq]
    rfl
  | cons x xs ih =>
    show push_all cap (push cap q x) xs = _
    by_cases hroom : q.length < cap
    · have hlen : (q ++ [x]).length ≤ cap := by
        rw [List.length_append, List.length_singleton]
        exact hroom
      rw [push_of_lt hroom, ih hlen, List.append_assoc]
      rfl
    · rw [push_of_le (Nat.le_of_not_lt hroom)]
      cases q with
      | nil => exact absurd hcap hroom
      | cons y tl =>
        -- The ring is full: its oldest item goes, and one more of the whole is dropped.
        have hfull : tl.length + 1 = cap := Nat.le_antisymm hq (Nat.le_of_not_lt hroom)
        have hlen : (tl ++ [x]).length ≤ cap := by
          rw [List.length_append, List.length_singleton]
          exact Nat.le_of_eq hfull
        have hdrop : (y :: tl ++ x :: xs).length - cap = xs.length + 1 := by
          simp only [List.cons_append, List.length_cons, List.length_append]
          omega
        have hdrop' : (tl ++ [x] ++ xs).length - cap = xs.length := by
          simp only [List.length_append, List.length_singleton]
          omega
        rw [List.tail_cons, ih hlen, hdrop, hdrop', List.cons_append, List.drop_succ_cons,
          List.append_assoc]
        rfl

theorem mem_push {y : α} (h : y ∈ push cap q x) : y ∈ q ∨ y = x := by
  rcases List.mem_append.mp ((push_sublist cap q x).subset h) with hold | hnew
  · exact .inl hold
  · exact .inr (List.mem_singleton.mp hnew)

/-! ### Room -/

theorem dropped_of_lt (h : q.length < cap) : dropped cap q = [] := if_pos h

theorem lt_of_dropped (hcap : 0 < cap) (h : dropped cap q = []) : q.length < cap := by
  unfold dropped at h
  split at h
  · assumption
  · rename_i hfull
    cases q with
    | nil => exact absurd hcap hfull
    | cons y ys => cases h

theorem length_push_of_lt (h : q.length < cap) : (push cap q x).length = q.length + 1 := by
  rw [push_of_lt h, List.length_append, List.length_singleton]

theorem length_push_le (hcap : 0 < cap) (hq : q.length ≤ cap) : (push cap q x).length ≤ cap := by
  unfold push
  split
  · rw [List.length_append, List.length_singleton]
    omega
  · rw [List.length_append, List.length_tail, List.length_singleton]
    omega

end Ring
