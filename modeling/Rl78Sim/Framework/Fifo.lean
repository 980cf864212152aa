import Mathlib.Data.List.Basic

/-! # The Last Decisive Message of a Queue

    What the receiver of a first-in first-out queue will do is often decided by
    one queued message and by what comes behind it. `Followed R q` says that
    some message of `q` is related by `R` to the messages behind it. Sending
    extends what is behind; taking the head either keeps the decisive message
    queued or takes just that message.
-/

namespace Fifo

variable {α : Type*} {R R' : α → List α → Prop} {q out : List α} {x : α}

/-- Some message of the queue is related by `R` to what is behind it. -/
def Followed (R : α → List α → Prop) (q : List α) : Prop :=
  ∃ pre x post, q = pre ++ x :: post ∧ R x post

theorem not_followed_nil : ¬ Followed R [] := by
  rintro ⟨pre, x, post, heq, -⟩
  simp at heq

/-- Sending behind the decisive message. -/
theorem Followed.append (h : Followed R q) (hR : ∀ x post, R x post → R' x (post ++ out)) :
    Followed R' (q ++ out) := by
  obtain ⟨pre, x, post, rfl, hx⟩ := h
  exact ⟨pre, x, post ++ out, by simp, hR x post hx⟩

/-- Sending the decisive message itself. -/
theorem Followed.send (q : List α) (h : R x out) : Followed R (q ++ x :: out) :=
  ⟨q, x, out, rfl, h⟩

/-- Taking the head takes the decisive message or leaves it queued. -/
theorem Followed.take (h : Followed R (x :: q)) : Followed R q ∨ R x q := by
  obtain ⟨pre, y, post, heq, hy⟩ := h
  cases pre with
  | nil =>
    obtain ⟨rfl, rfl⟩ := List.cons.inj heq
    exact .inr hy
  | cons _ pre =>
    obtain ⟨-, rfl⟩ := List.cons.inj heq
    exact .inl ⟨pre, y, post, rfl, hy⟩

theorem Followed.mono (h : Followed R q) (hR : ∀ x post, R x post → R' x post) :
    Followed R' q := by
  obtain ⟨pre, x, post, rfl, hx⟩ := h
  exact ⟨pre, x, post, rfl, hR x post hx⟩

/-- A decisive message is in the queue. -/
theorem Followed.exists_mem (h : Followed R q) : ∃ x ∈ q, ∃ post, R x post := by
  obtain ⟨pre, x, post, rfl, hx⟩ := h
  exact ⟨x, by simp, post, hx⟩

/-- Either a message with `p` comes first, with the decisive one behind it, or
    no message has `p`. The decisive message has no `p` at or behind it. -/
theorem Followed.split {p : α → Bool} (h : Followed R q)
    (hR : ∀ x post, R x post → ∀ y ∈ x :: post, p y = false) :
    (∀ y ∈ q, p y = false) ∨ Followed (fun x post => p x = true ∧ Followed R post) q := by
  obtain ⟨pre, x, post, rfl, hx⟩ := h
  by_cases hpre : ∃ y ∈ pre, p y = true
  · obtain ⟨y, hy, hpy⟩ := hpre
    obtain ⟨before, behind, rfl⟩ := List.append_of_mem hy
    exact .inr ⟨before, y, behind ++ x :: post, by simp, hpy, .send behind hx⟩
  · refine .inl fun y hy => ?_
    rcases List.mem_append.mp hy with hy | hy
    · exact Bool.eq_false_iff.mpr fun hpy => hpre ⟨y, hy, hpy⟩
    · exact hR x post hx y hy

end Fifo
