import Rl78Sim.Framework.Ring
import Rl78Sim.Framework.Transition

/-! # Chains of Queues

    Messages pass through a chain of queues. The *line* of a chain is what has
    come out of it, followed by what is still in it, in the order in which it
    leaves. A step that moves messages along keeps the line, one that puts a
    message in adds it at the end, and one that loses messages leaves a part of
    the line. What has come out is therefore, in its order, a part of what was
    put in, and all of it as long as no step loses anything.
-/

namespace Relay

open Transition

variable {State Label α β : Type*}

/-! ### One step -/

/-- `new` is put in at the end. Messages are lost only by a step that is not
    `safe`. -/
def Passed (safe : Prop) (fed line fed' line' : List α) : Prop :=
  ∃ new, fed' = fed ++ new ∧ line'.Sublist (line ++ new) ∧ (safe → line' = line ++ new)

section step

variable {safe : Prop} {fed line fed' line' new : List α}

theorem Passed.put (hsub : line'.Sublist (line ++ new)) (hsafe : safe → line' = line ++ new) :
    Passed safe fed line (fed ++ new) line' :=
  ⟨new, rfl, hsub, hsafe⟩

theorem Passed.moved (hsub : line'.Sublist line) (hsafe : safe → line' = line) :
    Passed safe fed line fed line' :=
  ⟨[], (List.append_nil _).symm, by rwa [List.append_nil], by rwa [List.append_nil]⟩

theorem Passed.same (h : line' = line) : Passed safe fed line fed line' :=
  .moved (h ▸ List.Sublist.refl _) fun _ => h

theorem Passed.sublist (h : Passed safe fed line fed' line') (hline : line.Sublist fed) :
    line'.Sublist fed' := by
  obtain ⟨new, rfl, hnew, -⟩ := h
  exact hnew.trans (hline.append_right new)

theorem Passed.eq (h : Passed safe fed line fed' line') (hsafe : safe) (hline : line = fed) :
    line' = fed' := by
  obtain ⟨new, rfl, -, hnew⟩ := h
  rw [hnew hsafe, hline]

/-- What is in the line stays a beginning of it. -/
theorem Passed.grows (h : Passed safe fed line fed' line') (hsafe : safe) : line <+: line' := by
  obtain ⟨new, -, -, hnew⟩ := h
  exact ⟨new, (hnew hsafe).symm⟩

/-- The front of a line grows by what its back gives away. -/
theorem front_grows {front front' back back' new : List α}
    (hline : front' ++ back' = front ++ back ++ new)
    (hback : ∃ moved, back ++ new = moved ++ back') : front <+: front' := by
  obtain ⟨moved, hmoved⟩ := hback
  rw [List.append_assoc, hmoved, ← List.append_assoc] at hline
  exact ⟨moved, (List.append_cancel_right hline).symm⟩

/-- Messages that came out before stay in front of the line. -/
theorem Passed.after (out : List α) (h : Passed safe fed line fed' line') :
    Passed safe fed (out ++ line) fed' (out ++ line') := by
  obtain ⟨new, hfed, hsub, hsafe⟩ := h
  refine ⟨new, hfed, ?_, fun hs => ?_⟩
  · rw [List.append_assoc]
    exact hsub.append_left out
  · rw [hsafe hs, List.append_assoc]

/-- The messages as a receiver reads them. -/
theorem Passed.map (f : α → β) (h : Passed safe fed line fed' line') :
    Passed safe (fed.map f) (line.map f) (fed'.map f) (line'.map f) := by
  obtain ⟨new, rfl, hsub, hsafe⟩ := h
  refine ⟨new.map f, List.map_append, ?_, fun hs => ?_⟩
  · rw [← List.map_append]
    exact hsub.map f
  · rw [hsafe hs, List.map_append]

end step

/-! ### A run -/

section run

variable {sys : System State Label} {ok safe : Guard State Label} {fed line : State → List α}

/-- Every message in the line was put in, and the line is in that order. -/
theorem line_sublist (hinit : ∀ s, sys.init s → line s = [])
    (hstep : ∀ s l s', Reachable sys ok s → ok s l → sys.step s l = some s' →
      Passed (safe s l) (fed s) (line s) (fed s') (line s'))
    {s : State} (h : Reachable sys ok s) : (line s).Sublist (fed s) := by
  induction h with
  | init hi =>
    rw [hinit _ hi]
    exact List.nil_sublist _
  | step l hreach hok hs ih => exact (hstep _ l _ hreach hok hs).sublist ih

/-- Where every step is safe, the line is all that was put in. -/
theorem line_eq (hinit : ∀ s, sys.init s → line s = fed s)
    (hstep : ∀ s l s', Reachable sys ok s → ok s l → sys.step s l = some s' →
      Passed (safe s l) (fed s) (line s) (fed s') (line s'))
    (hsafe : ∀ s l, ok s l → safe s l) {s : State} (h : Reachable sys ok s) :
    line s = fed s := by
  induction h with
  | init hi => exact hinit _ hi
  | step l hreach hok hs ih => exact (hstep _ l _ hreach hok hs).eq (hsafe _ _ hok) ih

end run

/-! ### A queue of a chain -/

section queue

variable {cap : Nat} {q : List α} {x : α}

/-- A message goes from the head of `up` to the end of `q`. -/
theorem push_sublist_append (cap : Nat) (q up : List α) (x : α) :
    (Ring.push cap q x ++ up).Sublist (q ++ x :: up) := by
  have h := (Ring.push_sublist cap q x).append_right up
  rwa [List.append_assoc, List.singleton_append] at h

theorem push_eq_append (h : q.length < cap) (up : List α) :
    Ring.push cap q x ++ up = q ++ x :: up := by
  rw [Ring.push_of_lt h, List.append_assoc, List.singleton_append]

end queue

end Relay
