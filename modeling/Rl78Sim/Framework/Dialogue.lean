import Mathlib.Data.List.Basic

/-! # Dialogues

    A question is sent to one responder, who answers it with a sequence of
    replies. The last reply of an answer, and only that one, says that it is
    the last; the asker waits for it. Questions may get lost on the way. A
    reply may get lost only if it is a last one: then the asker waits forever,
    but what it takes for a whole answer is a whole answer.
-/

/-- The state of a dialogue. `asked` are the questions that have not been read,
    `answers` what the answers were drawn from, `replies` the replies that have
    not been received, and `got` those that have. -/
structure Dialogue (Q S R : Type*) where
  asked : List Q
  answers : List S
  replies : List R
  got : List R
  awaited : Bool

namespace Dialogue

variable {Q S R : Type*}

/-- How a responder answers: which replies may be drawn from `s`, and which
    reply says that it is the last. -/
structure Manner (Q S R : Type*) where
  answers : Q → S → List R → Prop
  last : R → Bool
  ends : ∀ q s rs, answers q s rs →
    ∃ init x, rs = init ++ [x] ∧ last x = true ∧ ∀ y ∈ init, last y = false

/-- How far a dialogue has come. Without a question nothing is awaited. -/
inductive Phase (m : Manner Q S R) (question : Option Q) (d : Dialogue Q S R) : Prop where
  | waiting : d.asked.Sublist question.toList → d.answers = [] → d.replies = [] → d.got = [] →
      d.awaited = question.isSome → Phase m question d
  | answered (q : Q) (s : S) : question = some q → d.asked = [] → d.answers = [s] →
      m.answers q s (d.got ++ d.replies) → d.awaited = !d.replies.isEmpty → Phase m question d
  | broken : d.asked = [] → d.awaited = true → (∀ x ∈ d.replies, m.last x = false) →
      Phase m question d

namespace Phase

variable {m : Manner Q S R} {question : Option Q} {d : Dialogue Q S R}

/-- Questions are read, or lost, on the way. -/
theorem fewer_asked (h : Phase m question d) {asked : List Q} (hsub : asked.Sublist d.asked) :
    Phase m question { d with asked := asked } := by
  cases h with
  | waiting hasked hanswers hreplies hgot hawaited =>
    exact .waiting (hsub.trans hasked) hanswers hreplies hgot hawaited
  | answered q s hq hasked hanswers hdrawn hawaited =>
    rw [hasked] at hsub
    exact .answered q s hq (List.sublist_nil.mp hsub) hanswers hdrawn hawaited
  | broken hasked hawaited hlast =>
    rw [hasked] at hsub
    exact .broken (List.sublist_nil.mp hsub) hawaited hlast

/-- Only the question itself arrives, and it finds nothing answered. -/
theorem of_asked (h : Phase m question d) {q : Q} {rest : List Q} (hasked : d.asked = q :: rest) :
    question = some q ∧ rest = [] ∧ d.answers = [] ∧ d.replies = [] ∧ d.got = [] := by
  cases h with
  | waiting hsub hanswers hreplies hgot hawaited =>
    rw [hasked] at hsub
    cases question with
    | none => cases hsub
    | some q' =>
      obtain ⟨heq, hnil⟩ : q = q' ∧ rest = [] := by
        have hlen := hsub.length_le
        have hmem := hsub.subset List.mem_cons_self
        refine ⟨by simpa using hmem, ?_⟩
        apply List.eq_nil_of_length_eq_zero
        simp only [List.length_cons, Option.toList_some, List.length_nil] at hlen
        omega
      exact ⟨by rw [heq], hnil, hanswers, hreplies, hgot⟩
  | answered _ _ _ hnil =>
    rw [hasked] at hnil
    cases hnil
  | broken hnil =>
    rw [hasked] at hnil
    cases hnil

theorem answer (h : Phase m question d) {q : Q} {s : S} {rest : List Q} {rs : List R}
    (hasked : d.asked = q :: rest) (hdrawn : m.answers q s rs) :
    Phase m question
      { d with asked := rest, answers := d.answers ++ [s], replies := d.replies ++ rs } := by
  obtain ⟨hq, hrest, hanswers, hreplies, hgot⟩ := h.of_asked hasked
  have hawaited : d.awaited = true := by
    cases h with
    | waiting _ _ _ _ hawaited =>
      rw [hawaited, hq]
      rfl
    | answered _ _ _ hnil =>
      rw [hasked] at hnil
      cases hnil
    | broken _ hawaited => exact hawaited
  obtain ⟨init, x, hrs, -, -⟩ := m.ends q s rs hdrawn
  refine .answered q s hq hrest ?_ ?_ ?_
  · show d.answers ++ [s] = [s]
    rw [hanswers, List.nil_append]
  · show m.answers q s (d.got ++ (d.replies ++ rs))
    rw [hgot, hreplies]
    exact hdrawn
  · show d.awaited = !(d.replies ++ rs).isEmpty
    rw [hawaited, hreplies, hrs]
    simp

theorem receive (h : Phase m question d) {x : R} {rest : List R}
    (hreplies : d.replies = x :: rest) :
    Phase m question
      { d with replies := rest, got := d.got ++ [x], awaited := d.awaited && !m.last x } := by
  cases h with
  | waiting _ _ hnil =>
    rw [hreplies] at hnil
    cases hnil
  | answered q s hq hasked hanswers hdrawn hawaited =>
    rw [hreplies] at hdrawn hawaited
    refine .answered q s hq hasked hanswers ?_ ?_
    · show m.answers q s (d.got ++ [x] ++ rest)
      rw [List.append_assoc]
      exact hdrawn
    · -- The last reply is the end of the list, and no other is a last one.
      obtain ⟨init, y, hrs, hlast, hnot⟩ := m.ends q s _ hdrawn
      show (d.awaited && !m.last x) = !rest.isEmpty
      rw [hawaited]
      rcases List.eq_nil_or_concat rest with hrest | ⟨rest', z, hrest⟩
      · subst hrest
        obtain ⟨-, heq⟩ := List.append_inj' hrs rfl
        rw [List.singleton_inj.mp heq, hlast]
        rfl
      · rw [List.concat_eq_append] at hrest
        subst hrest
        have hsplit : d.got ++ x :: rest' ++ [z] = init ++ [y] := by
          rw [← hrs, List.append_assoc]
          rfl
        obtain ⟨hinit, -⟩ := List.append_inj' hsplit rfl
        have hx : m.last x = false := by
          apply hnot
          rw [← hinit]
          exact List.mem_append_right _ List.mem_cons_self
        rw [hx]
        simp
  | broken hasked hawaited hlast =>
    rw [hreplies] at hlast
    refine .broken hasked ?_ ?_
    · show (d.awaited && !m.last x) = true
      rw [hawaited, hlast x List.mem_cons_self]
      rfl
    · intro y hy
      exact hlast y (List.mem_cons_of_mem _ hy)

/-- A last reply is lost. -/
theorem lose (h : Phase m question d) {x : R} {before after : List R}
    (hreplies : d.replies = before ++ x :: after) (hx : m.last x = true) :
    Phase m question { d with replies := before ++ after } := by
  cases h with
  | waiting _ _ hnil =>
    rw [hreplies] at hnil
    cases before <;> cases hnil
  | answered q s hq hasked hanswers hdrawn hawaited =>
    obtain ⟨init, y, hrs, -, hnot⟩ := m.ends q s _ hdrawn
    rw [hreplies] at hrs hawaited
    have hafter : after = [] := by
      rcases List.eq_nil_or_concat after with hnil | ⟨after', z, hcons⟩
      · exact hnil
      · -- A reply before the end is no last one.
        rw [List.concat_eq_append] at hcons
        subst hcons
        have hsplit : d.got ++ (before ++ x :: after') ++ [z] = init ++ [y] := by
          rw [← hrs]
          simp
        obtain ⟨hinit, -⟩ := List.append_inj' hsplit rfl
        have hfalse : m.last x = false := by
          apply hnot
          rw [← hinit]
          simp
        rw [hx] at hfalse
        cases hfalse
    subst hafter
    have hinit : d.got ++ before = init := by
      rw [← List.append_assoc] at hrs
      exact (List.append_inj' hrs rfl).1
    refine .broken hasked ?_ ?_
    · show d.awaited = true
      rw [hawaited]
      cases before <;> rfl
    · intro z hz
      apply hnot
      rw [← hinit]
      simp only [List.append_nil] at hz
      exact List.mem_append_right _ hz
  | broken hasked hawaited hlast =>
    have hfalse := hlast x (by rw [hreplies]; simp)
    rw [hx] at hfalse
    cases hfalse

/-- What is taken for an answer is one. -/
theorem finished (h : Phase m question d) (hawaited : d.awaited = false) {q : Q}
    (hq : question = some q) : ∃ s, d.answers = [s] ∧ m.answers q s d.got := by
  cases h with
  | waiting _ _ _ _ heq =>
    rw [hawaited, hq] at heq
    cases heq
  | answered q' s hq' _ hanswers hdrawn heq =>
    obtain rfl : q' = q := Option.some.inj (hq'.symm.trans hq)
    rw [hawaited] at heq
    have hnil : d.replies = [] := by simpa using heq.symm
    rw [hnil, List.append_nil] at hdrawn
    exact ⟨s, hanswers, hdrawn⟩
  | broken _ htrue =>
    rw [hawaited] at htrue
    cases htrue

/-- When nothing is awaited, nothing is left on the way. -/
theorem silent (h : Phase m question d) (hawaited : d.awaited = false) :
    d.asked = [] ∧ d.replies = [] := by
  cases h with
  | waiting hsub _ hreplies _ heq =>
    have hnone : question = none := by
      rw [hawaited] at heq
      simpa using heq.symm
    rw [hnone] at hsub
    exact ⟨List.sublist_nil.mp hsub, hreplies⟩
  | answered _ _ _ hasked _ _ heq =>
    rw [hawaited] at heq
    exact ⟨hasked, by simpa using heq.symm⟩
  | broken _ htrue =>
    rw [hawaited] at htrue
    cases htrue

end Phase

end Dialogue
