import Mathlib.Data.List.Forall2

/-! # Fallible Computations

    What the parts of a computation in `Except` returned when the whole of it
    returned a value.
-/

namespace Fallible

variable {ε α β : Type}

/-- A sequence that succeeds succeeds in both parts. -/
theorem bind_ok {x : Except ε α} {f : α → Except ε β} {b : β} (h : (x >>= f) = .ok b) :
    ∃ a, x = .ok a ∧ f a = .ok b := by
  cases x with
  | error err => cases h
  | ok a => exact ⟨a, rfl, h⟩

/-- A map over a list that succeeds does so at each element. -/
theorem mapM_ok {f : α → Except ε β} {l : List α} :
    ∀ {l' : List β}, l.mapM f = .ok l' → List.Forall₂ (fun a b => f a = .ok b) l l' := by
  induction l with
  | nil =>
    intro l' h
    cases h
    exact List.Forall₂.nil
  | cons a l ih =>
    intro l' h
    rw [List.mapM_cons] at h
    obtain ⟨b, hb, h⟩ := bind_ok h
    obtain ⟨bs, hbs, h⟩ := bind_ok h
    cases h
    exact List.Forall₂.cons hb (ih hbs)

/-- A map over a list fails when it does at an element. -/
theorem mapM_error_iff {f : α → Except ε β} {l : List α} :
    (∃ err, l.mapM f = .error err) ↔ ∃ a ∈ l, ∃ err, f a = .error err := by
  induction l with
  | nil =>
    constructor
    · rintro ⟨err, h⟩
      cases h
    · rintro ⟨a, ha, -⟩
      cases ha
  | cons a l ih =>
    rw [List.mapM_cons]
    cases ha : f a with
    | error err => exact ⟨fun _ => ⟨a, List.mem_cons_self, err, ha⟩, fun _ => ⟨err, rfl⟩⟩
    | ok b =>
      constructor
      · rintro ⟨err, h⟩
        cases hl : l.mapM f with
        | error err' =>
          obtain ⟨a', ha', hfails⟩ := ih.mp ⟨err', hl⟩
          exact ⟨a', List.mem_cons_of_mem _ ha', hfails⟩
        | ok bs =>
          rw [hl] at h
          cases h
      · rintro ⟨a', ha', err, hfails⟩
        rcases List.mem_cons.mp ha' with rfl | ha'
        · rw [ha] at hfails
          cases hfails
        · obtain ⟨err', hl⟩ := ih.mpr ⟨a', ha', err, hfails⟩
          rw [hl]
          exact ⟨err', rfl⟩

/-- The element of the result beside an element of the list. -/
theorem forall₂_getElem? {R : α → β → Prop} {l : List α} {l' : List β}
    (h : List.Forall₂ R l l') : ∀ {i : Nat} {a : α}, l[i]? = some a →
      ∃ b, l'[i]? = some b ∧ R a b := by
  induction h with
  | nil =>
    intro i a hi
    simp at hi
  | @cons a b l l' hab _ ih =>
    intro i a' hi
    cases i with
    | zero =>
      simp only [List.getElem?_cons_zero, Option.some.injEq] at hi
      subst hi
      exact ⟨b, by simp, hab⟩
    | succ i =>
      simp only [List.getElem?_cons_succ] at hi ⊢
      exact ih hi

/-- What an element of the result came from. -/
theorem forall₂_exists_left {R : α → β → Prop} {l : List α} {l' : List β}
    (h : List.Forall₂ R l l') {b : β} (hb : b ∈ l') : ∃ a ∈ l, R a b := by
  induction h with
  | nil => cases hb
  | @cons a b' l l' hab _ ih =>
    rcases List.mem_cons.mp hb with rfl | hb
    · exact ⟨a, List.mem_cons_self, hab⟩
    · obtain ⟨a', ha', hR⟩ := ih hb
      exact ⟨a', List.mem_cons_of_mem _ ha', hR⟩

/-- What an element of the list became. -/
theorem forall₂_exists_right {R : α → β → Prop} {l : List α} {l' : List β}
    (h : List.Forall₂ R l l') {a : α} (ha : a ∈ l) : ∃ b ∈ l', R a b := by
  obtain ⟨i, hi⟩ := List.mem_iff_getElem?.mp ha
  obtain ⟨b, hb, hR⟩ := forall₂_getElem? h hi
  exact ⟨b, List.mem_of_getElem? hb, hR⟩

/-- Two relations that agree on the elements of the first list. -/
theorem forall₂_congr {R R' : α → β → Prop} {l : List α} {l' : List β}
    (h : ∀ a ∈ l, ∀ b, R a b ↔ R' a b) : List.Forall₂ R l l' ↔ List.Forall₂ R' l l' := by
  induction l generalizing l' with
  | nil => cases l' <;> simp
  | cons a l ih =>
    cases l' with
    | nil => simp
    | cons b l' =>
      rw [List.forall₂_cons, List.forall₂_cons, h a List.mem_cons_self b,
        ih fun c hc => h c (List.mem_cons_of_mem _ hc)]

/-- Related elements are elements of the first list. -/
theorem forall₂_mem {R : α → β → Prop} {l : List α} {l' : List β} (h : List.Forall₂ R l l') :
    List.Forall₂ (fun a b => a ∈ l ∧ R a b) l l' := by
  refine (forall₂_congr ?_).mp h
  intro a ha b
  exact ⟨fun hR => ⟨ha, hR⟩, fun hR => hR.2⟩

/-- Beside one relation, another that only says something about the first element. -/
theorem forall₂_iff_forall {R P : α → β → Prop} {Q : α → Prop} {l : List α} {l' : List β}
    (h : List.Forall₂ R l l') (hR : ∀ a b, R a b → (P a b ↔ Q a)) :
    List.Forall₂ P l l' ↔ ∀ a ∈ l, Q a := by
  induction h with
  | nil => simp
  | cons hab _ ih =>
    rw [List.forall₂_cons, List.forall_mem_cons, hR _ _ hab, ih]

/-- If each has a partner, there is a list of partners. -/
theorem forall₂_of_forall {R : α → β → Prop} {l : List α} (h : ∀ a ∈ l, ∃ b, R a b) :
    ∃ l', List.Forall₂ R l l' := by
  induction l with
  | nil => exact ⟨[], .nil⟩
  | cons a l ih =>
    obtain ⟨b, hb⟩ := h a List.mem_cons_self
    obtain ⟨l', hl'⟩ := ih fun a ha => h a (List.mem_cons_of_mem _ ha)
    exact ⟨b :: l', .cons hb hl'⟩

/-- What two related lists have in common. -/
theorem forall₂_map_eq {γ : Type} {R : α → β → Prop} {f : α → γ} {g : β → γ} {l : List α}
    {l' : List β} (h : List.Forall₂ R l l') (hR : ∀ a b, R a b → g b = f a) :
    l'.map g = l.map f := by
  induction h with
  | nil => rfl
  | cons hab _ ih => simp [hR _ _ hab, ih]

end Fallible
