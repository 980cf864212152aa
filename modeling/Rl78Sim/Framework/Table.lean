import Mathlib.Data.List.Induction
import Mathlib.Data.List.Nodup

/-! # Rows by Key

    A table in a list: a row takes the place of the one with its key, or comes
    to the end. After any number of rows the table has, for every key, the last
    row with that key, and no other.
-/

namespace Table

variable {α κ : Type*} {key : α → κ} {rows : List α} {row x : α}

/-- Of all rows with its key, this one comes last. -/
def Last (key : α → κ) (row : α) (rows : List α) : Prop :=
  ∃ before after, rows = before ++ row :: after ∧ ∀ r ∈ after, key r ≠ key row

theorem last_append :
    Last key x (rows ++ [row]) ↔ x = row ∨ Last key x rows ∧ key x ≠ key row := by
  constructor
  · rintro ⟨before, after, heq, hlast⟩
    rcases List.eq_nil_or_concat after with rfl | ⟨init, r, rfl⟩
    · obtain ⟨-, hrow⟩ := List.append_inj' heq rfl
      exact .inl (List.singleton_inj.mp hrow).symm
    · have hsplit : rows ++ [row] = (before ++ x :: init) ++ [r] := by simpa using heq
      obtain ⟨hrows, hrow⟩ := List.append_inj' hsplit rfl
      have hr : row = r := List.singleton_inj.mp hrow
      refine .inr ⟨⟨before, init, hrows, fun r' hin => ?_⟩, ?_⟩
      · exact hlast r' (by simp [hin])
      · exact hr ▸ Ne.symm (hlast r (by simp))
  · rintro (rfl | ⟨⟨before, after, rfl, hlast⟩, hne⟩)
    · exact ⟨rows, [], rfl, List.forall_mem_nil _⟩
    · refine ⟨before, after ++ [row], by simp, fun r hr => ?_⟩
      rcases List.mem_append.mp hr with hin | hrow
      · exact hlast r hin
      · rw [List.mem_singleton.mp hrow]
        exact Ne.symm hne

variable [DecidableEq κ]

/-- Put a row into the table. -/
def put (key : α → κ) : List α → α → List α
  | [], row => [row]
  | old :: rows, row => if key old = key row then row :: rows else old :: put key rows row

/-- Put all rows into an empty table. -/
def fill (key : α → κ) (rows : List α) : List α := rows.foldl (put key) []

theorem keys_put : (put key rows row).map key =
    if key row ∈ rows.map key then rows.map key else rows.map key ++ [key row] := by
  induction rows with
  | nil => rfl
  | cons old rows ih =>
    unfold put
    split
    · rename_i heq
      rw [List.map_cons, List.map_cons, heq, if_pos List.mem_cons_self]
    · rename_i hne
      have hmem : key row ∈ key old :: rows.map key ↔ key row ∈ rows.map key := by
        rw [List.mem_cons, or_iff_right (Ne.symm hne)]
      rw [List.map_cons, ih, List.map_cons, if_congr hmem rfl rfl]
      split <;> rfl

/-- The keys stay different. -/
theorem nodup_put (h : (rows.map key).Nodup) : ((put key rows row).map key).Nodup := by
  rw [keys_put]
  split
  · exact h
  · rename_i hnew
    exact List.nodup_append'.mpr ⟨h, List.nodup_singleton _, by simpa using hnew⟩

/-- What is in the table then. -/
theorem mem_put (h : (rows.map key).Nodup) :
    x ∈ put key rows row ↔ x = row ∨ x ∈ rows ∧ key x ≠ key row := by
  induction rows with
  | nil => simp [put]
  | cons old rows ih =>
    rw [List.map_cons, List.nodup_cons] at h
    unfold put
    split
    · rename_i heq
      have hother (hin : x ∈ rows) : key x ≠ key row := by
        intro hsame
        exact h.1 (heq.trans hsame.symm ▸ List.mem_map_of_mem hin)
      rw [List.mem_cons, List.mem_cons]
      constructor
      · rintro (hrow | hin)
        · exact .inl hrow
        · exact .inr ⟨.inr hin, hother hin⟩
      · rintro (hrow | ⟨hold | hin, hne⟩)
        · exact .inl hrow
        · exact absurd (hold ▸ heq) hne
        · exact .inr hin
    · rename_i hne
      rw [List.mem_cons, ih h.2, List.mem_cons]
      constructor
      · rintro (hold | hrow | ⟨hin, hkey⟩)
        · exact .inr ⟨.inl hold, hold ▸ hne⟩
        · exact .inl hrow
        · exact .inr ⟨.inr hin, hkey⟩
      · rintro (hrow | ⟨hold | hin, hkey⟩)
        · exact .inr (.inl hrow)
        · exact .inl hold
        · exact .inr (.inr ⟨hin, hkey⟩)

theorem fill_append : fill key (rows ++ [row]) = put key (fill key rows) row := by
  unfold fill
  rw [List.foldl_append]
  rfl

theorem nodup_fill (key : α → κ) (rows : List α) : ((fill key rows).map key).Nodup := by
  induction rows using List.reverseRecOn with
  | nil => exact List.nodup_nil
  | append_singleton rows row ih =>
    rw [fill_append]
    exact nodup_put ih

/-- Every key has a row in the table. -/
theorem mem_keys_fill {k : κ} : k ∈ (fill key rows).map key ↔ k ∈ rows.map key := by
  induction rows using List.reverseRecOn with
  | nil => exact Iff.rfl
  | append_singleton rows row ih =>
    rw [fill_append, keys_put, List.map_append, List.mem_append, ← ih, List.map_singleton,
      List.mem_singleton]
    split
    · rename_i hold
      constructor
      · exact .inl
      · rintro (hin | rfl)
        · exact hin
        · exact hold
    · rw [List.mem_append, List.mem_singleton]

/-- So has everything that a key decides. -/
theorem mem_map_fill {β : Type*} {g : α → β} {f : κ → β} (hg : ∀ row, g row = f (key row)) {y : β} :
    y ∈ (fill key rows).map g ↔ y ∈ rows.map g := by
  have hmap (part : List α) : part.map g = (part.map key).map f := by
    rw [List.map_map]
    exact List.map_congr_left fun row _ => hg row
  rw [hmap, hmap, List.mem_map, List.mem_map]
  simp only [mem_keys_fill]

/-- The table has the last row of every key, and nothing else. -/
theorem mem_fill : x ∈ fill key rows ↔ Last key x rows := by
  induction rows using List.reverseRecOn with
  | nil =>
    constructor
    · intro h
      cases h
    · rintro ⟨before, after, heq, -⟩
      cases before <;> cases heq
  | append_singleton rows row ih =>
    rw [fill_append, mem_put (nodup_fill key rows), ih, last_append]

/-- Rows with different keys are all in the table. -/
theorem mem_fill_of_nodup (h : (rows.map key).Nodup) : x ∈ fill key rows ↔ x ∈ rows := by
  rw [mem_fill]
  constructor
  · rintro ⟨before, after, rfl, -⟩
    exact List.mem_append_right _ List.mem_cons_self
  · intro hin
    obtain ⟨before, after, rfl⟩ := List.append_of_mem hin
    rw [List.map_append, List.map_cons] at h
    have hlater := (List.nodup_cons.mp h.of_append_right).1
    refine ⟨before, after, rfl, fun r hr hsame => hlater ?_⟩
    exact hsame ▸ List.mem_map_of_mem hr

end Table
