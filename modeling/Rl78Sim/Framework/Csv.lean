import Mathlib.Data.List.Basic

/-! # Comma-Separated Values

    Rows of fields as text: a field with a comma, a quote or a line end in it is
    put in quotes, with its quotes doubled. The reader goes from left to right
    and can be fed in pieces. What the writer writes is read back as it was, if
    every row has a field.
-/

namespace Csv

/-! ### Writing -/

/-- A field with this character needs quotes. -/
def special (c : Char) : Bool := c = ',' || c = '"' || c = '\n' || c = '\r'

/-- Every quote twice. -/
def double : List Char → List Char
  | [] => []
  | c :: text => if c = '"' then '"' :: '"' :: double text else c :: double text

/-- A field as it is written. -/
def field (text : List Char) : List Char :=
  if text.any special then '"' :: (double text ++ ['"']) else text

/-- A row with its line end. -/
def row : List (List Char) → List Char
  | [] => ['\n']
  | [text] => field text ++ ['\n']
  | text :: fields => field text ++ ',' :: row fields

/-- All rows. -/
def document (rows : List (List (List Char))) : List Char := rows.flatMap row

/-! ### Reading -/

/-- Where the reader is in a field. -/
inductive Place where
  | start
  | plain
  | quoted
  /-- Behind a quote in quotes: the end of the field, or the first of two. -/
  | closed
  /-- Behind a carriage return that a line feed has to follow. -/
  | line_end
  deriving DecidableEq

/-- The rows that are done, the fields of this one, and the text of this field. -/
structure Reader where
  rows : List (List (List Char))
  fields : List (List Char)
  text : List Char
  place : Place
  deriving DecidableEq

namespace Reader

/-- Between two rows. -/
def between (rows : List (List (List Char))) : Reader := ⟨rows, [], [], .start⟩

/-- The field ends. -/
def end_field (r : Reader) : Reader := ⟨r.rows, r.fields ++ [r.text], [], .start⟩

/-- The row ends. -/
def end_row (r : Reader) : Reader := between (r.rows ++ [r.fields ++ [r.text]])

/-- One more character of the field. -/
def put (r : Reader) (c : Char) (place : Place) : Reader :=
  { r with text := r.text ++ [c], place := place }

/-- What ends a field. -/
def ends (r : Reader) (c : Char) : Option Reader :=
  if c = ',' then some r.end_field
  else if c = '\n' then some r.end_row
  else if c = '\r' then some { r with place := .line_end }
  else none

/-- One character. -/
def next (r : Reader) (c : Char) : Option Reader :=
  match r.place with
  | .start =>
    if c = '"' then some { r with place := .quoted }
    else if special c then r.ends c
    else some (r.put c .plain)
  | .plain =>
    if c = '"' then none else if special c then r.ends c else some (r.put c .plain)
  | .quoted => if c = '"' then some { r with place := .closed } else some (r.put c .quoted)
  | .closed => if c = '"' then some (r.put c .quoted) else r.ends c
  | .line_end => if c = '\n' then some r.end_row else none

/-- A piece of the text. -/
def feed (r : Reader) : List Char → Option Reader
  | [] => some r
  | c :: text => (r.next c).bind fun r => r.feed text

/-- At the end of the text: the last row may lack its line end. -/
def finish (r : Reader) : Option (List (List (List Char))) :=
  match r.place with
  | .start => some (if r.fields = [] then r.rows else r.end_row.rows)
  | .plain | .closed => some r.end_row.rows
  | .quoted | .line_end => none

end Reader

/-- The rows of a text. -/
def read (text : List Char) : Option (List (List (List Char))) :=
  (Reader.feed (.between []) text).bind Reader.finish

/-! ### Round trip -/

namespace Reader

theorem feed_cons {r r' : Reader} {c : Char} (h : r.next c = some r') (text : List Char) :
    r.feed (c :: text) = r'.feed text := by
  show (r.next c).bind _ = _
  rw [h]
  rfl

/-- In quotes, what was doubled is read once. -/
theorem feed_double (rows : List (List (List Char))) (fields : List (List Char))
    (before text rest : List Char) :
    (⟨rows, fields, before, .quoted⟩ : Reader).feed (double text ++ rest) =
      (⟨rows, fields, before ++ text, .quoted⟩ : Reader).feed rest := by
  induction text generalizing before with
  | nil => rw [List.append_nil, double, List.nil_append]
  | cons c text ih =>
    have hput := ih (before ++ [c])
    rw [List.append_assoc] at hput
    unfold double
    split
    · rename_i hquote
      subst hquote
      have hfirst : (⟨rows, fields, before, .quoted⟩ : Reader).next '"' =
          some ⟨rows, fields, before, .closed⟩ := rfl
      have hsecond : (⟨rows, fields, before, .closed⟩ : Reader).next '"' =
          some ⟨rows, fields, before ++ ['"'], .quoted⟩ := rfl
      rw [List.cons_append, feed_cons hfirst, List.cons_append, feed_cons hsecond]
      exact hput
    · rename_i hquote
      have hnext : (⟨rows, fields, before, .quoted⟩ : Reader).next c =
          some ⟨rows, fields, before ++ [c], .quoted⟩ := if_neg hquote
      rw [List.cons_append, feed_cons hnext]
      exact hput

/-- A plain field, from its beginning or from inside. -/
theorem feed_plain (r : Reader) (hplace : r.place = .start ∨ r.place = .plain)
    {text : List Char} (htext : ∀ c ∈ text, special c = false) (rest : List Char) :
    ∃ place, (place = .start ∨ place = .plain) ∧ r.feed (text ++ rest) =
      (⟨r.rows, r.fields, r.text ++ text, place⟩ : Reader).feed rest := by
  induction text generalizing r with
  | nil => exact ⟨r.place, hplace, by rw [List.append_nil]; rfl⟩
  | cons c text ih =>
    have hc : special c = false := htext c List.mem_cons_self
    have hquote : c ≠ '"' := by
      rintro rfl
      cases hc
    have hnext : r.next c = some (r.put c .plain) := by
      unfold next
      rcases hplace with h | h <;> rw [h]
      · simp [hquote, hc]
      · simp [hquote, hc]
    obtain ⟨place, hat, hfeed⟩ :=
      ih (r.put c .plain) (.inr rfl) fun c' h => htext c' (List.mem_cons_of_mem _ h)
    refine ⟨place, hat, ?_⟩
    rw [List.cons_append, feed_cons hnext, hfeed]
    show (⟨r.rows, r.fields, r.text ++ [c] ++ text, place⟩ : Reader).feed rest = _
    rw [List.append_assoc]
    rfl

/-- What ends a field ends it outside of quotes. -/
theorem next_end {r : Reader} (hplace : r.place = .start ∨ r.place = .plain ∨ r.place = .closed)
    {c : Char} (hc : c = ',' ∨ c = '\n') : r.next c = r.ends c := by
  unfold next
  rcases hplace with h | h | h <;> rw [h] <;> rcases hc with rfl | rfl <;> rfl

/-- A field as it is written, and what ends it. -/
theorem feed_field (rows : List (List (List Char))) (fields : List (List Char))
    (text : List Char) {c : Char} (hc : c = ',' ∨ c = '\n') (rest : List Char) :
    (⟨rows, fields, [], .start⟩ : Reader).feed (field text ++ c :: rest) =
      ((⟨rows, fields, text, .plain⟩ : Reader).ends c).bind fun r => r.feed rest := by
  have hends (place : Place) : (⟨rows, fields, text, place⟩ : Reader).ends c =
      (⟨rows, fields, text, .plain⟩ : Reader).ends c := by
    rcases hc with rfl | rfl <;> rfl
  unfold field
  split
  · have hopen : (⟨rows, fields, [], .start⟩ : Reader).next '"' =
        some ⟨rows, fields, [], .quoted⟩ := rfl
    have hclose : (⟨rows, fields, text, .quoted⟩ : Reader).next '"' =
        some ⟨rows, fields, text, .closed⟩ := rfl
    rw [List.cons_append, feed_cons hopen, List.append_assoc, feed_double, List.nil_append,
      List.singleton_append, feed_cons hclose]
    show ((⟨rows, fields, text, .closed⟩ : Reader).next c).bind _ = _
    rw [next_end (.inr (.inr rfl)) hc, hends]
  · rename_i hplain
    have htext : ∀ c ∈ text, special c = false := by
      intro c hin
      by_contra hspecial
      exact hplain (List.any_eq_true.mpr ⟨c, hin, Bool.not_eq_false _ ▸ hspecial⟩)
    obtain ⟨place, hat, hfeed⟩ := feed_plain ⟨rows, fields, [], .start⟩ (.inl rfl) htext (c :: rest)
    rw [hfeed]
    show ((⟨rows, fields, text, place⟩ : Reader).next c).bind _ = _
    rw [next_end (hat.imp id .inl) hc, hends]

/-- A row as it is written. -/
theorem feed_row (rows : List (List (List Char))) {fields : List (List Char)} (hne : fields ≠ [])
    (before : List (List Char)) (rest : List Char) :
    (⟨rows, before, [], .start⟩ : Reader).feed (row fields ++ rest) =
      (between (rows ++ [before ++ fields])).feed rest := by
  induction fields generalizing before with
  | nil => exact absurd rfl hne
  | cons text fields ih =>
    cases fields with
    | nil =>
      show (⟨rows, before, [], .start⟩ : Reader).feed (field text ++ ['\n'] ++ rest) = _
      rw [List.append_assoc, List.singleton_append, feed_field rows before text (.inr rfl)]
      rfl
    | cons text' fields =>
      show (⟨rows, before, [], .start⟩ : Reader).feed
        (field text ++ ',' :: row (text' :: fields) ++ rest) = _
      rw [List.append_assoc, List.cons_append, feed_field rows before text (.inl rfl)]
      have hrest := ih (List.cons_ne_nil _ _) (before ++ [text])
      rw [List.append_assoc] at hrest
      exact hrest

/-- Rows as they are written. -/
theorem feed_document (before : List (List (List Char))) {rows : List (List (List Char))}
    (hne : ∀ fields ∈ rows, fields ≠ []) (rest : List Char) :
    (between before).feed (document rows ++ rest) = (between (before ++ rows)).feed rest := by
  induction rows generalizing before with
  | nil => rw [List.append_nil]; rfl
  | cons fields rows ih =>
    have hrow := feed_row before (hne fields List.mem_cons_self) [] (document rows ++ rest)
    show (between before).feed (row fields ++ document rows ++ rest) = _
    rw [List.append_assoc]
    refine hrow.trans ?_
    rw [ih _ fun f h => hne f (List.mem_cons_of_mem _ h), List.append_assoc]
    rfl

end Reader

/-- What is written is read back. -/
theorem read_document {rows : List (List (List Char))} (hne : ∀ fields ∈ rows, fields ≠ []) :
    read (document rows) = some rows := by
  have hfeed := Reader.feed_document [] hne []
  rw [List.append_nil] at hfeed
  rw [read, hfeed]
  rfl

end Csv
