import Rl78Sim.Cluster.EdgeNames
import Rl78Sim.Framework.Csv
import Rl78Sim.Probe.Record

/-! # The File of an Export

    The records of an export go to the browser as text, in the pieces in which
    the worker hands them out. A reader of comma-separated values finds one row
    in it for every record in the range, whatever the names of the probes are and
    however the records were cut into pieces.
-/

namespace Rl78Sim

open Csv

/-! ### One record -/

/-- `ProbeKind::as_str`. -/
def ProbeKind.as_str : ProbeKind → String
  | .Digital => "digital"
  | .Uart => "uart"
  | .Analog => "analog"

/-- What the export reads of a `ProbePointName`. -/
structure CsvPoint where
  probe_id : Nat
  board_hash : HashedId
  name : String

/-- `CsvPoll`. -/
structure CsvPoll where
  records : List ProbeRecord
  done : Bool
  failed : Bool
  truncated : Bool

namespace CsvFile

/-- A number in decimal. -/
def decimal (n : Nat) : List Char := Nat.toDigits 10 n

/-- `display_value`. -/
def display_value : ProbeKind → Nat → List Char
  | .Digital, value =>
    if value = 0 then "HiZ".toList
    else if value = 1 then "High".toList
    else if value = 2 then "Low".toList
    else "HiZ".toList
  | .Uart, value => decimal value
  | .Analog, value => decimal value

/-- `csv_field`. -/
def csv_field (text : List Char) : List Char :=
  if text.any fun c => [',', '"', '\n', '\r'].contains c then
    ['"'] ++ text.flatMap (fun c => if c = '"' then ['"', '"'] else [c]) ++ ['"']
  else text

/-- The texts of a record. -/
def texts (catalog : List CsvPoint) (rec : ProbeRecord) : List Char × List Char :=
  let point := catalog.find? fun point => point.probe_id = rec.probe_id
  let board := (point.map fun p => p.board_hash.to_hex).getD ""
  let probe := (point.map CsvPoint.name).getD ""
  let probe := if probe.isEmpty then HashedId.to_hex (UInt64.ofNat rec.probe_id) else probe
  (board.toList, probe.toList)

/-- `csv_header`. -/
def csv_header : List Char := "virtual_time_ns,board,probe,kind,value\n".toList

/-- `csv_record_line`. -/
def csv_record_line (catalog : List CsvPoint) (rec : ProbeRecord) : List Char :=
  decimal rec.virtual_time_ns ++ [','] ++ csv_field (texts catalog rec).1 ++ [','] ++
    csv_field (texts catalog rec).2 ++ [','] ++ rec.kind.as_str.toList ++ [','] ++
    csv_field (display_value rec.kind rec.value) ++ ['\n']

/-- The lines of the records in a range. -/
def csv_lines (catalog : List CsvPoint) (range : ProbeRange) (records : List ProbeRecord) :
    List Char :=
  (records.filter fun rec => range.contains rec.virtual_time_ns).flatMap (csv_record_line catalog)

/-- `render_csv`. -/
def render_csv (catalog : List CsvPoint) (records : List ProbeRecord) (range : ProbeRange) :
    List Char :=
  csv_header ++ csv_lines catalog range records

/-! ### The stream -/

/-- The loop of `csv_event_stream` behind the first chunk, from what `csv_poll`
    returns round by round; `none` is an error. -/
def later_chunks (catalog : List CsvPoint) (range : ProbeRange) :
    List (Option CsvPoll) → List (List Char)
  | [] => []
  | none :: _ => []
  | some poll :: polls =>
    if poll.records.isEmpty && !poll.done then later_chunks catalog range polls
    else
      let chunk := csv_lines catalog range poll.records
      if chunk.isEmpty then
        if poll.done then [] else later_chunks catalog range polls
      else chunk :: if poll.done then [] else later_chunks catalog range polls

/-- `csv_event_stream`. -/
def csv_event_stream (catalog : List CsvPoint) (range : ProbeRange) (first : CsvPoll)
    (polls : List (Option CsvPoll)) : List (List Char) :=
  (csv_header ++ csv_lines catalog range first.records) ::
    if first.done then [] else later_chunks catalog range polls

/-! ### What the file says -/

/-- The records that the polls hand out, up to the last one or to an error. -/
def handed_out : List (Option CsvPoll) → List ProbeRecord
  | [] => []
  | none :: _ => []
  | some poll :: polls => poll.records ++ if poll.done then [] else handed_out polls

/-- The row of a record. -/
def fields (catalog : List CsvPoint) (rec : ProbeRecord) : List (List Char) :=
  [decimal rec.virtual_time_ns, (texts catalog rec).1, (texts catalog rec).2,
    rec.kind.as_str.toList, display_value rec.kind rec.value]

/-- The first row. -/
def header : List (List Char) :=
  ["virtual_time_ns".toList, "board".toList, "probe".toList, "kind".toList, "value".toList]

variable {catalog : List CsvPoint} {range : ProbeRange}

/-- The export quotes as a writer of comma-separated values does. -/
theorem csv_field_eq (text : List Char) : csv_field text = field text := by
  have hspecial : (fun c => [',', '"', '\n', '\r'].contains c) = special := by
    funext c
    simp only [special, List.contains_cons, List.contains_nil, Bool.or_false, Bool.or_assoc,
      beq_eq_decide]
  have hdouble (text : List Char) :
      text.flatMap (fun c => if c = '"' then ['"', '"'] else [c]) = double text := by
    induction text with
    | nil => rfl
    | cons c text ih =>
      rw [List.flatMap_cons, ih, double]
      split <;> rfl
  unfold csv_field field
  rw [hspecial, hdouble]
  rfl

theorem field_of_plain {text : List Char} (h : ∀ c ∈ text, special c = false) :
    field text = text := by
  refine if_neg fun hany => ?_
  obtain ⟨c, hin, hspecial⟩ := List.any_eq_true.mp hany
  rw [h c hin] at hspecial
  cases hspecial

/-- A number needs no quotes. -/
theorem field_decimal (n : Nat) : field (decimal n) = decimal n := by
  refine field_of_plain fun c hin => ?_
  have hdigit : c.isDigit = true := Nat.isDigit_of_mem_toDigits (by decide) (by decide) hin
  by_contra hspecial
  simp only [special, Bool.not_eq_false, Bool.or_eq_true, decide_eq_true_eq] at hspecial
  rcases hspecial with ((rfl | rfl) | rfl) | rfl <;> exact absurd hdigit (by decide)

theorem csv_record_line_eq (rec : ProbeRecord) :
    csv_record_line catalog rec = row (fields catalog rec) := by
  have hkind : field rec.kind.as_str.toList = rec.kind.as_str.toList := by
    cases rec.kind <;> decide
  unfold csv_record_line fields
  simp [row, csv_field_eq, field_decimal, hkind]

theorem csv_header_eq : csv_header = row header := by decide

/-- The file is a document. -/
theorem render_csv_eq (records : List ProbeRecord) :
    render_csv catalog records range = document (header ::
      (records.filter fun rec => range.contains rec.virtual_time_ns).map (fields catalog)) := by
  have hlines (rows : List ProbeRecord) :
      rows.flatMap (csv_record_line catalog) = document (rows.map (fields catalog)) := by
    unfold document
    rw [List.flatMap_map]
    exact List.flatMap_congr fun rec _ => csv_record_line_eq rec
  unfold render_csv csv_lines
  rw [csv_header_eq, hlines]
  rfl

theorem csv_lines_append (records records' : List ProbeRecord) :
    csv_lines catalog range (records ++ records') =
      csv_lines catalog range records ++ csv_lines catalog range records' := by
  unfold csv_lines
  rw [List.filter_append, List.flatMap_append]

/-- The chunks behind the first are the lines of what the polls hand out. -/
theorem later_chunks_flatten (polls : List (Option CsvPoll)) :
    (later_chunks catalog range polls).flatten = csv_lines catalog range (handed_out polls) := by
  induction polls with
  | nil => rfl
  | cons result polls ih =>
    cases result with
    | none => rfl
    | some poll =>
      have hrest : (if poll.done then [] else later_chunks catalog range polls).flatten =
          csv_lines catalog range (if poll.done then [] else handed_out polls) := by
        cases poll.done
        · exact ih
        · rfl
      rw [handed_out, csv_lines_append, ← hrest, later_chunks]
      split
      · rename_i hnone
        simp only [Bool.and_eq_true, List.isEmpty_iff, Bool.not_eq_true'] at hnone
        rw [hnone.1, hnone.2]
        rfl
      · dsimp only
        split
        · rename_i hchunk
          rw [List.isEmpty_iff.mp hchunk, List.nil_append]
        · rfl

/-- The chunks make up the file of all records that are handed out. -/
theorem stream_flatten (first : CsvPoll) (polls : List (Option CsvPoll)) :
    (csv_event_stream catalog range first polls).flatten =
      render_csv catalog (handed_out (some first :: polls)) range := by
  have hrest : (if first.done then [] else later_chunks catalog range polls).flatten =
      csv_lines catalog range (if first.done then [] else handed_out polls) := by
    cases first.done
    · exact later_chunks_flatten polls
    · rfl
  rw [csv_event_stream, List.flatten_cons, hrest, List.append_assoc, ← csv_lines_append]
  rfl

/-- A value as far as it is shown: of a digital one, the level. -/
def shown : ProbeKind → Nat → Nat
  | .Digital, value => if value ≤ 2 then value else 0
  | _, value => value

theorem decimal_injective {m n : Nat} (h : decimal m = decimal n) : m = n := by
  rw [← Nat.ofDigitChars_ten_toDigits (n := m), ← Nat.ofDigitChars_ten_toDigits (n := n)]
  exact congrArg (fun digits => Nat.ofDigitChars 10 digits 0) h

/-- The shown value says which level, word or voltage it is. -/
theorem display_value_injective {kind : ProbeKind} {m n : Nat}
    (h : display_value kind m = display_value kind n) : shown kind m = shown kind n := by
  cases kind with
  | Digital =>
    have hcase (k : Nat) : (shown .Digital k = 0 ∧ display_value .Digital k = "HiZ".toList) ∨
        (shown .Digital k = 1 ∧ display_value .Digital k = "High".toList) ∨
        (shown .Digital k = 2 ∧ display_value .Digital k = "Low".toList) := by
      unfold shown display_value
      by_cases h0 : k = 0
      · simp [h0]
      · by_cases h1 : k = 1
        · simp [h1]
        · by_cases h2 : k = 2
          · simp [h2]
          · have hlarge : ¬ k ≤ 2 := by omega
            simp [h0, h1, h2, hlarge]
    rcases hcase m with ⟨hm, htext⟩ | ⟨hm, htext⟩ | ⟨hm, htext⟩ <;>
      rcases hcase n with ⟨hn, htext'⟩ | ⟨hn, htext'⟩ | ⟨hn, htext'⟩ <;>
      first
      | exact hm.trans hn.symm
      | exact absurd (htext.symm.trans (h.trans htext')) (by decide)
  | Uart => exact decimal_injective h
  | Analog => exact decimal_injective h

/-- A row says when a record was taken, of what kind it is, and what was seen. -/
theorem fields_injective {rec rec' : ProbeRecord}
    (h : fields catalog rec = fields catalog rec') :
    rec.virtual_time_ns = rec'.virtual_time_ns ∧ rec.kind = rec'.kind ∧
      shown rec.kind rec.value = shown rec'.kind rec'.value := by
  unfold fields at h
  simp only [List.cons.injEq] at h
  obtain ⟨htime, -, -, hkind, hvalue, -⟩ := h
  have hsame : rec.kind = rec'.kind := by
    revert hkind
    cases rec.kind <;> cases rec'.kind <;> decide
  rw [hsame] at hvalue ⊢
  exact ⟨decimal_injective htime, rfl, display_value_injective hvalue⟩

/-! ### Main results -/

/-- Whatever the probes are called, and however the worker cuts the export into
    pieces, the file is read as the header and one row for each record in the
    range that was handed out, in their order; and a row tells the time, the kind
    and the shown value of its record. -/
theorem csv_file_reads (catalog : List CsvPoint) (range : ProbeRange) (first : CsvPoll)
    (polls : List (Option CsvPoll)) :
    read (csv_event_stream catalog range first polls).flatten = some (header ::
      ((handed_out (some first :: polls)).filter fun rec =>
        range.contains rec.virtual_time_ns).map (fields catalog)) ∧
    ∀ rec rec', fields catalog rec = fields catalog rec' →
      rec.virtual_time_ns = rec'.virtual_time_ns ∧ rec.kind = rec'.kind ∧
        shown rec.kind rec.value = shown rec'.kind rec'.value := by
  refine ⟨?_, fun rec rec' => fields_injective⟩
  rw [stream_flatten, render_csv_eq]
  refine read_document fun row hrow => ?_
  rcases List.mem_cons.mp hrow with rfl | hin
  · exact List.cons_ne_nil _ _
  · obtain ⟨rec, -, rfl⟩ := List.mem_map.mp hin
    exact List.cons_ne_nil _ _

end CsvFile

end Rl78Sim
