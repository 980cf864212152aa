import Mathlib.Data.List.Induction
import Mathlib.Data.List.Sort
import Mathlib.Logic.Function.Basic
import Rl78Sim.Probe.Record

/-! # The Probe Log of a Node

    Every probe keeps its newest samples in memory; older ones are appended to
    a spill file. A failed append marks the log truncated, and samples that
    find no room are refused from then on. While the node runs, samples are
    also placed in the window of the coarse stream.

    The numbers of bytes that the appends write are given from outside, and so
    is the wall clock, as whether the coarse interval has passed.
-/

namespace Rl78Sim

/-- `PROBE_MEM_CAP`. -/
def probe_mem_cap : Nat := 4096

/-- A probe point of the board, as the log and the publishers know it. -/
@[ext]
structure ProbePoint where
  probe_id : Nat
  kind : ProbeKind
  probe_lt : probe_id < 256 ^ 8

instance : DecidableEq ProbePoint := fun _ _ => decidable_of_iff _ ProbePoint.ext_iff.symm

/-! ### Sorting -/

namespace ProbeRecord

/-- The order of the sort key `(virtual_time_ns, probe_id)`. -/
def key_le (a b : ProbeRecord) : Prop :=
  a.virtual_time_ns < b.virtual_time_ns ∨
    a.virtual_time_ns = b.virtual_time_ns ∧ a.probe_id ≤ b.probe_id

instance : DecidableRel key_le := fun a b =>
  inferInstanceAs (Decidable (a.virtual_time_ns < b.virtual_time_ns ∨
    a.virtual_time_ns = b.virtual_time_ns ∧ a.probe_id ≤ b.probe_id))

/-- The records of one probe, in order. -/
def of (p : Nat) (records : List ProbeRecord) : List ProbeRecord :=
  records.filter fun r => r.probe_id = p

theorem of_append (p : Nat) (xs ys : List ProbeRecord) : of p (xs ++ ys) = of p xs ++ of p ys :=
  List.filter_append _ _

theorem of_sublist (p : Nat) {xs ys : List ProbeRecord} (h : xs.Sublist ys) :
    (of p xs).Sublist (of p ys) :=
  h.filter _

/-- `sort_by_key`, a stable sort. -/
def sort_by_key (records : List ProbeRecord) : List ProbeRecord := records.insertionSort key_le

/-- Times of one probe that do not decrease are in the order of the sort key. -/
theorem pairwise_key_le {p : Nat} {records : List ProbeRecord}
    (h : (of p records).Pairwise fun a b => a.virtual_time_ns ≤ b.virtual_time_ns) :
    (of p records).Pairwise key_le := by
  refine h.imp_of_mem ?_
  intro a b ha hb hle
  have hpa : a.probe_id = p := of_decide_eq_true (List.mem_filter.mp ha).2
  have hpb : b.probe_id = p := of_decide_eq_true (List.mem_filter.mp hb).2
  unfold key_le
  omega

/-- Records that are in order already stay in their order among the others. -/
theorem filter_sort_by_key {f : ProbeRecord → Bool} {records : List ProbeRecord}
    (h : (records.filter f).Pairwise key_le) :
    (sort_by_key records).filter f = records.filter f := by
  have hsub : (records.filter f).Sublist (sort_by_key records) :=
    List.sublist_insertionSort h List.filter_sublist
  have hfilter : ((records.filter f).filter f).Sublist ((sort_by_key records).filter f) :=
    hsub.filter f
  rw [List.filter_filter] at hfilter
  simp only [Bool.and_self] at hfilter
  have hlen : ((sort_by_key records).filter f).length = (records.filter f).length :=
    ((List.perm_insertionSort key_le records).filter f).length_eq
  exact (hfilter.eq_of_length hlen.symm).symm

/-- Records of one probe that are in order stay as they are. -/
theorem of_sort_by_key {p : Nat} {records : List ProbeRecord}
    (h : (of p records).Pairwise fun a b => a.virtual_time_ns ≤ b.virtual_time_ns) :
    of p (sort_by_key records) = of p records :=
  filter_sort_by_key (pairwise_key_le h)

end ProbeRecord

open ProbeRecord

/-! ### The log -/

/-- `ProbeLog`. `spill` is the contents of the spill file; `history` is a
    history variable, every record that was accepted. -/
structure ProbeLog where
  cap : Nat
  catalog : List ProbePoint
  memory : Nat → List ProbeRecord
  spill : List UInt8
  truncated : Bool
  running : Bool
  digital_last : Nat → Option ProbeRecord
  analog_last : Nat → Option ProbeRecord
  uart_window : List ProbeRecord
  latest : Nat → Option ProbeRecord
  history : List ProbeRecord

/-- `ProbeExport`, without the catalog. -/
structure ProbeExport where
  truncated : Bool
  file_len : Nat
  memory : List ProbeRecord

namespace ProbeLog

/-- `ProbeLog::with_cap`, with its catalog noted. -/
def with_cap (catalog : List ProbePoint) (cap : Nat) : ProbeLog where
  cap := max cap 1
  catalog := catalog
  memory _ := []
  spill := []
  truncated := false
  running := false
  digital_last _ := none
  analog_last _ := none
  uart_window := []
  latest _ := none
  history := []

/-- `ProbeLog::open`. -/
def open_ (catalog : List ProbePoint) : ProbeLog := with_cap catalog probe_mem_cap

/-- What the coarse window holds: the last digital and analog samples, and
    every UART word. -/
def window (log : ProbeLog) : List ProbeRecord :=
  (log.catalog.filterMap fun point => log.digital_last point.probe_id) ++
    (log.catalog.filterMap fun point => log.analog_last point.probe_id) ++ log.uart_window

def clear_window (log : ProbeLog) : ProbeLog :=
  { log with digital_last := fun _ => none, analog_last := fun _ => none, uart_window := [] }

/-- `ProbeLog::emit_coarse`. -/
def emit_coarse (log : ProbeLog) : ProbeLog × List ProbeRecord :=
  (log.clear_window, sort_by_key log.window)

/-- `ProbeLog::set_running`. -/
def set_running (log : ProbeLog) (running : Bool) : ProbeLog × List ProbeRecord :=
  if log.running ∧ ¬running then
    let (log, flushed) := log.emit_coarse
    ({ log with running := running }, flushed)
  else if ¬log.running ∧ running then ({ log.clear_window with running := running }, [])
  else ({ log with running := running }, [])

/-- `ProbeLog::poll_coarse`: `due` when `COARSE_INTERVAL` has passed. -/
def poll_coarse (log : ProbeLog) (due : Bool) : ProbeLog × List ProbeRecord :=
  if log.running ∧ due then log.emit_coarse else (log, [])

/-- `ProbeLog::at_cap`. -/
def at_cap (log : ProbeLog) (probe_id : Nat) : Bool := log.cap ≤ (log.memory probe_id).length

/-- `ProbeLog::append_spill`: `written` bytes of the record get into the file. -/
def append_spill (log : ProbeLog) (written : Nat) (record : ProbeRecord) : ProbeLog × Bool :=
  ({ log with spill := log.spill ++ record.encode.take written }, spill_rec ≤ written)

/-- `ProbeLog::spill_oldest`. -/
def spill_oldest (log : ProbeLog) (written : Nat) (probe_id : Nat) : ProbeLog × Bool :=
  match log.memory probe_id with
  | [] => (log, true)
  | oldest :: queue =>
      match append_spill { log with memory := Function.update log.memory probe_id queue }
        written oldest with
      | (log, true) => (log, true)
      | (log, false) =>
          ({ log with
              memory := Function.update log.memory probe_id (oldest :: log.memory probe_id) },
            false)

/-- The end of `ProbeLog::push`: the coarse window. -/
def note_window (log : ProbeLog) (record : ProbeRecord) : ProbeLog :=
  if log.running then
    match record.kind with
    | .Digital =>
        { log with
          digital_last := Function.update log.digital_last record.probe_id (some record) }
    | .Analog =>
        { log with
          analog_last := Function.update log.analog_last record.probe_id (some record) }
    | .Uart => { log with uart_window := log.uart_window ++ [record] }
  else log

/-- The middle of `ProbeLog::push`: the record is accepted. -/
def store (log : ProbeLog) (record : ProbeRecord) : ProbeLog :=
  { log with
    memory := Function.update log.memory record.probe_id (log.memory record.probe_id ++ [record])
    latest := Function.update log.latest record.probe_id (some record)
    history := log.history ++ [record] }

def keep (log : ProbeLog) (record : ProbeRecord) : ProbeLog := (log.store record).note_window record

/-- `ProbeLog::push`. -/
def push (log : ProbeLog) (written : Nat) (record : ProbeRecord) : ProbeLog :=
  if log.truncated ∧ log.at_cap record.probe_id then log
  else if log.at_cap record.probe_id then
    match log.spill_oldest written record.probe_id with
    | (log, true) => log.keep record
    | (log, false) => { log with truncated := true }
  else log.keep record

/-- `ProbeLog::latest_of`. -/
def latest_of (log : ProbeLog) (ids : List Nat) : List ProbeRecord :=
  sort_by_key (ids.filterMap log.latest)

/-- `ProbeLog::export`. The queues are taken in the order of the catalog. -/
def export_ (log : ProbeLog) : ProbeExport where
  truncated := log.truncated
  file_len := log.spill.length
  memory := log.catalog.flatMap fun point => log.memory point.probe_id

/-- `load_export`. -/
def load_export (log : ProbeLog) (e : ProbeExport) : List ProbeRecord :=
  read_spill log.spill e.file_len ++ e.memory

/-! ### Pushing -/

/-- The two logs agree on all but the coarse window. -/
structure SameStore (log log' : ProbeLog) : Prop where
  cap_eq : log'.cap = log.cap
  catalog_eq : log'.catalog = log.catalog
  memory_eq : log'.memory = log.memory
  spill_eq : log'.spill = log.spill
  truncated_eq : log'.truncated = log.truncated
  latest_eq : log'.latest = log.latest
  history_eq : log'.history = log.history

theorem same_note_window (log : ProbeLog) (record : ProbeRecord) :
    SameStore log (log.note_window record) := by
  unfold note_window
  split
  · split <;> exact ⟨rfl, rfl, rfl, rfl, rfl, rfl, rfl⟩
  · exact ⟨rfl, rfl, rfl, rfl, rfl, rfl, rfl⟩

/-- What is stored: whole records in the file, then the memory, are the records
    accepted, for every probe. -/
structure Wf (log : ProbeLog) : Prop where
  cap_pos : 0 < log.cap
  nodup : (log.catalog.map ProbePoint.probe_id).Nodup
  stored : ∃ records part, log.spill = records.flatMap encode ++ part ∧
    part.length < spill_rec ∧ (log.truncated = false → part = []) ∧
    ∀ p, of p records ++ log.memory p = of p log.history
  known : ∀ r ∈ log.history, ∃ point ∈ log.catalog,
    point.probe_id = r.probe_id ∧ point.kind = r.kind
  latest_eq : ∀ p, log.latest p = (of p log.history).getLast?

theorem wf_with_cap {catalog : List ProbePoint} (cap : Nat)
    (hnodup : (catalog.map ProbePoint.probe_id).Nodup) : (with_cap catalog cap).Wf where
  cap_pos := Nat.lt_of_lt_of_le Nat.one_pos (Nat.le_max_right _ _)
  nodup := hnodup
  stored := ⟨[], [], rfl, by decide, fun _ => rfl, fun _ => rfl⟩
  known _ h := by cases h
  latest_eq _ := rfl

/-- The point of a record is in the catalog. -/
def Knows (log : ProbeLog) (record : ProbeRecord) : Prop :=
  ∃ point ∈ log.catalog, point.probe_id = record.probe_id ∧ point.kind = record.kind

theorem Wf.same {log log' : ProbeLog} (h : log.Wf) (hsame : SameStore log log') : log'.Wf := by
  obtain ⟨hcap, hcatalog, hmemory, hspill, htruncated, hlatest, hhistory⟩ := hsame
  refine ⟨?_, ?_, ?_, ?_, ?_⟩
  · rw [hcap]
    exact h.cap_pos
  · rw [hcatalog]
    exact h.nodup
  · rw [hspill, htruncated, hmemory, hhistory]
    exact h.stored
  · rw [hhistory, hcatalog]
    exact h.known
  · rw [hlatest, hhistory]
    exact h.latest_eq

/-- The file holds the records that were spilled, and behind them at most part
    of one that failed; with the memory they are the records accepted. -/
structure Stored (log : ProbeLog) (spilled : List ProbeRecord) : Prop where
  cap_pos : 0 < log.cap
  file : ∃ part, log.spill = spilled.flatMap encode ++ part ∧
    part.length < spill_rec ∧ (log.truncated = false → part = [])
  kept : ∀ p, of p spilled ++ log.memory p = of p log.history

theorem stored_with_cap (catalog : List ProbePoint) (cap : Nat) :
    (with_cap catalog cap).Stored [] where
  cap_pos := Nat.lt_of_lt_of_le Nat.one_pos (Nat.le_max_right _ _)
  file := ⟨[], rfl, by decide, fun _ => rfl⟩
  kept _ := rfl

theorem Wf.exists_stored {log : ProbeLog} (h : log.Wf) : ∃ spilled, log.Stored spilled := by
  obtain ⟨spilled, part, hfile, hpart, hwhole, hkept⟩ := h.stored
  exact ⟨spilled, h.cap_pos, ⟨part, hfile, hpart, hwhole⟩, hkept⟩

theorem Stored.whole {log : ProbeLog} {spilled : List ProbeRecord} (h : log.Stored spilled) :
    ∃ records part, log.spill = records.flatMap encode ++ part ∧
      part.length < spill_rec ∧ (log.truncated = false → part = []) ∧
      ∀ p, of p records ++ log.memory p = of p log.history := by
  obtain ⟨part, hfile, hpart, hwhole⟩ := h.file
  exact ⟨spilled, part, hfile, hpart, hwhole, h.kept⟩

theorem Stored.same {log log' : ProbeLog} {spilled : List ProbeRecord} (h : log.Stored spilled)
    (hsame : SameStore log log') : log'.Stored spilled := by
  obtain ⟨hcap, -, hmemory, hspill, htruncated, -, hhistory⟩ := hsame
  refine ⟨?_, ?_, ?_⟩
  · rw [hcap]
    exact h.cap_pos
  · rw [hspill, htruncated]
    exact h.file
  · rw [hmemory, hhistory]
    exact h.kept

/-- The record comes last among those of its probe. -/
theorem of_concat (p : Nat) (xs : List ProbeRecord) (r : ProbeRecord) :
    of p (xs ++ [r]) = of p xs ++ if r.probe_id = p then [r] else [] := by
  rw [of_append]
  congr 1
  by_cases hp : r.probe_id = p
  · rw [if_pos hp]
    exact List.filter_cons_of_pos (decide_eq_true hp)
  · rw [if_neg hp]
    exact List.filter_cons_of_neg (by simpa using hp)

theorem Stored.store {log : ProbeLog} {spilled : List ProbeRecord} (h : log.Stored spilled)
    (record : ProbeRecord) : (log.store record).Stored spilled := by
  refine ⟨h.cap_pos, h.file, ?_⟩
  intro p
  show of p spilled ++ Function.update log.memory record.probe_id
    (log.memory record.probe_id ++ [record]) p = of p (log.history ++ [record])
  rw [of_concat]
  by_cases hp : record.probe_id = p
  · subst hp
    rw [Function.update_self, if_pos rfl, ← List.append_assoc, h.kept]
  · rw [Function.update_of_ne (Ne.symm hp), if_neg hp, List.append_nil, h.kept]

theorem Wf.store {log : ProbeLog} (h : log.Wf) {record : ProbeRecord}
    (hknows : log.Knows record) : (log.store record).Wf := by
  obtain ⟨spilled, hstored⟩ := h.exists_stored
  refine ⟨h.cap_pos, h.nodup, (hstored.store record).whole, ?_, ?_⟩
  · intro r hr
    rcases List.mem_append.mp hr with hold | hnew
    · exact h.known r hold
    · rw [List.mem_singleton.mp hnew]
      exact hknows
  · intro p
    show Function.update log.latest record.probe_id (some record) p =
      (of p (log.history ++ [record])).getLast?
    rw [of_concat]
    by_cases hp : record.probe_id = p
    · subst hp
      rw [Function.update_self, if_pos rfl, List.getLast?_append]
      rfl
    · rw [Function.update_of_ne (Ne.symm hp), if_neg hp, List.append_nil]
      exact h.latest_eq p

theorem Wf.keep {log : ProbeLog} (h : log.Wf) {record : ProbeRecord} (hknows : log.Knows record) :
    (log.keep record).Wf :=
  (h.store hknows).same (same_note_window _ record)

/-- The oldest record moves to the end of the file, unless the append fails;
    then part of it may be there. -/
theorem spill_oldest_eq {log : ProbeLog} {p : Nat} {oldest : ProbeRecord}
    {queue : List ProbeRecord} (written : Nat) (hqueue : log.memory p = oldest :: queue) :
    log.spill_oldest written p =
      if spill_rec ≤ written then
        ({ log with
            memory := Function.update log.memory p queue
            spill := log.spill ++ oldest.encode }, true)
      else ({ log with spill := log.spill ++ oldest.encode.take written }, false) := by
  unfold spill_oldest append_spill
  rw [hqueue]
  dsimp only
  by_cases hwritten : spill_rec ≤ written
  · have hall : oldest.encode.take written = oldest.encode := by
      apply List.take_of_length_le
      rw [length_encode]
      exact hwritten
    rw [if_pos hwritten, decide_eq_true hwritten, hall]
  · rw [if_neg hwritten, decide_eq_false hwritten]
    dsimp only
    rw [Function.update_self, Function.update_idem, ← hqueue, Function.update_eq_self]

/-- Moving the oldest record of a probe keeps what is stored of it. -/
theorem Stored.spill {log : ProbeLog} {spilled : List ProbeRecord} (h : log.Stored spilled)
    (htruncated : log.truncated = false) {p : Nat} {oldest : ProbeRecord}
    {queue : List ProbeRecord} (hqueue : log.memory p = oldest :: queue) :
    Stored { log with
      memory := Function.update log.memory p queue
      spill := log.spill ++ oldest.encode } (spilled ++ [oldest]) := by
  obtain ⟨part, hfile, -, hwhole⟩ := h.file
  rw [hwhole htruncated, List.append_nil] at hfile
  have hid : oldest.probe_id = p := by
    have hmem : oldest ∈ of p log.history := by
      rw [← h.kept, hqueue]
      exact List.mem_append_right _ List.mem_cons_self
    exact of_decide_eq_true (List.mem_filter.mp hmem).2
  refine ⟨h.cap_pos, ⟨[], ?_, by decide, fun _ => rfl⟩, ?_⟩
  · show log.spill ++ oldest.encode = _
    rw [hfile, List.append_nil, List.flatMap_append, List.flatMap_singleton]
  · intro q
    show of q (spilled ++ [oldest]) ++ Function.update log.memory p queue q = of q log.history
    rw [of_concat]
    by_cases hq : q = p
    · subst hq
      rw [Function.update_self, if_pos hid, ← h.kept, hqueue, List.append_assoc]
      rfl
    · have hne : oldest.probe_id ≠ q := fun heq => hq (heq.symm.trans hid)
      rw [Function.update_of_ne hq, if_neg hne, List.append_nil, h.kept]

theorem Wf.spill {log : ProbeLog} (h : log.Wf) (htruncated : log.truncated = false) {p : Nat}
    {oldest : ProbeRecord} {queue : List ProbeRecord} (hqueue : log.memory p = oldest :: queue) :
    Wf { log with
      memory := Function.update log.memory p queue
      spill := log.spill ++ oldest.encode } := by
  obtain ⟨spilled, hstored⟩ := h.exists_stored
  exact ⟨h.cap_pos, h.nodup, (hstored.spill htruncated hqueue).whole, h.known, h.latest_eq⟩

/-- A failed append may leave part of a record behind the whole ones. -/
theorem Stored.spill_failed {log : ProbeLog} {spilled : List ProbeRecord} (h : log.Stored spilled)
    (htruncated : log.truncated = false) (record : ProbeRecord) {written : Nat}
    (hwritten : ¬spill_rec ≤ written) :
    Stored { log with spill := log.spill ++ record.encode.take written, truncated := true }
      spilled := by
  obtain ⟨part, hfile, -, hwhole⟩ := h.file
  rw [hwhole htruncated, List.append_nil] at hfile
  have hpart : (record.encode.take written).length < spill_rec := by
    rw [List.length_take]
    omega
  refine ⟨h.cap_pos, ⟨record.encode.take written, ?_, hpart, nofun⟩, h.kept⟩
  show log.spill ++ record.encode.take written = _
  rw [hfile]

theorem Wf.spill_failed {log : ProbeLog} (h : log.Wf) (htruncated : log.truncated = false)
    (record : ProbeRecord) {written : Nat} (hwritten : ¬spill_rec ≤ written) :
    Wf { log with spill := log.spill ++ record.encode.take written, truncated := true } := by
  obtain ⟨spilled, hstored⟩ := h.exists_stored
  exact ⟨h.cap_pos, h.nodup, (hstored.spill_failed htruncated record hwritten).whole, h.known,
    h.latest_eq⟩

/-- The branches of a push. -/
inductive PushCase (log : ProbeLog) (written : Nat) (record : ProbeRecord) : ProbeLog → Prop where
  | gone : log.truncated = true → log.at_cap record.probe_id = true →
      PushCase log written record log
  | spilled (oldest : ProbeRecord) (queue : List ProbeRecord) : log.truncated = false →
      log.at_cap record.probe_id = true → log.memory record.probe_id = oldest :: queue →
      spill_rec ≤ written →
      PushCase log written record (keep { log with
        memory := Function.update log.memory record.probe_id queue
        spill := log.spill ++ oldest.encode } record)
  | failed (oldest : ProbeRecord) (queue : List ProbeRecord) : log.truncated = false →
      log.at_cap record.probe_id = true → log.memory record.probe_id = oldest :: queue →
      ¬spill_rec ≤ written →
      PushCase log written record
        { log with spill := log.spill ++ oldest.encode.take written, truncated := true }
  | room : log.at_cap record.probe_id = false → PushCase log written record (log.keep record)

theorem push_cases {log : ProbeLog} (hcap : 0 < log.cap) (written : Nat) (record : ProbeRecord) :
    PushCase log written record (log.push written record) := by
  unfold push
  split
  · rename_i hgone
    exact .gone hgone.1 hgone.2
  · rename_i hgo
    split
    · rename_i hfull
      have htruncated : log.truncated = false := by
        by_contra hne
        exact hgo ⟨by simpa using hne, hfull⟩
      cases hqueue : log.memory record.probe_id with
      | nil =>
        have hle : log.cap ≤ (log.memory record.probe_id).length := of_decide_eq_true hfull
        rw [hqueue] at hle
        exact absurd hle (Nat.not_le.mpr hcap)
      | cons oldest queue =>
        rw [spill_oldest_eq written hqueue]
        by_cases hwritten : spill_rec ≤ written
        · rw [if_pos hwritten]
          exact .spilled oldest queue htruncated hfull hqueue hwritten
        · rw [if_neg hwritten]
          exact .failed oldest queue htruncated hfull hqueue hwritten
    · rename_i hroom
      exact .room (by simpa using hroom)

/-- The two logs agree on the coarse window. -/
structure SameCoarse (log log' : ProbeLog) : Prop where
  digital_eq : log'.digital_last = log.digital_last
  analog_eq : log'.analog_last = log.analog_last
  uart_eq : log'.uart_window = log.uart_window

/-- What a push does: the record is accepted, after the oldest one of its
    probe may have moved to the file, or it is refused. -/
inductive Pushed (log : ProbeLog) (record : ProbeRecord) : ProbeLog → Prop where
  | kept (log₁ : ProbeLog) : log₁.Wf → log₁.catalog = log.catalog →
      log₁.history = log.history → log₁.running = log.running →
      SameCoarse log log₁ → Pushed log record (log₁.keep record)
  | refused (log' : ProbeLog) : log'.Wf → log'.truncated = true → log'.catalog = log.catalog →
      log'.history = log.history → log'.running = log.running →
      SameCoarse log log' → Pushed log record log'

theorem Wf.pushed {log : ProbeLog} (h : log.Wf) (written : Nat) (record : ProbeRecord) :
    Pushed log record (log.push written record) := by
  have hcases := push_cases h.cap_pos written record
  revert hcases
  generalize log.push written record = log'
  intro hcases
  cases hcases with
  | gone htruncated _ => exact .refused _ h htruncated rfl rfl rfl ⟨rfl, rfl, rfl⟩
  | spilled oldest queue htruncated _ hqueue _ =>
    exact .kept _ (h.spill htruncated hqueue) rfl rfl rfl ⟨rfl, rfl, rfl⟩
  | failed oldest queue htruncated _ _ hwritten =>
    exact .refused _ (h.spill_failed htruncated oldest hwritten) rfl rfl rfl rfl ⟨rfl, rfl, rfl⟩
  | room _ => exact .kept _ h rfl rfl rfl ⟨rfl, rfl, rfl⟩

theorem Wf.push {log : ProbeLog} (h : log.Wf) (written : Nat) {record : ProbeRecord}
    (hknows : log.Knows record) : (log.push written record).Wf := by
  have hpushed := h.pushed written record
  revert hpushed
  generalize log.push written record = log'
  intro hpushed
  cases hpushed with
  | kept log₁ hwf hcatalog =>
    apply hwf.keep
    unfold Knows
    rw [hcatalog]
    exact hknows
  | refused _ hwf => exact hwf

/-! ### Logs that run short of nothing -/

/-- Every append succeeds, and the coarse stream is off. -/
structure Quiet (log : ProbeLog) : Prop where
  wf : log.Wf
  truncated_eq : log.truncated = false
  running_eq : log.running = false
  window_eq : log.window = []

theorem Quiet.keep {log : ProbeLog} (h : log.Quiet) {record : ProbeRecord}
    (hknows : log.Knows record) : (log.keep record).Quiet ∧
      (log.keep record).history = log.history ++ [record] ∧
      (log.keep record).catalog = log.catalog := by
  have hsame := same_note_window (log.store record) record
  have hkeep : log.keep record = log.store record := by
    show (log.store record).note_window record = _
    unfold note_window
    exact if_neg (by rw [show (log.store record).running = false from h.running_eq]; nofun)
  refine ⟨⟨h.wf.keep hknows, ?_, ?_, ?_⟩, hsame.history_eq, hsame.catalog_eq⟩
  · exact hsame.truncated_eq.trans h.truncated_eq
  · rw [hkeep]
    exact h.running_eq
  · rw [hkeep]
    exact h.window_eq

/-- The record is accepted, after the oldest one of its probe may have moved. -/
theorem Quiet.push {log : ProbeLog} (h : log.Quiet) {record : ProbeRecord}
    (hknows : log.Knows record) : (log.push spill_rec record).Quiet ∧
      (log.push spill_rec record).history = log.history ++ [record] ∧
      (log.push spill_rec record).catalog = log.catalog := by
  unfold ProbeLog.push
  rw [if_neg (by rw [h.truncated_eq]; nofun)]
  split
  · rename_i hfull
    cases hqueue : log.memory record.probe_id with
    | nil =>
      have hle : log.cap ≤ (log.memory record.probe_id).length := of_decide_eq_true hfull
      rw [hqueue] at hle
      exact absurd hle (Nat.not_le.mpr h.wf.cap_pos)
    | cons oldest queue =>
      rw [spill_oldest_eq spill_rec hqueue, if_pos (Nat.le_refl _)]
      have hquiet : Quiet { log with
          memory := Function.update log.memory record.probe_id queue
          spill := log.spill ++ oldest.encode } :=
        ⟨h.wf.spill h.truncated_eq hqueue, h.truncated_eq, h.running_eq, h.window_eq⟩
      exact hquiet.keep hknows
  · exact h.keep hknows

/-- A log into which the records have been pushed. -/
def filled (catalog : List ProbePoint) (records : List ProbeRecord) : ProbeLog :=
  records.foldl (fun log record => log.push spill_rec record) (open_ catalog)

theorem quiet_filled {catalog : List ProbePoint}
    (hnodup : (catalog.map ProbePoint.probe_id).Nodup) {records : List ProbeRecord}
    (hknown : ∀ r ∈ records, ∃ point ∈ catalog,
      point.probe_id = r.probe_id ∧ point.kind = r.kind) :
    (filled catalog records).Quiet ∧ (filled catalog records).history = records ∧
      (filled catalog records).catalog = catalog := by
  induction records using List.reverseRecOn with
  | nil =>
    refine ⟨⟨wf_with_cap _ hnodup, rfl, rfl, ?_⟩, rfl, rfl⟩
    show (catalog.filterMap fun _ => none) ++ (catalog.filterMap fun _ => none) ++ [] = []
    simp
  | append_singleton records record ih =>
    obtain ⟨hquiet, hhistory, hcatalog⟩ := ih fun r hr => hknown r (List.mem_append_left _ hr)
    have hknows : (filled catalog records).Knows record := by
      unfold Knows
      rw [hcatalog]
      exact hknown record (List.mem_append_right _ List.mem_cons_self)
    have heq : filled catalog (records ++ [record]) =
        (filled catalog records).push spill_rec record := by
      unfold filled
      rw [List.foldl_append]
      rfl
    obtain ⟨hpushed, hhistory', hcatalog'⟩ := hquiet.push hknows
    rw [heq]
    exact ⟨hpushed, hhistory'.trans (by rw [hhistory]), hcatalog'.trans hcatalog⟩

/-! ### Exporting -/

/-- What memory holds of a probe are records of that probe. -/
theorem Stored.memory_of {log : ProbeLog} {spilled : List ProbeRecord} (h : log.Stored spilled)
    (p : Nat) : of p (log.memory p) = log.memory p ∧ ∀ q, q ≠ p → of q (log.memory p) = [] := by
  have hmem (r : ProbeRecord) (hr : r ∈ log.memory p) : r.probe_id = p := by
    have hmem : r ∈ of p log.history := by
      rw [← h.kept]
      exact List.mem_append_right _ hr
    exact of_decide_eq_true (List.mem_filter.mp hmem).2
  refine ⟨?_, ?_⟩
  · apply List.filter_eq_self.mpr
    intro r hr
    exact decide_eq_true (hmem r hr)
  · intro q hq
    apply List.filter_eq_nil_iff.mpr
    intro r hr
    rw [hmem r hr]
    simpa using Ne.symm hq

/-- The queues of some probes, one behind the other. -/
theorem Stored.of_queues {log : ProbeLog} {spilled : List ProbeRecord} (h : log.Stored spilled)
    {order : List Nat} (hnodup : order.Nodup) (p : Nat) :
    of p (order.flatMap log.memory) = if p ∈ order then log.memory p else [] := by
  induction order with
  | nil => rfl
  | cons q order ih =>
    obtain ⟨hnotin, hrest⟩ := List.nodup_cons.mp hnodup
    rw [List.flatMap_cons, of_append, ih hrest]
    by_cases hp : q = p
    · subst hp
      rw [(h.memory_of _).1, if_neg hnotin, if_pos List.mem_cons_self, List.append_nil]
    · rw [(h.memory_of _).2 p (Ne.symm hp), List.nil_append]
      simp only [List.mem_cons, Ne.symm hp, false_or]

/-- The whole file is read back as what was spilled. -/
theorem Stored.read_spill {log : ProbeLog} {spilled : List ProbeRecord} (h : log.Stored spilled) :
    read_spill log.spill log.spill.length = spilled := by
  obtain ⟨part, hfile, hpart, -⟩ := h.file
  rw [hfile]
  exact read_spill_append spilled hpart

/-- An export has the records of every probe that the log has accepted, in the
    order in which they were pushed. -/
theorem Wf.of_load_export {log : ProbeLog} (h : log.Wf) (p : Nat) :
    of p (log.load_export log.export_) = of p log.history := by
  obtain ⟨spilled, hstored⟩ := h.exists_stored
  show of p (Rl78Sim.read_spill log.spill log.spill.length ++
    log.catalog.flatMap fun point => log.memory point.probe_id) = _
  have hqueues : (log.catalog.flatMap fun point => log.memory point.probe_id) =
      (log.catalog.map ProbePoint.probe_id).flatMap log.memory := by rw [List.flatMap_map]
  rw [hstored.read_spill, of_append, hqueues, hstored.of_queues h.nodup, ← hstored.kept]
  split
  · rfl
  · rename_i hunknown
    -- A probe that is not in the catalog has no records.
    have hnone : of p log.history = [] := by
      apply List.filter_eq_nil_iff.mpr
      intro r hr
      obtain ⟨point, hpoint, hid, -⟩ := h.known r hr
      rw [decide_eq_true_eq]
      intro heq
      exact hunknown (List.mem_map.mpr ⟨point, hpoint, hid.trans heq⟩)
    have hempty := hstored.kept p
    rw [hnone] at hempty
    rw [(List.append_eq_nil_iff.mp hempty).2]

end ProbeLog

end Rl78Sim
