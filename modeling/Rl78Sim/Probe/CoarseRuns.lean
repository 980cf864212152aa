import Rl78Sim.Probe.LogRuns
import Rl78Sim.Probe.Window

/-! # What the Coarse Stream Emits

    The records that are pushed while the log runs fall into windows: one opens
    when the log is started, and ends when it is stopped or when it is polled
    after the coarse interval; the next one then opens at once. A window gives
    out every word, and of the levels and voltages of a probe the last.
-/

namespace Rl78Sim

open Transition ProbeRecord

/-- The records of one probe that have one kind. -/
def of_kind (p : Nat) (k : ProbeKind) (records : List ProbeRecord) : List ProbeRecord :=
  (of p records).filter fun r => r.kind = k

/-- What a window gives out of the records of one probe and kind. -/
def kept_of (k : ProbeKind) (records : List ProbeRecord) : List ProbeRecord :=
  match k with
  | .Uart => records
  | .Digital => records.getLast?.toList
  | .Analog => records.getLast?.toList

/-- A window that has ended, with the batch that the call returned. -/
structure CoarseWindow where
  records : List ProbeRecord
  batch : List ProbeRecord

/-- The windows of a run, from the calls alone: whether the log runs, when the
    open window began, what has been pushed in it, the windows before it, and
    all that was pushed while the log ran. `stray` is what calls have returned
    that end no window. -/
structure CoarseHistory where
  running : Bool
  opened : Nat
  window : List ProbeRecord
  closed : List CoarseWindow
  recorded : List ProbeRecord
  stray : List ProbeRecord

namespace CoarseHistory

def start : CoarseHistory := ⟨false, 0, [], [], [], []⟩

/-- All batches, one behind the other. -/
def emitted (h : CoarseHistory) : List ProbeRecord := h.closed.flatMap CoarseWindow.batch

/-- The open window ends, and the call returns `batch`. -/
def close (h : CoarseHistory) (batch : List ProbeRecord) : CoarseHistory :=
  { h with closed := h.closed ++ [⟨h.window, batch⟩], window := [] }

/-- A call that returns `batch`. -/
def note (h : CoarseHistory) (batch : List ProbeRecord) : LogCall → CoarseHistory
  | .push record _ =>
    if h.running then
      { h with window := h.window ++ [record], recorded := h.recorded ++ [record] }
    else h
  | .poll_coarse now _ =>
    if h.running ∧ coarse_interval ≤ now - h.opened then { h.close batch with opened := now }
    else { h with stray := h.stray ++ batch }
  | .set_running running now _ =>
    if h.running ∧ !running then { h.close batch with running := false }
    else if !h.running ∧ running then
      { h with running := true, opened := now, stray := h.stray ++ batch }
    else { h with stray := h.stray ++ batch }

end CoarseHistory

namespace TimedLog

/-- A map is drained in an order of its own. -/
def Drains (s : TimedLog) : LogCall → Prop
  | .push _ _ => True
  | .poll_coarse _ order =>
    Lists order.digital (fun p => (s.log.digital_last p).isSome) ∧
      Lists order.analog fun p => (s.log.analog_last p).isSome
  | .set_running _ _ order =>
    Lists order.digital (fun p => (s.log.digital_last p).isSome) ∧
      Lists order.analog fun p => (s.log.analog_last p).isSome

/-- The calls, with the windows. -/
def coarse_calls : System (TimedLog × CoarseHistory) LogCall :=
  calls.logged .start fun s c _ h => h.note (s.call c).2 c

/-! ### One window -/

/-- The maps and the list of the log are those of the window. -/
structure Holds (log : ProbeLog) (window : List ProbeRecord) : Prop where
  digital : ∀ p, log.digital_last p = (of_kind p .Digital window).getLast?
  analog : ∀ p, log.analog_last p = (of_kind p .Analog window).getLast?
  uart : log.uart_window = window.filter fun r => r.kind = .Uart

theorem mem_of_kind {p : Nat} {k : ProbeKind} {r : ProbeRecord} {records : List ProbeRecord} :
    r ∈ of_kind p k records ↔ r ∈ records ∧ r.probe_id = p ∧ r.kind = k := by
  simp [of_kind, of, and_comm, and_assoc]

theorem of_kind_append (p : Nat) (k : ProbeKind) (xs ys : List ProbeRecord) :
    of_kind p k (xs ++ ys) = of_kind p k xs ++ of_kind p k ys := by
  simp [of_kind, of_append]

theorem of_kind_single (p : Nat) (k : ProbeKind) (r : ProbeRecord) :
    of_kind p k [r] = if r.probe_id = p ∧ r.kind = k then [r] else [] := by
  unfold of_kind of
  by_cases hp : r.probe_id = p
  · by_cases hk : r.kind = k <;> simp [hp, hk]
  · simp [hp]

theorem holds_nil {log : ProbeLog} (hdigital : log.digital_last = fun _ => none)
    (hanalog : log.analog_last = fun _ => none) (huart : log.uart_window = []) : Holds log [] :=
  ⟨fun p => by rw [hdigital]; rfl, fun p => by rw [hanalog]; rfl, by rw [huart]; rfl⟩

/-- A record that is kept while the log runs comes last in its place. -/
theorem Holds.keep {log : ProbeLog} {window : List ProbeRecord} (h : Holds log window)
    (hrunning : log.running = true) (r : ProbeRecord) : Holds (log.keep r) (window ++ [r]) := by
  obtain ⟨-, -, hdigital, hanalog, huart⟩ := ProbeLog.keep_window log r
  have hlast (k : ProbeKind) (last : Nat → Option ProbeRecord)
      (hlast : ∀ p, last p = (of_kind p k window).getLast?) (p : Nat) :
      (if log.running = true ∧ r.kind = k then Function.update last r.probe_id (some r) else last)
        p = (of_kind p k (window ++ [r])).getLast? := by
    rw [of_kind_append, of_kind_single]
    by_cases hk : r.kind = k
    · by_cases hp : r.probe_id = p
      · subst hp
        simp [hrunning, hk]
      · simp [hrunning, hk, hp, Function.update_of_ne (Ne.symm hp), hlast]
    · simp [hk, hlast]
  refine ⟨?_, ?_, ?_⟩
  · rw [hdigital]
    exact hlast .Digital _ h.digital
  · rw [hanalog]
    exact hlast .Analog _ h.analog
  · rw [huart, h.uart, List.filter_append]
    by_cases hk : r.kind = .Uart <;> simp [hrunning, hk]

/-- A map of the last records of one kind, drained. -/
theorem of_kind_filterMap {order : List Nat} {last : Nat → Option ProbeRecord} {k : ProbeKind}
    (horder : Lists order fun p => (last p).isSome)
    (hlast : ∀ p r, last p = some r → r.probe_id = p ∧ r.kind = k) (p : Nat) (k' : ProbeKind) :
    of_kind p k' (order.filterMap last) = if k' = k then (last p).toList else [] := by
  obtain ⟨hnodup, hall⟩ := horder
  have hmem : p ∉ order → last p = none := by
    intro hp
    by_contra hne
    exact hp (hall p (Option.isSome_iff_ne_none.mpr hne))
  have hdrain : of_kind p k' (order.filterMap last) =
      if k' = k ∧ p ∈ order then (last p).toList else [] := by
    -- The order names a probe at most once, so a map gives at most one record
    -- of it: by induction on the order.
    clear hall hmem
    induction order with
    | nil => simp [of_kind, of]
    | cons q order ih =>
      obtain ⟨hnot, hrest⟩ := List.nodup_cons.mp hnodup
      have ih := ih hrest
      cases hq : last q with
      | none =>
        rw [List.filterMap_cons_none hq, ih]
        by_cases hp : p = q
        · subst hp
          simp [hnot, hq]
        · simp [hp]
      | some r =>
        obtain ⟨hid, hkind⟩ := hlast q r hq
        rw [List.filterMap_cons_some hq, ← List.singleton_append, of_kind_append, of_kind_single,
          ih]
        by_cases hk : k' = k
        · subst hk
          by_cases hp : p = q
          · subst hp
            simp [hnot, hq, hid, hkind]
          · simp [hp, hid, Ne.symm hp]
        · simp [hk, hkind, Ne.symm hk]
  rw [hdrain]
  by_cases hp : p ∈ order
  · simp [hp]
  · simp [hp, hmem hp]

/-- The entries of a map of last records are of their probe and kind. -/
theorem last_of_kind {window : List ProbeRecord} {k : ProbeKind} {last : Nat → Option ProbeRecord}
    (h : ∀ p, last p = (of_kind p k window).getLast?) (p : Nat) (r : ProbeRecord)
    (hr : last p = some r) : r ∈ window ∧ r.probe_id = p ∧ r.kind = k := by
  rw [h] at hr
  exact mem_of_kind.mp (List.mem_of_getLast? hr)

/-- Records in the order of time, one kind of one probe. -/
theorem kind_key_le {p : Nat} {k : ProbeKind} {records : List ProbeRecord}
    (h : (of p records).Pairwise fun a b => a.virtual_time_ns ≤ b.virtual_time_ns) :
    (of_kind p k records).Pairwise key_le :=
  (pairwise_key_le h).sublist List.filter_sublist

theorem kept_of_sublist (k : ProbeKind) (records : List ProbeRecord) :
    (kept_of k records).Sublist records := by
  have hlast : records.getLast?.toList.Sublist records := by
    cases hr : records.getLast? with
    | none => exact List.nil_sublist _
    | some r => exact List.singleton_sublist.mpr (List.mem_of_getLast? hr)
  cases k with
  | Uart => exact List.Sublist.refl _
  | Digital => exact hlast
  | Analog => exact hlast

theorem of_kind_sort_by_key {p : Nat} {k : ProbeKind} {records : List ProbeRecord}
    (h : (of_kind p k records).Pairwise key_le) :
    of_kind p k (sort_by_key records) = of_kind p k records := by
  have hfilter (xs : List ProbeRecord) : of_kind p k xs =
      xs.filter fun r => decide (r.kind = k) && decide (r.probe_id = p) := List.filter_filter
  rw [hfilter] at h
  rw [hfilter, hfilter, filter_sort_by_key h]

section draining

variable {log : ProbeLog} {window : List ProbeRecord} {order : DrainOrder}

/-- What a window gives out, of one probe and kind. -/
theorem Holds.of_drain (h : Holds log window)
    (hdigital : Lists order.digital fun p => (log.digital_last p).isSome)
    (hanalog : Lists order.analog fun p => (log.analog_last p).isSome) {p : Nat}
    (htimes : (of p window).Pairwise fun a b => a.virtual_time_ns ≤ b.virtual_time_ns)
    (k : ProbeKind) :
    of_kind p k (log.drain_coarse order).2 = kept_of k (of_kind p k window) := by
  have hd := of_kind_filterMap hdigital
    (fun q r hr => (last_of_kind h.digital q r hr).2) p k
  have ha := of_kind_filterMap hanalog
    (fun q r hr => (last_of_kind h.analog q r hr).2) p k
  have hu : of_kind p k log.uart_window = if k = .Uart then of_kind p k window else [] := by
    rw [h.uart]
    -- The words of the window are its records of that kind, all of them.
    unfold of_kind of
    by_cases hk : k = .Uart
    · subst hk
      rw [if_pos rfl, List.filter_filter, List.filter_filter, List.filter_filter]
      apply List.filter_congr
      intro r _
      cases decide (r.kind = .Uart) <;> simp
    · rw [if_neg hk, List.filter_filter, List.filter_filter]
      apply List.filter_eq_nil_iff.mpr
      intro r _
      by_cases hr : r.kind = .Uart
      · simp [hr, Ne.symm hk]
      · simp [hr]
  have hall : of_kind p k (order.digital.filterMap log.digital_last ++
      order.analog.filterMap log.analog_last ++ log.uart_window) =
      kept_of k (of_kind p k window) := by
    rw [of_kind_append, of_kind_append, hd, ha, hu, h.digital, h.analog]
    cases k <;> simp [kept_of]
  -- What is kept of one kind is in order of time, so the sort leaves it alone.
  have hsorted : (kept_of k (of_kind p k window)).Pairwise key_le :=
    (kind_key_le htimes).sublist (kept_of_sublist k _)
  rw [← hall] at hsorted ⊢
  exact of_kind_sort_by_key hsorted

/-- A window gives out nothing else. -/
theorem Holds.mem_drain (h : Holds log window) {r : ProbeRecord}
    (hr : r ∈ (log.drain_coarse order).2) : r ∈ window := by
  rcases List.mem_append.mp ((List.mem_insertionSort _).mp hr) with hr | hr
  · rcases List.mem_append.mp hr with hr | hr
    · obtain ⟨p, -, hlast⟩ := List.mem_filterMap.mp hr
      exact (last_of_kind h.digital p r hlast).1
    · obtain ⟨p, -, hlast⟩ := List.mem_filterMap.mp hr
      exact (last_of_kind h.analog p r hlast).1
  · rw [h.uart] at hr
    exact (List.mem_filter.mp hr).1

end draining

/-! ### Runs -/

/-- The batch of a window that has ended is what the log had of it. -/
def Given (w : CoarseWindow) : Prop :=
  ∃ log order, Holds log w.records ∧
    Lists order.digital (fun p => (log.digital_last p).isSome) ∧
    Lists order.analog (fun p => (log.analog_last p).isSome) ∧
    w.batch = (log.drain_coarse order).2

/-- What holds after any calls, as long as no record has been refused. -/
structure Streams (s : TimedLog) (h : CoarseHistory) : Prop where
  running : h.running = s.log.running
  opened : h.running = true → h.opened = s.coarse_since
  holds : Holds s.log h.window
  stopped : h.running = false → h.window = []
  given : ∀ w ∈ h.closed, Given w
  recorded : h.closed.flatMap CoarseWindow.records ++ h.window = h.recorded
  stray : h.stray = []

theorem keep_running (log : ProbeLog) (r : ProbeRecord) : (log.keep r).running = log.running := by
  unfold ProbeLog.keep ProbeLog.note_window
  split
  · split <;> rfl
  · rfl

/-- A record that is kept while the log is stopped is in no window. -/
theorem Holds.keep_stopped {log : ProbeLog} {window : List ProbeRecord} (h : Holds log window)
    (hrunning : log.running = false) (r : ProbeRecord) : Holds (log.keep r) window := by
  obtain ⟨-, -, hdigital, hanalog, huart⟩ := ProbeLog.keep_window log r
  rw [hrunning] at hdigital hanalog huart
  refine ⟨?_, ?_, ?_⟩
  · rw [hdigital]
    simpa using h.digital
  · rw [hanalog]
    simpa using h.analog
  · rw [huart]
    simpa using h.uart

theorem Holds.same {log log' : ProbeLog} {window : List ProbeRecord} (h : Holds log window)
    (hsame : ProbeLog.SameCoarse log log') : Holds log' window :=
  ⟨hsame.digital_eq ▸ h.digital, hsame.analog_eq ▸ h.analog, hsame.uart_eq.trans h.uart⟩

/-- A push after which the log is not truncated has kept its record. -/
theorem push_whole {log : ProbeLog} (hcap : 0 < log.cap) {written : Nat} {record : ProbeRecord}
    (hwhole : (log.push written record).truncated = false) :
    log.truncated = false ∧ ∃ log₁ : ProbeLog, log.push written record = log₁.keep record ∧
      ProbeLog.SameCoarse log log₁ ∧ log₁.running = log.running := by
  have hcases := ProbeLog.push_cases hcap written record
  revert hcases hwhole
  generalize log.push written record = log'
  intro hwhole hcases
  cases hcases with
  | gone htruncated _ =>
    rw [htruncated] at hwhole
    cases hwhole
  | spilled oldest queue htruncated _ _ _ =>
    exact ⟨htruncated, _, rfl, ⟨rfl, rfl, rfl⟩, rfl⟩
  | failed oldest queue _ _ _ _ => cases hwhole
  | room _ =>
    have hsame := ProbeLog.same_note_window (log.store record) record
    exact ⟨hsame.truncated_eq.symm.trans hwhole, log, rfl, ⟨rfl, rfl, rfl⟩, rfl⟩

theorem Streams.push {s : TimedLog} {h : CoarseHistory} (hs : Streams s h)
    (hcap : 0 < s.log.cap) (record : ProbeRecord) (written : Nat)
    (hwhole : (s.log.push written record).truncated = false) :
    Streams (s.call (.push record written)).1 (h.note [] (.push record written)) := by
  obtain ⟨-, log₁, hpush, hsame, hrunning⟩ := push_whole hcap hwhole
  have hafter : (s.call (.push record written)).1 = ⟨log₁.keep record, s.coarse_since⟩ := by
    show (⟨s.log.push written record, s.coarse_since⟩ : TimedLog) = _
    rw [hpush]
  have hholds := hs.holds.same hsame
  have hrun : h.running = (log₁.keep record).running := by
    rw [keep_running, hrunning, hs.running]
  rw [hafter]
  unfold CoarseHistory.note
  dsimp only
  by_cases hh : h.running = true
  -- A running log has an open window, and the record is in it.
  · have hlog : log₁.running = true := by rw [hrunning, ← hs.running, hh]
    rw [if_pos hh]
    refine ⟨hrun, hs.opened, hholds.keep hlog record, ?_, hs.given, ?_, hs.stray⟩
    · intro hstop
      rw [show h.running = false from hstop] at hh
      cases hh
    · show h.closed.flatMap CoarseWindow.records ++ (h.window ++ [record]) = h.recorded ++ [record]
      rw [← List.append_assoc, hs.recorded]
  -- A log that is stopped has none.
  · have hlog : log₁.running = false := by
      rw [hrunning, ← hs.running]
      simpa using hh
    rw [if_neg hh]
    exact ⟨hrun, hs.opened, hholds.keep_stopped hlog record, hs.stopped, hs.given, hs.recorded,
      hs.stray⟩

/-- The open window ends, and the log is drained. -/
theorem Streams.close {s : TimedLog} {h : CoarseHistory} (hs : Streams s h) {order : DrainOrder}
    (hdigital : Lists order.digital fun p => (s.log.digital_last p).isSome)
    (hanalog : Lists order.analog fun p => (s.log.analog_last p).isSome) {running : Bool}
    {opened since : Nat} (hopened : running = true → opened = since) :
    Streams ⟨{ s.log.clear_window with running := running }, since⟩
      { h.close (s.log.drain_coarse order).2 with running := running, opened := opened } := by
  refine ⟨rfl, hopened, holds_nil rfl rfl rfl, fun _ => rfl, ?_, ?_, hs.stray⟩
  · intro w hw
    rcases List.mem_append.mp hw with hold | hnew
    · exact hs.given w hold
    · rw [List.mem_singleton.mp hnew]
      exact ⟨s.log, order, hs.holds, hdigital, hanalog, rfl⟩
  · show (h.closed ++ [(⟨h.window, _⟩ : CoarseWindow)]).flatMap CoarseWindow.records ++ [] = _
    rw [List.append_nil, List.flatMap_append, List.flatMap_singleton]
    exact hs.recorded

/-- A call that ends no window and returns nothing. -/
theorem Streams.idle {s : TimedLog} {h : CoarseHistory} (hs : Streams s h) :
    Streams s { h with stray := h.stray ++ [] } := by
  rw [List.append_nil]
  exact hs

theorem Streams.poll_coarse {s : TimedLog} {h : CoarseHistory} (hs : Streams s h) (now : Nat)
    (order : DrainOrder) (hdrains : s.Drains (.poll_coarse now order)) :
    Streams (s.call (.poll_coarse now order)).1
      (h.note (s.call (.poll_coarse now order)).2 (.poll_coarse now order)) := by
  by_cases hends : h.running = true ∧ coarse_interval ≤ now - h.opened
  · obtain ⟨hh, hdue⟩ := hends
    have hrunning : s.log.running = true := hs.running.symm.trans hh
    have hcall : s.call (.poll_coarse now order) =
        (⟨(s.log.drain_coarse order).1, now⟩, (s.log.drain_coarse order).2) := by
      have hlate : ¬ now - s.coarse_since < coarse_interval := by
        rw [← hs.opened hh]
        omega
      simp [call, hrunning, hlate]
    -- The window ends, and the next one begins now.
    have hlog : ({ s.log.clear_window with running := h.running } : ProbeLog) =
        s.log.clear_window := by
      rw [hs.running]
      rfl
    have hclose := hs.close hdrains.1 hdrains.2 (fun _ : h.running = true => Eq.refl now)
    rw [hlog] at hclose
    rw [hcall]
    unfold CoarseHistory.note
    dsimp only
    rw [if_pos ⟨hh, hdue⟩]
    exact hclose
  -- The log is stopped, or its window is not over.
  · have hcall : s.call (.poll_coarse now order) = (s, []) := by
      cases hrunning : s.log.running with
      | false => simp [call, hrunning]
      | true =>
        have hh : h.running = true := hs.running.trans hrunning
        have hearly : now - s.coarse_since < coarse_interval := by
          rw [← hs.opened hh]
          have hnot : ¬ coarse_interval ≤ now - h.opened := fun hle => hends ⟨hh, hle⟩
          omega
        simp [call, hrunning, hearly]
    rw [hcall]
    unfold CoarseHistory.note
    dsimp only
    rw [if_neg hends]
    exact hs.idle

theorem Streams.set_running {s : TimedLog} {h : CoarseHistory} (hs : Streams s h) (running : Bool)
    (now : Nat) (order : DrainOrder) (hdrains : s.Drains (.set_running running now order)) :
    Streams (s.call (.set_running running now order)).1
      (h.note (s.call (.set_running running now order)).2 (.set_running running now order)) := by
  have hrunning := hs.running
  -- Only a change of `running` ends a window or begins one.
  cases hh : h.running with
  | true =>
    rw [hh] at hrunning
    cases running with
    | false =>
      have hcall : s.call (.set_running false now order) =
          (⟨{ s.log.clear_window with running := false }, s.coarse_since⟩,
            (s.log.drain_coarse order).2) := by
        simp [call, ← hrunning, ProbeLog.drain_coarse]
      have hnote (batch : List ProbeRecord) : h.note batch (.set_running false now order) =
          { h.close batch with running := false } := by
        simp [CoarseHistory.note, hh]
      rw [hcall, hnote]
      exact hs.close hdrains.1 hdrains.2 (by simp)
    | true =>
      have hcall : s.call (.set_running true now order) = (s, []) := by
        have hsame : ({ s.log with running := true } : ProbeLog) = s.log := by rw [hrunning]
        simp [call, ← hrunning, hsame]
      have hnote (batch : List ProbeRecord) : h.note batch (.set_running true now order) =
          { h with stray := h.stray ++ batch } := by
        simp [CoarseHistory.note, hh]
      rw [hcall, hnote]
      exact hs.idle
  | false =>
    rw [hh] at hrunning
    cases running with
    | false =>
      have hcall : s.call (.set_running false now order) = (s, []) := by
        have hsame : ({ s.log with running := false } : ProbeLog) = s.log := by rw [hrunning]
        simp [call, ← hrunning, hsame]
      have hnote (batch : List ProbeRecord) : h.note batch (.set_running false now order) =
          { h with stray := h.stray ++ batch } := by
        simp [CoarseHistory.note, hh]
      rw [hcall, hnote]
      exact hs.idle
    | true =>
      have hcall : s.call (.set_running true now order) =
          (⟨{ s.log.clear_window with running := true }, now⟩, []) := by
        simp [call, ← hrunning]
      have hnote (batch : List ProbeRecord) : h.note batch (.set_running true now order) =
          { h with running := true, opened := now, stray := h.stray ++ batch } := by
        simp [CoarseHistory.note, hh]
      have hempty : h.window = [] := hs.stopped hh
      rw [hcall, hnote, List.append_nil]
      refine ⟨rfl, fun _ => rfl, ?_, by simp, hs.given, hs.recorded, hs.stray⟩
      show Holds _ h.window
      rw [hempty]
      exact holds_nil rfl rfl rfl

/-- After any calls that refuse no record. -/
theorem streams_of_reachable {s : TimedLog × CoarseHistory}
    (h : Reachable coarse_calls (fun s c => s.1.Drains c) s) :
    0 < s.1.log.cap ∧ (s.1.log.truncated = false → Streams s.1 s.2) := by
  apply h.invariant
  · rintro s ⟨⟨catalog, cap, hlog⟩, hstart⟩
    rw [hlog, hstart]
    refine ⟨(ProbeLog.stored_with_cap catalog cap).cap_pos, fun _ => ?_⟩
    have hholds : Holds s.1.log [] := by
      rw [hlog]
      exact holds_nil rfl rfl rfl
    refine ⟨?_, nofun, hholds, fun _ => rfl, nofun, rfl, rfl⟩
    rw [hlog]
    rfl
  -- A log that is not truncated was not truncated before the call.
  · rintro s c s' ⟨hcap, hs⟩ hdrains hstep
    obtain ⟨hcall, hnote⟩ := System.logged_step_cases hstep
    have hafter : (s.1.call c).1 = s'.1 := Option.some.inj hcall
    rw [hnote, ← hafter]
    refine ⟨by rw [(spill_call hcap c).2]; exact hcap, ?_⟩
    intro hwhole
    cases c with
    | push record written =>
      exact (hs (push_whole hcap hwhole).1).push hcap record written hwhole
    | poll_coarse now order =>
      have hsame := same_store_call s.1 (.poll_coarse now order) nofun
      exact (hs (hsame.truncated_eq.symm.trans hwhole)).poll_coarse now order hdrains
    | set_running running now order =>
      have hsame := same_store_call s.1 (.set_running running now order) nofun
      exact (hs (hsame.truncated_eq.symm.trans hwhole)).set_running running now order hdrains

/-! ### Conservation -/

section windows

variable {windows : List CoarseWindow} {p : Nat}

/-- Each window gives out its own records in order, so the windows together give
    out theirs in order. -/
theorem times_of_windows
    (htimes : (of p (windows.flatMap CoarseWindow.records)).Pairwise
      fun a b => a.virtual_time_ns ≤ b.virtual_time_ns)
    (hbatch : ∀ w ∈ windows,
      w.batch.Pairwise (fun a b => a.virtual_time_ns ≤ b.virtual_time_ns) ∧
        ∀ r ∈ w.batch, r ∈ w.records) :
    (of p (windows.flatMap CoarseWindow.batch)).Pairwise
      fun a b => a.virtual_time_ns ≤ b.virtual_time_ns := by
  induction windows with
  | nil => exact List.Pairwise.nil
  | cons w windows ih =>
    rw [List.flatMap_cons, of_append, List.pairwise_append] at htimes ⊢
    -- A record of an earlier window is not later than one of a later window,
    -- and a batch has records of its own window only.
    obtain ⟨-, hrest, hcross⟩ := htimes
    obtain ⟨hsorted, hown⟩ := hbatch w List.mem_cons_self
    have hlater := fun v hv => hbatch v (List.mem_cons_of_mem _ hv)
    refine ⟨hsorted.sublist List.filter_sublist, ih hrest hlater, ?_⟩
    intro a ha b hb
    obtain ⟨ha, hpa⟩ := ProbeLog.mem_of.mp ha
    obtain ⟨hb, hpb⟩ := ProbeLog.mem_of.mp hb
    obtain ⟨v, hv, hbv⟩ := List.mem_flatMap.mp hb
    have hb' : b ∈ windows.flatMap CoarseWindow.records :=
      List.mem_flatMap.mpr ⟨v, hv, (hlater v hv).2 b hbv⟩
    exact hcross a (ProbeLog.mem_of.mpr ⟨hown a ha, hpa⟩) b (ProbeLog.mem_of.mpr ⟨hb', hpb⟩)

/-- All words of a probe come out of the windows. -/
theorem words_of_windows
    (hbatch : ∀ w ∈ windows, of_kind p .Uart w.batch = of_kind p .Uart w.records) :
    of_kind p .Uart (windows.flatMap CoarseWindow.batch) =
      of_kind p .Uart (windows.flatMap CoarseWindow.records) := by
  induction windows with
  | nil => rfl
  | cons w windows ih =>
    rw [List.flatMap_cons, List.flatMap_cons, of_kind_append, of_kind_append,
      hbatch w List.mem_cons_self, ih fun v hv => hbatch v (List.mem_cons_of_mem _ hv)]

end windows

theorem Given.sorted {w : CoarseWindow} (h : Given w) :
    w.batch.Pairwise fun a b => a.virtual_time_ns ≤ b.virtual_time_ns := by
  obtain ⟨log, order, -, -, -, hbatch⟩ := h
  rw [hbatch]
  exact sort_by_key_times _

theorem Given.mem {w : CoarseWindow} (h : Given w) {r : ProbeRecord} (hr : r ∈ w.batch) :
    r ∈ w.records := by
  obtain ⟨log, order, hholds, -, -, hbatch⟩ := h
  rw [hbatch] at hr
  exact hholds.mem_drain hr

/-- On a log that refuses no record, the records pushed while it runs are those
    of the windows. A window gives out all words and the last level and voltage
    of each probe, in the order of time from one window to the next. Nothing
    else is ever returned; a log that is stopped has no open window. -/
theorem coarse_conserves {s : TimedLog × CoarseHistory}
    (h : Reachable coarse_calls (fun s c => s.1.Drains c) s) (hwhole : s.1.log.truncated = false)
    (htimes : ∀ p, (of p s.2.recorded).Pairwise fun a b => a.virtual_time_ns ≤ b.virtual_time_ns) :
    s.2.closed.flatMap CoarseWindow.records ++ s.2.window = s.2.recorded ∧
      (∀ w ∈ s.2.closed, ∀ p k, of_kind p k w.batch = kept_of k (of_kind p k w.records)) ∧
      (∀ p, of_kind p .Uart (s.2.emitted ++ s.2.window) = of_kind p .Uart s.2.recorded) ∧
      (∀ p, (of p s.2.emitted).Pairwise fun a b => a.virtual_time_ns ≤ b.virtual_time_ns) ∧
      s.2.stray = [] ∧ (s.1.log.running = false → s.2.window = []) := by
  have hs := (streams_of_reachable h).2 hwhole
  have hclosed (p : Nat) : (of p (s.2.closed.flatMap CoarseWindow.records)).Pairwise
      fun a b => a.virtual_time_ns ≤ b.virtual_time_ns := by
    have hp := htimes p
    rw [← hs.recorded, of_append] at hp
    exact (List.pairwise_append.mp hp).1
  have hkept (w : CoarseWindow) (hw : w ∈ s.2.closed) (p : Nat) (k : ProbeKind) :
      of_kind p k w.batch = kept_of k (of_kind p k w.records) := by
    obtain ⟨log, order, hholds, hdigital, hanalog, hbatch⟩ := hs.given w hw
    rw [hbatch]
    have hpart : w.records.Sublist (s.2.closed.flatMap CoarseWindow.records) := by
      rw [List.flatMap_def]
      exact List.sublist_flatten_of_mem (List.mem_map_of_mem hw)
    exact hholds.of_drain hdigital hanalog ((hclosed p).sublist (of_sublist p hpart)) k
  -- The words, the order of time, and the log that is stopped.
  refine ⟨hs.recorded, hkept, ?_, ?_, hs.stray, ?_⟩
  · intro p
    rw [← hs.recorded, of_kind_append, of_kind_append]
    congr 1
    exact words_of_windows fun w hw => hkept w hw p .Uart
  · intro p
    apply times_of_windows (hclosed p)
    intro w hw
    exact ⟨(hs.given w hw).sorted, fun r hr => (hs.given w hw).mem hr⟩
  · intro hstop
    exact hs.stopped (hs.running.trans hstop)

/-- Orders that have the probes of the open window. -/
theorem Streams.drains {s : TimedLog} {h : CoarseHistory} (hs : Streams s h) {order : DrainOrder}
    (hdigital : order.digital.Nodup ∧ ∀ r ∈ h.window, r.probe_id ∈ order.digital)
    (hanalog : order.analog.Nodup ∧ ∀ r ∈ h.window, r.probe_id ∈ order.analog) (now : Nat) :
    s.Drains (.poll_coarse now order) := by
  have hlists (last : Nat → Option ProbeRecord) (k : ProbeKind) (order : List Nat)
      (hlast : ∀ p, last p = (of_kind p k h.window).getLast?)
      (horder : order.Nodup ∧ ∀ r ∈ h.window, r.probe_id ∈ order) :
      Lists order fun p => (last p).isSome := by
    refine ⟨horder.1, ?_⟩
    intro p hp
    obtain ⟨r, hr⟩ := Option.isSome_iff_exists.mp hp
    obtain ⟨hmem, hid, -⟩ := last_of_kind hlast p r hr
    rw [← hid]
    exact horder.2 r hmem
  exact ⟨hlists _ .Digital _ hs.holds.digital hdigital, hlists _ .Analog _ hs.holds.analog hanalog⟩

/-- A word on a probe. -/
def word (probe_id virtual_time_ns value : Nat) : ProbeRecord :=
  { level probe_id virtual_time_ns with
    kind := .Uart
    value := value % 256 ^ 2
    value_lt := mod_lt_u16 _ }

/-- The log is started, records two levels and two words, and is polled. -/
theorem coarse_conserves_window : ∃ s : TimedLog × CoarseHistory,
    Reachable coarse_calls (fun s c => s.1.Drains c) s ∧
      s.2.closed.map CoarseWindow.batch = [[word 2 15 65, word 2 16 511, level 1 20]] ∧
      of_kind 2 .Uart (s.2.emitted ++ s.2.window) = [word 2 15 65, word 2 16 511] ∧
      s.2.stray = [] := by
  let next (s : TimedLog × CoarseHistory) (c : LogCall) : TimedLog × CoarseHistory :=
    ((s.1.call c).1, s.2.note (s.1.call c).2 c)
  let opened : TimedLog × CoarseHistory := (⟨.with_cap [] 8, 0⟩, .start)
  let begun := next opened (.set_running true 5 ⟨[], []⟩)
  let filled := [level 1 10, word 2 15 65, word 2 16 511, level 1 20].foldl
    (fun s r => next s (.push r 0)) begun
  have hbegun : Reachable coarse_calls (fun s c => s.1.Drains c) begun := by
    refine .step (.set_running true 5 ⟨[], []⟩) (.init (s := opened) ⟨⟨[], 8, rfl⟩, rfl⟩) ?_ rfl
    exact ⟨⟨List.nodup_nil, nofun⟩, ⟨List.nodup_nil, nofun⟩⟩
  have hfilled : Reachable coarse_calls (fun s c => s.1.Drains c) filled :=
    .step (.push (level 1 20) 0) (.step (.push (word 2 16 511) 0)
      (.step (.push (word 2 15 65) 0) (.step (.push (level 1 10) 0) hbegun trivial rfl)
        trivial rfl) trivial rfl) trivial rfl
  have hs := (streams_of_reachable hfilled).2 (by decide +kernel)
  have hpolled : Reachable coarse_calls (fun s c => s.1.Drains c)
      (next filled (.poll_coarse 100000005 ⟨[2, 1], [1, 2]⟩)) :=
    .step _ hfilled (hs.drains (by decide +kernel) (by decide +kernel) _) rfl
  have htimes : (next filled (.poll_coarse 100000005 ⟨[2, 1], [1, 2]⟩)).2.recorded.Pairwise
      fun a b => a.virtual_time_ns ≤ b.virtual_time_ns := by decide +kernel
  obtain ⟨-, -, hwords, -, hstray, -⟩ := coarse_conserves hpolled (by decide +kernel)
    fun p => htimes.sublist List.filter_sublist
  refine ⟨_, hpolled, by decide +kernel, ?_, hstray⟩
  rw [hwords]
  decide +kernel

end TimedLog

end Rl78Sim
