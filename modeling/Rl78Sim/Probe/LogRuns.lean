import Rl78Sim.Framework.Transition
import Rl78Sim.Probe.Log

/-! # The Calls on a Probe Log

    A node pushes samples, polls the coarse window and starts and stops it, in
    any order. The hash maps of the log have no order of their own, so an order
    comes with every call that goes through one of them.

    What a run has spilled is at the front of the file, and an export can be
    read at any later time.
-/

namespace Rl78Sim

open Transition ProbeRecord

/-- `COARSE_INTERVAL`, in ns. -/
def coarse_interval : Nat := 100000000

/-- The map is gone through in this order: each probe that it has, once. -/
structure Lists (order : List Nat) (has : Nat → Prop) : Prop where
  nodup : order.Nodup
  all : ∀ p, has p → p ∈ order

/-- The orders in which `emit_coarse` drains its maps. -/
structure DrainOrder where
  digital : List Nat
  analog : List Nat

/-- A call on the log, with the number of bytes that an append writes, and the
    wall clock in ns. -/
inductive LogCall where
  | push (record : ProbeRecord) (written : Nat)
  | poll_coarse (now : Nat) (order : DrainOrder)
  | set_running (running : Bool) (now : Nat) (order : DrainOrder)

/-- `ProbeLog` with `coarse_since`. -/
structure TimedLog where
  log : ProbeLog
  coarse_since : Nat

namespace ProbeLog

/-- `ProbeLog::emit_coarse`, over the maps. -/
def drain_coarse (order : DrainOrder) (log : ProbeLog) : ProbeLog × List ProbeRecord :=
  (log.clear_window,
    sort_by_key (order.digital.filterMap log.digital_last ++
      order.analog.filterMap log.analog_last ++ log.uart_window))

/-- `ProbeLog::export`, over the map of the queues. -/
def export_in (order : List Nat) (log : ProbeLog) : ProbeExport where
  truncated := log.truncated
  file_len := log.spill.length
  memory := order.flatMap log.memory

end ProbeLog

namespace TimedLog

/-- One call, with what it returns. -/
def call (s : TimedLog) : LogCall → TimedLog × List ProbeRecord
  | .push record written => ({ s with log := s.log.push written record }, [])
  | .poll_coarse now order =>
    if !s.log.running then (s, [])
    else if now - s.coarse_since < coarse_interval then (s, [])
    else
      let (log, records) := s.log.drain_coarse order
      (⟨log, now⟩, records)
  | .set_running running now order =>
    let (log, flushed) :=
      if s.log.running && !running then s.log.drain_coarse order else (s.log, [])
    let started := !s.log.running && running
    let log := if started then log.clear_window else log
    (⟨{ log with running := running }, if started then now else s.coarse_since⟩, flushed)

/-- Any log that has been opened, and any calls on it. -/
def calls : System TimedLog LogCall where
  init s := ∃ catalog cap, s.log = .with_cap catalog cap
  step s c := some (s.call c).1

/-! ### The maps in the order of the catalog -/

/-- The catalog as the order of all maps. -/
def catalog_order (log : ProbeLog) : DrainOrder :=
  ⟨log.catalog.map ProbePoint.probe_id, log.catalog.map ProbePoint.probe_id⟩

theorem drain_catalog (log : ProbeLog) :
    log.drain_coarse (catalog_order log) = log.emit_coarse := by
  unfold ProbeLog.drain_coarse ProbeLog.emit_coarse ProbeLog.window catalog_order
  rw [List.filterMap_map, List.filterMap_map]
  rfl

theorem export_catalog (log : ProbeLog) :
    log.export_in (log.catalog.map ProbePoint.probe_id) = log.export_ := by
  unfold ProbeLog.export_in ProbeLog.export_
  rw [List.flatMap_map]

theorem call_poll_coarse (s : TimedLog) (now : Nat) :
    let due := decide (coarse_interval ≤ now - s.coarse_since)
    (s.call (.poll_coarse now (catalog_order s.log))).1.log = (s.log.poll_coarse due).1 ∧
      (s.call (.poll_coarse now (catalog_order s.log))).2 = (s.log.poll_coarse due).2 := by
  unfold ProbeLog.poll_coarse
  simp only [call, drain_catalog]
  cases s.log.running with
  | false => simp
  | true =>
    by_cases hdue : coarse_interval ≤ now - s.coarse_since
    · simp [hdue, Nat.not_lt.mpr hdue]
    · simp [hdue, Nat.not_le.mp hdue]

theorem call_set_running (s : TimedLog) (running : Bool) (now : Nat) :
    (s.call (.set_running running now (catalog_order s.log))).1.log =
        (s.log.set_running running).1 ∧
      (s.call (.set_running running now (catalog_order s.log))).2 =
        (s.log.set_running running).2 := by
  unfold ProbeLog.set_running
  simp only [call, drain_catalog]
  cases hrunning : s.log.running <;> cases running <;> simp

/-! ### What a run stores -/

/-- What has been pushed, and what has been spilled of it. -/
structure StoreHistory where
  pushed : List ProbeRecord
  spilled : List ProbeRecord

/-- The record that a push moves to the file. -/
def moved (log : ProbeLog) (record : ProbeRecord) (written : Nat) : List ProbeRecord :=
  if !log.truncated && log.at_cap record.probe_id && decide (spill_rec ≤ written) then
    (log.memory record.probe_id).take 1
  else []

def note_store (s : TimedLog) (c : LogCall) (_ : TimedLog) (h : StoreHistory) : StoreHistory :=
  match c with
  | .push record written =>
    ⟨h.pushed ++ [record], h.spilled ++ moved s.log record written⟩
  | _ => h

/-- The calls, with what they store. -/
def store_calls : System (TimedLog × StoreHistory) LogCall :=
  calls.logged ⟨[], []⟩ note_store

/-- A call that is not a push stores nothing and forgets nothing. -/
theorem same_store_call (s : TimedLog) (c : LogCall)
    (hc : ∀ record written, c ≠ .push record written) :
    s.log.SameStore (s.call c).1.log := by
  have hsame : s.log.SameStore s.log := ⟨rfl, rfl, rfl, rfl, rfl, rfl, rfl⟩
  cases c with
  | push record written => exact absurd rfl (hc record written)
  | poll_coarse now order =>
    unfold call
    dsimp only
    split
    · exact hsame
    · split
      · exact hsame
      · exact ⟨rfl, rfl, rfl, rfl, rfl, rfl, rfl⟩
  | set_running running now order =>
    unfold call
    dsimp only
    split <;> split <;> exact ⟨rfl, rfl, rfl, rfl, rfl, rfl, rfl⟩

/-- The log accepts what is pushed for a probe until it has no room for it, and
    from then on nothing. -/
structure Accepts (log : ProbeLog) (pushed : List ProbeRecord) : Prop where
  accepted : ∀ p, of p log.history <+: of p pushed
  complete : ∀ p, log.truncated = false ∨ log.at_cap p = false →
    of p log.history = of p pushed

/-- What holds of the log after any calls. -/
structure Sound (log : ProbeLog) (h : StoreHistory) : Prop where
  stored : log.Stored h.spilled
  accepts : Accepts log h.pushed

theorem Accepts.same {log log' : ProbeLog} {pushed : List ProbeRecord} (h : Accepts log pushed)
    (hsame : log.SameStore log') : Accepts log' pushed := by
  have hcap (p : Nat) : log'.at_cap p = log.at_cap p := by
    unfold ProbeLog.at_cap
    rw [hsame.cap_eq, hsame.memory_eq]
  refine ⟨?_, ?_⟩
  · rw [hsame.history_eq]
    exact h.accepted
  · intro p hp
    rw [hsame.truncated_eq, hcap] at hp
    rw [hsame.history_eq]
    exact h.complete p hp

/-- A record that is accepted is the next one of its probe. -/
theorem Accepts.store {log : ProbeLog} {pushed : List ProbeRecord} (h : Accepts log pushed)
    {record : ProbeRecord}
    (hopen : log.truncated = false ∨ log.at_cap record.probe_id = false) :
    Accepts (log.store record) (pushed ++ [record]) := by
  have hself : of record.probe_id (log.history ++ [record]) =
      of record.probe_id (pushed ++ [record]) := by
    rw [of_append, of_append, h.complete _ hopen]
  have hother (p : Nat) (hp : record.probe_id ≠ p) (xs : List ProbeRecord) :
      of p (xs ++ [record]) = of p xs := by
    rw [ProbeLog.of_concat, if_neg hp, List.append_nil]
  refine ⟨?_, ?_⟩
  · intro p
    show of p (log.history ++ [record]) <+: _
    by_cases hp : record.probe_id = p
    · subst hp
      exact ⟨[], by rw [List.append_nil, hself]⟩
    · rw [hother p hp, hother p hp]
      exact h.accepted p
  · intro p hroom
    show of p (log.history ++ [record]) = _
    by_cases hp : record.probe_id = p
    · subst hp
      exact hself
    · -- The queues of the other probes are as they were.
      have hqueue : (log.store record).memory p = log.memory p :=
        Function.update_of_ne (Ne.symm hp) _ _
      rw [hother p hp, hother p hp]
      apply h.complete
      unfold ProbeLog.at_cap at hroom ⊢
      rw [hqueue] at hroom
      exact hroom

theorem Accepts.keep {log : ProbeLog} {pushed : List ProbeRecord} (h : Accepts log pushed)
    {record : ProbeRecord}
    (hopen : log.truncated = false ∨ log.at_cap record.probe_id = false) :
    Accepts (log.keep record) (pushed ++ [record]) :=
  (h.store hopen).same (ProbeLog.same_note_window _ record)

/-- A record that is refused: its probe has no room any more. -/
theorem Accepts.refuse {log log' : ProbeLog} {pushed : List ProbeRecord} {record : ProbeRecord}
    (h : Accepts log pushed) (hhistory : log'.history = log.history)
    (hgone : log'.truncated = true) (hfull : log'.at_cap record.probe_id = true)
    (hothers : ∀ p, log'.at_cap p = false → log.truncated = false ∨ log.at_cap p = false) :
    Accepts log' (pushed ++ [record]) := by
  -- The history stays, so it is still a prefix of what was pushed; and the
  -- probe of the record is no longer among those with room.
  refine ⟨?_, ?_⟩
  · intro p
    rw [hhistory, of_append]
    exact (h.accepted p).trans (List.prefix_append _ _)
  · intro p hroom
    rw [hgone] at hroom
    have hroom : log'.at_cap p = false := hroom.resolve_left nofun
    have hp : record.probe_id ≠ p := by
      rintro rfl
      rw [hfull] at hroom
      cases hroom
    rw [hhistory, ProbeLog.of_concat, if_neg hp, List.append_nil]
    exact h.complete p (hothers p hroom)

/-- One push: the record moves to the file if its append succeeds. -/
theorem Sound.push {log : ProbeLog} {h : StoreHistory} (hs : Sound log h) (record : ProbeRecord)
    (written : Nat) :
    Sound (log.push written record)
      ⟨h.pushed ++ [record], h.spilled ++ moved log record written⟩ := by
  -- A push keeps its record in memory, or refuses it; only the case `spilled`
  -- moves one to the file.
  have hcases := ProbeLog.push_cases hs.stored.cap_pos written record
  revert hcases
  generalize log.push written record = log'
  intro hcases
  cases hcases with
  | gone htruncated hfull =>
    have hmoved : moved log record written = [] := by simp [moved, htruncated]
    rw [hmoved, List.append_nil]
    exact ⟨hs.stored, hs.accepts.refuse rfl htruncated hfull fun _ hp => .inr hp⟩
  | spilled oldest queue htruncated hfull hqueue hwritten =>
    have hmoved : moved log record written = [oldest] := by
      simp [moved, htruncated, hfull, hwritten, hqueue]
    rw [hmoved]
    refine ⟨((hs.stored.spill htruncated hqueue).store record).same
      (ProbeLog.same_note_window _ record), Accepts.keep ?_ (.inl htruncated)⟩
    exact ⟨hs.accepts.accepted, fun p _ => hs.accepts.complete p (.inl htruncated)⟩
  | failed oldest queue htruncated hfull hqueue hwritten =>
    have hmoved : moved log record written = [] := by simp [moved, hwritten]
    rw [hmoved, List.append_nil]
    -- What is left of the append is the torn tail, and there is no other before
    -- it: the log was not truncated yet.
    exact ⟨hs.stored.spill_failed htruncated oldest hwritten,
      hs.accepts.refuse rfl rfl hfull fun _ _ => .inl htruncated⟩
  | room hroom =>
    have hmoved : moved log record written = [] := by simp [moved, hroom]
    rw [hmoved, List.append_nil]
    exact ⟨(hs.stored.store record).same (ProbeLog.same_note_window _ record),
      hs.accepts.keep (.inr hroom)⟩

theorem Sound.call {s : TimedLog} {h : StoreHistory} (hs : Sound s.log h) (c : LogCall) :
    Sound (s.call c).1.log (note_store s c (s.call c).1 h) := by
  have hquiet (hc : ∀ record written, c ≠ .push record written) : Sound (s.call c).1.log h := by
    have hsame := same_store_call s c hc
    exact ⟨hs.stored.same hsame, hs.accepts.same hsame⟩
  cases c with
  | push record written => exact hs.push record written
  | poll_coarse now order => exact hquiet nofun
  | set_running running now order => exact hquiet nofun

/-- After any calls. -/
theorem sound_of_reachable {ok : Guard (TimedLog × StoreHistory) LogCall}
    {s : TimedLog × StoreHistory} (h : Reachable store_calls ok s) : Sound s.1.log s.2 := by
  apply h.invariant
  · rintro s ⟨⟨catalog, cap, hlog⟩, hstart⟩
    rw [hlog, hstart]
    exact ⟨ProbeLog.stored_with_cap catalog cap, fun _ => List.nil_prefix, fun _ _ => rfl⟩
  · intro s c s' hs _ hstep
    obtain ⟨hcall, hnote⟩ := System.logged_step_cases hstep
    have hafter : (s.1.call c).1 = s'.1 := Option.some.inj hcall
    rw [hnote, ← hafter]
    exact hs.call c

/-! ### The file is append-only -/

theorem keep_spill (log : ProbeLog) (record : ProbeRecord) :
    (log.keep record).spill = log.spill :=
  (ProbeLog.same_note_window (log.store record) record).spill_eq

theorem keep_cap (log : ProbeLog) (record : ProbeRecord) : (log.keep record).cap = log.cap :=
  (ProbeLog.same_note_window (log.store record) record).cap_eq

theorem spill_call {s : TimedLog} (hcap : 0 < s.log.cap) (c : LogCall) :
    s.log.spill <+: (s.call c).1.log.spill ∧ (s.call c).1.log.cap = s.log.cap := by
  have hquiet (hc : ∀ record written, c ≠ .push record written) :
      s.log.spill <+: (s.call c).1.log.spill ∧ (s.call c).1.log.cap = s.log.cap := by
    have hsame := same_store_call s c hc
    exact ⟨⟨[], by rw [hsame.spill_eq, List.append_nil]⟩, hsame.cap_eq⟩
  cases c with
  | push record written =>
    have hcases := ProbeLog.push_cases hcap written record
    show s.log.spill <+: (s.log.push written record).spill ∧
      (s.log.push written record).cap = s.log.cap
    revert hcases
    generalize s.log.push written record = log'
    intro hcases
    cases hcases with
    | gone _ _ => exact ⟨List.prefix_refl _, rfl⟩
    | spilled oldest queue _ _ _ _ =>
      rw [keep_spill, keep_cap]
      exact ⟨List.prefix_append _ _, rfl⟩
    | failed oldest queue _ _ _ _ => exact ⟨List.prefix_append _ _, rfl⟩
    | room _ =>
      rw [keep_spill, keep_cap]
      exact ⟨List.prefix_refl _, rfl⟩
  | poll_coarse now order => exact hquiet nofun
  | set_running running now order => exact hquiet nofun

theorem spill_path {ok : Guard TimedLog LogCall} {s t : TimedLog} (h : Path calls ok s t)
    (hcap : 0 < s.log.cap) : s.log.spill <+: t.log.spill ∧ 0 < t.log.cap := by
  induction h with
  | refl => exact ⟨List.prefix_refl _, hcap⟩
  | @tail t u c _ _ hstep ih =>
    obtain ⟨hspill, hcap'⟩ := ih
    have hafter : (t.call c).1 = u := Option.some.inj hstep
    obtain ⟨hmore, hsame⟩ := spill_call hcap' c
    rw [hafter] at hmore hsame
    exact ⟨hspill.trans hmore, by rw [hsame]; exact hcap'⟩

/-- What is read of an export does not depend on what comes behind it. -/
theorem load_export_later {log later : ProbeLog} (hspill : log.spill <+: later.spill)
    (order : List Nat) :
    later.load_export (log.export_in order) = log.load_export (log.export_in order) := by
  obtain ⟨rest, hrest⟩ := hspill
  unfold ProbeLog.load_export ProbeLog.export_in read_spill
  dsimp only
  rw [← hrest, List.take_left, List.take_length]

/-! ### Exports -/

/-- An export has all of every probe that the log has accepted. -/
theorem Sound.of_export {log : ProbeLog} {h : StoreHistory} (hs : Sound log h) {order : List Nat}
    (horder : Lists order fun p => log.memory p ≠ []) (p : Nat) :
    of p (log.load_export (log.export_in order)) = of p log.history := by
  show of p (read_spill log.spill log.spill.length ++ order.flatMap log.memory) = _
  -- A probe that the order leaves out has nothing in memory.
  rw [hs.stored.read_spill, of_append, hs.stored.of_queues horder.nodup, ← hs.stored.kept]
  split
  · rfl
  · rename_i hnot
    have hempty : log.memory p = [] := by
      by_contra hne
      exact hnot (horder.all p hne)
    rw [hempty]

/-- An export that is taken after any calls, and read at any later time: its
    records of one probe are the first of those that were pushed, and all of
    them if the log is not truncated. The file gives back what was spilled, and
    not what is left of a failed append behind it. -/
theorem export_prefix {ok : Guard (TimedLog × StoreHistory) LogCall}
    {later : Guard TimedLog LogCall} {s : TimedLog × StoreHistory} {t : TimedLog}
    (h : Reachable store_calls ok s)
    {order : List Nat} (horder : Lists order fun p => s.1.log.memory p ≠ [])
    (hlater : Path calls later s.1 t) :
    let e := s.1.log.export_in order
    t.log.load_export e = s.1.log.load_export e ∧
      t.log.load_export e = s.2.spilled ++ e.memory ∧
      (∃ part, s.1.log.spill = s.2.spilled.flatMap encode ++ part ∧ part.length < spill_rec) ∧
      (∀ p, of p (t.log.load_export e) <+: of p s.2.pushed) ∧
      (e.truncated = false → ∀ p, of p (t.log.load_export e) = of p s.2.pushed) := by
  intro e
  have hs := sound_of_reachable h
  have hsame : t.log.load_export e = s.1.log.load_export e :=
    load_export_later (spill_path hlater hs.stored.cap_pos).1 order
  -- The file, the torn tail, and the two statements on one probe.
  refine ⟨hsame, ?_, ?_, ?_, ?_⟩
  · rw [hsame]
    show read_spill s.1.log.spill s.1.log.spill.length ++ e.memory = _
    rw [hs.stored.read_spill]
  · obtain ⟨part, hfile, hpart, -⟩ := hs.stored.file
    exact ⟨part, hfile, hpart⟩
  · intro p
    rw [hsame, hs.of_export horder]
    exact hs.accepts.accepted p
  · intro hwhole p
    rw [hsame, hs.of_export horder]
    exact hs.accepts.complete p (.inl hwhole)

/-- An order that has the probes of all records that were accepted. -/
theorem Sound.lists {log : ProbeLog} {h : StoreHistory} (hs : Sound log h) {order : List Nat}
    (hnodup : order.Nodup) (hall : ∀ r ∈ log.history, r.probe_id ∈ order) :
    Lists order fun p => log.memory p ≠ [] := by
  refine ⟨hnodup, ?_⟩
  intro p hp
  obtain ⟨r, hr⟩ := List.exists_mem_of_ne_nil _ hp
  have hmem : r ∈ of p log.history := by
    rw [← hs.stored.kept]
    exact List.mem_append_right _ hr
  obtain ⟨hmem, hid⟩ := List.mem_filter.mp hmem
  rw [← of_decide_eq_true hid]
  exact hall r hmem

/-- A level on a probe. -/
def level (probe_id virtual_time_ns : Nat) : ProbeRecord where
  probe_id := probe_id % 256 ^ 8
  virtual_time_ns := virtual_time_ns % 256 ^ 8
  kind := .Digital
  value := 1
  probe_lt := mod_lt_u64 _
  time_lt := mod_lt_u64 _
  value_lt := by decide

/-- Room for one record of each probe; the second append stops after 5 bytes. -/
def torn_calls : List LogCall :=
  [.push (level 1 10) 0, .push (level 1 20) 19, .push (level 1 30) 5, .push (level 2 40) 0]

theorem export_prefix_torn :
    ∃ (s : TimedLog × StoreHistory) (t : TimedLog), Reachable store_calls (fun _ _ => True) s ∧
      s.1.log.truncated = true ∧ s.1.log.spill.length = 19 + 5 ∧
      t.log.load_export (s.1.log.export_in [2, 1]) = [level 1 10, level 2 40, level 1 20] ∧
      of 1 (t.log.load_export (s.1.log.export_in [2, 1])) <+: of 1 s.2.pushed := by
  have hinit : store_calls.init (⟨.with_cap [] 1, 0⟩, ⟨[], []⟩) := ⟨⟨[], 1, rfl⟩, rfl⟩
  have hrun : ∃ s, Reachable store_calls (fun _ _ => True) s ∧
      (s.1.log.truncated = true ∧ s.1.log.spill.length = 19 + 5 ∧
        (∀ r ∈ s.1.log.history, r.probe_id ∈ [2, 1]) ∧ s.2.spilled = [level 1 10] ∧
        [2, 1].flatMap s.1.log.memory = [level 2 40, level 1 20]) :=
    Reachable.exists_of_exec torn_calls hinit (by decide +kernel)
  obtain ⟨s, hreach, hs⟩ := hrun
  obtain ⟨htruncated, hlen, hall, hspilled, hmemory⟩ := hs
  -- The export is read after one more push.
  have hlater : Path calls (fun _ _ => True) s.1 (s.1.call (.push (level 2 50) 0)).1 :=
    Path.single trivial rfl
  obtain ⟨-, hload, -, hprefix, -⟩ := export_prefix hreach
    ((sound_of_reachable hreach).lists (by decide) hall) hlater
  refine ⟨s, _, hreach, htruncated, hlen, ?_, hprefix 1⟩
  rw [hload, hspilled]
  show [level 1 10] ++ [2, 1].flatMap s.1.log.memory = _
  rw [hmemory]
  rfl

end TimedLog

end Rl78Sim
