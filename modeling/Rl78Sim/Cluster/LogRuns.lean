import Rl78Sim.Cluster.LogDelivery
import Rl78Sim.Framework.Cursor

/-! # Runs of the Log

    A run remembers what every process has logged and what the server has
    stored. The lines of a process reach the server, and every page, in the
    order in which they were logged, each at most once.
-/

namespace Rl78Sim

open Transition Relay

variable {cap : Nat} {cfg : LogConfig}

/-- The events that a stream has yielded or is about to. -/
def LogStream.events (stream : LogStream) : List StoredLog :=
  stream.sent ++ stream.pending.reverse

/-- The steps of the processes that log. -/
def LogStep.of_process : LogStep → Bool
  | begin_poll | try_recv | inbox_fails | try_wait _ | connect _ | poll _ | yield _ => false
  | _ => true

/-! ### The history of a run -/

/-- What has been logged, what has been stored, the number at which a page has
    joined, and what was within reach of the forwarder when the arbiter shut its
    log down. -/
structure LogHistory where
  logged : LogSource → List (String × String)
  stored : List StoredLog
  joined : Nat → Nat
  due : Option (LogSource → List (String × String))

namespace LogHistory

/-- Nothing has happened. -/
def new : LogHistory := ⟨fun _ => [], [], fun _ => 0, none⟩

/-- The stored lines of a process. -/
def delivered (h : LogHistory) (source : LogSource) : List (String × String) :=
  (h.stored.filter (StoredLog.is_of source)).map StoredLog.entry

/-- The lines of a process that the forwarder has taken. -/
def passed (h : LogHistory) (s : LogNet cap) (source : LogSource) : List (String × String) :=
  h.delivered source ++ (s.under_way source).map ClusterLog.entry

/-- The lines of a process that are within reach of the forwarder. -/
def published (h : LogHistory) (s : LogNet cap) (source : LogSource) : List (String × String) :=
  h.passed s source ++ (s.ready source).map ClusterLog.entry

/-- All lines of a process that are not lost. -/
def line (h : LogHistory) (s : LogNet cap) (source : LogSource) : List (String × String) :=
  h.delivered source ++ (s.rest source).map ClusterLog.entry

/-- What a shutdown of the arbiter has to publish: what the arbiter has logged,
    and what the nodes have published by then. -/
def owed (h : LogHistory) (s : LogNet cap) : LogSource → List (String × String)
  | .arbiter => h.logged .arbiter
  | .node board_hash => h.published s (.node board_hash)

/-- One more step. -/
def record (s : LogNet cap) (l : LogStep) (_ : LogNet cap) (h : LogHistory) : LogHistory where
  logged source := h.logged source ++ (s.logs source l).map ClusterLog.entry
  stored := h.stored ++ s.stores l
  joined :=
    match l with
    | .connect page => Function.update h.joined page s.server.log_high_water
    | _ => h.joined
  due :=
    match l with
    | .shutdown .arbiter => some (h.due.getD (h.owed s))
    | _ => h.due

end LogHistory

/-- All runs, with their histories. -/
def log_runs (cap : Nat) (cfg : LogConfig) : System (LogNet cap × LogHistory) LogStep :=
  (log_net cap cfg).logged .new LogHistory.record

namespace LogNet

variable {s s' : LogNet cap × LogHistory} {l : LogStep} {source : LogSource} {page : Nat}
  {stream : LogStream} {new : List StoredLog}

/-! ### Order -/

theorem owned_of_reachable {ok : Guard (LogNet cap × LogHistory) LogStep}
    (h : Reachable (log_runs cap cfg) ok s) : Owned cfg s.1 := by
  have hreach : Reachable (log_net cap cfg) (fun _ _ => True) s.1 := h.unlogged fun _ _ _ => trivial
  refine hreach.invariant ?_ owned_inductive
  rintro _ rfl
  exact {
    queue := fun source => by cases source <;> rfl
    records := fun source => by cases source <;> exact List.forall_mem_nil _
    hand := fun source => by cases source <;> exact List.forall_mem_nil _
    n2a := fun _ => List.forall_mem_nil _
    nodes := fun _ h => absurd rfl h
    a2s := List.forall_mem_nil _
    boards := rfl }

/-- One step, with the history. -/
theorem runs_passes (hown : Owned cfg s.1) (hstep : (log_runs cap cfg).step s l = some s') :
    Passed (s.1.NoLoss l) (s.2.logged source) (s.2.line s.1 source) (s'.2.logged source)
      (s'.2.line s'.1 source) := by
  obtain ⟨hact, hlog⟩ := System.logged_step_cases hstep
  have hstep : StepPasses s.1 l s'.1 source (s.2.logged source) := step_passes hown hact
  have hpass := hstep.after (s.2.delivered source)
  have hline : s'.2.line s'.1 source = s.2.delivered source ++
      (((s.1.stores l).filter (StoredLog.is_of source)).map StoredLog.entry ++
        (s'.1.rest source).map ClusterLog.entry) := by
    rw [hlog]
    unfold LogHistory.line LogHistory.delivered LogHistory.record
    rw [List.filter_append, List.map_append, List.append_assoc]
  rw [hline, hlog]
  exact hpass

theorem line_of_init (h : (log_runs cap cfg).init s) : s.2.line s.1 source = [] := by
  obtain ⟨hinit, hhist⟩ := h
  rw [hinit, hhist]
  cases source <;> rfl

/-! ### Numbers -/

/-- The server has numbered what it has stored, and keeps the newest lines. -/
structure Numbered (s : LogNet cap × LogHistory) : Prop where
  next_seq : s.1.server.next_seq = min (s.2.stored.length + 1) u64_max
  seqs : s.2.stored.map StoredLog.seq =
    (List.range s.2.stored.length).map fun i => min (i + 1) u64_max
  logs : s.1.server.logs = Ring.push_all log_cap [] s.2.stored

/-- The steps of the processes leave the server and the pages alone. -/
theorem process_frame {s s' : LogNet cap} (hl : l.of_process = true)
    (hstep : s.step cfg l = some s') :
    s'.server = s.server ∧ s'.stream = s.stream ∧ s.stores l = [] := by
  cases l with
  | log source level text =>
    simp only [step, Option.ite_none_right_eq_some, Option.map_eq_some_iff] at hstep
    obtain ⟨-, queue, -, rfl⟩ := hstep
    exact ⟨rfl, rfl, rfl⟩
  | shutdown source =>
    simp only [step, Option.ite_none_right_eq_some, Option.some.injEq] at hstep
    obtain ⟨-, rfl⟩ := hstep
    exact ⟨rfl, rfl, rfl⟩
  | exit source =>
    simp only [step, Option.ite_none_right_eq_some, Option.some.injEq] at hstep
    obtain ⟨-, rfl⟩ := hstep
    exact ⟨rfl, rfl, rfl⟩
  | take_all source =>
    simp only [step, Option.ite_none_right_eq_some, Option.map_eq_some_iff] at hstep
    obtain ⟨-, thread, -, rfl⟩ := hstep
    exact ⟨rfl, rfl, rfl⟩
  | publish source sent =>
    simp only [step, Option.ite_none_right_eq_some, Option.map_eq_some_iff] at hstep
    obtain ⟨-, ⟨record, thread⟩, -, rfl⟩ := hstep
    cases sent <;> cases source <;> exact ⟨rfl, rfl, rfl⟩
  | round source =>
    simp only [step, Option.ite_none_right_eq_some, Option.map_eq_some_iff] at hstep
    obtain ⟨-, thread, -, rfl⟩ := hstep
    exact ⟨rfl, rfl, rfl⟩
  | look board =>
    obtain ⟨unseen, last, -, -, rfl⟩ := look_receive hstep
    unfold receive
    split
    · exact ⟨rfl, rfl, rfl⟩
    · dsimp only
      split <;> exact ⟨rfl, rfl, rfl⟩
  | nothing =>
    obtain ⟨last, -, rfl⟩ := nothing_cases hstep
    exact ⟨rfl, rfl, rfl⟩
  | receive_fails =>
    obtain ⟨unseen, last, -, rfl⟩ := receive_fails_cases hstep
    exact ⟨rfl, rfl, rfl⟩
  | forward sent =>
    obtain ⟨record, last, -, rfl⟩ := forward_cases hstep
    cases sent <;> exact ⟨rfl, rfl, rfl⟩
  | _ => cases hl

/-- A step stores one line at most. -/
theorem stores_cases {s s' : LogNet cap} (hstep : s.step cfg l = some s') :
    (s.stores l = [] ∧ s'.server.logs = s.server.logs ∧
      s'.server.next_seq = s.server.next_seq) ∨
    ∃ log, s.stores l = [log] ∧ log.seq = s.server.next_seq ∧
      s'.server.logs = Ring.push log_cap s.server.logs log ∧
      s'.server.next_seq = saturating_add s.server.next_seq 1 := by
  cases hl : l.of_process with
  | true =>
    obtain ⟨hserver, -, hstores⟩ := process_frame hl hstep
    exact .inl ⟨hstores, by rw [hserver], by rw [hserver]⟩
  | false =>
    cases l with
    | begin_poll | inbox_fails =>
      simp only [step, Option.ite_none_right_eq_some, Option.some.injEq] at hstep
      obtain ⟨-, rfl⟩ := hstep
      exact .inl ⟨rfl, rfl, rfl⟩
    | try_recv =>
      simp only [step, Option.ite_none_right_eq_some] at hstep
      obtain ⟨-, hstep⟩ := hstep
      cases ha2s : s.a2s with
      | nil =>
        rw [ha2s] at hstep
        cases hstep
        exact .inl ⟨by rw [stores, ha2s], rfl, rfl⟩
      | cons record tail =>
        rw [ha2s] at hstep
        cases hstep
        exact .inr ⟨_, by rw [stores, ha2s], rfl, rfl, rfl⟩
    | try_wait exited =>
      simp only [step, Option.ite_none_right_eq_some] at hstep
      obtain ⟨-, hstep⟩ := hstep
      cases exited with
      | none =>
        cases hstep
        exact .inl ⟨rfl, rfl, rfl⟩
      | some code =>
        simp only [Option.ite_none_right_eq_some, Option.some.injEq] at hstep
        obtain ⟨-, rfl⟩ := hstep
        exact .inr ⟨_, rfl, rfl, rfl, rfl⟩
    | connect page =>
      simp only [step, Option.ite_none_right_eq_some, Option.some.injEq] at hstep
      obtain ⟨-, rfl⟩ := hstep
      exact .inl ⟨rfl, rfl, rfl⟩
    | poll page =>
      simp only [step, Option.ite_none_right_eq_some, Option.bind_eq_some_iff,
        Option.map_eq_some_iff] at hstep
      obtain ⟨-, stream, -, stream', -, rfl⟩ := hstep
      exact .inl ⟨rfl, rfl, rfl⟩
    | yield page =>
      simp only [step, Option.bind_eq_some_iff, Option.map_eq_some_iff] at hstep
      obtain ⟨stream, -, stream', -, rfl⟩ := hstep
      exact .inl ⟨rfl, rfl, rfl⟩
    | _ => cases hl

/-- What a step does to a stream: nothing, or what its page does. -/
theorem stream_cases {s s' : LogNet cap} (hstep : s.step cfg l = some s') :
    (s'.stream = s.stream ∧ ∀ page, l ≠ .connect page ∧ l ≠ .poll page) ∨
    ∃ page stream', s'.stream = Function.update s.stream page (some stream') ∧
      ((l = .connect page ∧ stream' = .start s.server.log_high_water) ∨
        (∃ stream, s.stream page = some stream ∧
          ((l = .poll page ∧ stream.receive (s.server.logs_after stream.after) = some stream') ∨
            (l = .yield page ∧ stream.yield = some stream')))) := by
  cases hl : l.of_process with
  | true =>
    refine .inl ⟨(process_frame hl hstep).2.1, fun page => ⟨?_, ?_⟩⟩
    · rintro rfl
      cases hl
    · rintro rfl
      cases hl
  | false =>
    cases l with
    | begin_poll | inbox_fails =>
      simp only [step, Option.ite_none_right_eq_some, Option.some.injEq] at hstep
      obtain ⟨-, rfl⟩ := hstep
      exact .inl ⟨rfl, by simp⟩
    | try_recv =>
      simp only [step, Option.ite_none_right_eq_some] at hstep
      obtain ⟨-, hstep⟩ := hstep
      split at hstep <;> cases hstep <;> exact .inl ⟨rfl, by simp⟩
    | try_wait exited =>
      simp only [step, Option.ite_none_right_eq_some] at hstep
      obtain ⟨-, hstep⟩ := hstep
      cases exited with
      | none =>
        cases hstep
        exact .inl ⟨rfl, by simp⟩
      | some code =>
        simp only [Option.ite_none_right_eq_some, Option.some.injEq] at hstep
        obtain ⟨-, rfl⟩ := hstep
        exact .inl ⟨rfl, by simp⟩
    | connect page =>
      simp only [step, Option.ite_none_right_eq_some, Option.some.injEq] at hstep
      obtain ⟨-, rfl⟩ := hstep
      exact .inr ⟨page, _, rfl, .inl ⟨rfl, rfl⟩⟩
    | poll page =>
      simp only [step, Option.ite_none_right_eq_some, Option.bind_eq_some_iff,
        Option.map_eq_some_iff] at hstep
      obtain ⟨-, stream, hstream, stream', hreceive, rfl⟩ := hstep
      exact .inr ⟨page, stream', rfl, .inr ⟨stream, hstream, .inl ⟨rfl, hreceive⟩⟩⟩
    | yield page =>
      simp only [step, Option.bind_eq_some_iff, Option.map_eq_some_iff] at hstep
      obtain ⟨stream, hstream, stream', hyield, rfl⟩ := hstep
      exact .inr ⟨page, stream', rfl, .inr ⟨stream, hstream, .inr ⟨rfl, hyield⟩⟩⟩
    | _ => cases hl

theorem numbered_step (hnum : Numbered s) (hstep : (log_runs cap cfg).step s l = some s') :
    Numbered s' := by
  obtain ⟨hact, hlog⟩ := System.logged_step_cases hstep
  have hstored : s'.2.stored = s.2.stored ++ s.1.stores l := by rw [hlog]; rfl
  rcases stores_cases hact with ⟨hnone, hlogs, hnext⟩ | ⟨log, hone, hseq, hlogs, hnext⟩
  · rw [hnone, List.append_nil] at hstored
    exact ⟨by rw [hnext, hstored, hnum.next_seq], by rw [hstored, hnum.seqs],
      by rw [hlogs, hstored, hnum.logs]⟩
  · rw [hone] at hstored
    have hlen : s'.2.stored.length = s.2.stored.length + 1 := by
      rw [hstored, List.length_append, List.length_singleton]
    refine ⟨?_, ?_, ?_⟩
    · rw [hnext, hnum.next_seq, hlen, saturating_add]
      omega
    · rw [hlen, hstored, List.map_append, hnum.seqs, List.range_succ, List.map_append,
        List.map_singleton, List.map_singleton, hseq, hnum.next_seq]
    · rw [hlogs, hnum.logs, hstored, Ring.push_all, Ring.push_all, List.foldl_append]
      rfl

theorem numbered_of_init (h : (log_runs cap cfg).init s) : Numbered s := by
  obtain ⟨hinit, hhist⟩ := h
  obtain ⟨net, hist⟩ := s
  obtain rfl : net = .new cfg := hinit
  obtain rfl : hist = .new := hhist
  exact ⟨rfl, rfl, rfl⟩

/-- The numbers do not fall. -/
theorem Numbered.sorted (hnum : Numbered s) :
    s.2.stored.Pairwise fun x y => x.seq ≤ y.seq := by
  have hmap : (s.2.stored.map StoredLog.seq).Pairwise (· ≤ ·) := by
    rw [hnum.seqs, List.pairwise_map]
    exact List.pairwise_lt_range.imp fun {i j} h => by omega
  exact List.pairwise_map.mp hmap

theorem Numbered.rising (hnum : Numbered s) (hroom : s.2.stored.length < u64_max) :
    s.2.stored.Pairwise fun x y => x.seq < y.seq := by
  have hmap : (s.2.stored.map StoredLog.seq).Pairwise (· < ·) := by
    rw [hnum.seqs, List.pairwise_map]
    refine List.pairwise_lt_range.imp_of_mem fun {i j} _ hj hlt => ?_
    have hj' := List.mem_range.mp hj
    omega
  exact List.pairwise_map.mp hmap

theorem Numbered.seq_at (hnum : Numbered s) {i : Nat} (hi : i < s.2.stored.length) :
    s.2.stored[i].seq = min (i + 1) u64_max := by
  have h : (s.2.stored.map StoredLog.seq)[i]? = some (min (i + 1) u64_max) := by
    rw [hnum.seqs, List.getElem?_map, List.getElem?_range hi]
    rfl
  rw [List.getElem?_map, List.getElem?_eq_getElem hi] at h
  exact Option.some.inj h

/-- The server has dropped the oldest lines only. -/
theorem Numbered.logs_eq (hnum : Numbered s) :
    s.1.server.logs = s.2.stored.drop (s.2.stored.length - log_cap) := by
  rw [hnum.logs, Ring.push_all_eq_drop (by decide) (Nat.zero_le _), List.nil_append]

/-! ### The streams -/

/-- A stream has read a part of what was stored since its page joined, in order
    and up to its cursor. -/
structure Reads (s : LogNet cap × LogHistory) (page : Nat) (stream : LogStream) : Prop where
  joined : s.2.joined page ≤ stream.after
  events : stream.events.Sublist
    (Cursor.window StoredLog.seq (s.2.joined page) stream.after s.2.stored)

/-- Every stream. -/
def AllRead (s : LogNet cap × LogHistory) : Prop :=
  ∀ page stream, s.1.stream page = some stream → Reads s page stream

theorem Reads.grow (h : Reads s page stream) (hstored : s'.2.stored = s.2.stored ++ new)
    (hjoined : s'.2.joined page = s.2.joined page) : Reads s' page stream where
  joined := hjoined ▸ h.joined
  events := by
    rw [hjoined, hstored]
    exact h.events.trans Cursor.window_sublist_add

/-- What a poll brings is the window above the cursor. -/
theorem poll_events {logs : List StoredLog} {stream stream' : LogStream}
    (h : stream.receive logs = some stream') :
    stream'.after = Cursor.advance StoredLog.seq stream.after logs ∧
      stream'.events = stream.events ++ logs := by
  unfold LogStream.receive at h
  split at h
  · rename_i hpending
    split at h
    · rename_i hlogs
      cases h
      rw [hlogs, List.append_nil]
      exact ⟨rfl, rfl⟩
    · cases h
      refine ⟨rfl, ?_⟩
      unfold LogStream.events
      rw [hpending, List.reverse_reverse, List.reverse_nil, List.append_nil]
  · cases h

theorem yield_events {stream stream' : LogStream} (h : stream.yield = some stream') :
    stream'.after = stream.after ∧ stream'.events = stream.events := by
  obtain ⟨event, hlast, rfl⟩ := Option.map_eq_some_iff.mp h
  refine ⟨rfl, ?_⟩
  obtain ⟨front, hfront⟩ := List.getLast?_eq_some_iff.mp hlast
  unfold LogStream.events
  simp [hfront]

/-- The lines that are stored in a poll are the window above the cursor. -/
theorem Reads.poll (h : Reads s page stream) (hnum : Numbered s) {stream' : LogStream}
    (hreceive : stream.receive (s.1.server.logs_after stream.after) = some stream') :
    Reads s page stream' := by
  obtain ⟨hafter, hevents⟩ := poll_events hreceive
  have hsub : (s.1.server.logs_after stream.after).Sublist
      (Cursor.window StoredLog.seq stream.after stream'.after s.2.stored) := by
    have hold : (s.1.server.logs_after stream.after) =
        Cursor.above StoredLog.seq stream.after s.1.server.logs := rfl
    rw [hold] at hafter ⊢
    rw [Cursor.above_eq_window, ← hafter, hnum.logs_eq]
    exact (List.drop_sublist _ _).filter _
  have hle : stream.after ≤ stream'.after := hafter ▸ Cursor.le_advance _ _
  refine ⟨h.joined.trans hle, ?_⟩
  rw [hevents, ← Cursor.window_append hnum.sorted h.joined hle]
  exact h.events.append hsub

/-- The rule for a property of every stream: it holds of a new one, is kept by
    what the page does, and by what is stored meanwhile. -/
theorem every_stream_step {P : LogNet cap × LogHistory → Nat → LogStream → Prop}
    (hstep : (log_runs cap cfg).step s l = some s')
    (hconnect : ∀ page, s'.2.joined page = s.1.server.log_high_water →
      s'.2.stored = s.2.stored → P s' page (.start s.1.server.log_high_water))
    (hgrow : ∀ page stream new, P s page stream → s'.2.stored = s.2.stored ++ new →
      s'.2.joined page = s.2.joined page → P s' page stream)
    (hpoll : ∀ page stream stream', l = .poll page → s.1.stream page = some stream →
      P s page stream → stream.receive (s.1.server.logs_after stream.after) = some stream' →
      P s page stream')
    (hyield : ∀ page stream stream', P s page stream → stream.yield = some stream' →
      P s page stream')
    (h : ∀ page stream, s.1.stream page = some stream → P s page stream) :
    ∀ page stream, s'.1.stream page = some stream → P s' page stream := by
  obtain ⟨hact, hlog⟩ := System.logged_step_cases hstep
  have hstored : s'.2.stored = s.2.stored ++ s.1.stores l := by rw [hlog]; rfl
  have hjoined (other : Nat) (h : l ≠ .connect other) : s'.2.joined other = s.2.joined other := by
    rw [hlog]
    cases l with
    | connect page =>
      have hne : other ≠ page := fun heq => h (by rw [heq])
      exact Function.update_of_ne hne ..
    | _ => rfl
  rcases stream_cases hact with ⟨hsame, hother⟩ | ⟨page, stream', hnew, hcases⟩
  · intro other stream hstream
    rw [hsame] at hstream
    exact hgrow other stream _ (h other stream hstream) hstored (hjoined other (hother other).1)
  · intro other stream hstream
    rw [hnew] at hstream
    by_cases hother : other = page
    · subst hother
      rw [Function.update_self] at hstream
      obtain rfl : stream' = stream := Option.some.inj hstream
      rcases hcases with ⟨rfl, rfl⟩ | ⟨old, hold, ⟨rfl, hreceive⟩ | ⟨rfl, hyielded⟩⟩
      · refine hconnect other ?_ (hstored.trans (List.append_nil _))
        rw [hlog]
        exact Function.update_self ..
      · exact hgrow other stream' _ (hpoll other old stream' rfl hold (h other old hold) hreceive)
          hstored (hjoined other (by simp))
      · exact hgrow other stream' _ (hyield other old stream' (h other old hold) hyielded)
          hstored (hjoined other (by simp))
    · rw [Function.update_of_ne hother] at hstream
      refine hgrow other stream _ (h other stream hstream) hstored
        (hjoined other fun heq => hother ?_)
      subst heq
      rcases hcases with ⟨heq, -⟩ | ⟨old, -, ⟨heq, -⟩ | ⟨heq, -⟩⟩ <;> cases heq
      rfl

theorem all_read_step (hnum : Numbered s) (hread : AllRead s)
    (hstep : (log_runs cap cfg).step s l = some s') : AllRead s' := by
  refine every_stream_step hstep (fun page hat _ => ?_) (fun page stream new h => h.grow)
    (fun page stream stream' _ _ h hreceive => h.poll hnum hreceive)
    (fun page stream stream' h hyield => ?_) hread
  · exact ⟨hat.le, List.nil_sublist _⟩
  · obtain ⟨hafter, hevents⟩ := yield_events hyield
    exact ⟨hafter ▸ h.joined, by rw [hafter, hevents]; exact h.events⟩

theorem numbered_of_reachable {ok : Guard (LogNet cap × LogHistory) LogStep}
    (h : Reachable (log_runs cap cfg) ok s) : Numbered s :=
  h.invariant (fun _ hi => numbered_of_init hi) fun _ _ _ hnum _ hstep => numbered_step hnum hstep

theorem all_read_of_reachable {ok : Guard (LogNet cap × LogHistory) LogStep}
    (h : Reachable (log_runs cap cfg) ok s) : AllRead s := by
  induction h with
  | init hi =>
    intro page stream hstream
    rw [hi.1] at hstream
    cases hstream
  | step l hreach _ hstep ih => exact all_read_step (numbered_of_reachable hreach) ih hstep

/-- Nothing is assumed of a step. -/
def AnyRun (_ : LogNet cap × LogHistory) (_ : LogStep) : Prop := True

/-- In every run, what a page has been sent of a process is a part of what the
    process has logged, in that order and without repetitions, and the numbers
    of the events rise as long as the counter of the server has not run out. -/
theorem page_lines_in_order (h : Reachable (log_runs cap cfg) AnyRun s)
    (hstream : s.1.stream page = some stream) (source : LogSource) :
    ((stream.sent.filter (StoredLog.is_of source)).map StoredLog.entry).Sublist
        (s.2.logged source) ∧
      (s.2.stored.length < u64_max →
        stream.sent.Pairwise fun x y => x.seq < y.seq) := by
  have hread : Reads s page stream := all_read_of_reachable h page stream hstream
  have hstored : stream.sent.Sublist s.2.stored :=
    (List.sublist_append_left ..).trans (hread.events.trans List.filter_sublist)
  refine ⟨?_, fun hroom => ?_⟩
  · have hline : (s.2.line s.1 source).Sublist (s.2.logged source) :=
      line_sublist (fun _ hi => line_of_init hi)
        (fun _ _ _ hreach _ hstep => runs_passes (owned_of_reachable hreach) hstep) h
    calc ((stream.sent.filter (StoredLog.is_of source)).map StoredLog.entry).Sublist
          (s.2.delivered source) := (hstored.filter _).map _
      List.Sublist _ (s.2.line s.1 source) := List.sublist_append_left ..
      List.Sublist _ (s.2.logged source) := hline
  · exact (numbered_of_reachable h).rising hroom |>.sublist hstored

/-! ### A page that polls in time -/

/-- When this page polls, it has missed no more lines than the server keeps. -/
def Prompt (page : Nat) (s : LogNet cap × LogHistory) : LogStep → Prop
  | .poll other => other = page →
    ∀ stream ∈ s.1.stream page, s.1.server.next_seq ≤ stream.after + log_cap + 1
  | _ => True

/-- The stream has read the whole window. -/
structure ReadsAll (s : LogNet cap × LogHistory) (page : Nat) (stream : LogStream) : Prop where
  after : stream.after ≤ s.2.stored.length
  events : stream.events =
    Cursor.window StoredLog.seq (s.2.joined page) stream.after s.2.stored

/-- A line that is stored now has a higher number than every cursor. -/
theorem ReadsAll.grow (h : ReadsAll s page stream) (hnum : Numbered s')
    (hroom : s'.2.stored.length < u64_max) (hstored : s'.2.stored = s.2.stored ++ new)
    (hjoined : s'.2.joined page = s.2.joined page) : ReadsAll s' page stream where
  after := by
    rw [hstored, List.length_append]
    exact Nat.le_add_right_of_le h.after
  events := by
    rw [hjoined, hstored, Cursor.window_add, h.events]
    intro log hlog
    obtain ⟨i, hi, rfl⟩ := List.mem_iff_getElem.mp hlog
    have hlt : s.2.stored.length + i < s'.2.stored.length := by
      rw [hstored, List.length_append]
      omega
    have hseq := hnum.seq_at hlt
    have hget : s'.2.stored[s.2.stored.length + i] = new[i] := by
      simp only [hstored, List.getElem_append_right (Nat.le_add_right _ i), Nat.add_sub_cancel_left]
    rw [hget] at hseq
    have hafter := h.after
    omega

theorem ReadsAll.poll (h : ReadsAll s page stream) (hread : Reads s page stream)
    (hnum : Numbered s) (hroom : s.2.stored.length < u64_max)
    (hprompt : s.1.server.next_seq ≤ stream.after + log_cap + 1) {stream' : LogStream}
    (hreceive : stream.receive (s.1.server.logs_after stream.after) = some stream') :
    ReadsAll s page stream' := by
  obtain ⟨hafter, hevents⟩ := poll_events hreceive
  have hall : s.1.server.logs_after stream.after =
      Cursor.above StoredLog.seq stream.after s.2.stored := by
    show Cursor.above StoredLog.seq stream.after s.1.server.logs = _
    rw [hnum.logs_eq]
    refine Cursor.above_drop _ fun log hlog => ?_
    -- What the server has dropped is below the cursor.
    obtain ⟨i, hi, rfl⟩ := List.mem_iff_getElem.mp hlog
    have hnext : s.1.server.next_seq = s.2.stored.length + 1 :=
      hnum.next_seq.trans (Nat.min_eq_left hroom)
    have hi' : i < s.2.stored.length - log_cap := by
      rw [List.length_take] at hi
      exact Nat.lt_of_lt_of_le hi (Nat.min_le_left _ _)
    rw [List.getElem_take, hnum.seq_at]
    refine (Nat.min_le_left _ _).trans ?_
    rw [hnext] at hprompt
    omega
  rw [hall] at hafter hevents
  refine ⟨?_, ?_⟩
  · rw [hafter]
    refine Cursor.advance_le h.after fun log hlog => ?_
    obtain ⟨i, hi, rfl⟩ := List.mem_iff_getElem.mp (List.mem_of_mem_filter hlog)
    rw [hnum.seq_at hi]
    omega
  · rw [hevents, h.events, Cursor.above_eq_window, ← hafter]
    exact Cursor.window_append hnum.sorted hread.joined (hafter ▸ Cursor.le_advance _ _)

theorem reads_all_step (hnum : Numbered s) (hread : AllRead s)
    (hall : ∀ other stream, s.1.stream other = some stream → other = page →
      ReadsAll s other stream)
    (hprompt : Prompt page s l) (hstep : (log_runs cap cfg).step s l = some s')
    (hroom : s'.2.stored.length < u64_max) :
    ∀ other stream, s'.1.stream other = some stream → other = page →
      ReadsAll s' other stream := by
  obtain ⟨-, hlog⟩ := System.logged_step_cases hstep
  have hless : s.2.stored.length < u64_max := by
    have hstored : s'.2.stored = s.2.stored ++ s.1.stores l := by rw [hlog]; rfl
    rw [hstored, List.length_append] at hroom
    omega
  refine every_stream_step (P := fun t other stream => other = page → ReadsAll t other stream)
    hstep (fun other hat hstored _ => ?_)
    (fun other stream new h hstored hjoined heq =>
      (h heq).grow (numbered_step hnum hstep) hroom hstored hjoined)
    (fun other stream stream' hl hstream h hreceive heq => ?_)
    (fun other stream stream' h hyield heq => ?_) hall
  · refine ⟨?_, ?_⟩
    · rw [hstored]
      show s.1.server.next_seq - 1 ≤ _
      rw [hnum.next_seq]
      omega
    · rw [hat]
      exact Cursor.window_self.symm
  · subst hl heq
    exact (h rfl).poll (hread other stream hstream) hnum hless (hprompt rfl stream hstream)
      hreceive
  · obtain ⟨hafter, hevents⟩ := yield_events hyield
    exact ⟨hafter ▸ (h heq).after, by rw [hafter, hevents]; exact (h heq).events⟩

theorem reads_all_of_reachable (h : Reachable (log_runs cap cfg) (Prompt page) s)
    (hroom : s.2.stored.length < u64_max) :
    ∀ other stream, s.1.stream other = some stream → other = page →
      ReadsAll s other stream := by
  induction h with
  | init hi =>
    intro other stream hstream
    rw [hi.1] at hstream
    cases hstream
  | step l hreach hok hstep ih =>
    obtain ⟨-, hlog⟩ := System.logged_step_cases hstep
    refine reads_all_step (numbered_of_reachable hreach) (all_read_of_reachable hreach)
      (ih ?_) hok hstep hroom
    rw [hlog] at hroom
    exact Nat.lt_of_le_of_lt (List.length_append ▸ Nat.le_add_right ..) hroom

/-- A page whose polls come before the server has dropped a line above its
    cursor is sent everything that is stored after it has joined, in order, as
    long as the counter of the server has not run out. -/
theorem page_reads_everything (h : Reachable (log_runs cap cfg) (Prompt page) s)
    (hstream : s.1.stream page = some stream) (hroom : s.2.stored.length < u64_max) :
    stream.sent ++ stream.pending.reverse =
      (s.2.stored.take stream.after).drop (s.2.joined page) := by
  have hnum : Numbered s := numbered_of_reachable h
  obtain ⟨hafter, hevents⟩ := reads_all_of_reachable h hroom page stream hstream rfl
  have hplaces (i : Nat) (hi : i < s.2.stored.length) : s.2.stored[i].seq = i + 1 :=
    (hnum.seq_at hi).trans (Nat.min_eq_left (Nat.lt_of_le_of_lt hi hroom).le)
  exact hevents.trans (Cursor.window_places hplaces hafter)

end LogNet

/-! ### A run -/

/-- One board. -/
def lone_log : LogConfig := ⟨[(7, "mcu0")]⟩

/-- The arbiter logs three lines, and the second is lost when the forwarder
    publishes them. -/
def arbiter_logs : List LogStep :=
  [.log .arbiter .Info "up", .log .arbiter .Warn "slow", .log .arbiter .Info "down", .look 7,
    .receive_fails, .take_all .arbiter, .publish .arbiter true, .publish .arbiter false,
    .publish .arbiter true, .round .arbiter, .round .arbiter]

/-- The server reads its inbox once. -/
def server_reads : List LogStep :=
  [.begin_poll, .try_recv, .try_recv, .try_recv, .try_wait none]

namespace LogNet

instance (s : LogNet cap × LogHistory) (l : LogStep) : Decidable (AnyRun s l) := isTrue trivial

instance (s : LogNet cap × LogHistory) (l : LogStep) : Decidable (Prompt page s l) :=
  match l with
  | .poll other => inferInstanceAs (Decidable (other = page → ∀ stream ∈ s.1.stream page, _))
  | .log .. | .shutdown .. | .exit .. | .take_all .. | .publish .. | .round .. | .look ..
  | .nothing | .receive_fails | .forward .. | .begin_poll | .try_recv | .inbox_fails
  | .try_wait .. | .connect .. | .yield .. => isTrue trivial

theorem init_log_runs : (log_runs cap cfg).init (.new cfg, .new) := ⟨rfl, rfl⟩

/-- The page joins, the arbiter logs, and the page polls. -/
def page_run : List LogStep :=
  [.connect 0] ++ arbiter_logs ++ server_reads ++ [.poll 0, .yield 0]

/-- The lines that the server stores. -/
def up_line : StoredLog := ⟨1, "info", "arbiter", none, "up"⟩

def down_line : StoredLog := ⟨2, "info", "arbiter", none, "down"⟩

/-- The page has what is left of the three lines, in their order. -/
theorem page_lines_in_order_lost : ∃ s : LogNet 4 × LogHistory,
    Reachable (log_runs 4 lone_log) AnyRun s ∧ ∃ stream : LogStream,
      stream.sent = [up_line, down_line] ∧
      s.2.logged .arbiter = [("info", "up"), ("warn", "slow"), ("info", "down")] ∧
      ((stream.sent.filter (StoredLog.is_of .arbiter)).map StoredLog.entry).Sublist
        (s.2.logged .arbiter) := by
  obtain ⟨s, hs, hstream, hlogged⟩ : ∃ s : LogNet 4 × LogHistory,
      Reachable (log_runs 4 lone_log) AnyRun s ∧
      s.1.stream 0 = some ⟨2, [], [up_line, down_line]⟩ ∧
      s.2.logged .arbiter = [("info", "up"), ("warn", "slow"), ("info", "down")] :=
    Reachable.exists_of_exec (page_run ++ [.yield 0]) init_log_runs (by decide +kernel)
  exact ⟨s, hs, _, rfl, hlogged, (page_lines_in_order hs hstream .arbiter).1⟩

/-- One event has been yielded, and the other is pending. -/
theorem page_reads_everything_pending : ∃ s : LogNet 4 × LogHistory,
    Reachable (log_runs 4 lone_log) (Prompt 0) s ∧ ∃ stream : LogStream,
      stream.sent = [up_line] ∧ stream.pending = [down_line] ∧
      stream.sent ++ stream.pending.reverse =
        (s.2.stored.take stream.after).drop (s.2.joined 0) := by
  obtain ⟨s, hs, hstream, hlen⟩ : ∃ s : LogNet 4 × LogHistory,
      Reachable (log_runs 4 lone_log) (Prompt 0) s ∧
      s.1.stream 0 = some ⟨2, [down_line], [up_line]⟩ ∧ s.2.stored.length = 2 :=
    Reachable.exists_of_exec page_run init_log_runs (by decide +kernel)
  exact ⟨s, hs, _, rfl, rfl, page_reads_everything hs hstream (by rw [hlen]; decide)⟩

end LogNet

end Rl78Sim
