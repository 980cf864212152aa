import Mathlib.Data.List.Pairwise
import Mathlib.Logic.Function.Basic

/-! # The UART Stream of a Test

    A test reads a UART through the samples of its probe. Each call asks the
    server for the records from the time of the last word on, and passes over as
    many of them as it has words of that time. However the log grows in between,
    the words are those records that the virtual time has reached, each with the
    low byte of its value.
-/

namespace Rl78Sim.SystemTest

/-! ## The stream -/

/-- `_Word`. -/
structure Word where
  virtual_time_ns : Nat
  byte : Nat
  consumed : Bool
  deriving DecidableEq

/-- `UartStream`. -/
structure UartStream where
  _words : List Word
  deriving DecidableEq

/-- The word is one of `_visible`. -/
def Word.visible (from_ns : Option Nat) (word : Word) : Bool :=
  !word.consumed && from_ns.all fun from_ns => from_ns ≤ word.virtual_time_ns

/-- The first `count` words of `_visible` are consumed. -/
def consume (from_ns : Option Nat) : Nat → List Word → List Word
  | 0, words => words
  | _ + 1, [] => []
  | count + 1, word :: words =>
    if word.visible from_ns then { word with consumed := true } :: consume from_ns count words
    else word :: consume from_ns (count + 1) words

namespace UartStream

/-- `UartStream.push`. -/
def push (stream : UartStream) (virtual_time_ns : Nat) (value : Int) : UartStream :=
  ⟨stream._words ++ [⟨virtual_time_ns, (value % 256).toNat, false⟩]⟩

/-- `UartStream._visible`. -/
def _visible (stream : UartStream) (from_ns : Option Nat) : List Word :=
  stream._words.filter fun word => word.visible from_ns

/-- `UartStream.readline`, with the stream afterwards. -/
def readline (stream : UartStream) (from_ns : Option Nat) : Option (List Nat) × UartStream :=
  let visible := (stream._visible from_ns).map Word.byte
  match visible.findIdx? fun byte => byte = 0x0A with
  | none => (none, stream)
  | some len =>
    let raw := visible.take len
    let raw := if raw.getLast? = some 0x0D then raw.dropLast else raw
    (some raw, ⟨consume from_ns (len + 1) stream._words⟩)

/-- `UartStream.read`, with the stream afterwards. -/
def read (stream : UartStream) (count : Int) (from_ns : Option Nat) :
    Option (List Nat) × UartStream :=
  if count ≤ 0 then (some [], stream)
  else
    let visible := stream._visible from_ns
    if (visible.length : Int) < count then (none, stream)
    else (some ((visible.take count.toNat).map Word.byte),
      ⟨consume from_ns count.toNat stream._words⟩)

end UartStream

/-! ## The call -/

/-- A JSON value, as far as the call tells them apart. -/
inductive Value where
  | int (n : Int)
  | bool (b : Bool)
  | other
  deriving DecidableEq

/-- A sample of a response. -/
structure Sample where
  kind : Option String
  virtual_time_ns : Nat
  value : Value
  deriving DecidableEq

/-- The response to a query for samples. -/
structure Payload where
  truncated : Bool
  samples : List Sample
  deriving DecidableEq

/-- What the call raises. -/
inductive Failure where
  | TruncatedError
  | ProbeKindError
  deriving DecidableEq

/-- The loop of `_uart` over the samples. What was pushed before a sample that
    raises stays in the stream. -/
def push_new (last_vt : Option Nat) (at_last : Nat) :
    List Sample → Nat → UartStream → Except Failure Unit × UartStream
  | [], _, stream => (.ok (), stream)
  | sample :: samples, seen_at_last, stream =>
    if sample.kind ≠ some "uart" then (.error .ProbeKindError, stream)
    else
      match sample.value with
      | .bool _ => (.error .ProbeKindError, stream)
      | .other => (.error .ProbeKindError, stream)
      | .int value =>
        let vt := sample.virtual_time_ns
        match last_vt with
        | none => push_new last_vt at_last samples seen_at_last (stream.push vt value)
        | some last =>
          if vt < last then push_new last_vt at_last samples seen_at_last stream
          else if vt = last then
            if seen_at_last + 1 ≤ at_last then
              push_new last_vt at_last samples (seen_at_last + 1) stream
            else push_new last_vt at_last samples (seen_at_last + 1) (stream.push vt value)
          else push_new last_vt at_last samples seen_at_last (stream.push vt value)

/-- A board and a probe. -/
abbrev Key := String × String

/-- `Simulation`, of which the call reads and writes these. -/
structure Simulation where
  virtual_time_ns : Nat
  _uarts : Key → Option UartStream

/-- `Simulation._uart`: its result, and the simulation afterwards. -/
def Simulation._uart (self : Simulation) (samples : Key → Nat → Nat → Payload) (key : Key) :
    Except Failure UartStream × Simulation :=
  let stream := (self._uarts key).getD ⟨[]⟩
  let last_vt := stream._words.getLast?.map Word.virtual_time_ns
  let at_last := stream._words.countP fun word => some word.virtual_time_ns = last_vt
  let payload := samples key (last_vt.getD 0) self.virtual_time_ns
  if payload.truncated then
    (.error .TruncatedError, { self with _uarts := Function.update self._uarts key (some stream) })
  else
    let (res, stream) := push_new last_vt at_last payload.samples 0 stream
    (res.map fun _ => stream, { self with _uarts := Function.update self._uarts key (some stream) })

/-! ## The server and the runs -/

/-- A record of the probe's log. -/
structure Record where
  virtual_time_ns : Nat
  value : Nat
  deriving DecidableEq

/-- A record in a response. -/
def Record.sample (record : Record) : Sample :=
  ⟨some "uart", record.virtual_time_ns, .int record.value⟩

/-- A simulation of the client and the logs of the server. -/
structure World where
  sim : Simulation
  logs : Key → List Record

/-- The server's answer: the records in the range, in log order. -/
def World.samples (w : World) (key : Key) (from_ns to_ns : Nat) : Payload :=
  ⟨false, ((w.logs key).filter fun record =>
    from_ns ≤ record.virtual_time_ns ∧ record.virtual_time_ns ≤ to_ns).map Record.sample⟩

/-- The stream of a probe. -/
def World.stream (w : World) (key : Key) : UartStream := (w.sim._uarts key).getD ⟨[]⟩

/-- The records that the virtual time has reached. -/
def World.reached (w : World) (key : Key) : List Record :=
  (w.logs key).filter fun record => record.virtual_time_ns ≤ w.sim.virtual_time_ns

/-- What happens: the server logs a record, the client sees a later virtual time
    or reads from a stream. -/
inductive Act where
  | append (key : Key) (record : Record)
  | advance (virtual_time_ns : Nat)
  | uart (key : Key)
  | readline (key : Key) (from_ns : Option Nat)
  | read (key : Key) (count : Int) (from_ns : Option Nat)

/-- Put a stream in its place. -/
def World.put (w : World) (key : Key) (stream : UartStream) : World :=
  { w with sim := { w.sim with _uarts := Function.update w.sim._uarts key (some stream) } }

/-- The world after an act. A handle reads from the stream that a call of `_uart`
    has returned to it. -/
def World.step (w : World) : Act → World
  | .append key record => { w with logs := Function.update w.logs key (w.logs key ++ [record]) }
  | .advance virtual_time_ns => { w with sim := { w.sim with virtual_time_ns } }
  | .uart key => { w with sim := (w.sim._uart w.samples key).2 }
  | .readline key from_ns => w.put key ((w.stream key).readline from_ns).2
  | .read key count from_ns => w.put key ((w.stream key).read count from_ns).2

/-- The times of a log and the virtual time never decrease. -/
def World.Legal (w : World) : Act → Prop
  | .append key record => ∀ r ∈ w.logs key, r.virtual_time_ns ≤ record.virtual_time_ns
  | .advance virtual_time_ns => w.sim.virtual_time_ns ≤ virtual_time_ns
  | _ => True

instance (w : World) : ∀ act, Decidable (w.Legal act)
  | .append key record =>
    inferInstanceAs (Decidable (∀ r ∈ w.logs key, r.virtual_time_ns ≤ record.virtual_time_ns))
  | .advance virtual_time_ns =>
    inferInstanceAs (Decidable (w.sim.virtual_time_ns ≤ virtual_time_ns))
  | .uart _ | .readline _ _ | .read _ _ _ => inferInstanceAs (Decidable True)

/-- Each act of the sequence is legal where it happens. -/
def World.LegalRun (w : World) : List Act → Prop
  | [] => True
  | act :: acts => w.Legal act ∧ (w.step act).LegalRun acts

instance decidableLegalRun : ∀ (acts : List Act) (w : World), Decidable (w.LegalRun acts)
  | [], _ => inferInstanceAs (Decidable True)
  | act :: acts, w =>
    haveI := decidableLegalRun acts (w.step act)
    inferInstanceAs (Decidable (w.Legal act ∧ (w.step act).LegalRun acts))

/-- The world after a sequence of acts. -/
def World.run (w : World) (acts : List Act) : World := acts.foldl World.step w

/-- The times of the records never decrease. -/
def Ascending (log : List Record) : Prop :=
  log.Pairwise fun r s => r.virtual_time_ns ≤ s.virtual_time_ns

/-- A new client on logs that may have records. -/
structure World.Initial (w : World) : Prop where
  no_stream (key : Key) : w.sim._uarts key = none
  ascending (key : Key) : Ascending (w.logs key)

/-- A record as the stream keeps it: its time and the low byte of its value. -/
def Record.low (record : Record) : Nat × Nat := (record.virtual_time_ns, record.value % 256)

/-- The words of a stream, with their times. -/
def UartStream.words (stream : UartStream) : List (Nat × Nat) :=
  stream._words.map fun word => (word.virtual_time_ns, word.byte)

/-! ## The words of a stream -/

/-- Reading marks words and changes no time and no byte. -/
theorem consume_words (from_ns : Option Nat) (words : List Word) : ∀ count,
    (consume from_ns count words).map (fun word => (word.virtual_time_ns, word.byte)) =
      words.map fun word => (word.virtual_time_ns, word.byte) := by
  induction words with
  | nil =>
    intro count
    cases count with
    | zero => rfl
    | succ count => rfl
  | cons word words ih =>
    intro count
    cases count with
    | zero => rfl
    | succ count =>
      unfold consume
      by_cases hvisible : word.visible from_ns = true
      · rw [if_pos hvisible, List.map_cons, ih, List.map_cons]
      · rw [if_neg hvisible, List.map_cons, ih, List.map_cons]

namespace UartStream

theorem readline_words (stream : UartStream) (from_ns : Option Nat) :
    (stream.readline from_ns).2.words = stream.words := by
  unfold readline
  dsimp only
  split
  · rfl
  · exact consume_words _ _ _

theorem read_words (stream : UartStream) (count : Int) (from_ns : Option Nat) :
    (stream.read count from_ns).2.words = stream.words := by
  unfold read
  split
  · rfl
  · dsimp only
    split
    · rfl
    · exact consume_words _ _ _

theorem push_words (stream : UartStream) (record : Record) :
    (stream.push record.virtual_time_ns record.value).words = stream.words ++ [record.low] := by
  unfold push words Record.low
  rw [List.map_append]
  congr 2

end UartStream

/-! ## The loop -/

theorem push_new_record (last_vt : Option Nat) (at_last : Nat) (record : Record)
    (samples : List Sample) (seen : Nat) (stream : UartStream) :
    push_new last_vt at_last (record.sample :: samples) seen stream =
      let pushed := stream.push record.virtual_time_ns record.value
      match last_vt with
      | none => push_new last_vt at_last samples seen pushed
      | some last =>
        if record.virtual_time_ns < last then push_new last_vt at_last samples seen stream
        else if record.virtual_time_ns = last then
          if seen + 1 ≤ at_last then push_new last_vt at_last samples (seen + 1) stream
          else push_new last_vt at_last samples (seen + 1) pushed
        else push_new last_vt at_last samples seen pushed := by
  have hkind : ¬ record.sample.kind ≠ some "uart" := not_not.mpr rfl
  rw [push_new, if_neg hkind]
  rfl

/-- Samples of the last time are passed over, up to the number of words that the
    stream has of that time. -/
theorem push_new_seen (last at_last : Nat) (samples : List Sample) (stream : UartStream)
    (records : List Record) : ∀ seen, (∀ r ∈ records, r.virtual_time_ns = last) →
      seen + records.length ≤ at_last →
      push_new (some last) at_last (records.map Record.sample ++ samples) seen stream =
        push_new (some last) at_last samples (seen + records.length) stream := by
  induction records with
  | nil =>
    intro seen _ _
    rfl
  | cons record records ih =>
    intro seen hlast hle
    rw [List.length_cons] at hle
    have htime : record.virtual_time_ns = last := hlast record List.mem_cons_self
    have hrest := ih (seen + 1) (fun r hr => hlast r (List.mem_cons_of_mem _ hr)) (by omega)
    rw [List.map_cons, List.cons_append, push_new_record]
    simp only [if_neg (Nat.not_lt.mpr (Nat.le_of_eq htime.symm)), if_pos htime]
    rw [if_pos (by omega), hrest, List.length_cons]
    congr 1
    omega

/-- Past that number every sample is pushed. -/
theorem push_new_fresh (last_vt : Option Nat) (at_last : Nat) (records : List Record) :
    ∀ seen (stream : UartStream),
      (∀ last, last_vt = some last → at_last ≤ seen ∧ ∀ r ∈ records, last ≤ r.virtual_time_ns) →
      ∃ stream', push_new last_vt at_last (records.map Record.sample) seen stream =
          (.ok (), stream') ∧
        stream'.words = stream.words ++ records.map Record.low := by
  induction records with
  | nil =>
    intro seen stream _
    exact ⟨stream, rfl, by simp⟩
  | cons record records ih =>
    intro seen stream hfresh
    -- One sample is pushed, whatever becomes of the counter.
    have hnext (seen' : Nat) (hseen : seen ≤ seen') := by
      have hrest := ih seen' (stream.push record.virtual_time_ns record.value) fun last hlast =>
        ⟨Nat.le_trans (hfresh last hlast).1 hseen,
          fun r hr => (hfresh last hlast).2 r (List.mem_cons_of_mem _ hr)⟩
      rw [UartStream.push_words, List.append_assoc, List.singleton_append,
        ← List.map_cons] at hrest
      exact hrest
    rw [List.map_cons, push_new_record]
    cases last_vt with
    | none => exact hnext seen (Nat.le_refl _)
    | some last =>
      obtain ⟨hseen, hle⟩ := hfresh last rfl
      have hnot := hle record List.mem_cons_self
      simp only [if_neg (Nat.not_lt.mpr hnot)]
      by_cases htime : record.virtual_time_ns = last
      · simp only [if_pos htime]
        rw [if_neg (by omega)]
        exact hnext (seen + 1) (Nat.le_succ _)
      · simp only [if_neg htime]
        exact hnext seen (Nat.le_refl _)

/-! ## One call -/

/-- The stream holds the first records of the log, all of them reached. -/
def World.Tracks (w : World) (key : Key) : Prop :=
  Ascending (w.logs key) ∧ ∃ seen rest, w.logs key = seen ++ rest ∧
    (w.stream key).words = seen.map Record.low ∧
    ∀ r ∈ seen, r.virtual_time_ns ≤ w.sim.virtual_time_ns

/-- The records of an ascending log that a time has reached come first. -/
theorem Ascending.reached_first {log : List Record} (h : Ascending log) (now : Nat) :
    log = (log.filter fun r => r.virtual_time_ns ≤ now) ++
      log.filter fun r => now < r.virtual_time_ns := by
  induction log with
  | nil => rfl
  | cons record log ih =>
    obtain ⟨hfirst, hlog⟩ := List.pairwise_cons.mp h
    rw [List.filter_cons, List.filter_cons]
    by_cases hnow : record.virtual_time_ns ≤ now
    · rw [if_pos (decide_eq_true hnow), if_neg (by simpa using hnow), List.cons_append, ← ih hlog]
    · have hnone : (log.filter fun r => r.virtual_time_ns ≤ now) = [] := by
        rw [List.filter_eq_nil_iff]
        intro r hr
        have hle := hfirst r hr
        simp only [decide_eq_true_eq]
        omega
      have hall : (log.filter fun r => now < r.virtual_time_ns) = log := by
        rw [List.filter_eq_self]
        intro r hr
        have hle := hfirst r hr
        simp only [decide_eq_true_eq]
        omega
      rw [if_neg (by simpa using hnow), if_pos (by simpa using hnow), hnone, hall]
      rfl

/-- The loop over the answer to the query pushes the records that are new. -/
theorem push_new_tracks {w : World} {key : Key} {seen rest : List Record}
    (hlog : w.logs key = seen ++ rest) (hsorted : Ascending (w.logs key))
    (hreached : ∀ r ∈ seen, r.virtual_time_ns ≤ w.sim.virtual_time_ns) (stream : UartStream)
    (hwords : stream.words = seen.map Record.low) :
    ∃ stream', push_new (stream._words.getLast?.map Word.virtual_time_ns)
        (stream._words.countP fun word => some word.virtual_time_ns =
          stream._words.getLast?.map Word.virtual_time_ns)
        (w.samples key ((stream._words.getLast?.map Word.virtual_time_ns).getD 0)
          w.sim.virtual_time_ns).samples 0 stream = (.ok (), stream') ∧
      stream'.words = (w.reached key).map Record.low := by
  have htimes : stream._words.map Word.virtual_time_ns = seen.map Record.virtual_time_ns := by
    have hfst := congrArg (List.map Prod.fst) hwords
    unfold UartStream.words at hfst
    rwa [List.map_map, List.map_map] at hfst
  have hlast : stream._words.getLast?.map Word.virtual_time_ns =
      seen.getLast?.map Record.virtual_time_ns := by
    rw [← List.getLast?_map, ← List.getLast?_map, htimes]
  have hnew : w.reached key = seen ++ rest.filter fun r =>
      r.virtual_time_ns ≤ w.sim.virtual_time_ns := by
    unfold World.reached
    rw [hlog, List.filter_append]
    congr 1
    rw [List.filter_eq_self]
    intro r hr
    exact decide_eq_true (hreached r hr)
  rw [hlog] at hsorted
  obtain ⟨hseen, -, hbefore⟩ := List.pairwise_append.mp hsorted
  unfold World.samples
  rw [hlast, hlog, hnew]
  rcases List.eq_nil_or_concat seen with rfl | ⟨init, last, rfl⟩
  · -- No word yet: the whole range is new.
    obtain ⟨stream', hrun, hstream'⟩ := push_new_fresh none
      (stream._words.countP fun word => some word.virtual_time_ns = none)
      (rest.filter fun r => r.virtual_time_ns ≤ w.sim.virtual_time_ns) 0 stream
      (fun last h => by cases h)
    refine ⟨stream', ?_, ?_⟩
    · simpa using hrun
    · rw [hstream', hwords]
      rfl
  · rw [List.concat_eq_append] at *
    have hmax : ∀ r ∈ init ++ [last], r.virtual_time_ns ≤ last.virtual_time_ns := by
      intro r hr
      rcases List.mem_append.mp hr with hr | hr
      · exact (List.pairwise_append.mp hseen).2.2 r hr last (by simp)
      · exact Nat.le_of_eq (congrArg Record.virtual_time_ns (List.mem_singleton.mp hr))
    have hmem : last ∈ init ++ [last] := by simp
    -- The stream has as many words of the last time as the log has records of it.
    have hcount : (stream._words.countP fun word =>
        some word.virtual_time_ns = some last.virtual_time_ns) =
          ((init ++ [last]).filter fun r =>
            r.virtual_time_ns = last.virtual_time_ns).length := by
      have hmap := congrArg (List.countP fun vt => vt = last.virtual_time_ns) htimes
      rw [List.countP_map, List.countP_map] at hmap
      rw [← List.countP_eq_length_filter]
      simpa [Function.comp_def] using hmap
    have hrange : (((init ++ [last]) ++ rest).filter fun r =>
        last.virtual_time_ns ≤ r.virtual_time_ns ∧
          r.virtual_time_ns ≤ w.sim.virtual_time_ns) =
        ((init ++ [last]).filter fun r => r.virtual_time_ns = last.virtual_time_ns) ++
          rest.filter fun r => r.virtual_time_ns ≤ w.sim.virtual_time_ns := by
      rw [List.filter_append]
      congr 1
      · apply List.filter_congr
        intro r hr
        have hle := hmax r hr
        have hnow := hreached r hr
        rw [decide_eq_decide]
        omega
      · apply List.filter_congr
        intro r hr
        have hle := hbefore last hmem r hr
        rw [decide_eq_decide]
        exact and_iff_right hle
    have hlast? : (init ++ [last]).getLast?.map Record.virtual_time_ns =
        some last.virtual_time_ns := by simp
    rw [hlast?, hcount]
    simp only [Option.getD_some, hrange]
    rw [List.map_append, push_new_seen]
    · obtain ⟨stream', hrun, hstream'⟩ := push_new_fresh (some last.virtual_time_ns)
        ((init ++ [last]).filter fun r => r.virtual_time_ns = last.virtual_time_ns).length
        (rest.filter fun r => r.virtual_time_ns ≤ w.sim.virtual_time_ns)
        (0 + ((init ++ [last]).filter fun r =>
          r.virtual_time_ns = last.virtual_time_ns).length) stream
        (by
          rintro _ ⟨⟩
          exact ⟨by omega, fun r hr => hbefore last hmem r ((List.mem_filter.mp hr).1)⟩)
      refine ⟨stream', hrun, ?_⟩
      rw [hstream', hwords, ← List.map_append]
    · intro r hr
      simpa using (List.mem_filter.mp hr).2
    · omega

/-- A call returns the stream of exactly the records that are reached, and keeps
    it. -/
theorem World.Tracks.uart {w : World} {key : Key} (h : w.Tracks key) :
    ∃ stream, w.sim._uart w.samples key = (.ok stream, (w.put key stream).sim) ∧
      stream.words = (w.reached key).map Record.low := by
  obtain ⟨hsorted, seen, rest, hlog, hwords, hreached⟩ := h
  obtain ⟨stream', hrun, hstream'⟩ :=
    push_new_tracks hlog hsorted hreached (w.stream key) hwords
  refine ⟨stream', ?_, hstream'⟩
  unfold World.stream at hrun
  unfold Simulation._uart
  dsimp only
  rw [if_neg (by simp [World.samples]), hrun]
  rfl

/-! ## Runs -/

theorem World.Initial.tracks {w : World} (h : w.Initial) (key : Key) : w.Tracks key := by
  refine ⟨h.ascending key, [], w.logs key, rfl, ?_, by simp⟩
  unfold World.stream
  rw [h.no_stream key]
  rfl

/-- Another stream in place of one leaves the others alone. -/
theorem World.put_tracks {w : World} {key key' : Key} {stream : UartStream} (h : w.Tracks key)
    (hwords : key = key' → stream.words = (w.stream key).words) :
    (w.put key' stream).Tracks key := by
  obtain ⟨hsorted, seen, rest, hlog, hseen, hreached⟩ := h
  refine ⟨hsorted, seen, rest, hlog, ?_, hreached⟩
  rw [← hseen]
  unfold World.put World.stream
  by_cases hkey : key = key'
  · subst hkey
    simpa [World.stream] using hwords rfl
  · simp [Function.update_of_ne hkey]

/-- Every legal act keeps the streams in step with their logs. -/
theorem World.tracks_step {w : World} (h : ∀ key, w.Tracks key) (act : Act)
    (hlegal : w.Legal act) (key : Key) : (w.step act).Tracks key := by
  have hsame := h key
  obtain ⟨hsorted, seen, rest, hlog, hwords, hreached⟩ := hsame
  cases act with
  | append key' record =>
    by_cases hkey : key = key'
    · subst hkey
      have hlogs : (w.step (.append key record)).logs key = w.logs key ++ [record] := by
        simp [World.step]
      refine ⟨?_, seen, rest ++ [record], ?_, hwords, hreached⟩
      · rw [hlogs]
        refine List.pairwise_append.mpr ⟨hsorted, List.pairwise_singleton _ _, ?_⟩
        intro r hr s hs
        rw [List.mem_singleton.mp hs]
        exact hlegal r hr
      · rw [hlogs, hlog, List.append_assoc]
    · have hlogs : (w.step (.append key' record)).logs key = w.logs key := by
        simp [World.step, Function.update_of_ne hkey]
      refine ⟨?_, seen, rest, ?_, hwords, hreached⟩
      · rw [hlogs]
        exact hsorted
      · rw [hlogs]
        exact hlog
  | advance now =>
    exact ⟨hsorted, seen, rest, hlog, hwords, fun r hr => Nat.le_trans (hreached r hr) hlegal⟩
  | uart key' =>
    obtain ⟨stream, hcall, hstream⟩ := (h key').uart
    have hstep : w.step (.uart key') = w.put key' stream := by
      show { w with sim := (w.sim._uart w.samples key').2 } = _
      rw [hcall]
      rfl
    rw [hstep]
    by_cases hkey : key = key'
    · -- The stream now holds all records that the time has reached.
      subst hkey
      refine ⟨hsorted, w.reached key, _, hsorted.reached_first w.sim.virtual_time_ns, ?_, ?_⟩
      · rw [← hstream]
        simp [World.put, World.stream]
      · intro r hr
        exact of_decide_eq_true (List.mem_filter.mp hr).2
    · exact World.put_tracks ⟨hsorted, seen, rest, hlog, hwords, hreached⟩
        fun heq => absurd heq hkey
  | readline key' from_ns =>
    apply World.put_tracks ⟨hsorted, seen, rest, hlog, hwords, hreached⟩
    rintro rfl
    exact UartStream.readline_words _ _
  | read key' count from_ns =>
    apply World.put_tracks ⟨hsorted, seen, rest, hlog, hwords, hreached⟩
    rintro rfl
    exact UartStream.read_words _ _ _

theorem World.tracks_run (acts : List Act) : ∀ {w : World}, (∀ key, w.Tracks key) →
    w.LegalRun acts → ∀ key, (w.run acts).Tracks key := by
  induction acts with
  | nil =>
    intro w h _
    exact h
  | cons act acts ih =>
    intro w h hlegal
    exact ih (World.tracks_step h act hlegal.1) hlegal.2

/-- After any run a call of `_uart` returns, for each record that the virtual time
    has reached, one word with its time and its low byte, in log order. -/
theorem uart_stream_exact {w : World} (hinit : w.Initial) {acts : List Act}
    (hlegal : w.LegalRun acts) (key : Key) :
    ∃ stream, ((w.run acts).sim._uart (w.run acts).samples key).1 = .ok stream ∧
      ((w.run acts).step (.uart key)).stream key = stream ∧
      stream.words = ((w.run acts).reached key).map Record.low := by
  obtain ⟨stream, hcall, hstream⟩ :=
    (World.tracks_run acts (fun key => hinit.tracks key) hlegal key).uart
  refine ⟨stream, by rw [hcall], ?_, hstream⟩
  show (((w.run acts).sim._uart (w.run acts).samples key).2._uarts key).getD ⟨[]⟩ = stream
  rw [hcall]
  simp [World.put]

/-- No records and no streams. -/
def empty_world : World := ⟨⟨0, fun _ => none⟩, fun _ => []⟩

/-- Three words of one time that arrive over two calls, with a read in between. -/
def late_words : List Act :=
  [.append ("b", "tx") ⟨5, 0x61⟩, .append ("b", "tx") ⟨5, 0x62⟩, .advance 5, .uart ("b", "tx"),
    .read ("b", "tx") 1 none, .append ("b", "tx") ⟨5, 0x0A⟩, .append ("b", "tx") ⟨9, 0x63⟩]

theorem empty_world_initial : empty_world.Initial :=
  ⟨fun _ => rfl, fun _ => List.Pairwise.nil⟩

theorem uart_stream_exact_late : ∃ stream,
    ((empty_world.run late_words).sim._uart (empty_world.run late_words).samples
      ("b", "tx")).1 = .ok stream ∧
    ((empty_world.run late_words).step (.uart ("b", "tx"))).stream ("b", "tx") = stream ∧
    stream.words = ((empty_world.run late_words).reached ("b", "tx")).map Record.low :=
  uart_stream_exact empty_world_initial (by decide +kernel) ("b", "tx")

/-- A record of nine bits, and the time it was logged at. -/
def nine_bits : List Act := [.append ("b", "tx") ⟨5, 0x1FF⟩, .advance 5]

/-- The top bit of a word of nine bits is not kept. -/
theorem uart_stream_drops_top_bit : empty_world.Initial ∧ empty_world.LegalRun nine_bits ∧
    ¬ ∀ stream, ((empty_world.run nine_bits).sim._uart (empty_world.run nine_bits).samples
      ("b", "tx")).1 = .ok stream → stream.words =
        ((empty_world.run nine_bits).reached ("b", "tx")).map fun r =>
          (r.virtual_time_ns, r.value) := by
  refine ⟨empty_world_initial, by decide +kernel, ?_⟩
  intro h
  have hwords := h ⟨[⟨5, 0xFF, false⟩]⟩ rfl
  exact absurd hwords (by decide +kernel)

end Rl78Sim.SystemTest
