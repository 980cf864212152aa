import Rl78Sim.Cluster.LogRuns

/-! # Shutting the Log Down

    As long as no queue overflows, no send fails and no process takes lines with
    it, nothing is lost. When the arbiter shuts its log down, the forwarder goes
    round once more before it ends: it empties the buffers of the nodes, unless
    `receive` fails, and then its own queue.
-/

namespace Rl78Sim

open Transition Relay

variable {cap : Nat} {cfg : LogConfig}

namespace LogPc

/-- The thread has ended. -/
def ended : LogPc cap → Bool
  | done => true
  | _ => false

/-- The thread has seen the shutdown. -/
def last_round : LogPc cap → Bool
  | receive _ last => last
  | forward _ last => last
  | take last => last
  | publish _ last => last
  | check => false
  | done => true

end LogPc

namespace LogNet

/-- Nothing is lost in the step. -/
def Lossless (s : LogNet cap × LogHistory) (l : LogStep) : Prop := s.1.NoLoss l

/-- Nothing is lost, the arbiter does not exit before its forwarder, and
    `receive` does not fail in the last pass of the forwarder. -/
def Orderly (s : LogNet cap × LogHistory) (l : LogStep) : Prop :=
  Lossless s l ∧ (l = .exit .arbiter → (s.1.thread .arbiter).pc.ended = true) ∧
    (l = .receive_fails → (s.1.thread .arbiter).pc.last_round = false)

variable {s s' : LogNet cap} {l : LogStep} {source : LogSource}

/-! ### What is given away -/

/-- What is ready for the forwarder leaves at its head and grows by what its
    process gives away. -/
def Gives (s : LogNet cap) (l : LogStep) (s' : LogNet cap) (source : LogSource) : Prop :=
  ∃ moved arrived, s.ready source ++ arrived = moved ++ s'.ready source ∧
    s.unsent source ++ s.logs source l = arrived ++ s'.unsent source

theorem Gives.same (hlogs : s.logs source l = []) (hready : s'.ready source = s.ready source)
    (hunsent : s'.unsent source = s.unsent source) : Gives s l s' source :=
  ⟨[], [], by rw [hready, List.append_nil, List.nil_append],
    by rw [hlogs, hunsent, List.append_nil, List.nil_append]⟩

/-- The lines of a process are in its own thread and buffer. -/
theorem set_thread_behind {other : LogSource} (h : other ≠ source) (thread : LogThread cap) :
    (s.set_thread source thread).ready other = s.ready other ∧
      (s.set_thread source thread).unsent other = s.unsent other := by
  have hthread := s.set_thread_ne thread h
  cases other with
  | arbiter => exact ⟨congrArg (fun t => t.queue.records) hthread, rfl⟩
  | node b => exact ⟨rfl, congrArg (fun t => t.pc.hand ++ t.queue.records) hthread⟩

/-- What the arbiter has in its hand is under way. -/
theorem set_thread_same {thread : LogThread cap}
    (hhand : source ≠ .arbiter → thread.pc.hand = (s.thread source).pc.hand)
    (hrecords : thread.queue.records = (s.thread source).queue.records) (other : LogSource) :
    (s.set_thread source thread).ready other = s.ready other ∧
      (s.set_thread source thread).unsent other = s.unsent other := by
  by_cases h : other = source
  · subst h
    have hthread := s.set_thread_self other thread
    cases other with
    | arbiter => exact ⟨(congrArg (fun t => t.queue.records) hthread).trans hrecords, rfl⟩
    | node b =>
      refine ⟨rfl, (congrArg (fun t => t.pc.hand ++ t.queue.records) hthread).trans ?_⟩
      show _ ++ _ = _ ++ _
      rw [hhand (by simp), hrecords]
  · exact set_thread_behind h thread

theorem gives_set_thread {thread : LogThread cap} {other : LogSource}
    (hlogs : s.logs other l = [])
    (hhand : source ≠ .arbiter → thread.pc.hand = (s.thread source).pc.hand)
    (hrecords : thread.queue.records = (s.thread source).queue.records) :
    Gives s l (s.set_thread source thread) other :=
  Gives.same hlogs (set_thread_same hhand hrecords other).1
    (set_thread_same hhand hrecords other).2

theorem arbiter_pc_same (pc : LogPc cap) (other : LogSource) :
    (s.set_thread .arbiter { s.thread .arbiter with pc := pc }).ready other = s.ready other ∧
      (s.set_thread .arbiter { s.thread .arbiter with pc := pc }).unsent other =
        s.unsent other := by
  refine set_thread_same (fun h => absurd rfl h) ?_ other
  rfl

theorem gives_log {level : LogLevel} {text : String} {queue : LogQueue cap}
    (hpush : (s.thread source).queue.push_text level text = some queue)
    (hroom : (s.thread source).queue.records.length < log_queue_cap) (other : LogSource) :
    Gives s (.log source level text)
      (s.set_thread source { s.thread source with queue := queue }) other := by
  obtain ⟨record, hrecord, rfl⟩ := Option.map_eq_some_iff.mp hpush
  by_cases h : other = source
  · subst h
    have hlogs : s.logs other (.log other level text) = [record] := by
      simp only [logs, if_pos, hrecord, Option.toList_some]
    have hthread := s.set_thread_self other
      { s.thread other with queue := (s.thread other).queue.push record }
    have hrecords : ((s.thread other).queue.push record).records =
        (s.thread other).queue.records ++ [record] := Ring.push_of_lt hroom
    cases other with
    | arbiter =>
      refine ⟨[], [record], ?_, by rw [hlogs]; rfl⟩
      rw [List.nil_append]
      exact (congrArg (fun t => t.queue.records) hthread).trans hrecords |>.symm
    | node b =>
      refine ⟨[], [], List.append_nil _, ?_⟩
      rw [hlogs, List.nil_append]
      refine Eq.trans ?_ (congrArg (fun t => t.pc.hand ++ t.queue.records) hthread).symm
      show _ ++ _ ++ _ = _ ++ _
      rw [hrecords, List.append_assoc]
  · obtain ⟨hready, hunsent⟩ := set_thread_behind (s := s) h
      { s.thread source with queue := (s.thread source).queue.push record }
    exact Gives.same (if_neg (Ne.symm h)) hready hunsent

theorem gives_take_all {thread : LogThread cap}
    (htake : (s.thread source).take_all = some thread) (other : LogSource) :
    Gives s (.take_all source) (s.set_thread source thread) other := by
  obtain ⟨hbefore, hhand, hrecords⟩ := take_all_cases htake
  by_cases h : other = source
  · subst h
    have hthread := s.set_thread_self other thread
    cases other with
    | arbiter =>
      refine ⟨(s.thread .arbiter).queue.records, [], ?_, rfl⟩
      have hready : (s.set_thread .arbiter thread).ready .arbiter = [] :=
        (congrArg (fun t => t.queue.records) hthread).trans hrecords
      rw [hready]
      rfl
    | node b =>
      refine ⟨[], [], List.append_nil _, ?_⟩
      refine Eq.trans ?_ (congrArg (fun t => t.pc.hand ++ t.queue.records) hthread).symm
      show _ ++ _ ++ _ = _ ++ _
      rw [hbefore, hhand, hrecords]
      simp only [logs, List.nil_append, List.append_nil]
  · obtain ⟨hready, hunsent⟩ := set_thread_behind (s := s) h thread
    exact Gives.same rfl hready hunsent

theorem gives_publish {record : ClusterLog cap} {thread : LogThread cap}
    (hnext : (s.thread source).next_record = some (record, thread))
    (hsafe : s.NoLoss (.publish source true)) (other : LogSource) :
    Gives s (.publish source true) ((s.set_thread source thread).send source record) other := by
  obtain ⟨hhand, hqueue⟩ := next_record_cases hnext
  cases source with
  | arbiter =>
    -- What the arbiter publishes is not ready any more.
    by_cases h : other = .arbiter
    · subst h
      have hthread := s.set_thread_self .arbiter thread
      refine Gives.same rfl ?_ rfl
      show ((s.set_thread .arbiter thread).thread .arbiter).queue.records = _
      rw [hthread, hqueue]
      rfl
    · obtain ⟨hready, hunsent⟩ := set_thread_behind (s := s) h thread
      refine Gives.same rfl ?_ ?_
      · cases other <;> exact hready
      · cases other <;> exact hunsent
  | node b =>
    by_cases h : other = .node b
    · subst h
      have hthread := s.set_thread_self (.node b) thread
      refine ⟨[], [record], ?_, ?_⟩
      · show s.n2a b ++ [record] = Function.update s.n2a b _ b
        rw [Function.update_self]
        exact (Ring.push_of_lt hsafe.2).symm
      · refine Eq.trans ?_ (congrArg (fun t => [record] ++ (t.pc.hand ++ t.queue.records))
          hthread).symm
        show _ ++ _ ++ [] = _
        rw [List.append_nil, hhand, hqueue]
        rfl
    · obtain ⟨hready, hunsent⟩ := set_thread_behind (s := s) h thread
      refine Gives.same rfl ?_ ?_
      · cases other with
        | arbiter => exact hready
        | node c =>
          have hc : c ≠ b := fun hc => h (by rw [hc])
          exact (Function.update_of_ne hc ..).trans hready
      · cases other <;> exact hunsent

theorem gives_look (hown : Owned cfg s) {board : HashedId} (hlook : s.look cfg board = some s')
    (other : LogSource) : Gives s (.look board) s' other := by
  obtain ⟨unseen, last, hpc, -, rfl⟩ := look_receive hlook
  cases hring : s.n2a board with
  | nil =>
    rw [receive_nil hring]
    obtain ⟨hready, hunsent⟩ := arbiter_pc_same (s := s) (.receive (unseen.erase board) last) other
    exact Gives.same rfl hready hunsent
  | cons record rest =>
    obtain ⟨-, -, hreceive⟩ := hown.receive_cons hring
    rw [hreceive]
    cases other with
    | arbiter =>
      have hthread := s.set_thread_self .arbiter
        { s.thread .arbiter with pc := .forward record last }
      exact Gives.same rfl (congrArg (fun t => t.queue.records) hthread) rfl
    | node c =>
      have hne : LogSource.node c ≠ .arbiter := by simp
      have hthread := s.set_thread_ne { s.thread .arbiter with pc := .forward record last } hne
      have hunsent := congrArg (fun t => t.pc.hand ++ t.queue.records) hthread
      by_cases h : c = board
      · subst h
        refine ⟨[record], [], ?_, ?_⟩
        · show s.n2a c ++ [] = _ ++ Function.update s.n2a c rest c
          rw [Function.update_self, hring, List.append_nil]
          rfl
        · exact (List.append_nil _).trans hunsent.symm
      · exact Gives.same rfl (Function.update_of_ne h ..) hunsent

/-- The steps of the server and of the pages leave the processes alone. -/
theorem server_frame (hl : l.of_process = false) (hstep : s.step cfg l = some s') :
    s'.thread = s.thread ∧ s'.n2a = s.n2a := by
  cases l with
  | begin_poll | inbox_fails =>
    simp only [step, Option.ite_none_right_eq_some, Option.some.injEq] at hstep
    obtain ⟨-, rfl⟩ := hstep
    exact ⟨rfl, rfl⟩
  | try_recv =>
    simp only [step, Option.ite_none_right_eq_some] at hstep
    obtain ⟨-, hstep⟩ := hstep
    split at hstep <;> cases hstep <;> exact ⟨rfl, rfl⟩
  | try_wait exited =>
    simp only [step, Option.ite_none_right_eq_some] at hstep
    obtain ⟨-, hstep⟩ := hstep
    cases exited with
    | none =>
      cases hstep
      exact ⟨rfl, rfl⟩
    | some code =>
      simp only [Option.ite_none_right_eq_some, Option.some.injEq] at hstep
      obtain ⟨-, rfl⟩ := hstep
      exact ⟨rfl, rfl⟩
  | connect page =>
    simp only [step, Option.ite_none_right_eq_some, Option.some.injEq] at hstep
    obtain ⟨-, rfl⟩ := hstep
    exact ⟨rfl, rfl⟩
  | poll page =>
    simp only [step, Option.ite_none_right_eq_some, Option.bind_eq_some_iff,
      Option.map_eq_some_iff] at hstep
    obtain ⟨-, stream, -, stream', -, rfl⟩ := hstep
    exact ⟨rfl, rfl⟩
  | yield page =>
    simp only [step, Option.bind_eq_some_iff, Option.map_eq_some_iff] at hstep
    obtain ⟨stream, -, stream', -, rfl⟩ := hstep
    exact ⟨rfl, rfl⟩
  | _ => cases hl

theorem gives_server (hl : l.of_process = false) (hstep : s.step cfg l = some s')
    (other : LogSource) : Gives s l s' other := by
  obtain ⟨hthread, hn2a⟩ := server_frame hl hstep
  have hlogs : s.logs other l = [] := by
    cases l with
    | log source level text => cases hl
    | _ => rfl
  cases other with
  | arbiter => exact Gives.same hlogs (by rw [ready, ready, hthread]) rfl
  | node b => exact Gives.same hlogs (by rw [ready, ready, hn2a]) (by rw [unsent, unsent, hthread])

theorem gives_step (hown : Owned cfg s) (hsafe : s.NoLoss l) (hstep : s.step cfg l = some s')
    (other : LogSource) : Gives s l s' other := by
  cases l with
  | log source level text =>
    simp only [step, Option.ite_none_right_eq_some, Option.map_eq_some_iff] at hstep
    obtain ⟨-, queue, hpush, rfl⟩ := hstep
    exact gives_log hpush hsafe other
  | shutdown source =>
    simp only [step, Option.ite_none_right_eq_some, Option.some.injEq] at hstep
    obtain ⟨-, rfl⟩ := hstep
    exact gives_set_thread rfl (fun _ => rfl) rfl
  | exit source =>
    simp only [step, Option.ite_none_right_eq_some, Option.some.injEq] at hstep
    obtain ⟨-, rfl⟩ := hstep
    have hgives : Gives s (.exit source)
        (s.set_thread source ⟨{ (s.thread source).queue with records := [] }, .done⟩) other := by
      refine gives_set_thread rfl (fun _ => ?_) ?_
      · exact hsafe.1.symm
      · exact hsafe.2.symm
    cases other <;> exact hgives
  | take_all source =>
    simp only [step, Option.ite_none_right_eq_some, Option.map_eq_some_iff] at hstep
    obtain ⟨-, thread, htake, rfl⟩ := hstep
    exact gives_take_all htake other
  | publish source sent =>
    simp only [step, Option.ite_none_right_eq_some, Option.map_eq_some_iff] at hstep
    obtain ⟨-, ⟨record, thread⟩, hnext, rfl⟩ := hstep
    obtain rfl : sent = true := by cases source <;> exact hsafe.1
    exact gives_publish hnext hsafe other
  | round source =>
    simp only [step, Option.ite_none_right_eq_some, Option.map_eq_some_iff] at hstep
    obtain ⟨-, thread, hround, rfl⟩ := hstep
    obtain ⟨hbefore, hafter, hqueue⟩ := round_cases hround
    exact gives_set_thread rfl (fun _ => hafter.trans hbefore.symm) (by rw [hqueue])
  | look board => exact gives_look hown hstep other
  | nothing =>
    obtain ⟨last, -, rfl⟩ := nothing_cases hstep
    obtain ⟨hready, hunsent⟩ := arbiter_pc_same (s := s) (.take last) other
    exact Gives.same rfl hready hunsent
  | receive_fails =>
    obtain ⟨unseen, last, -, rfl⟩ := receive_fails_cases hstep
    obtain ⟨hready, hunsent⟩ := arbiter_pc_same (s := s) (.take last) other
    exact Gives.same rfl hready hunsent
  | forward sent =>
    obtain ⟨record, last, -, rfl⟩ := forward_cases hstep
    obtain ⟨hready, hunsent⟩ := arbiter_pc_same (s := s) (.receive cfg.hashes last) other
    refine Gives.same rfl ?_ ?_
    · cases sent <;> cases other <;> exact hready
    · cases sent <;> cases other <;> exact hunsent
  | begin_poll | try_recv | inbox_fails | try_wait _ | connect _ | poll _ | yield _ =>
    exact gives_server rfl hstep other

/-! ### What the forwarder has reached -/

section runs

variable {s s' : LogNet cap × LogHistory}

/-- What is taken, and what is published, only grows at its end. -/
theorem passed_grows (hown : Owned cfg s.1) (hsafe : s.1.NoLoss l)
    (hstep : (log_runs cap cfg).step s l = some s') (source : LogSource) :
    s.2.passed s.1 source <+: s'.2.passed s'.1 source ∧
      s.2.published s.1 source <+: s'.2.published s'.1 source := by
  obtain ⟨hact, hlog⟩ := System.logged_step_cases hstep
  obtain ⟨moved, arrived, hready, hunsent⟩ := gives_step hown hsafe hact source
  have hpass : Passed (s.1.NoLoss l) (s.2.logged source) (s.2.line s.1 source)
      (s'.2.logged source) (s'.2.line s'.1 source) := runs_passes hown hstep
  obtain ⟨new, hlogged, -, hline⟩ := hpass
  -- What is new in the line is what the step logs.
  have hnew : new = (s.1.logs source l).map ClusterLog.entry := by
    rw [hlog] at hlogged
    exact (List.append_cancel_left hlogged).symm
  have hsplit (t : LogNet cap × LogHistory) : t.2.line t.1 source =
      t.2.passed t.1 source ++ ((t.1.ready source).map ClusterLog.entry ++
        (t.1.unsent source).map ClusterLog.entry) := by
    unfold LogHistory.line LogHistory.passed rest
    rw [List.map_append, List.map_append, List.append_assoc, List.append_assoc]
  have hline' := hline hsafe
  rw [hsplit s', hsplit s, hnew] at hline'
  constructor
  · refine front_grows hline' ⟨moved.map ClusterLog.entry, ?_⟩
    rw [List.append_assoc, ← List.map_append, hunsent, ← List.map_append, ← List.map_append,
      ← List.map_append, ← List.append_assoc, hready, List.append_assoc]
  · rw [← List.append_assoc, ← List.append_assoc (s.2.passed s.1 source)] at hline'
    refine front_grows hline' ⟨arrived.map ClusterLog.entry, ?_⟩
    rw [← List.map_append, hunsent, List.map_append]

end runs

end LogNet

namespace LogPc

/-- In the last round the thread has taken everything that was ready for it of
    this process. -/
def Reached (cfg : LogConfig) (source : LogSource) : LogPc cap → Prop
  | receive unseen last =>
    last = true ∧ ∃ board ∈ cfg.hashes, source = .node board ∧ board ∉ unseen
  | take last => last = true ∧ ∃ board ∈ cfg.hashes, source = .node board
  | publish _ last => last = true ∧ cfg.runs source = true
  | done => cfg.runs source = true
  | forward _ _ => False
  | check => False

theorem Reached.last_round {source : LogSource} {pc : LogPc cap} (h : pc.Reached cfg source) :
    pc.last_round = true := by
  cases pc with
  | receive unseen last => exact h.1
  | take last => exact h.1
  | publish batch last => exact h.1
  | done => rfl
  | forward record last => exact h.elim
  | check => exact h.elim

end LogPc

namespace LogNet

/-- The forwarder goes on: it sees the shutdown only after it, and has reached
    only what it had reached before or what is empty now. -/
structure Advances (cfg : LogConfig) (s s' : LogNet cap) : Prop where
  shutdown : (s'.thread .arbiter).queue.shutdown = (s.thread .arbiter).queue.shutdown
  last : (s'.thread .arbiter).pc.last_round = true →
    (s.thread .arbiter).pc.last_round = true ∨ (s.thread .arbiter).queue.shutdown = true
  reached (source : LogSource) : (s'.thread .arbiter).pc.Reached cfg source →
    (s.thread .arbiter).pc.Reached cfg source ∨ s'.ready source = []

theorem Advances.still
    (hshutdown : (s'.thread .arbiter).queue.shutdown = (s.thread .arbiter).queue.shutdown)
    (hpc : (s'.thread .arbiter).pc = (s.thread .arbiter).pc) : Advances cfg s s' :=
  ⟨hshutdown, fun hlast => .inl (hpc ▸ hlast), fun _ hr => .inl (hpc ▸ hr)⟩

theorem Advances.of_eq (h : s'.thread .arbiter = s.thread .arbiter) : Advances cfg s s' :=
  .still (by rw [h]) (by rw [h])

/-- The forwarder goes to another place of its loop. -/
theorem Advances.goes {pc pc' : LogPc cap} (hpc : (s.thread .arbiter).pc = pc)
    (hthread : s'.thread .arbiter = { s.thread .arbiter with pc := pc' })
    (hlast : pc'.last_round = true →
      pc.last_round = true ∨ (s.thread .arbiter).queue.shutdown = true)
    (hreached : ∀ source, pc'.Reached cfg source → pc.Reached cfg source ∨ s'.ready source = []) :
    Advances cfg s s' := by
  refine ⟨by rw [hthread], fun h => ?_, fun source h => ?_⟩
  · rw [hthread] at h
    rw [hpc]
    exact hlast h
  · rw [hthread] at h
    rw [hpc]
    exact hreached source h

theorem advances_take_all {thread : LogThread cap}
    (htake : (s.thread .arbiter).take_all = some thread) :
    Advances cfg s (s.set_thread .arbiter thread) := by
  obtain ⟨last, hpc, rfl⟩ := take_all_pc htake
  have hthread := s.set_thread_self .arbiter
    ⟨{ (s.thread .arbiter).queue with records := [] },
      .publish (s.thread .arbiter).queue.records last⟩
  refine ⟨by rw [hthread], fun h => .inl ?_, fun source h => ?_⟩
  · rw [hthread] at h
    rw [hpc]
    exact h
  · rw [hthread] at h
    cases source with
    | arbiter => exact .inr (congrArg (fun t => t.queue.records) hthread)
    | node b =>
      rw [hpc]
      exact .inl ⟨h.1, b, List.contains_iff_mem.mp h.2, rfl⟩

theorem advances_publish {record : ClusterLog cap} {thread : LogThread cap}
    (hnext : (s.thread .arbiter).next_record = some (record, thread))
    (h : s'.thread .arbiter = thread) : Advances cfg s s' := by
  obtain ⟨batch, last, hpc, rfl⟩ := next_record_pc hnext
  exact .goes hpc h (fun hlast => .inl hlast) fun _ hr => .inl hr

theorem advances_round {thread : LogThread cap}
    (hround : (s.thread .arbiter).round (cfg.loop_head .arbiter) = some thread) :
    Advances cfg s (s.set_thread .arbiter thread) := by
  have hthread := s.set_thread_self .arbiter thread
  rcases round_pc hround with ⟨last, hpc, rfl⟩ | ⟨hpc, rfl⟩
  · refine .goes hpc hthread (fun hlast => .inl ?_) fun source hr => .inl ?_
    · cases last with
      | true => rfl
      | false => cases hlast
    · cases last with
      | true => exact ⟨rfl, hr⟩
      | false => exact hr.elim
  · refine .goes hpc hthread (fun hlast => .inr hlast) fun source hr => ?_
    -- No connection has been looked at.
    obtain ⟨-, board, hboard, -, hseen⟩ := hr
    exact absurd hboard hseen

theorem advances_look (hown : Owned cfg s) {board : HashedId}
    (hlook : s.look cfg board = some s') : Advances cfg s s' := by
  obtain ⟨unseen, last, hpc, hmem, rfl⟩ := look_receive hlook
  cases hring : s.n2a board with
  | nil =>
    rw [receive_nil hring]
    refine .goes hpc (s.set_thread_self ..) (fun hlast => .inl hlast) fun source hr => ?_
    obtain ⟨hlast, b, hb, rfl, hnot⟩ := hr
    by_cases hunseen : b ∈ unseen
    · -- It is the connection that has just been found empty.
      obtain rfl : b = board := by
        by_contra hne
        exact hnot ((List.mem_erase_of_ne hne).mpr hunseen)
      exact .inr hring
    · exact .inl ⟨hlast, b, hb, rfl, hunseen⟩
  | cons record rest =>
    obtain ⟨-, -, hreceive⟩ := hown.receive_cons hring
    rw [hreceive]
    exact .goes hpc (s.set_thread_self ..) (fun hlast => .inl hlast) fun _ hr => hr.elim

theorem advances_nothing (hstep : s.step cfg .nothing = some s') : Advances cfg s s' := by
  obtain ⟨last, hpc, rfl⟩ := nothing_cases hstep
  refine .goes hpc (s.set_thread_self ..) (fun hlast => .inl hlast) fun source hr => .inl ?_
  obtain ⟨hlast, b, hb, rfl⟩ := hr
  exact ⟨hlast, b, hb, rfl, List.not_mem_nil⟩

/-- A failure of `receive` reaches nothing, so it must not be in the last pass. -/
theorem advances_receive_fails (hpass : (s.thread .arbiter).pc.last_round = false)
    (hstep : s.step cfg .receive_fails = some s') : Advances cfg s s' := by
  obtain ⟨unseen, last, hpc, rfl⟩ := receive_fails_cases hstep
  obtain rfl : last = false := by
    rw [hpc] at hpass
    exact hpass
  refine .goes hpc (s.set_thread_self ..) (fun hlast => ?_) fun source hr => ?_
  · cases hlast
  · cases hr.1

theorem advances_forward {sent : Bool} (hstep : s.step cfg (.forward sent) = some s') :
    Advances cfg s s' := by
  obtain ⟨record, last, hpc, hnet⟩ := forward_cases hstep
  have hset := s.set_thread_self .arbiter
    { s.thread .arbiter with pc := .receive cfg.hashes last }
  have hthread : s'.thread .arbiter =
      { s.thread .arbiter with pc := .receive cfg.hashes last } := by
    rw [hnet]
    cases sent <;> exact hset
  refine .goes hpc hthread (fun hlast => .inl hlast) fun source hr => ?_
  obtain ⟨-, board, hboard, -, hseen⟩ := hr
  exact absurd hboard hseen

/-- The arbiter may exit only when the forwarder has ended. -/
theorem advances_exit (hended : (s.thread .arbiter).pc.ended = true)
    (hstep : s.step cfg (.exit .arbiter) = some s') : Advances cfg s s' := by
  simp only [step, Option.ite_none_right_eq_some, Option.some.injEq] at hstep
  obtain ⟨-, rfl⟩ := hstep
  have hpc : (s.thread .arbiter).pc = .done := by
    cases hp : (s.thread .arbiter).pc with
    | done => rfl
    | _ => rw [hp] at hended; cases hended
  have hthread := s.set_thread_self .arbiter
    ⟨{ (s.thread .arbiter).queue with records := [] }, .done⟩
  refine .still (congrArg (fun t => t.queue.shutdown) hthread) ?_
  exact (congrArg LogThread.pc hthread).trans hpc.symm

/-- In an orderly step the forwarder goes on, unless it is the shutdown. -/
theorem advances_step (hown : Owned cfg s) {hist : LogHistory} (hok : Orderly (s, hist) l)
    (hshutdown : l ≠ .shutdown .arbiter) (hstep : s.step cfg l = some s') :
    Advances cfg s s' := by
  have hnode (b : HashedId) (thread : LogThread _) :
      Advances cfg s (s.set_thread (.node b) thread) := .of_eq (s.set_thread_ne thread (by simp))
  cases l with
  | log source level text =>
    simp only [step, Option.ite_none_right_eq_some, Option.map_eq_some_iff] at hstep
    obtain ⟨-, queue, hpush, rfl⟩ := hstep
    obtain ⟨record, -, rfl⟩ := Option.map_eq_some_iff.mp hpush
    cases source with
    | arbiter =>
      have hthread := s.set_thread_self .arbiter
        { s.thread .arbiter with queue := (s.thread .arbiter).queue.push record }
      exact .still (by rw [hthread]; rfl) (by rw [hthread])
    | node b => exact hnode b _
  | shutdown source =>
    simp only [step, Option.ite_none_right_eq_some, Option.some.injEq] at hstep
    obtain ⟨-, rfl⟩ := hstep
    cases source with
    | arbiter => exact absurd rfl hshutdown
    | node b => exact hnode b _
  | exit source =>
    cases source with
    | arbiter => exact advances_exit (hok.2.1 rfl) hstep
    | node b =>
      simp only [step, Option.ite_none_right_eq_some, Option.some.injEq] at hstep
      obtain ⟨-, rfl⟩ := hstep
      exact .of_eq rfl
  | take_all source =>
    simp only [step, Option.ite_none_right_eq_some, Option.map_eq_some_iff] at hstep
    obtain ⟨-, thread, htake, rfl⟩ := hstep
    cases source with
    | arbiter => exact advances_take_all htake
    | node b => exact hnode b thread
  | publish source sent =>
    simp only [step, Option.ite_none_right_eq_some, Option.map_eq_some_iff] at hstep
    obtain ⟨-, ⟨record, thread⟩, hnext, rfl⟩ := hstep
    cases source with
    | arbiter =>
      have hthread := s.set_thread_self .arbiter thread
      refine advances_publish hnext ?_
      cases sent <;> exact hthread
    | node b => cases sent <;> exact .of_eq rfl
  | round source =>
    simp only [step, Option.ite_none_right_eq_some, Option.map_eq_some_iff] at hstep
    obtain ⟨-, thread, hround, rfl⟩ := hstep
    cases source with
    | arbiter => exact advances_round hround
    | node b => exact hnode b thread
  | look board => exact advances_look hown hstep
  | nothing => exact advances_nothing hstep
  | receive_fails => exact advances_receive_fails (hok.2.2 rfl) hstep
  | forward sent => exact advances_forward hstep
  | begin_poll | try_recv | inbox_fails | try_wait _ | connect _ | poll _ | yield _ =>
    exact .of_eq (congrFun (server_frame rfl hstep).1 _)

section runs

variable {s s' : LogNet cap × LogHistory}

/-- Once the arbiter has shut its log down, what was published then goes on. -/
structure Flushes (cfg : LogConfig) (s : LogNet cap × LogHistory) : Prop where
  published : ∀ due, s.2.due = some due → ∀ source, due source <+: s.2.published s.1 source
  told : s.2.due = none → (s.1.thread .arbiter).queue.shutdown = false
  seen : (s.1.thread .arbiter).pc.last_round = true →
    (s.1.thread .arbiter).queue.shutdown = true
  reached : ∀ due, s.2.due = some due → ∀ source,
    (s.1.thread .arbiter).pc.Reached cfg source → due source <+: s.2.passed s.1 source

theorem published_eq_passed (h : s.1.ready source = []) :
    s.2.published s.1 source = s.2.passed s.1 source := by
  unfold LogHistory.published
  rw [h, List.map_nil, List.append_nil]

/-- What has been taken, and what has been published, has grown at its end. -/
def Grows (s s' : LogNet cap × LogHistory) : Prop :=
  ∀ source, s.2.passed s.1 source <+: s'.2.passed s'.1 source ∧
    s.2.published s.1 source <+: s'.2.published s'.1 source

/-- A step that is not the shutdown. -/
theorem Flushes.keep (h : Flushes cfg s) (hgrows : Grows s s') (hdue : s'.2.due = s.2.due)
    (hadvances : Advances cfg s.1 s'.1) : Flushes cfg s' where
  published due hd source := by
    rw [hdue] at hd
    exact (h.published due hd source).trans (hgrows source).2
  told hnone := by
    rw [hdue] at hnone
    rw [hadvances.shutdown, h.told hnone]
  seen hround := by
    rw [hadvances.shutdown]
    exact (hadvances.last hround).elim h.seen id
  reached due hd source hr := by
    rw [hdue] at hd
    rcases hadvances.reached source hr with hold | hempty
    · exact (h.reached due hd source hold).trans (hgrows source).1
    · rw [← published_eq_passed hempty]
      exact (h.published due hd source).trans (hgrows source).2

/-- The arbiter shuts its log down, perhaps once more. -/
theorem Flushes.shutdown (h : Flushes cfg s)
    (hline : s.2.logged .arbiter = s.2.line s.1 .arbiter) (hgrows : Grows s s')
    (hdue : s'.2.due = some (s.2.due.getD (s.2.owed s.1)))
    (hshutdown : (s'.1.thread .arbiter).queue.shutdown = true)
    (hpc : (s'.1.thread .arbiter).pc = (s.1.thread .arbiter).pc) : Flushes cfg s' := by
  cases hold : s.2.due with
  | some due =>
    rw [hold] at hdue
    refine ⟨fun d hd source => ?_, fun hnone => ?_, fun _ => hshutdown, fun d hd source hr => ?_⟩
    · obtain rfl : due = d := Option.some.inj (hdue.symm.trans hd)
      exact (h.published due hold source).trans (hgrows source).2
    · rw [hdue] at hnone
      cases hnone
    · obtain rfl : due = d := Option.some.inj (hdue.symm.trans hd)
      exact (h.reached due hold source (hpc ▸ hr)).trans (hgrows source).1
  | none =>
    rw [hold] at hdue
    refine ⟨fun d hd source => ?_, fun hnone => ?_, fun _ => hshutdown, fun d hd source hr => ?_⟩
    · obtain rfl : s.2.owed s.1 = d := Option.some.inj (hdue.symm.trans hd)
      cases source with
      | node b => exact (hgrows (.node b)).2
      | arbiter =>
        have hall : s.2.logged .arbiter = s.2.published s.1 .arbiter := by
          rw [hline]
          unfold LogHistory.line LogHistory.published LogHistory.passed rest unsent
          rw [List.append_nil, List.map_append, List.append_assoc]
        show s.2.logged .arbiter <+: _
        rw [hall]
        exact (hgrows .arbiter).2
    · rw [hdue] at hnone
      cases hnone
    · -- The thread cannot be in its last round yet.
      have hseen := h.seen (hpc ▸ hr).last_round
      rw [h.told hold] at hseen
      cases hseen

theorem record_due {s s' : LogNet cap} (h : LogHistory) (hl : l ≠ .shutdown .arbiter) :
    (LogHistory.record s l s' h).due = h.due := by
  unfold LogHistory.record
  dsimp only
  split
  · exact absurd rfl hl
  · rfl

theorem flushes_step (hown : Owned cfg s.1) (hline : s.2.logged .arbiter = s.2.line s.1 .arbiter)
    (h : Flushes cfg s) (hok : Orderly s l)
    (hstep : (log_runs cap cfg).step s l = some s') : Flushes cfg s' := by
  have hgrows : Grows s s' := passed_grows hown hok.1 hstep
  obtain ⟨hact, hlog⟩ := System.logged_step_cases hstep
  replace hact : s.1.step cfg l = some s'.1 := hact
  by_cases hshutdown : l = .shutdown .arbiter
  · subst hshutdown
    have hdue : s'.2.due = some (s.2.due.getD (s.2.owed s.1)) := by
      rw [hlog]
      rfl
    simp only [step, Option.ite_none_right_eq_some, Option.some.injEq] at hact
    obtain ⟨-, hnet⟩ := hact
    have hthread := s.1.set_thread_self .arbiter
      { s.1.thread .arbiter with queue := { (s.1.thread .arbiter).queue with shutdown := true } }
    rw [hnet] at hthread
    exact h.shutdown hline hgrows hdue (by rw [hthread]) (by rw [hthread])
  · have hdue : s'.2.due = s.2.due := by
      rw [hlog]
      exact record_due s.2 hshutdown
    exact h.keep hgrows hdue (advances_step hown hok hshutdown hact)

/-! ### Main results -/

/-- In a run in which no queue overflows, no send fails and no process takes
    lines with it, every line that a process has logged is stored or on its way,
    in the order in which it was logged. -/
theorem log_nothing_lost (h : Reachable (log_runs cap cfg) Lossless s) (source : LogSource) :
    s.2.line s.1 source = s.2.logged source := by
  have hpasses (t : LogNet cap × LogHistory) (l : LogStep) (t' : LogNet cap × LogHistory)
      (hreach : Reachable (log_runs cap cfg) Lossless t) (_ : Lossless t l)
      (hstep : (log_runs cap cfg).step t l = some t') :
      Passed (t.1.NoLoss l) (t.2.logged source) (t.2.line t.1 source) (t'.2.logged source)
        (t'.2.line t'.1 source) :=
    runs_passes (owned_of_reachable hreach) hstep
  refine line_eq (fun t hi => ?_) hpasses (fun _ _ hok => hok) h
  rw [line_of_init hi, hi.2]
  rfl

theorem flushes_of_reachable (h : Reachable (log_runs cap cfg) Orderly s) : Flushes cfg s := by
  induction h with
  | init hi =>
    rename_i t
    obtain ⟨net, hist⟩ := t
    obtain rfl : net = .new cfg := hi.1
    obtain rfl : hist = .new := hi.2
    refine ⟨fun due hd => ?_, fun _ => rfl, fun hlast => ?_, fun due hd => ?_⟩
    · cases hd
    · cases hlast
    · cases hd
  | step l hreach hok hstep ih =>
    have hline := log_nothing_lost (hreach.mono fun _ _ hok => hok.1) .arbiter
    exact flushes_step (owned_of_reachable hreach) hline.symm ih hok hstep

/-- When the forwarder has ended, the server has stored, or can read, all that
    the arbiter had logged when it shut its log down, and all that the nodes had
    published by then. -/
theorem log_flushed (h : Reachable (log_runs cap cfg) Orderly s)
    (hended : (s.1.thread .arbiter).pc.ended = true)
    {due : LogSource → List (String × String)} (hdue : s.2.due = some due)
    (hruns : cfg.runs source = true) :
    due source <+: s.2.delivered source ++
      (s.1.a2s.filter fun record => record.source = source).map ClusterLog.entry := by
  have hpc : (s.1.thread .arbiter).pc = .done := by
    cases hp : (s.1.thread .arbiter).pc with
    | done => rfl
    | _ => rw [hp] at hended; cases hended
  have hreached : (s.1.thread .arbiter).pc.Reached cfg source := by
    rw [hpc]
    exact hruns
  have hflush := (flushes_of_reachable h).reached due hdue source hreached
  unfold LogHistory.passed under_way at hflush
  rw [hpc] at hflush
  simpa only [LogPc.hand, List.append_nil] using hflush

end runs

/-! ### Runs that are orderly -/

instance (s : LogNet cap) (l : LogStep) : Decidable (s.NoLoss l) :=
  match l with
  | .log .. => inferInstanceAs (Decidable (_ < _))
  | .exit _ => inferInstanceAs (Decidable (_ = [] ∧ _ = []))
  | .publish .arbiter _ => inferInstanceAs (Decidable (_ ∧ _))
  | .publish (.node _) _ => inferInstanceAs (Decidable (_ ∧ _))
  | .forward _ => inferInstanceAs (Decidable (_ ∧ _))
  | .shutdown .. | .take_all .. | .round .. | .look .. | .nothing | .receive_fails
  | .begin_poll | .try_recv | .inbox_fails | .try_wait .. | .connect .. | .poll ..
  | .yield .. => isTrue trivial

instance (s : LogNet cap × LogHistory) (l : LogStep) : Decidable (Lossless s l) :=
  inferInstanceAs (Decidable (s.1.NoLoss l))

instance (s : LogNet cap × LogHistory) (l : LogStep) : Decidable (Orderly s l) :=
  inferInstanceAs (Decidable (_ ∧ _))

/-- The node and the arbiter log, and the arbiter shuts its log down. -/
def shutdown_run : List LogStep :=
  [.log (.node 7) .Warn "node", .log .arbiter .Info "up", .take_all (.node 7),
    .publish (.node 7) true, .shutdown .arbiter, .look 7, .forward true, .look 7, .nothing,
    .take_all .arbiter, .publish .arbiter true, .round .arbiter, .round .arbiter, .look 7,
    .nothing, .take_all .arbiter, .round .arbiter]

theorem log_nothing_lost_pair : ∃ s : LogNet 4 × LogHistory,
    Reachable (log_runs 4 lone_log) Lossless s ∧
    s.2.logged (.node 7) = [("warn", "node")] ∧
    s.2.line s.1 (.node 7) = s.2.logged (.node 7) := by
  obtain ⟨s, hs, hlogged⟩ : ∃ s : LogNet 4 × LogHistory,
      Reachable (log_runs 4 lone_log) Lossless s ∧ s.2.logged (.node 7) = [("warn", "node")] :=
    Reachable.exists_of_exec shutdown_run init_log_runs (by decide +kernel)
  exact ⟨s, hs, hlogged, log_nothing_lost hs _⟩

theorem log_flushed_pair : ∃ s : LogNet 4 × LogHistory,
    Reachable (log_runs 4 lone_log) Orderly s ∧ ∃ due, s.2.due = some due ∧
    due .arbiter = [("info", "up")] ∧ due (.node 7) = [("warn", "node")] ∧
    ∀ source ∈ [LogSource.arbiter, .node 7], due source <+: s.2.delivered source ++
      (s.1.a2s.filter fun record => record.source = source).map ClusterLog.entry := by
  obtain ⟨s, hs, hended, hdue⟩ : ∃ s : LogNet 4 × LogHistory,
      Reachable (log_runs 4 lone_log) Orderly s ∧ (s.1.thread .arbiter).pc.ended = true ∧
      (s.2.due.map fun due => (due .arbiter, due (.node 7))) =
        some ([("info", "up")], [("warn", "node")]) :=
    Reachable.exists_of_exec shutdown_run init_log_runs (by decide +kernel)
  obtain ⟨due, hsome, hpair⟩ := Option.map_eq_some_iff.mp hdue
  refine ⟨s, hs, due, hsome, congrArg Prod.fst hpair, congrArg Prod.snd hpair, ?_⟩
  intro source hsource
  refine log_flushed hs hended hsome ?_
  rcases List.mem_pair.mp hsource with rfl | rfl
  · rfl
  · rfl

end LogNet

end Rl78Sim
