import Rl78Sim.Hw.G23
import Rl78Sim.Kernel.MachineLaws
import Rl78Sim.Probe.Tap

/-! # The History of a UART Wire

    The log of a board has of every interval between two executions of
    `ingest_and_emit` the last frame that was driven in it, if the log had room.
    The other frames of the interval are in no log: the tap holds one sample.

    The drives of an entity only grow in number, at each of its steps. The tap
    holds the last of the frames driven since the log was fed, and the log has
    what the tap held each time.
-/

namespace Rl78Sim

open Transition NodeProbes ProbeRecord

variable {n m : Nat} {E F : Type} [Entity E F]

/-! ### The drives of a board grow -/

/-- The entity has driven further values, at times of a `u64`. -/
def Entity.Further (e e' : E) : Prop :=
  ∃ new : List (Drive F), (Entity.ports e').driven = (Entity.ports e).driven ++ new ∧
    ∀ d ∈ new, d.at_ ≤ u64_max

namespace Entity.Further

theorem refl (e : E) : Entity.Further e e := ⟨[], by simp⟩

theorem trans {e e' e'' : E} (h : Entity.Further e e') (h' : Entity.Further e' e'') :
    Entity.Further e e'' := by
  obtain ⟨new, hdriven, htimes⟩ := h
  obtain ⟨new', hdriven', htimes'⟩ := h'
  refine ⟨new ++ new', by simp [hdriven, hdriven'], ?_⟩
  intro d hd
  rcases List.mem_append.mp hd with hd | hd
  · exact htimes d hd
  · exact htimes' d hd

theorem of_extends {e e' : E} {lo hi : Nat} (hhi : hi ≤ u64_max)
    (h : (Entity.ports e).Extends (Entity.ports e') lo hi) : Entity.Further e e' := by
  obtain ⟨new, -, hdriven, hat⟩ := h
  exact ⟨new, hdriven, fun d hd => Nat.le_trans (hat d hd).2 hhi⟩

variable [LawfulEntity E]

theorem of_timeless {e e' : E} (h : Entity.Timeless e e') : Entity.Further e e' :=
  of_extends (LawfulEntity.now_le_max e) h.ports

theorem of_call {e e' : E} (h : Entity.Call e e') : Entity.Further e e' := by
  cases h with
  | poll fuel ctx _ r hpoll =>
    exact of_extends (LawfulEntity.now_le_max e') (LawfulEntity.poll_ports hpoll)
  | inspect cmd => exact of_timeless (LawfulEntity.inspect_timeless e cmd)
  | poll_actions => exact of_timeless (LawfulEntity.poll_actions_timeless e)
  | apply_action req => exact of_timeless (LawfulEntity.apply_action_timeless e req)
  | drain names =>
    refine ⟨[], ?_, by simp⟩
    rw [LawfulEntity.drain_ports]
    simp

theorem of_works {e e' : E} (h : Entity.Works e e') : Entity.Further e e' := by
  induction h with
  | refl => exact refl e
  | tail _ hlast ih => exact ih.trans (of_call hlast)

/-- A step of a node apart from its control drain. -/
theorem of_act {cfg : Config n m} {i : Fin n} {l : Node.Act} {lanes lanes' : Lanes m F}
    {nd nd' : Node m E F} {out : List Report}
    (h : nd.act cfg i lanes l = some (lanes', nd', out)) :
    Entity.Further nd.sim.entity nd'.sim.entity := by
  cases Node.act_guest h with
  | works _ _ hworks => exact of_works hworks
  | received e k rest frame lane _ _ _ _ hentity =>
    rw [hentity]
    exact of_timeless (LawfulEntity.receive_timeless _ _ _)

/-- One turn of the control drain. -/
theorem of_take {cfg : Config n m} {i : Fin n} {t : Node.Take} {msg : ControlToNode n}
    {lanes lanes' : Lanes m F} {nd nd' : Node m E F} {out : List Report}
    (h : nd.take cfg i t msg lanes = some (lanes', nd', out)) :
    Entity.Further nd.sim.entity nd'.sim.entity := by
  rcases Node.take_entity h with hentity | hentity | ⟨noted, nd₁, msgs, hsim, hstep, hentity⟩
  · rw [hentity]
    exact refl _
  · rw [hentity]
    exact of_timeless (LawfulEntity.reset_timeless _)
  · rw [hentity, ← hsim]
    exact of_works (Node.works_local_step noted hstep)

end Entity.Further

/-! ### The log is fed -/

namespace ProbeLog

theorem keep_history (log : ProbeLog) (record : ProbeRecord) :
    (log.keep record).history = log.history ++ [record] :=
  (same_note_window (log.store record) record).history_eq

/-- A record that is pushed is in the history if the log has room for it. -/
theorem Wf.push_history {log : ProbeLog} (h : log.Wf) (written : Nat) (record : ProbeRecord) :
    (log.push written record).history =
      log.history ++ if log.room written record.probe_id then [record] else [] := by
  unfold ProbeLog.push room
  by_cases hfull : log.at_cap record.probe_id
  · by_cases htruncated : log.truncated
    · simp [hfull, htruncated]
    · rw [if_neg (by simp [htruncated]), if_pos hfull]
      cases hqueue : log.memory record.probe_id with
      | nil =>
        have hle : log.cap ≤ (log.memory record.probe_id).length := of_decide_eq_true hfull
        rw [hqueue] at hle
        exact absurd hle (Nat.not_le.mpr h.cap_pos)
      | cons oldest queue =>
        rw [spill_oldest_eq written hqueue]
        by_cases hwritten : spill_rec ≤ written
        · rw [if_pos hwritten]
          have hroom : ¬written < spill_rec := Nat.not_lt.mpr hwritten
          simp [htruncated, hroom, keep_history]
        · rw [if_neg hwritten]
          simp [hfull, Nat.lt_of_not_le hwritten]
  · simp [hfull, keep_history]

end ProbeLog

section Ingest

variable (pending : Nat → Option TapSample) (written : Nat → Nat)

theorem ingest_slot_wf {log : ProbeLog} (h : log.Wf) {point : ProbePoint}
    (hpoint : point ∈ log.catalog) : (ingest_slot pending written log point).Wf ∧
      (ingest_slot pending written log point).catalog = log.catalog := by
  unfold ingest_slot
  split
  · split
    · rename_i hkind
      exact ⟨h.push _ ⟨point, hpoint, rfl, hkind.symm⟩, (h.pushed _ _).catalog_eq⟩
    · exact ⟨h, rfl⟩
  · exact ⟨h, rfl⟩

/-- The slot of another probe adds nothing to the records of `p`. -/
theorem ingest_slot_of_ne {log : ProbeLog} (h : log.Wf) {point : ProbePoint} {p : Nat}
    (hp : point.probe_id ≠ p) :
    of p (ingest_slot pending written log point).history = of p log.history := by
  unfold ingest_slot
  split
  · split
    · rename_i sample _ _
      rw [h.push_history, of_append]
      have hnone : of p [point.record sample] = [] :=
        List.filter_cons_of_neg (by simp [ProbePoint.record, hp])
      split
      · rw [hnone, List.append_nil]
      · exact List.append_nil _
    · rfl
  · rfl

theorem ingest_slots_of_ne (points : List ProbePoint) {log : ProbeLog} (h : log.Wf)
    (hknown : ∀ point ∈ points, point ∈ log.catalog) {p : Nat}
    (hp : ∀ point ∈ points, point.probe_id ≠ p) :
    let log' := points.foldl (ingest_slot pending written) log
    log'.Wf ∧ log'.catalog = log.catalog ∧ of p log'.history = of p log.history := by
  induction points generalizing log with
  | nil => exact ⟨h, rfl, rfl⟩
  | cons point points ih =>
    obtain ⟨hwf, hcatalog⟩ := ingest_slot_wf pending written h (hknown point List.mem_cons_self)
    have hsame := ingest_slot_of_ne pending written h (hp point List.mem_cons_self)
    obtain ⟨hwf', hcatalog', hsame'⟩ := ih hwf
      (fun point' hpoint' => hcatalog ▸ hknown point' (List.mem_cons_of_mem _ hpoint'))
      (fun point' hpoint' => hp point' (List.mem_cons_of_mem _ hpoint'))
    exact ⟨hwf', hcatalog'.trans hcatalog, hsame'.trans hsame⟩

/-- What an execution of `ingest` adds to the records of a probe: the sample
    that it finds, if the log has room when it comes to the probe. -/
theorem ingest_history {log : ProbeLog} (h : log.Wf) {point : ProbePoint}
    (hpoint : point ∈ log.catalog)
    (hkind : ∀ sample, pending point.probe_id = some sample → sample.value.kind = point.kind) :
    of point.probe_id (ingest pending written log).history =
      of point.probe_id log.history ++
        if (ingest_before pending written point.probe_id log).room (written point.probe_id)
          point.probe_id then (pending point.probe_id).toList.map point.record else [] := by
  obtain ⟨before, after, hcatalog⟩ := List.append_of_mem hpoint
  -- The other points have other ids.
  have hnodup := h.nodup
  rw [hcatalog, List.map_append, List.map_cons, List.nodup_append] at hnodup
  obtain ⟨-, hafter, hdisjoint⟩ := hnodup
  have hne_before : ∀ q ∈ before, q.probe_id ≠ point.probe_id := by
    intro q hq
    exact hdisjoint _ (List.mem_map_of_mem hq) _ List.mem_cons_self
  have hne_after : ∀ q ∈ after, q.probe_id ≠ point.probe_id := by
    intro q hq heq
    exact (List.nodup_cons.mp hafter).1 (List.mem_map.mpr ⟨q, hq, heq⟩)
  have htake : log.catalog.takeWhile (fun q => q.probe_id ≠ point.probe_id) = before := by
    rw [hcatalog, List.takeWhile_append_of_pos (by simpa using hne_before)]
    simp
  have hsplit : ingest pending written log = after.foldl (ingest_slot pending written)
      (ingest_slot pending written (ingest_before pending written point.probe_id log) point) := by
    show log.catalog.foldl (ingest_slot pending written) log = _
    unfold ingest_before
    rw [htake]
    conv => lhs; rw [hcatalog]
    rw [List.foldl_append]
    rfl
  have hbefore : ingest_before pending written point.probe_id log =
      before.foldl (ingest_slot pending written) log := by
    unfold ingest_before
    rw [htake]
  rw [hsplit]
  have hslots := ingest_slots_of_ne pending written before h
    (by intro q hq; rw [hcatalog]; exact List.mem_append_left _ hq) hne_before
  rw [← hbefore] at hslots
  generalize ingest_before pending written point.probe_id log = log₁ at hslots ⊢
  obtain ⟨hwf₁, hcatalog₁, hof₁⟩ := hslots
  obtain ⟨hwf₂, hcatalog₂⟩ := ingest_slot_wf pending written hwf₁
    (by rw [hcatalog₁]; exact hpoint)
  obtain ⟨-, -, hof⟩ := ingest_slots_of_ne pending written after hwf₂
    (by
      intro q hq
      rw [hcatalog₂, hcatalog₁, hcatalog]
      exact List.mem_append_right _ (List.mem_cons_of_mem _ hq)) hne_after
  rw [hof, ← hof₁]
  unfold ingest_slot
  cases hsample : pending point.probe_id with
  | none => simp
  | some sample =>
    dsimp only
    rw [if_pos (hkind sample hsample), hwf₁.push_history, of_append]
    have hmine : of point.probe_id [point.record sample] = [point.record sample] :=
      List.filter_cons_of_pos (decide_eq_true rfl)
    show _ ++ of _ (if log₁.room _ point.probe_id then _ else _) = _
    split
    · rw [hmine]
      rfl
    · rfl

end Ingest

/-! ### What the log has of each interval -/

/-- The drive time and the word of a record, and of a frame of the wire. -/
def ProbeRecord.stamp (r : ProbeRecord) : Nat × Nat := (r.virtual_time_ns, r.value)

def ProbeSample.stamp (frame : ProbeSample UartFrame) : Nat × Nat :=
  (frame.virtual_time_ns, frame.value.data.toNat)

namespace Interval

/-- The frames of an interval that get into the log: the last one. -/
def logged (v : Interval) : List (ProbeSample UartFrame) :=
  if v.room then v.frames.getLast?.toList else []

/-- All the frames of an interval get into the log if there is at most one, and
    room for it. -/
theorem length_logged (v : Interval) : v.logged.length ≤ v.frames.length ∧
    (v.logged.length = v.frames.length ↔
      v.frames = [] ∨ v.frames.length = 1 ∧ v.room = true) := by
  unfold logged
  cases hlast : v.frames.getLast? with
  | none =>
    have hnil := List.getLast?_eq_none_iff.mp hlast
    simp [hnil]
  | some frame =>
    have hne : v.frames ≠ [] := by
      intro hnil
      rw [hnil] at hlast
      cases hlast
    have hpos := List.length_pos_iff.mpr hne
    cases v.room with
    | false => simp [hne, Nat.ne_of_lt hpos]
    | true =>
      simp only [if_true, Option.toList_some, List.length_singleton, hne, false_or, and_true]
      omega

/-- An interval all of whose frames get into the log has nothing else there. -/
theorem logged_eq {v : Interval} (h : v.frames = [] ∨ v.frames.length = 1 ∧ v.room = true) :
    v.logged = v.frames := by
  unfold logged
  rcases h with hnil | ⟨hone, hroom⟩
  · simp [hnil]
  · obtain ⟨frame, hframe⟩ := List.length_eq_one_iff.mp hone
    simp [hframe, hroom]

theorem flatMap_logged {intervals : List Interval} {α : Type} (f : ProbeSample UartFrame → α) :
    (intervals.flatMap logged).map f = (intervals.flatMap frames).map f ↔
      ∀ v ∈ intervals, v.frames = [] ∨ v.frames.length = 1 ∧ v.room = true := by
  constructor
  · intro heq
    have hlen := congrArg List.length heq
    simp only [List.length_map] at hlen
    clear heq
    -- No interval logs more than it has heard, so equal lengths mean that each
    -- logs all.
    have hle (intervals : List Interval) :
        (intervals.flatMap logged).length ≤ (intervals.flatMap frames).length := by
      induction intervals with
      | nil => exact Nat.le_refl _
      | cons v rest ih =>
        simp only [List.flatMap_cons, List.length_append]
        exact Nat.add_le_add v.length_logged.1 ih
    induction intervals with
    | nil => intro v hv; cases hv
    | cons v rest ih =>
      simp only [List.flatMap_cons, List.length_append] at hlen
      have hv := v.length_logged
      have hrest := hle rest
      intro u hu
      rcases List.mem_cons.mp hu with heq | hu
      · subst heq
        exact hv.2.mp (by omega)
      · exact ih (by omega) u hu
  · intro h
    have heq : intervals.flatMap logged = intervals.flatMap frames := by
      induction intervals with
      | nil => rfl
      | cons v rest ih =>
        rw [List.flatMap_cons, List.flatMap_cons, logged_eq (h v List.mem_cons_self),
          ih fun u hu => h u (List.mem_cons_of_mem _ hu)]
    rw [heq]

end Interval

/-! ### The invariant -/

/-- The frames of the wire are those of the intervals and those since. The tap
    holds the last one since; the log has what is logged of the intervals. -/
structure WireRecorded (wire : UartWire F) (point : ProbePoint) (s : TappedNode n m E F) :
    Prop where
  log : s.probes.log.Wf
  known : point ∈ s.probes.log.catalog
  kind : point.kind = .Uart
  policy : s.tap.policy = .EveryDrive
  pending : s.tap.pending = s.since.getLast?
  times : ∀ d ∈ (Entity.ports s.node.sim.entity).driven, d.at_ ≤ u64_max
  frames : wire.frames (Entity.ports s.node.sim.entity).driven =
    s.intervals.flatMap Interval.frames ++ s.since
  history : of point.probe_id s.probes.log.history =
    (s.intervals.flatMap Interval.logged).map fun frame => point.record frame.to_tap

namespace WireRecorded

variable {wire : UartWire F} {point : ProbePoint} {s : TappedNode n m E F}

/-- The entity of the board has worked. -/
theorem follow (h : WireRecorded wire point s) {node : Node m E F}
    (hfurther : Entity.Further s.node.sim.entity node.sim.entity) :
    WireRecorded wire point (s.follow wire node) := by
  obtain ⟨new, hdriven, htimes⟩ := hfurther
  have hheard : TappedNode.heard wire s.node.sim.entity node.sim.entity = wire.frames new := by
    unfold TappedNode.heard
    rw [hdriven, List.drop_left]
  obtain ⟨hpolicy, hpending⟩ := ProbeState.hear_every_drive h.policy (wire.frames new)
  refine ⟨h.log, h.known, h.kind, ?_, ?_, ?_, ?_, h.history⟩
  · show (s.tap.hear _).policy = _
    rw [hheard]
    exact hpolicy
  · show (s.tap.hear _).pending = (s.since ++ _).getLast?
    rw [hheard, hpending, List.getLast?_append, h.pending]
  · show ∀ d ∈ (Entity.ports node.sim.entity).driven, _
    rw [hdriven]
    intro d hd
    rcases List.mem_append.mp hd with hd | hd
    · exact h.times d hd
    · exact htimes d hd
  · show wire.frames (Entity.ports node.sim.entity).driven = _ ++ (s.since ++ _)
    rw [hheard, hdriven, UartWire.frames_append, h.frames]
    exact List.append_assoc _ _ _

/-- A step of the runtime of the probes that leaves what is stored. -/
theorem same_store (h : WireRecorded wire point s) {probes : NodeProbes n}
    (hsame : ProbeLog.SameStore s.probes.log probes.log) :
    WireRecorded wire point { s with probes := probes } := by
  refine ⟨h.log.same hsame, ?_, h.kind, h.policy, h.pending, h.times, h.frames, ?_⟩
  · show point ∈ probes.log.catalog
    rw [hsame.catalog_eq]
    exact h.known
  · show of _ probes.log.history = _
    rw [hsame.history_eq]
    exact h.history

/-- The log is fed. -/
theorem ingest (h : WireRecorded wire point s) (io : IngestIo) :
    WireRecorded wire point (s.ingest point io) := by
  -- The tap keeps the last frame since the ingest before, and that is what is
  -- logged.
  have hsample : TappedNode.pending_of point io s.tap point.probe_id =
      s.since.getLast?.map ProbeSample.to_tap := by
    unfold TappedNode.pending_of
    rw [if_pos rfl]
    show s.tap.pending.map _ = _
    rw [h.pending]
  have hfed := ingest_history (TappedNode.pending_of point io s.tap) io.written h.log h.known (by
      intro sample hs
      rw [hsample] at hs
      obtain ⟨frame, -, rfl⟩ := Option.map_eq_some_iff.mp hs
      exact h.kind.symm)
  rw [hsample] at hfed
  obtain ⟨hwf, hcatalog⟩ := wf_ingest h.log (TappedNode.pending_of point io s.tap) io.written
  have hsame := ProbeLog.same_poll_coarse
    (NodeProbes.ingest (TappedNode.pending_of point io s.tap) io.written s.probes.log) io.due
  refine ⟨hwf.same hsame, ?_, h.kind, h.policy, rfl, h.times, ?_, ?_⟩
  · exact (hsame.catalog_eq.trans hcatalog) ▸ h.known
  · refine h.frames.trans ?_
    show _ = (s.intervals ++ [_]).flatMap Interval.frames ++ []
    rw [List.flatMap_append, List.flatMap_singleton, List.append_nil]
  · refine (congrArg (of point.probe_id) hsame.history_eq).trans (hfed.trans ?_)
    show _ = ((s.intervals ++ [_]).flatMap Interval.logged).map _
    rw [h.history, List.flatMap_append, List.flatMap_singleton, List.map_append]
    congr 1
    unfold Interval.logged
    dsimp only
    split
    · cases s.since.getLast? <;> rfl
    · rfl

/-- A drive time of a recorded frame is the time of its record. -/
theorem stamps (h : WireRecorded wire point s) :
    (s.probes.log.held point.probe_id).map ProbeRecord.stamp =
      (s.intervals.flatMap Interval.logged).map ProbeSample.stamp := by
  rw [h.log.held_eq, h.history, List.map_map]
  apply List.map_congr_left
  intro frame hframe
  obtain ⟨v, hv, hlogged⟩ := List.mem_flatMap.mp hframe
  have hmem : frame ∈ v.frames := by
    unfold Interval.logged at hlogged
    split at hlogged
    · exact List.mem_of_getLast? (Option.mem_toList.mp hlogged)
    · cases hlogged
  have hdriven : frame ∈ wire.frames (Entity.ports s.node.sim.entity).driven := by
    rw [h.frames]
    exact List.mem_append_left _ (List.mem_flatMap.mpr ⟨v, hv, hmem⟩)
  obtain ⟨d, hd, hframe⟩ := List.mem_filterMap.mp hdriven
  have htime : frame.virtual_time_ns = d.at_ := by
    split at hframe
    · obtain ⟨_, -, rfl⟩ := Option.map_eq_some_iff.mp hframe
      rfl
    · cases hframe
  have hle := h.times d hd
  show (min frame.virtual_time_ns u64_max, frame.value.data.toNat) = frame.stamp
  rw [Nat.min_eq_left (by omega)]
  rfl

end WireRecorded

/-- A control message changes nothing that is stored. -/
theorem same_take_control (i : Fin n) (msg : ControlToNode n) (nd : NodeProbes n) :
    ProbeLog.SameStore nd.log (nd.take_control i msg).1.log := by
  unfold take_control
  dsimp only
  have hwatched := nd.watched_log i (nd.state.on_message msg).2
  have hrunning (running : Bool) (watched : NodeProbes n) (hlog : watched.log = nd.log) :
      ProbeLog.SameStore nd.log (watched.set_running running).1.log := by
    rw [← hlog]
    exact ProbeLog.same_set_running watched.log running
  have hquiet (watched : NodeProbes n) (hlog : watched.log = nd.log) :
      ProbeLog.SameStore nd.log watched.log := by
    rw [← hlog]
    exact ⟨rfl, rfl, rfl, rfl, rfl, rfl, rfl⟩
  split
  · exact hrunning true _ hwatched
  · split
    · exact hrunning false _ hwatched
    · exact hquiet _ hwatched

section Runs

variable [LawfulEntity E] {cfg : Config n m} {i : Fin n} {wire : UartWire F} {point : ProbePoint}

theorem WireRecorded.step {s s' : TappedNode n m E F} {a : TapAct n m F}
    (h : WireRecorded wire point s)
    (hstep : s.step cfg i wire point a = some s') : WireRecorded wire point s' := by
  cases a with
  | take t msg lanes =>
    obtain ⟨⟨lanes', node, out⟩, htake, rfl⟩ := Option.map_eq_some_iff.mp hstep
    exact (h.follow (.of_take htake)).same_store (same_take_control i msg s.probes)
  | act l lanes io =>
    obtain ⟨⟨lanes', node, out⟩, hact, rfl⟩ := Option.map_eq_some_iff.mp hstep
    have hfollow := h.follow (.of_act hact)
    split
    · exact hfollow.ingest io
    · exact hfollow

/-- At the start of the loop the tap has heard what the reset drove. -/
theorem WireRecorded.boot {catalog : List ProbePoint} {has_inspect has_actions : Bool}
    {ports : List String} {e : E} (hnodup : (catalog.map ProbePoint.probe_id).Nodup)
    (hpoint : point ∈ catalog) (hkind : point.kind = .Uart) (he : (Entity.ports e).driven = []) :
    WireRecorded wire point
      (TappedNode.boot (n := n) cfg wire catalog has_inspect has_actions ports e) := by
  obtain ⟨new, hdriven, htimes⟩ :=
    Entity.Further.of_timeless (LawfulEntity.reset_timeless e)
  rw [he, List.nil_append] at hdriven
  -- What the reset drives at startup is heard by the tap already.
  have hheard : TappedNode.heard wire e (Entity.reset e) = wire.frames new := by
    unfold TappedNode.heard
    rw [hdriven, he]
    rfl
  have hports : (Entity.ports (Entity.drain_pending (Entity.reset e) ports)).driven = new := by
    rw [LawfulEntity.drain_ports]
    exact hdriven
  obtain ⟨hpolicy, hpending⟩ := ProbeState.hear_every_drive
    (s := ProbeState.new .EveryDrive) rfl (wire.frames new)
  refine ⟨ProbeLog.wf_with_cap _ hnodup, hpoint, hkind, ?_, ?_, ?_, ?_, rfl⟩
  · show ((ProbeState.new .EveryDrive).hear _).policy = _
    rw [hheard]
    exact hpolicy
  · show ((ProbeState.new .EveryDrive).hear _).pending = _
    rw [hheard, hpending]
    show _ = (TappedNode.heard wire e (Entity.reset e)).getLast?
    rw [hheard]
    exact Option.or_none
  · show ∀ d ∈ (Entity.ports (Entity.drain_pending (Entity.reset e) ports)).driven, _
    rw [hports]
    exact htimes
  · show wire.frames (Entity.ports (Entity.drain_pending (Entity.reset e) ports)).driven = [] ++ _
    rw [hports]
    exact hheard.symm

theorem WireRecorded.reachable {s : TappedNode n m E F}
    (h : Reachable (tapped_runs E cfg i wire point) AnyTurn s) : WireRecorded wire point s := by
  induction h with
  | init hinit =>
    obtain ⟨catalog, has_inspect, has_actions, ports, e, hnodup, hpoint, hkind, he, rfl⟩ := hinit
    exact .boot hnodup hpoint hkind he
  | step _ _ _ hstep ih => exact ih.step hstep

/-- At each execution of `ingest_and_emit` the log takes the last frame driven
    since the one before, with the time of its drive, if it has room, and no
    other. It has all the frames driven up to the last execution exactly when
    no interval has more than one. -/
theorem log_keeps_last_frames {s : TappedNode n m E F}
    (h : Reachable (tapped_runs E cfg i wire point) AnyTurn s) :
    wire.frames (Entity.ports s.node.sim.entity).driven =
      s.intervals.flatMap Interval.frames ++ s.since ∧
    (s.probes.log.held point.probe_id).map ProbeRecord.stamp =
      (s.intervals.flatMap Interval.logged).map ProbeSample.stamp ∧
    ((s.probes.log.held point.probe_id).map ProbeRecord.stamp =
        (s.intervals.flatMap Interval.frames).map ProbeSample.stamp ↔
      ∀ v ∈ s.intervals, v.frames = [] ∨ v.frames.length = 1 ∧ v.room = true) := by
  have hrecorded := WireRecorded.reachable h
  refine ⟨hrecorded.frames, hrecorded.stamps, ?_⟩
  rw [hrecorded.stamps]
  exact Interval.flatMap_logged _

end Runs

/-! ### A guest that sends two words -/

/-- A guest that enables channel 0 of the serial array unit, writes two words to
    its data register and runs into a breakpoint. After that it only computes. -/
structure Talker where
  talks : Bool

namespace Talker

/-- Its stores into the registers of the unit. -/
def stores : List (Nat × List UInt8) :=
  [(0xF0118, [0, 0x80]), (0xF012A, [1, 0]), (0xF0122, [1, 0]),
    (0xFFF10, [0x41, 0]), (0xFFF10, [0x42, 0])]

/-- The stores of one quantum, and the breakpoint. -/
def quantum (max : Nat) : List (Nat × List UInt8) → BusUse Talker (Quantum max)
  | [] => .done ⟨false⟩ ⟨min 5 max, some (.Breakpoint 0), Nat.min_le_right _ _⟩
  | (addr, data) :: rest => .access ⟨false⟩ .write addr data fun _ _ _ => quantum max rest

/-- The frames of the unit leave the board at the port `tx`. -/
instance : Rest Talker Empty UartFrame where
  run_quantum max _ k :=
    if k.talks then quantum max stores else .done k ⟨max, none, Nat.le_refl _⟩
  wires _ _ _ sent k := .done k (sent.toList.map fun s => ("tx", s.2))
  reset _ _ _ k := .done k []
  read_reg _ id := .error (.UnknownRegister id)
  write_reg k id _ := (k, .error (.UnknownRegister id))
  sync_breakpoints k _ := k
  read_gdb_registers _ := .ok []
  pc _ := 0
  write_gdb_registers k _ := (k, .error .Unsupported)
  poll_actions _ k := .done k []
  apply_action _ _ k := (.done k [], some .NotFoundAction)
  drive_in _ _ _ k := .done k []
  mmio w := w.elim
  answer _ _ offset len _ := .error (.OutOfRange offset offset len)

abbrev Board := Machine (Soc (G23 Talker) (Window Empty)) G23Event UartFrame

def board : Board :=
  Machine.new ⟨⟨.new, ⟨true⟩, fun _ => none, []⟩,
    ⟨[⟨0xF0100, 0x40, .Device (.Mmio .SauCtrl)⟩, ⟨0xFFF10, 4, .Device (.Mmio .SauSdr01)⟩],
      .Log, [], none⟩⟩

/-- A cluster of one board. -/
def lone : Config 1 0 := ⟨0, 0, Fin.elim0, Nat.one_pos, nofun⟩

def wire : UartWire UartFrame := ⟨"tx", some⟩

def point : ProbePoint := ⟨1, .Uart, one_lt_u64⟩

/-- The runs of its node. -/
abbrev node_runs := tapped_runs Board lone 0 wire point

def booted : TappedNode 1 0 Board UartFrame :=
  TappedNode.boot lone wire [point] false false ["tx"] board

theorem init_booted : node_runs.init booted :=
  ⟨[point], false, false, ["tx"], board, by decide, List.mem_cons_self, rfl, rfl, rfl⟩

def message (msg : ControlToNode 1) : TapAct 1 0 UartFrame := .take ⟨3, 3⟩ msg nofun

/-- An iteration of the loop while the node runs. -/
def iteration : List (TapAct 1 0 UartFrame) :=
  [.drained, .service [], .pump_rx, .poll 5, .pump_tx].map fun l =>
    .act l nofun ⟨fun _ => none, fun _ => spill_rec, false⟩

/-- The guest is started, runs into its breakpoint, and is started again. -/
def two_words : List (TapAct 1 0 UartFrame) :=
  [message (.StartupRecord 0 0), message (.Start 100000)] ++ iteration ++
    [message (.ClusterStop .Breakpoint), message (.Start 100000)] ++ iteration

instance (s : TappedNode 1 0 Board UartFrame) (a : TapAct 1 0 UartFrame) :
    Decidable (AnyTurn s a) := .isTrue trivial

/-- The first word ends before the breakpoint stops the poll, so that the next
    poll drives both, the first at its start and the second at its end. -/
theorem runs_two_words : ∃ s, Reachable node_runs AnyTurn s ∧ s.since = [] ∧
    s.intervals.map (fun v => v.frames.map ProbeSample.stamp) = [[], [(10000, 65), (10625, 66)]] ∧
    (s.probes.log.held 1).map ProbeRecord.stamp = [(10625, 66)] :=
  Reachable.exists_of_exec two_words init_booted (by decide +kernel)

/-- What the log has of a run is what it takes at each execution. -/
theorem log_keeps_last_frames_talker : ∃ s, Reachable node_runs AnyTurn s ∧
    (s.intervals.flatMap Interval.logged).map ProbeSample.stamp = [(10625, 66)] ∧
    ¬∀ v ∈ s.intervals, v.frames = [] ∨ v.frames.length = 1 ∧ v.room = true := by
  obtain ⟨s, hs, -, hintervals, hheld⟩ := runs_two_words
  obtain ⟨-, hlog, hwhole⟩ := log_keeps_last_frames hs
  refine ⟨s, hs, hlog.symm.trans hheld, ?_⟩
  rw [← hwhole]
  intro hall
  have hframes : (s.intervals.flatMap Interval.frames).map ProbeSample.stamp =
      [(10000, 65), (10625, 66)] := by
    rw [List.map_flatMap, List.flatMap_def, hintervals]
    rfl
  have heq := hheld.symm.trans (hall.trans hframes)
  cases heq

/-- Both words have been driven and the log has been fed, but the first word is
    not in it. -/
theorem first_word_lost : ∃ s, Reachable node_runs AnyTurn s ∧ s.since = [] ∧
    (wire.frames (Entity.ports s.node.sim.entity).driven).map ProbeSample.stamp =
      [(10000, 65), (10625, 66)] ∧
    (s.probes.log.held 1).map ProbeRecord.stamp = [(10625, 66)] := by
  obtain ⟨s, hs, hsince, hintervals, hheld⟩ := runs_two_words
  refine ⟨s, hs, hsince, ?_, hheld⟩
  rw [(WireRecorded.reachable hs).frames, hsince, List.append_nil, List.map_flatMap,
    List.flatMap_def, hintervals]
  rfl

end Talker

end Rl78Sim
