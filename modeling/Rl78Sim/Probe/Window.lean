import Rl78Sim.Probe.Answers

/-! # The Coarse Window of One Probe

    What the coarse window holds of a probe are some of the records that the
    log has accepted, the newest ones last. A record that is accepted comes
    behind them or takes their place.
-/

namespace Rl78Sim

open ProbeRecord

namespace ProbeLog

/-- The records in the window are records of the log, in the place of their
    kind. -/
structure Windowed (log : ProbeLog) : Prop where
  digital : ∀ point ∈ log.catalog, ∀ r, log.digital_last point.probe_id = some r →
    r ∈ of point.probe_id log.history ∧ r.kind = .Digital
  analog : ∀ point ∈ log.catalog, ∀ r, log.analog_last point.probe_id = some r →
    r ∈ of point.probe_id log.history ∧ r.kind = .Analog
  uart : ∀ r ∈ log.uart_window, r ∈ log.history ∧ r.kind = .Uart

theorem mem_of {p : Nat} {r : ProbeRecord} {records : List ProbeRecord} :
    r ∈ of p records ↔ r ∈ records ∧ r.probe_id = p := by
  simp [of]

/-- An empty window. -/
theorem windowed_of_window {log : ProbeLog} (h : log.window = []) : log.Windowed := by
  unfold window at h
  simp only [List.append_eq_nil_iff, List.filterMap_eq_nil_iff] at h
  obtain ⟨⟨hdigital, hanalog⟩, huart⟩ := h
  refine ⟨?_, ?_, ?_⟩
  · intro point hpoint r hr
    rw [hdigital point hpoint] at hr
    cases hr
  · intro point hpoint r hr
    rw [hanalog point hpoint] at hr
    cases hr
  · rw [huart]
    simp

/-- One entry for each point of the catalog: those of a probe are its own. -/
theorem of_filterMap {points : List ProbePoint} (hnodup : (points.map ProbePoint.probe_id).Nodup)
    {last : Nat → Option ProbeRecord}
    (hid : ∀ point ∈ points, ∀ r, last point.probe_id = some r → r.probe_id = point.probe_id)
    (p : Nat) :
    of p (points.filterMap fun point => last point.probe_id) =
      if p ∈ points.map ProbePoint.probe_id then (last p).toList else [] := by
  induction points with
  | nil => rfl
  | cons point points ih =>
    obtain ⟨hnot, hrest⟩ := List.nodup_cons.mp hnodup
    have ih := ih hrest fun q hq => hid q (List.mem_cons_of_mem _ hq)
    cases hlast : last point.probe_id with
    | none =>
      simp only [List.filterMap_cons, hlast, ih]
      by_cases hp : p = point.probe_id
      · subst hp
        rw [if_neg hnot, if_pos (by simp), hlast]
        rfl
      · simp only [List.map_cons, List.mem_cons, hp, false_or]
    | some r =>
      have hr : r.probe_id = point.probe_id := hid point List.mem_cons_self r hlast
      simp only [List.filterMap_cons, hlast]
      unfold of at ih ⊢
      -- The ids are distinct, so the rest holds nothing of this probe.
      by_cases hp : p = point.probe_id
      · subst hp
        rw [List.filter_cons_of_pos (by simpa using hr), ih, if_neg hnot, if_pos (by simp), hlast]
        rfl
      · rw [List.filter_cons_of_neg (by simpa [hr] using Ne.symm hp), ih]
        simp only [List.map_cons, List.mem_cons, hp, false_or]

/-- What the window holds of a probe. -/
theorem Windowed.of_window {log : ProbeLog} (hw : log.Windowed) (h : log.Wf) {point : ProbePoint}
    (hpoint : point ∈ log.catalog) :
    of point.probe_id log.window =
      (log.digital_last point.probe_id).toList ++ (log.analog_last point.probe_id).toList ++
        of point.probe_id log.uart_window := by
  have hmem : point.probe_id ∈ log.catalog.map ProbePoint.probe_id := List.mem_map_of_mem hpoint
  unfold window
  rw [of_append, of_append, of_filterMap h.nodup, of_filterMap h.nodup, if_pos hmem, if_pos hmem]
  · intro q hq r hr
    exact (mem_of.mp (hw.analog q hq r hr).1).2
  · intro q hq r hr
    exact (mem_of.mp (hw.digital q hq r hr).1).2

/-- The records in the window are of probes of the catalog. -/
theorem Windowed.known {log : ProbeLog} (hw : log.Windowed) {r : ProbeRecord}
    (hr : r ∈ log.window) : r ∈ log.history := by
  unfold window at hr
  rcases List.mem_append.mp hr with hr | hr
  · rcases List.mem_append.mp hr with hr | hr
    · obtain ⟨point, hpoint, hlast⟩ := List.mem_filterMap.mp hr
      exact (mem_of.mp (hw.digital point hpoint r hlast).1).1
    · obtain ⟨point, hpoint, hlast⟩ := List.mem_filterMap.mp hr
      exact (mem_of.mp (hw.analog point hpoint r hlast).1).1
  · exact (hw.uart r hr).1

/-- All records of a probe have the kind of its point. -/
theorem Wf.kind_eq {log : ProbeLog} (h : log.Wf) {point : ProbePoint}
    (hpoint : point ∈ log.catalog) {r : ProbeRecord} (hr : r ∈ of point.probe_id log.history) :
    r.kind = point.kind := by
  obtain ⟨hmem, hid⟩ := mem_of.mp hr
  obtain ⟨point', hpoint', hid', hkind⟩ := h.known r hmem
  have heq : point' = point := List.inj_on_of_nodup_map h.nodup hpoint' hpoint (hid'.trans hid)
  rw [← hkind, heq]

/-- The parts of the window for other kinds hold nothing of a probe. -/
theorem Windowed.digital_none {log : ProbeLog} (hw : log.Windowed) (h : log.Wf)
    {point : ProbePoint} (hpoint : point ∈ log.catalog) (hne : point.kind ≠ .Digital) :
    log.digital_last point.probe_id = none := by
  rw [Option.eq_none_iff_forall_ne_some]
  intro r hr
  obtain ⟨hmem, hkind⟩ := hw.digital point hpoint r hr
  exact hne ((h.kind_eq hpoint hmem).symm.trans hkind)

theorem Windowed.analog_none {log : ProbeLog} (hw : log.Windowed) (h : log.Wf)
    {point : ProbePoint} (hpoint : point ∈ log.catalog) (hne : point.kind ≠ .Analog) :
    log.analog_last point.probe_id = none := by
  rw [Option.eq_none_iff_forall_ne_some]
  intro r hr
  obtain ⟨hmem, hkind⟩ := hw.analog point hpoint r hr
  exact hne ((h.kind_eq hpoint hmem).symm.trans hkind)

theorem Windowed.uart_nil {log : ProbeLog} (hw : log.Windowed) (h : log.Wf)
    {point : ProbePoint} (hpoint : point ∈ log.catalog) (hne : point.kind ≠ .Uart) :
    of point.probe_id log.uart_window = [] := by
  rw [List.eq_nil_iff_forall_not_mem]
  intro r hr
  obtain ⟨hmem, hid⟩ := mem_of.mp hr
  obtain ⟨hlogged, hkind⟩ := hw.uart r hmem
  exact hne ((h.kind_eq hpoint (mem_of.mpr ⟨hlogged, hid⟩)).symm.trans hkind)

/-! ### Accepting a record -/

/-- The parts of the window after a record has been accepted. -/
theorem keep_window (log : ProbeLog) (r : ProbeRecord) :
    (log.keep r).catalog = log.catalog ∧ (log.keep r).history = log.history ++ [r] ∧
    (log.keep r).digital_last =
      (if log.running ∧ r.kind = .Digital then
        Function.update log.digital_last r.probe_id (some r) else log.digital_last) ∧
    (log.keep r).analog_last =
      (if log.running ∧ r.kind = .Analog then
        Function.update log.analog_last r.probe_id (some r) else log.analog_last) ∧
    (log.keep r).uart_window =
      (if log.running ∧ r.kind = .Uart then log.uart_window ++ [r] else log.uart_window) := by
  unfold keep note_window store
  cases hrunning : log.running with
  | false => simp
  | true => cases hkind : r.kind <;> simp

theorem Windowed.keep {log : ProbeLog} (hw : log.Windowed) (r : ProbeRecord) :
    (log.keep r).Windowed := by
  obtain ⟨hcatalog, hhistory, hdigital, hanalog, huart⟩ := keep_window log r
  have hold (p : Nat) (x : ProbeRecord) (hx : x ∈ of p log.history) :
      x ∈ of p (log.keep r).history := by
    rw [hhistory, of_append]
    exact List.mem_append_left _ hx
  have hnew : r ∈ of r.probe_id (log.keep r).history := by
    rw [hhistory, of_append]
    exact List.mem_append_right _ (mem_of.mpr ⟨List.mem_cons_self, rfl⟩)
  -- The maps of levels and of voltages are updated in the same way.
  have hlast (last : Nat → Option ProbeRecord) (kind : ProbeKind) (c : Prop) [Decidable c]
      (hlast : ∀ point ∈ log.catalog, ∀ x, last point.probe_id = some x →
        x ∈ of point.probe_id log.history ∧ x.kind = kind) (hc : c → r.kind = kind) :
      ∀ point ∈ log.catalog, ∀ x,
        (if c then Function.update last r.probe_id (some r) else last) point.probe_id = some x →
          x ∈ of point.probe_id (log.keep r).history ∧ x.kind = kind := by
    intro point hpoint x hx
    split at hx
    · rename_i hset
      by_cases hp : point.probe_id = r.probe_id
      · rw [hp, Function.update_self] at hx
        cases hx
        rw [hp]
        exact ⟨hnew, hc hset⟩
      · rw [Function.update_of_ne hp] at hx
        obtain ⟨hmem, hkind⟩ := hlast point hpoint x hx
        exact ⟨hold _ x hmem, hkind⟩
    · obtain ⟨hmem, hkind⟩ := hlast point hpoint x hx
      exact ⟨hold _ x hmem, hkind⟩
  refine ⟨?_, ?_, ?_⟩
  · rw [hcatalog, hdigital]
    exact hlast _ _ _ hw.digital fun h => h.2
  · rw [hcatalog, hanalog]
    exact hlast _ _ _ hw.analog fun h => h.2
  · rw [huart]
    intro x hx
    split at hx
    · rename_i hset
      rcases List.mem_append.mp hx with hx | hx
      · obtain ⟨hmem, hkind⟩ := hw.uart x hx
        exact ⟨hhistory ▸ List.mem_append_left _ hmem, hkind⟩
      · rw [List.mem_singleton.mp hx]
        exact ⟨hhistory ▸ List.mem_append_right _ List.mem_cons_self, hset.2⟩
    · obtain ⟨hmem, hkind⟩ := hw.uart x hx
      exact ⟨hhistory ▸ List.mem_append_left _ hmem, hkind⟩

/-- The record comes behind what the window holds of its probe, or takes its
    place. -/
theorem Windowed.of_keep {log : ProbeLog} (hw : log.Windowed) (h : log.Wf) {r : ProbeRecord}
    (hknows : log.Knows r) {point : ProbePoint} (hpoint : point ∈ log.catalog) :
    (of point.probe_id (log.keep r).window).Sublist
      (of point.probe_id log.window ++ if r.probe_id = point.probe_id then [r] else []) := by
  obtain ⟨hcatalog, hhistory, hdigital, hanalog, huart⟩ := keep_window log r
  have hwf : (log.keep r).Wf := h.keep hknows
  rw [(hw.keep r).of_window hwf (hcatalog ▸ hpoint), hw.of_window h hpoint, hdigital, hanalog,
    huart]
  by_cases hp : r.probe_id = point.probe_id
  · rw [if_pos hp]
    -- only the parts of the probe's own kind hold anything of it
    obtain ⟨point', hpoint', hid', hkind'⟩ := hknows
    have heq : point' = point := List.inj_on_of_nodup_map h.nodup hpoint' hpoint (hid'.trans hp)
    subst heq
    cases hrunning : log.running with
    | false => simp
    | true =>
      cases hkind : r.kind with
      | Digital =>
        have hne : point'.kind = .Digital := hkind'.trans hkind
        simp [hw.analog_none h hpoint' (by simp [hne]), hw.uart_nil h hpoint' (by simp [hne]), hp]
      | Analog =>
        have hne : point'.kind = .Analog := hkind'.trans hkind
        simp [hw.digital_none h hpoint' (by simp [hne]), hw.uart_nil h hpoint' (by simp [hne]), hp]
      | Uart => simp [of_concat, hp]
  · rw [if_neg hp, List.append_nil]
    have hother (last : Nat → Option ProbeRecord) (c : Prop) [Decidable c] :
        (if c then Function.update last r.probe_id (some r) else last) point.probe_id =
          last point.probe_id := by
      split
      · exact Function.update_of_ne (Ne.symm hp) _ _
      · rfl
    rw [hother, hother]
    split
    · rw [of_concat, if_neg hp, List.append_nil]
    · exact List.Sublist.refl _

end ProbeLog

/-! ### Records in the order of time -/

namespace NodeProbes

@[simp] theorem published_id (r : ProbeRecord) : (published r).probe_id = r.probe_id := by
  unfold published
  split
  · split <;> rfl
  · rfl
  · rfl

@[simp] theorem published_time (r : ProbeRecord) :
    (published r).virtual_time_ns = r.virtual_time_ns := by
  unfold published
  split
  · split <;> rfl
  · rfl
  · rfl

@[simp] theorem published_published (r : ProbeRecord) : published (published r) = published r := by
  cases hkind : r.kind with
  | Digital =>
    by_cases hvalue : r.value = 1 ∨ r.value = 2
    · have heq : published r = r := by simp [published, hkind, hvalue]
      rw [heq, heq]
    · simp [published, hkind, hvalue]
  | Uart =>
    have heq : published r = r := by simp [published, hkind]
    rw [heq, heq]
  | Analog =>
    have heq : published r = r := by simp [published, hkind]
    rw [heq, heq]

theorem of_map_published (p : Nat) (records : List ProbeRecord) :
    of p (records.map published) = (of p records).map published := by
  unfold of
  rw [List.filter_map]
  congr 1
  apply List.filter_congr
  intro r _
  simp

end NodeProbes

open NodeProbes

namespace ProbeRecord

/-- The records of probe `p` as they arrive at the server. -/
def arrived (p : Nat) (records : List ProbeRecord) : List ProbeRecord :=
  (of p records).map NodeProbes.published

@[simp] theorem arrived_append (p : Nat) (xs ys : List ProbeRecord) :
    arrived p (xs ++ ys) = arrived p xs ++ arrived p ys := by
  unfold arrived
  rw [of_append, List.map_append]

theorem arrived_sublist {p : Nat} {xs ys : List ProbeRecord} (h : (of p xs).Sublist (of p ys)) :
    (arrived p xs).Sublist (arrived p ys) :=
  h.map _

/-- The record is not newer than `x`, and another one. -/
def Precedes (r x : ProbeRecord) : Prop :=
  r.virtual_time_ns ≤ x.virtual_time_ns ∧ NodeProbes.published r ≠ NodeProbes.published x

instance (r x : ProbeRecord) : Decidable (r.Precedes x) :=
  inferInstanceAs (Decidable (_ ∧ _))

/-- What is sent of probe `p` is in the order of time, and is of the records in
    `history`, none of them sent twice. -/
structure Ordered (p : Nat) (sent history : List ProbeRecord) : Prop where
  times : (of p sent).Pairwise fun a b => a.virtual_time_ns ≤ b.virtual_time_ns
  logged : (arrived p sent).Subperm (arrived p history)

variable {p : Nat} {sent sent' history : List ProbeRecord}

/-- Records may be dropped, and are published on the way. -/
theorem Ordered.fewer (h : Ordered p sent history)
    (hsub : (arrived p sent').Sublist (arrived p sent)) : Ordered p sent' history := by
  refine ⟨?_, hsub.subperm.trans h.logged⟩
  have htimes : (arrived p sent).Pairwise fun a b => a.virtual_time_ns ≤ b.virtual_time_ns := by
    unfold arrived
    rw [List.pairwise_map]
    simpa using h.times
  have htimes' := htimes.sublist hsub
  unfold arrived at htimes'
  rw [List.pairwise_map] at htimes'
  simpa using htimes'

/-- What has been sent is not newer than what has been logged. -/
theorem Ordered.le_of_logged (h : Ordered p sent history) {t : Nat}
    (hle : ∀ r ∈ of p history, r.virtual_time_ns ≤ t) : ∀ r ∈ of p sent, r.virtual_time_ns ≤ t := by
  intro r hr
  obtain ⟨r', hr', heq⟩ := List.mem_map.mp (h.logged.subset (List.mem_map_of_mem hr))
  rw [← published_time r, ← heq, published_time]
  exact hle r' hr'

theorem Ordered.grow (h : Ordered p sent history) (r : ProbeRecord) :
    Ordered p sent (history ++ [r]) := by
  refine ⟨h.times, h.logged.trans ?_⟩
  rw [arrived_append]
  exact (List.sublist_append_left _ _).subperm

/-- A record is logged and sent behind the others. -/
theorem Ordered.snoc (h : Ordered p sent history) {r : ProbeRecord} (hid : r.probe_id = p)
    (hle : ∀ r' ∈ of p history, r'.virtual_time_ns ≤ r.virtual_time_ns) :
    Ordered p (sent ++ [r]) (history ++ [r]) := by
  have hself : of p [r] = [r] := by simp [of, hid]
  refine ⟨?_, ?_⟩
  · rw [of_append, hself, List.pairwise_append]
    refine ⟨h.times, List.pairwise_singleton _ _, ?_⟩
    intro a ha b hb
    rw [List.mem_singleton.mp hb]
    exact h.le_of_logged hle a ha
  · rw [arrived_append, arrived_append]
    exact (List.subperm_append_right _).mpr h.logged

/-- New records are put between those before them and those after them. -/
theorem Ordered.insert {before after xs : List ProbeRecord}
    (h : Ordered p (before ++ after) history)
    (hsorted : (of p xs).Pairwise fun a b => a.virtual_time_ns ≤ b.virtual_time_ns)
    (hnodup : (arrived p xs).Nodup) (hlogged : ∀ x ∈ of p xs, x ∈ of p history)
    (hbefore : ∀ x ∈ of p xs, ∀ r ∈ of p before, r.Precedes x)
    (hafter : ∀ x ∈ of p xs, ∀ r ∈ of p after, x.Precedes r) :
    Ordered p (before ++ xs ++ after) history := by
  obtain ⟨htimes, hsub⟩ := h
  rw [of_append] at htimes
  rw [arrived_append] at hsub
  refine ⟨?_, ?_⟩
  -- The order of time: the new records are between the two parts.
  · obtain ⟨htimes₁, htimes₂, hcross⟩ := List.pairwise_append.mp htimes
    rw [of_append, of_append, List.append_assoc, List.pairwise_append, List.pairwise_append]
    refine ⟨htimes₁, ⟨hsorted, htimes₂, fun x hx r hr => (hafter x hx r hr).1⟩, ?_⟩
    intro r hr x hx
    rcases List.mem_append.mp hx with hx | hx
    · exact (hbefore x hx r hr).1
    · exact hcross r hr x hx
  · rw [arrived_append, arrived_append, List.subperm_ext_iff]
    intro y _
    have hold := hsub.count_le y
    simp only [List.count_append] at hold ⊢
    by_cases hy : y ∈ arrived p xs
    · -- a new record is sent once, and was logged
      have hnew := hy
      obtain ⟨x, hx, rfl⟩ := List.mem_map.mp hnew
      have hb : (arrived p before).count (NodeProbes.published x) = 0 := by
        apply List.count_eq_zero_of_not_mem
        intro hmem
        obtain ⟨r, hr, heq⟩ := List.mem_map.mp hmem
        exact (hbefore x hx r hr).2 heq
      have ha : (arrived p after).count (NodeProbes.published x) = 0 := by
        apply List.count_eq_zero_of_not_mem
        intro hmem
        obtain ⟨r, hr, heq⟩ := List.mem_map.mp hmem
        exact (hafter x hx r hr).2 heq.symm
      have hone := List.nodup_iff_count_le_one.mp hnodup (NodeProbes.published x)
      have hin : NodeProbes.published x ∈ arrived p history :=
        List.mem_map_of_mem (hlogged x hx)
      have hpos := List.count_pos_iff.mpr hin
      omega
    · have hzero := List.count_eq_zero_of_not_mem hy
      omega

theorem sort_by_key_times (records : List ProbeRecord) :
    (sort_by_key records).Pairwise fun a b => a.virtual_time_ns ≤ b.virtual_time_ns := by
  have htotal : Std.Total key_le := ⟨fun a b => by unfold key_le; omega⟩
  have htrans : IsTrans ProbeRecord key_le := ⟨fun a b c => by unfold key_le; omega⟩
  apply (List.pairwise_insertionSort key_le records).imp
  intro a b hab
  unfold key_le at hab
  omega

end ProbeRecord

namespace ProbeLog

/-- Of each probe of the log, what has been sent (`sent`) and behind it the
    window are in order. -/
structure Coarse (log : ProbeLog) (sent : Nat → List ProbeRecord) : Prop where
  wf : log.Wf
  windowed : log.Windowed
  ordered : ∀ point ∈ log.catalog,
    Ordered point.probe_id (sent point.probe_id ++ log.window) log.history

variable {log : ProbeLog} {sent sent' : Nat → List ProbeRecord}

theorem Coarse.fewer (h : log.Coarse sent)
    (hsub : ∀ point ∈ log.catalog, (arrived point.probe_id (sent' point.probe_id)).Sublist
      (arrived point.probe_id (sent point.probe_id))) : log.Coarse sent' := by
  refine ⟨h.wf, h.windowed, ?_⟩
  intro point hpoint
  apply (h.ordered point hpoint).fewer
  rw [arrived_append, arrived_append]
  exact (hsub point hpoint).append (List.Sublist.refl _)

theorem SameCoarse.window_eq {log' : ProbeLog} (h : SameCoarse log log')
    (hcatalog : log'.catalog = log.catalog) : log'.window = log.window := by
  unfold window
  rw [hcatalog, h.digital_eq, h.analog_eq, h.uart_eq]

theorem Windowed.same {log' : ProbeLog} (hw : log.Windowed) (h : SameCoarse log log')
    (hcatalog : log'.catalog = log.catalog) (hhistory : log'.history = log.history) :
    log'.Windowed := by
  refine ⟨?_, ?_, ?_⟩
  · rw [hcatalog, h.digital_eq, hhistory]
    exact hw.digital
  · rw [hcatalog, h.analog_eq, hhistory]
    exact hw.analog
  · rw [h.uart_eq, hhistory]
    exact hw.uart

/-- A record that is not older than those logged of its probe. -/
theorem Coarse.push (h : log.Coarse sent) (written : Nat) {r : ProbeRecord} (hknows : log.Knows r)
    (hle : ∀ r' ∈ of r.probe_id log.history, r'.virtual_time_ns ≤ r.virtual_time_ns) :
    (log.push written r).Coarse sent := by
  have hpushed := h.wf.pushed written r
  revert hpushed
  generalize log.push written r = log'
  intro hpushed
  cases hpushed with
  | kept log₁ hwf hcatalog hhistory _ hsame =>
    have hknows₁ : log₁.Knows r := by
      unfold Knows
      rw [hcatalog]
      exact hknows
    have hw : log₁.Windowed := h.windowed.same hsame hcatalog hhistory
    obtain ⟨hcatalog', hhistory', -, -, -⟩ := keep_window log₁ r
    refine ⟨hwf.keep hknows₁, hw.keep r, ?_⟩
    intro point hpoint
    rw [hcatalog'] at hpoint
    have hsub := hw.of_keep hwf hknows₁ hpoint
    rw [hcatalog] at hpoint
    have hordered := h.ordered point hpoint
    rw [hsame.window_eq hcatalog] at hsub
    rw [hhistory', hhistory]
    -- The record joins the history and, for its own probe, the window.
    by_cases hp : r.probe_id = point.probe_id
    · rw [if_pos hp] at hsub
      apply (hordered.snoc hp (hp ▸ hle)).fewer
      apply arrived_sublist
      have hself : of point.probe_id [r] = [r] := by simp [of, hp]
      rw [of_append, of_append, of_append, hself, List.append_assoc]
      exact (List.Sublist.refl _).append hsub
    · rw [if_neg hp, List.append_nil] at hsub
      apply (hordered.grow r).fewer
      apply arrived_sublist
      rw [of_append, of_append]
      exact (List.Sublist.refl _).append hsub
  | refused _ hwf _ hcatalog hhistory _ hsame =>
    refine ⟨hwf, h.windowed.same hsame hcatalog hhistory, ?_⟩
    rw [hcatalog, hsame.window_eq hcatalog, hhistory]
    exact h.ordered

theorem Pushed.mem_history {log' : ProbeLog} {r x : ProbeRecord} (h : Pushed log r log')
    (hx : x ∈ log'.history) : x ∈ log.history ∨ x = r := by
  cases h with
  | kept log₁ _ _ hhistory =>
    rw [(keep_window log₁ r).2.1, hhistory] at hx
    simpa using hx
  | refused _ _ _ _ hhistory =>
    rw [hhistory] at hx
    exact .inl hx

theorem Pushed.history_subset {log' : ProbeLog} {r : ProbeRecord} (h : Pushed log r log') :
    log.history ⊆ log'.history := by
  cases h with
  | kept log₁ _ _ hhistory =>
    rw [(keep_window log₁ r).2.1, hhistory]
    exact List.subset_append_left _ _
  | refused _ _ _ _ hhistory =>
    rw [hhistory]
    exact fun _ hx => hx

/-- What is new in the log after an ingest are the pending samples. -/
theorem Coarse.ingest (h : log.Coarse sent) (pending : Nat → Option TapSample)
    (written : Nat → Nat)
    (hle : ∀ point ∈ log.catalog, ∀ sample, pending point.probe_id = some sample →
      ∀ r ∈ of point.probe_id log.history, r.virtual_time_ns ≤ sample.virtual_time_ns) :
    (NodeProbes.ingest pending written log).Coarse sent ∧
      (NodeProbes.ingest pending written log).catalog = log.catalog ∧
      ∀ r ∈ log.history, r ∈ (NodeProbes.ingest pending written log).history := by
  have hall := ingest_keeps pending written
    (P := fun log' : ProbeLog => log'.Coarse sent ∧ log'.catalog = log.catalog ∧
      (∀ r ∈ log.history, r ∈ log'.history) ∧ ∀ r ∈ log'.history, r ∈ log.history ∨
      ∃ (point : ProbePoint) (sample : TapSample),
        pending point.probe_id = some sample ∧ r = point.record sample)
    ⟨h, rfl, fun _ hr => hr, fun r hr => .inl hr⟩ ?_
  · exact ⟨hall.1, hall.2.1, hall.2.2.1⟩
  · rintro log' point sample ⟨hcoarse, hcatalog, hold, hnew⟩ hpoint hsample hkind
    have hknows : log'.Knows (point.record sample) := by
      unfold Knows
      rw [hcatalog]
      exact ⟨point, hpoint, rfl, hkind.symm⟩
    have hpushed := hcoarse.wf.pushed (written point.probe_id) (point.record sample)
    refine ⟨hcoarse.push _ hknows ?_, ?_, ?_, ?_⟩
    · intro r hr
      obtain ⟨hmem, hid⟩ := mem_of.mp hr
      rcases hnew r hmem with hold | ⟨point', sample', hsample', rfl⟩
      · exact hle point hpoint sample hsample r (mem_of.mpr ⟨hold, hid⟩)
      · -- the same sample
        have hpid : point'.probe_id = point.probe_id := hid
        rw [hpid, hsample] at hsample'
        cases hsample'
        exact Nat.le_refl _
    · rw [hpushed.catalog_eq, hcatalog]
    · intro r hr
      exact hpushed.history_subset (hold r hr)
    · intro r hr
      rcases hpushed.mem_history hr with hold | rfl
      · exact hnew r hold
      · exact .inr ⟨point, sample, hsample, rfl⟩

/-! ### Emitting -/

/-- The log gives out `records`; they come behind what has been sent. -/
structure Emits (log : ProbeLog) (sent : Nat → List ProbeRecord) (log' : ProbeLog)
    (records : List ProbeRecord) : Prop where
  same : SameStore log log'
  logged : ∀ r ∈ records, r ∈ log.history
  coarse : log'.Coarse fun p => sent p ++ records

theorem clear_window_window (log : ProbeLog) : log.clear_window.window = [] := by
  simp [window, clear_window]

theorem Coarse.clear (h : log.Coarse sent) : log.clear_window.Coarse sent := by
  refine ⟨h.wf.same (same_emit_coarse log), windowed_of_window (clear_window_window log), ?_⟩
  intro point hpoint
  rw [clear_window_window, List.append_nil]
  apply (h.ordered point hpoint).fewer
  rw [arrived_append]
  exact List.sublist_append_left _ _

theorem Coarse.set_state (h : log.Coarse sent) (running : Bool) :
    Coarse { log with running := running } sent :=
  ⟨h.wf.same ⟨rfl, rfl, rfl, rfl, rfl, rfl, rfl⟩,
    ⟨h.windowed.digital, h.windowed.analog, h.windowed.uart⟩, h.ordered⟩

theorem Coarse.emits_nothing (h : log.Coarse sent) : Emits log sent log [] := by
  refine ⟨⟨rfl, rfl, rfl, rfl, rfl, rfl, rfl⟩, nofun, ?_⟩
  simpa using h

/-- The window is sent in the order of time. -/
theorem Coarse.emit (h : log.Coarse sent) :
    Emits log sent log.emit_coarse.1 log.emit_coarse.2 := by
  refine ⟨same_emit_coarse log, ?_, h.clear.wf, h.clear.windowed, ?_⟩
  · intro r hr
    exact h.windowed.known ((List.mem_insertionSort _).mp hr)
  · intro point hpoint
    have hordered := h.ordered point hpoint
    have htimes := hordered.times
    rw [of_append] at htimes
    apply hordered.fewer
    apply arrived_sublist
    show (of point.probe_id (sent point.probe_id ++ sort_by_key log.window ++
      log.clear_window.window)).Sublist _
    rw [clear_window_window, List.append_nil, of_append, of_append,
      of_sort_by_key (List.pairwise_append.mp htimes).2.1]

theorem Coarse.set_running (h : log.Coarse sent) (running : Bool) :
    Emits log sent (log.set_running running).1 (log.set_running running).2 := by
  unfold ProbeLog.set_running
  split
  · have hemit := h.emit
    exact ⟨⟨rfl, rfl, rfl, rfl, rfl, rfl, rfl⟩, hemit.logged, hemit.coarse.set_state running⟩
  · split
    · have hclear := (h.clear.set_state running).emits_nothing
      exact ⟨⟨rfl, rfl, rfl, rfl, rfl, rfl, rfl⟩, nofun, hclear.coarse⟩
    · have hsame := (h.set_state running).emits_nothing
      exact ⟨⟨rfl, rfl, rfl, rfl, rfl, rfl, rfl⟩, nofun, hsame.coarse⟩

theorem Coarse.poll (h : log.Coarse sent) (due : Bool) :
    Emits log sent (log.poll_coarse due).1 (log.poll_coarse due).2 := by
  unfold poll_coarse
  split
  · exact h.emit
  · exact h.emits_nothing

end ProbeLog

end Rl78Sim
