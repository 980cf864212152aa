import Mathlib.Data.Int.Order.Basic
import Mathlib.Data.List.Induction
import Mathlib.Logic.Function.Basic
import Rl78Sim.Framework.Bisect
import Rl78Sim.Probe.Record

/-! # The Series of the Viewer

    The browser keeps the samples of each probe that it watches: in time order,
    with their extremes, and for ten hours of virtual time. A sample earlier than
    the last one starts the series anew, and the oldest samples are cut off a few
    hundred at a time.
-/

namespace Rl78Sim.Viewer

open Bisect

/-- `RETAIN_NS`. -/
def RETAIN_NS : Int := 10 * 3600 * 10 ^ 9

/-- `Series`. An extreme that is not a value is the infinity on its side. -/
structure Series where
  kind : ProbeKind
  t : List Int
  v : List Int
  min : Option Int
  max : Option Int

/-- `ProbeView`, one sample on the wire. -/
structure ProbeView where
  virtual_time_ns : Int
  board : String
  probe : String
  kind : ProbeKind
  value : String

/-- `parseProbeValue`. `number` is `Number`, without the values that are not
    finite. -/
def parseProbeValue (number : String → Option Int) (kind : ProbeKind) (value : String) : Int :=
  if kind = .Digital then
    match value with
    | "High" => 1
    | "Low" => 2
    | _ => 0
  else (number value).getD 0

/-- `probeKey`. -/
def probeKey (board probe : String) : String := board ++ "/" ++ probe

namespace Series

/-- A series without samples. -/
def new (kind : ProbeKind) : Series := ⟨kind, [], [], none, none⟩

/-- The loop over all values, from the infinities. -/
def extremes (v : List Int) : Option Int × Option Int :=
  v.foldl (fun ends x =>
    (if ends.1.all (x < ·) then some x else ends.1, if ends.2.all (· < x) then some x else ends.2))
    (none, none)

/-- The extremes anew. -/
def rescan (ser : Series) : Series :=
  { ser with min := (extremes ser.v).1, max := (extremes ser.v).2 }

/-- The extremes with one more value. -/
def widen (ser : Series) (value : Int) : Series :=
  { ser with
    min := if ser.min.all (value < ·) then some value else ser.min
    max := if ser.max.all (· < value) then some value else ser.max }

/-- A sample before the last one drops the series. -/
def rewind (ser : Series) (t : Int) : Series :=
  if ser.t.getLast?.any (t < ·) then { ser with t := [], v := [], min := none, max := none }
  else ser

/-- One sample, without the trim. -/
def put (ser : Series) (t value : Int) : Series :=
  let ser := ser.rewind t
  let last := ser.t.length - 1
  if ser.t[last]? = some t ∧ ser.kind ≠ .Uart then
    let prev := ser.v[last]?
    let ser := widen { ser with v := ser.v.set last value } value
    -- shrinking past a former extreme needs all the values
    if prev.any fun prev => (ser.min == some prev && decide (prev < value)) ||
        (ser.max == some prev && decide (value < prev)) then
      ser.rescan
    else ser
  else widen { ser with t := ser.t ++ [t], v := ser.v ++ [value] } value

/-- `ProbeStore.trim`: one sample before the limit stays. -/
def trim (ser : Series) (latest : Int) : Series :=
  let limit := latest - RETAIN_NS
  if ser.t.length < 2 ∨ ser.t[0]?.any (limit ≤ ·) then ser
  else
    let lo := bisect (fun mid => ser.t[mid]?.any (· < limit)) 0 ser.t.length
    let cut := lo - 1
    if cut < 256 then ser
    else rescan { ser with t := ser.t.drop cut, v := ser.v.drop cut }

end Series

/-- `ProbeStore`, with the map of its series. -/
structure ProbeStore where
  series : String → Option Series

namespace ProbeStore

/-- No probe has a series. -/
def new : ProbeStore := ⟨fun _ => none⟩

/-- The body of the loop of `append`. -/
def append_sample (number : String → Option Int) (store : ProbeStore) (s : ProbeView) :
    ProbeStore :=
  let key := probeKey s.board s.probe
  let ser := (store.series key).getD (.new s.kind)
  let value := parseProbeValue number s.kind s.value
  let t := s.virtual_time_ns
  ⟨Function.update store.series key (some ((ser.put t value).trim t))⟩

/-- `ProbeStore.append`. -/
def append (number : String → Option Int) (store : ProbeStore) (samples : List ProbeView) :
    ProbeStore :=
  samples.foldl (append_sample number) store

end ProbeStore

/-! ## What a series is for -/

/-- The samples of a probe, each with its time and its value. -/
def samples_of (number : String → Option Int) (key : String) (samples : List ProbeView) :
    List (Int × Int) :=
  (samples.filter fun s => probeKey s.board s.probe = key).map fun s =>
    (s.virtual_time_ns, parseProbeValue number s.kind s.value)

/-- The samples since the last rewind, the last sample that is earlier than the
    one before it. -/
def unrewound (samples : List (Int × Int)) : List (Int × Int) :=
  samples.foldl
    (fun current s => if current.getLast?.any (s.1 < ·.1) then [s] else current ++ [s]) []

/-- Of the samples at one time, the last. -/
def last_at_each : List (Int × Int) → List (Int × Int)
  | [] => []
  | s :: rest =>
    if rest.head?.any (·.1 = s.1) then last_at_each rest else s :: last_at_each rest

/-- The kind of the first sample of a probe. -/
def kind_of (key : String) (samples : List ProbeView) : Option ProbeKind :=
  (samples.find? fun s => probeKey s.board s.probe = key).map ProbeView.kind

/-- What a series of a kind records. -/
def recorded (kind : ProbeKind) (samples : List (Int × Int)) : List (Int × Int) :=
  if kind = .Uart then samples else last_at_each samples

/-- What has to be there of a record at a limit: the last sample before it, if
    there is one, and all from it on. -/
def retained (limit : Int) (r : List (Int × Int)) : List (Int × Int) :=
  (r.filter (·.1 < limit)).getLast?.toList ++ r.filter (limit ≤ ·.1)

/-! ## Records -/

/-- What stays of a record when a sample is added to it. -/
def before (kind : ProbeKind) (r : List (Int × Int)) (s : Int × Int) : List (Int × Int) :=
  if r.getLast?.any (s.1 < ·.1) then []
  else if kind ≠ .Uart ∧ r.getLast?.any (·.1 = s.1) then r.dropLast
  else r

theorem unrewound_concat (samples : List (Int × Int)) (s : Int × Int) :
    unrewound (samples ++ [s]) =
      if (unrewound samples).getLast?.any (s.1 < ·.1) then [s] else unrewound samples ++ [s] := by
  unfold unrewound
  rw [List.foldl_append]
  rfl

theorem last_at_each_ne_nil {r : List (Int × Int)} (h : r ≠ []) : last_at_each r ≠ [] := by
  induction r with
  | nil => exact absurd rfl h
  | cons s rest ih =>
    unfold last_at_each
    by_cases hrest : rest.head?.any (·.1 = s.1) = true
    · rw [if_pos hrest]
      refine ih fun hnil => ?_
      rw [hnil] at hrest
      cases hrest
    · rw [if_neg hrest]
      exact List.cons_ne_nil _ _

theorem last_at_each_concat (r : List (Int × Int)) (s : Int × Int) :
    last_at_each (r ++ [s]) = (if r.getLast?.any (·.1 = s.1) then (last_at_each r).dropLast
      else last_at_each r) ++ [s] := by
  induction r with
  | nil => rfl
  | cons a rest ih =>
    cases rest with
    | nil =>
      simp only [List.cons_append, List.nil_append, last_at_each, List.head?_cons, List.head?_nil,
        List.getLast?_singleton, Option.any_some, Option.any_none, decide_eq_true_eq]
      by_cases h : a.1 = s.1
      · simp [h]
      · simp [h, Ne.symm h]
    | cons b rest =>
      have hlast : (a :: b :: rest).getLast? = (b :: rest).getLast? := List.getLast?_cons_cons
      rw [hlast, List.cons_append, last_at_each.eq_2, last_at_each.eq_2 a (b :: rest), ih]
      have hhead : (b :: rest ++ [s]).head? = (b :: rest).head? := rfl
      rw [hhead]
      by_cases hab : (b :: rest).head?.any (·.1 = a.1) = true
      · rw [if_pos hab, if_pos hab]
      · rw [if_neg hab, if_neg hab]
        by_cases hs : (b :: rest).getLast?.any (·.1 = s.1) = true
        · rw [if_pos hs, if_pos hs,
            List.dropLast_cons_of_ne_nil (last_at_each_ne_nil (List.cons_ne_nil b rest))]
          rfl
        · rw [if_neg hs, if_neg hs]
          rfl

theorem getLast_last_at_each (r : List (Int × Int)) :
    (last_at_each r).getLast? = r.getLast? := by
  induction r using List.reverseRecOn with
  | nil => rfl
  | append_singleton r s _ => rw [last_at_each_concat, List.getLast?_concat, List.getLast?_concat]

@[simp] theorem recorded_nil (kind : ProbeKind) : recorded kind [] = [] := by
  unfold recorded
  split
  · rfl
  · rfl

@[simp] theorem recorded_singleton (kind : ProbeKind) (s : Int × Int) :
    recorded kind [s] = [s] := by
  unfold recorded
  split
  · rfl
  · rfl

theorem getLast_recorded (kind : ProbeKind) (r : List (Int × Int)) :
    (recorded kind r).getLast? = r.getLast? := by
  unfold recorded
  by_cases hkind : kind = .Uart
  · rw [if_pos hkind]
  · rw [if_neg hkind, getLast_last_at_each]

/-- One more sample. -/
theorem recorded_concat (kind : ProbeKind) (samples : List (Int × Int)) (s : Int × Int) :
    recorded kind (unrewound (samples ++ [s])) =
      before kind (recorded kind (unrewound samples)) s ++ [s] := by
  rw [unrewound_concat, before, getLast_recorded]
  by_cases hback : (unrewound samples).getLast?.any (s.1 < ·.1) = true
  · rw [if_pos hback, if_pos hback, recorded_singleton]
    rfl
  · rw [if_neg hback, if_neg hback]
    unfold recorded
    by_cases hkind : kind = .Uart
    · rw [if_pos hkind, if_pos hkind, if_neg fun h => h.1 hkind]
    · rw [if_neg hkind, if_neg hkind, last_at_each_concat]
      simp only [ne_eq, hkind, not_false_eq_true, true_and]

/-- The order of a record: strict unless the kind keeps every word. -/
def Follows (kind : ProbeKind) (s s' : Int × Int) : Prop :=
  s.1 ≤ s'.1 ∧ (kind ≠ .Uart → s.1 < s'.1)

/-- Once it is known what the rewind leaves, the last sample stays or goes. -/
theorem before_eq (kind : ProbeKind) (r : List (Int × Int)) (s : Int × Int) :
    before kind r s =
      let left := if r.getLast?.any (s.1 < ·.1) then [] else r
      if kind ≠ .Uart ∧ left.getLast?.any (·.1 = s.1) then left.dropLast else left := by
  unfold before
  by_cases hback : r.getLast?.any (s.1 < ·.1) = true
  · simp [hback]
  · simp [hback]

theorem before_nil (kind : ProbeKind) (s : Int × Int) : before kind [] s = [] := by
  simp [before]

theorem before_concat (kind : ProbeKind) (w : List (Int × Int)) (e s : Int × Int) :
    before kind (w ++ [e]) s =
      if s.1 < e.1 then [] else if kind ≠ .Uart ∧ e.1 = s.1 then w else w ++ [e] := by
  unfold before
  rw [List.getLast?_concat, List.dropLast_concat]
  simp only [Option.any_some, decide_eq_true_eq]

theorem pairwise_before {kind : ProbeKind} {r : List (Int × Int)} (h : r.Pairwise (Follows kind))
    (s : Int × Int) : (before kind r s ++ [s]).Pairwise (Follows kind) := by
  rcases List.eq_nil_or_concat' r with rfl | ⟨w, e, rfl⟩
  · rw [before_nil]
    exact List.pairwise_singleton _ _
  · obtain ⟨hw, -, hlast⟩ := List.pairwise_append.mp h
    have hlast : ∀ x ∈ w, Follows kind x e := fun x hx => hlast x hx e (List.mem_singleton.mpr rfl)
    rw [before_concat]
    by_cases hback : s.1 < e.1
    · rw [if_pos hback]
      exact List.pairwise_singleton _ _
    · rw [if_neg hback]
      by_cases hsame : kind ≠ .Uart ∧ e.1 = s.1
      · -- the sample takes the place of the one at its time
        rw [if_pos hsame]
        refine List.pairwise_append.mpr ⟨hw, List.pairwise_singleton _ _, ?_⟩
        intro x hx y hy
        rw [List.mem_singleton.mp hy, Follows, ← hsame.2]
        exact hlast x hx
      · rw [if_neg hsame]
        have hes : Follows kind e s :=
          ⟨Int.not_lt.mp hback, fun hkind => lt_of_le_of_ne (Int.not_lt.mp hback)
            fun he => hsame ⟨hkind, he⟩⟩
        refine List.pairwise_append.mpr ⟨h, List.pairwise_singleton _ _, ?_⟩
        intro x hx y hy
        rw [List.mem_singleton.mp hy]
        rcases List.mem_append.mp hx with hx | hx
        · exact ⟨(hlast x hx).1.trans hes.1,
            fun hkind => ((hlast x hx).2 hkind).trans (hes.2 hkind)⟩
        · rw [List.mem_singleton.mp hx]
          exact hes

/-- Every record is in order. -/
theorem pairwise_recorded (kind : ProbeKind) (samples : List (Int × Int)) :
    (recorded kind (unrewound samples)).Pairwise (Follows kind) := by
  induction samples using List.reverseRecOn with
  | nil =>
    show (recorded kind []).Pairwise _
    rw [recorded_nil]
    exact List.Pairwise.nil
  | append_singleton samples s ih =>
    rw [recorded_concat]
    exact pairwise_before ih s

/-! ## What is kept -/

/-- `l` is what is left of a record after its oldest samples have been cut off:
    nothing, or it begins with a sample before the limit. -/
def Kept (l r : List (Int × Int)) : Prop :=
  ∃ cut, r = cut ++ l ∧ (cut ≠ [] → ∃ first last, l.head? = some first ∧ l.getLast? = some last ∧
    first.1 < last.1 - RETAIN_NS)

theorem Kept.nil : Kept [] [] := ⟨[], rfl, fun h => absurd rfl h⟩

/-- Nothing is left only of nothing. -/
theorem Kept.eq_nil {r : List (Int × Int)} (h : Kept [] r) : r = [] := by
  obtain ⟨cut, rfl, hcut⟩ := h
  by_contra hne
  obtain ⟨first, _, hfirst, -⟩ := hcut (by simpa using hne)
  cases hfirst

theorem Kept.getLast {l r : List (Int × Int)} (h : Kept l r) : l.getLast? = r.getLast? := by
  by_cases hl : l = []
  · subst hl
    rw [h.eq_nil]
  · obtain ⟨cut, rfl, -⟩ := h
    rw [List.getLast?_append_of_ne_nil _ hl]

/-- Both go on with the same sample. -/
theorem Kept.before {kind : ProbeKind} {l r : List (Int × Int)} (h : Kept l r) (s : Int × Int) :
    Kept (before kind l s ++ [s]) (before kind r s ++ [s]) := by
  rcases List.eq_nil_or_concat' l with rfl | ⟨w, e, rfl⟩
  · rw [h.eq_nil]
    exact ⟨[], rfl, fun h => absurd rfl h⟩
  · obtain ⟨cut, rfl, hcut⟩ := h
    rw [← List.append_assoc, before_concat, before_concat]
    by_cases hback : s.1 < e.1
    · rw [if_pos hback, if_pos hback]
      exact ⟨[], rfl, fun h => absurd rfl h⟩
    · rw [if_neg hback, if_neg hback]
      -- a first sample before the limit is not the last one
      have hfirst : cut ≠ [] → ∃ first w', w = first :: w' ∧ first.1 < s.1 - RETAIN_NS := by
        intro hne
        obtain ⟨first, last, hfirst, hlast, hlimit⟩ := hcut hne
        rw [List.getLast?_concat] at hlast
        cases hlast
        cases w with
        | nil =>
          cases hfirst
          unfold RETAIN_NS at hlimit
          omega
        | cons a w' =>
          cases hfirst
          exact ⟨first, w', rfl, by omega⟩
      by_cases hsame : kind ≠ .Uart ∧ e.1 = s.1
      · rw [if_pos hsame, if_pos hsame]
        refine ⟨cut, List.append_assoc _ _ _, fun hne => ?_⟩
        obtain ⟨first, w', rfl, hlimit⟩ := hfirst hne
        exact ⟨first, s, rfl, List.getLast?_concat, hlimit⟩
      · rw [if_neg hsame, if_neg hsame]
        refine ⟨cut, by simp only [List.append_assoc], fun hne => ?_⟩
        obtain ⟨first, w', rfl, hlimit⟩ := hfirst hne
        exact ⟨first, s, rfl, List.getLast?_concat, hlimit⟩

/-- A cut that leaves a sample before the limit. -/
theorem Kept.drop {l r : List (Int × Int)} {last : Int × Int} {cut : Nat} (h : Kept l r)
    (hlast : l.getLast? = some last)
    (hcut : cut ≠ 0 → ∃ first, l[cut]? = some first ∧ first.1 < last.1 - RETAIN_NS) :
    Kept (l.drop cut) r := by
  by_cases hzero : cut = 0
  · rw [hzero]
    exact h
  · obtain ⟨first, hfirst, hlimit⟩ := hcut hzero
    obtain ⟨gone, rfl, -⟩ := h
    refine ⟨gone ++ l.take cut, ?_, fun _ => ⟨first, last, ?_, ?_, hlimit⟩⟩
    · rw [List.append_assoc, List.take_append_drop]
    · rw [List.head?_drop]
      exact hfirst
    · rw [List.getLast?_drop, if_neg ?_]
      · exact hlast
      · have := (List.getElem?_eq_some_iff.mp hfirst).1
        omega

theorem Kept.pairwise {kind : ProbeKind} {l r : List (Int × Int)} (h : Kept l r)
    (hr : r.Pairwise (Follows kind)) : l.Pairwise (Follows kind) := by
  obtain ⟨cut, rfl, -⟩ := h
  exact (List.pairwise_append.mp hr).2.1

/-- A limit parts a record in order. -/
theorem filter_append_filter {r : List (Int × Int)} (limit : Int)
    (h : r.Pairwise fun s s' => s.1 ≤ s'.1) :
    r.filter (·.1 < limit) ++ r.filter (limit ≤ ·.1) = r := by
  induction r with
  | nil => rfl
  | cons a r ih =>
    obtain ⟨hfirst, hrest⟩ := List.pairwise_cons.mp h
    by_cases ha : a.1 < limit
    · rw [List.filter_cons_of_pos (by simpa using ha),
        List.filter_cons_of_neg (by simpa using ha), List.cons_append, ih hrest]
    · have hlate : ∀ s ∈ a :: r, limit ≤ s.1 := by
        intro s hs
        rcases List.mem_cons.mp hs with rfl | hs
        · exact Int.not_lt.mp ha
        · exact (Int.not_lt.mp ha).trans (hfirst s hs)
      rw [List.filter_eq_nil_iff.mpr (by simpa using hlate),
        List.filter_eq_self.mpr (by simpa using hlate)]
      rfl

theorem retained_suffix {r : List (Int × Int)} (limit : Int)
    (h : r.Pairwise fun s s' => s.1 ≤ s'.1) : retained limit r <:+ r := by
  have hr := filter_append_filter limit h
  unfold retained
  rcases List.eq_nil_or_concat' (r.filter (·.1 < limit)) with hnil | ⟨w, e, hw⟩
  · rw [hnil] at hr ⊢
    exact ⟨[], hr⟩
  · rw [hw] at hr ⊢
    refine ⟨w, ?_⟩
    rw [List.getLast?_concat, ← List.append_assoc]
    exact hr

/-- Nothing that has to be there has been cut off. -/
theorem Kept.retained {l r : List (Int × Int)} {last : Int × Int} (h : Kept l r)
    (hlast : l.getLast? = some last) (hr : r.Pairwise fun s s' => s.1 ≤ s'.1) :
    retained (last.1 - RETAIN_NS) r <:+ l := by
  obtain ⟨cut, rfl, hcut⟩ := h
  obtain ⟨-, hl, hcross⟩ := List.pairwise_append.mp hr
  have hsame : Viewer.retained (last.1 - RETAIN_NS) (cut ++ l) =
      Viewer.retained (last.1 - RETAIN_NS) l := by
    by_cases hne : cut = []
    · rw [hne]
      rfl
    · obtain ⟨first, _, hfirst, hlast', hlimit⟩ := hcut hne
      cases hlast.symm.trans hlast'
      have hmem : first ∈ l := List.mem_of_mem_head? hfirst
      have hgone : cut.filter (last.1 - RETAIN_NS ≤ ·.1) = [] := by
        refine List.filter_eq_nil_iff.mpr fun s hs => ?_
        rw [decide_eq_true_eq, not_le]
        exact lt_of_le_of_lt (hcross s hs first hmem) hlimit
      -- the last sample before the limit is in `l`, as the first one of `l` is before it
      have hearly : l.filter (·.1 < last.1 - RETAIN_NS) ≠ [] :=
        List.ne_nil_of_mem (List.mem_filter.mpr ⟨hmem, by simpa using hlimit⟩)
      unfold Viewer.retained
      rw [List.filter_append, List.filter_append, List.getLast?_append_of_ne_nil _ hearly,
        hgone, List.nil_append]
  rw [hsame]
  exact retained_suffix _ hl

/-! ## One sample -/

namespace Series

theorem min_concat (v : List Int) (x : Int) :
    (if v.min?.all (x < ·) then some x else v.min?) = (v ++ [x]).min? := by
  cases v with
  | nil => rfl
  | cons a v =>
    rw [List.cons_append, List.min?_cons', List.min?_cons', List.foldl_concat, Option.all_some]
    by_cases h : x < v.foldl Min.min a
    · rw [if_pos (decide_eq_true h), min_eq_right h.le]
    · rw [if_neg (by simpa using h), min_eq_left (Int.not_lt.mp h)]

theorem max_concat (v : List Int) (x : Int) :
    (if v.max?.all (· < x) then some x else v.max?) = (v ++ [x]).max? := by
  cases v with
  | nil => rfl
  | cons a v =>
    rw [List.cons_append, List.max?_cons', List.max?_cons', List.foldl_concat, Option.all_some]
    by_cases h : v.foldl Max.max a < x
    · rw [if_pos (decide_eq_true h), max_eq_right h.le]
    · rw [if_neg (by simpa using h), max_eq_left (Int.not_lt.mp h)]

theorem extremes_eq (v : List Int) : extremes v = (v.min?, v.max?) := by
  induction v using List.reverseRecOn with
  | nil => rfl
  | append_singleton v x ih =>
    have hstep : extremes (v ++ [x]) =
        (if (extremes v).1.all (x < ·) then some x else (extremes v).1,
          if (extremes v).2.all (· < x) then some x else (extremes v).2) := by
      unfold extremes
      rw [List.foldl_append]
      rfl
    rw [hstep, ih, min_concat, max_concat]

/-- A series holds the samples of a record. -/
structure Holds (ser : Series) (l : List (Int × Int)) : Prop where
  times : ser.t = l.map Prod.fst
  values : ser.v = l.map Prod.snd

/-- Its extremes are those of its values. -/
structure Exact (ser : Series) : Prop where
  minimum : ser.min = ser.v.min?
  maximum : ser.max = ser.v.max?

theorem exact_rescan (ser : Series) : ser.rescan.Exact := by
  unfold rescan
  rw [extremes_eq]
  exact ⟨rfl, rfl⟩

/-- One more value at the end. -/
theorem Exact.push {ser : Series} (h : ser.Exact) (t : List Int) (value : Int) :
    (widen { ser with t := t, v := ser.v ++ [value] } value).Exact := by
  refine ⟨?_, ?_⟩
  · show (if ser.min.all (value < ·) then some value else ser.min) = (ser.v ++ [value]).min?
    rw [h.minimum, min_concat]
  · show (if ser.max.all (· < value) then some value else ser.max) = (ser.v ++ [value]).max?
    rw [h.maximum, max_concat]

/-- A value in the place of the last one, which was no minimum or has not grown. -/
theorem min_overwrite {v : List Int} {prev value : Int}
    (h : ¬ ((v ++ [prev] ++ [value]).min? = some prev ∧ prev < value)) :
    (v ++ [prev] ++ [value]).min? = (v ++ [value]).min? := by
  cases v with
  | nil =>
    simp only [List.nil_append, List.cons_append, List.min?_cons', List.foldl_cons,
      List.foldl_nil, Option.some.injEq] at h ⊢
    omega
  | cons a v =>
    simp only [List.cons_append, List.min?_cons', List.foldl_concat, Option.some.injEq] at h ⊢
    omega

theorem max_overwrite {v : List Int} {prev value : Int}
    (h : ¬ ((v ++ [prev] ++ [value]).max? = some prev ∧ value < prev)) :
    (v ++ [prev] ++ [value]).max? = (v ++ [value]).max? := by
  cases v with
  | nil =>
    simp only [List.nil_append, List.cons_append, List.max?_cons', List.foldl_cons,
      List.foldl_nil, Option.some.injEq] at h ⊢
    omega
  | cons a v =>
    simp only [List.cons_append, List.max?_cons', List.foldl_concat, Option.some.injEq] at h ⊢
    omega

/-- One more value in the place of the last. Unless that was an extreme and
    has shrunk, the extremes are right without a rescan. -/
theorem Exact.overwrite {ser : Series} {v : List Int} {prev : Int} (h : ser.Exact)
    (hv : ser.v = v ++ [prev]) (value : Int) :
    let wide := widen { ser with v := v ++ [value] } value
    ¬ (wide.min = some prev ∧ prev < value) → ¬ (wide.max = some prev ∧ value < prev) →
      wide.Exact := by
  intro wide hmin hmax
  -- the widened extremes are those with both the old and the new value
  have hwidemin : wide.min = (v ++ [prev] ++ [value]).min? := by
    rw [← min_concat, ← hv, ← h.minimum]
    rfl
  have hwidemax : wide.max = (v ++ [prev] ++ [value]).max? := by
    rw [← max_concat, ← hv, ← h.maximum]
    rfl
  rw [hwidemin] at hmin
  rw [hwidemax] at hmax
  exact ⟨hwidemin.trans (min_overwrite hmin), hwidemax.trans (max_overwrite hmax)⟩

theorem holds_new (kind : ProbeKind) : (new kind).Holds [] := ⟨rfl, rfl⟩

theorem exact_new (kind : ProbeKind) : (new kind).Exact := ⟨rfl, rfl⟩

theorem rewind_spec {ser : Series} {l : List (Int × Int)} (h : ser.Holds l) (hexact : ser.Exact)
    (t : Int) : (ser.rewind t).Holds (if l.getLast?.any (t < ·.1) then [] else l) ∧
      (ser.rewind t).Exact ∧ (ser.rewind t).kind = ser.kind := by
  have hlast : ser.t.getLast?.any (t < ·) = l.getLast?.any (t < ·.1) := by
    rw [h.times, List.getLast?_map, Option.any_map]
  unfold rewind
  rw [hlast]
  by_cases hback : l.getLast?.any (t < ·.1) = true
  · rw [if_pos hback, if_pos hback]
    exact ⟨⟨rfl, rfl⟩, ⟨rfl, rfl⟩, rfl⟩
  · rw [if_neg hback, if_neg hback]
    exact ⟨h, hexact, rfl⟩

theorem Holds.push {ser : Series} {l : List (Int × Int)} (h : ser.Holds l) (s : Int × Int) :
    (widen { ser with t := ser.t ++ [s.1], v := ser.v ++ [s.2] } s.2).Holds (l ++ [s]) := by
  refine ⟨?_, ?_⟩
  · show ser.t ++ [s.1] = _
    rw [h.times, List.map_append]
    rfl
  · show ser.v ++ [s.2] = _
    rw [h.values, List.map_append]
    rfl

/-- The last sample of a record lies at the end of both lists. -/
theorem Holds.last {ser : Series} {w : List (Int × Int)} {e : Int × Int}
    (h : ser.Holds (w ++ [e])) : ser.t.length - 1 = w.length ∧ ser.t[w.length]? = some e.1 ∧
      ser.v[w.length]? = some e.2 ∧ ser.v = w.map Prod.snd ++ [e.2] := by
  rw [h.times, h.values]
  simp

/-- One sample in the place of the last one, which has its time. -/
theorem Holds.overwrite {ser wide : Series} {w : List (Int × Int)} {e s : Int × Int}
    (h : ser.Holds (w ++ [e])) (hsame : e.1 = s.1) (ht : wide.t = ser.t)
    (hv : wide.v = w.map Prod.snd ++ [s.2]) : wide.Holds (w ++ [s]) := by
  refine ⟨?_, ?_⟩
  · rw [ht, h.times, List.map_append, List.map_append, List.map_singleton, hsame]
    rfl
  · rw [hv, List.map_append]
    rfl

/-- One sample goes where the record puts it, and the extremes stay exact. -/
theorem put_spec {ser : Series} {l : List (Int × Int)} (h : ser.Holds l) (hexact : ser.Exact)
    (s : Int × Int) : (ser.put s.1 s.2).Holds (before ser.kind l s ++ [s]) ∧
      (ser.put s.1 s.2).Exact ∧ (ser.put s.1 s.2).kind = ser.kind := by
  obtain ⟨hholds, hexact, hkind⟩ := rewind_spec h hexact s.1
  rw [before_eq, ← hkind]
  unfold put
  generalize ser.rewind s.1 = ser at hholds hexact ⊢
  generalize (if l.getLast?.any (s.1 < ·.1) then [] else l) = l at hholds ⊢
  dsimp only
  rcases List.eq_nil_or_concat' l with rfl | ⟨w, e, rfl⟩
  · rw [if_neg (by simp [hholds.times]), if_neg (by simp)]
    exact ⟨hholds.push s, hexact.push _ _, rfl⟩
  · obtain ⟨hlast, htime, hprev, hv⟩ := hholds.last
    have hset : ser.v.set w.length s.2 = w.map Prod.snd ++ [s.2] := by
      rw [hv]
      simp
    rw [hlast, htime, hprev, hset, List.getLast?_concat, List.dropLast_concat]
    by_cases hsame : ser.kind ≠ .Uart ∧ e.1 = s.1
    · have hcode : some e.1 = some s.1 ∧ ser.kind ≠ .Uart := ⟨congrArg some hsame.2, hsame.1⟩
      have hrecord : ser.kind ≠ .Uart ∧ (some e).any (·.1 = s.1) = true :=
        ⟨hsame.1, by simpa using hsame.2⟩
      rw [if_pos hcode, if_pos hrecord]
      split
      · exact ⟨hholds.overwrite hsame.2 rfl rfl, exact_rescan _, rfl⟩
      · next hshrunk =>
        simp only [Option.any_some, Bool.or_eq_true, Bool.and_eq_true, beq_iff_eq,
          decide_eq_true_eq, not_or] at hshrunk
        exact ⟨hholds.overwrite hsame.2 rfl rfl,
          hexact.overwrite hv s.2 hshrunk.1 hshrunk.2, rfl⟩
    · -- a new time, or a word of a UART: both lists grow
      have hcode : ¬ (some e.1 = some s.1 ∧ ser.kind ≠ .Uart) :=
        fun hs => hsame ⟨hs.2, Option.some.inj hs.1⟩
      have hrecord : ¬ (ser.kind ≠ .Uart ∧ (some e).any (·.1 = s.1) = true) :=
        fun hs => hsame ⟨hs.1, by simpa using hs.2⟩
      rw [if_neg hcode, if_neg hrecord]
      exact ⟨hholds.push s, hexact.push _ _, rfl⟩

theorem Holds.drop {ser : Series} {l : List (Int × Int)} (h : ser.Holds l) (cut : Nat) :
    (rescan { ser with t := ser.t.drop cut, v := ser.v.drop cut }).Holds (l.drop cut) := by
  refine ⟨?_, ?_⟩
  · show ser.t.drop cut = _
    rw [h.times, List.map_drop]
  · show ser.v.drop cut = _
    rw [h.values, List.map_drop]

/-- What `trim` cuts off ends where a sample before the limit is left. -/
theorem trim_spec {ser : Series} {l : List (Int × Int)} (h : ser.Holds l) (hexact : ser.Exact)
    (hsorted : l.Pairwise (Follows ser.kind)) (latest : Int) :
    ∃ cut, (ser.trim latest).Holds (l.drop cut) ∧ (ser.trim latest).Exact ∧
      (ser.trim latest).kind = ser.kind ∧
      (cut ≠ 0 → ∃ first, l[cut]? = some first ∧ first.1 < latest - RETAIN_NS) := by
  have hkeep : ∃ cut, ser.Holds (l.drop cut) ∧ ser.Exact ∧ ser.kind = ser.kind ∧
      (cut ≠ 0 → ∃ first, l[cut]? = some first ∧ first.1 < latest - RETAIN_NS) :=
    ⟨0, h, hexact, rfl, fun hne => absurd rfl hne⟩
  unfold trim
  dsimp only
  split
  · exact hkeep
  · split
    · exact hkeep
    · next hcut =>
      have ht : ser.t.Pairwise (· ≤ ·) := by
        rw [h.times]
        exact List.pairwise_map.mpr (hsorted.imp And.left)
      obtain ⟨-, -, hbefore, -⟩ :=
        bisect_parts (falls_of_sorted ht (latest - RETAIN_NS)) (Nat.zero_le _)
      generalize bisect _ 0 ser.t.length = lo at hcut hbefore
      refine ⟨lo - 1, h.drop _, exact_rescan _, rfl, fun _ => ?_⟩
      -- the search has seen the entry before `lo` below the limit
      have hfirst := hbefore (lo - 1) (Nat.zero_le _) (by omega)
      rw [h.times, List.getElem?_map, Option.any_map] at hfirst
      cases hl : l[lo - 1]? with
      | none =>
        rw [hl] at hfirst
        cases hfirst
      | some first =>
        rw [hl] at hfirst
        exact ⟨first, rfl, by simpa using hfirst⟩

end Series

/-! ## The store -/

/-- A series and the samples of its probe. -/
structure Series.Records (ser : Series) (samples : List (Int × Int)) : Prop where
  shown : ∃ l, ser.Holds l ∧ Kept l (recorded ser.kind (unrewound samples))
  extremes : ser.Exact
  some_sample : samples ≠ []

/-- One sample of the probe. -/
theorem Series.Records.sample {ser : Series} {samples : List (Int × Int)} {l : List (Int × Int)}
    (h : ser.Holds l) (hkept : Kept l (recorded ser.kind (unrewound samples)))
    (hexact : ser.Exact) (s : Int × Int) :
    ((ser.put s.1 s.2).trim s.1).Records (samples ++ [s]) ∧
      ((ser.put s.1 s.2).trim s.1).kind = ser.kind := by
  obtain ⟨hput, hput_exact, hput_kind⟩ := Series.put_spec h hexact s
  have hnext : Kept (before ser.kind l s ++ [s])
      (recorded ser.kind (unrewound (samples ++ [s]))) := by
    rw [recorded_concat]
    exact hkept.before s
  have hsorted : (before ser.kind l s ++ [s]).Pairwise (Follows (ser.put s.1 s.2).kind) := by
    rw [hput_kind]
    exact hnext.pairwise (pairwise_recorded ser.kind _)
  obtain ⟨cut, htrim, htrim_exact, htrim_kind, hcut⟩ :=
    Series.trim_spec hput hput_exact hsorted s.1
  refine ⟨⟨⟨_, htrim, ?_⟩, htrim_exact, by simp⟩, htrim_kind.trans hput_kind⟩
  rw [htrim_kind, hput_kind]
  exact hnext.drop List.getLast?_concat hcut

section Appends

variable (number : String → Option Int)

theorem samples_of_concat_self (samples : List ProbeView) (s : ProbeView) :
    samples_of number (probeKey s.board s.probe) (samples ++ [s]) =
      samples_of number (probeKey s.board s.probe) samples ++
        [(s.virtual_time_ns, parseProbeValue number s.kind s.value)] := by
  unfold samples_of
  rw [List.filter_append, List.map_append]
  simp

theorem samples_of_concat_of_ne {key : String} {s : ProbeView}
    (h : probeKey s.board s.probe ≠ key) (samples : List ProbeView) :
    samples_of number key (samples ++ [s]) = samples_of number key samples := by
  unfold samples_of
  rw [List.filter_append]
  simp [h]

theorem kind_of_concat (key : String) (samples : List ProbeView) (s : ProbeView) :
    kind_of key (samples ++ [s]) =
      (kind_of key samples).or (if probeKey s.board s.probe = key then some s.kind else none) := by
  unfold kind_of
  rw [List.find?_append]
  by_cases hkey : probeKey s.board s.probe = key
  · cases samples.find? fun s => probeKey s.board s.probe = key with
    | none => simp [hkey]
    | some first => simp
  · cases samples.find? fun s => probeKey s.board s.probe = key with
    | none => simp [hkey]
    | some first => simp

/-- A probe without a sample has no series. -/
theorem kind_of_eq_none {key : String} {samples : List ProbeView}
    (h : samples_of number key samples = []) : kind_of key samples = none := by
  unfold samples_of at h
  unfold kind_of
  rw [List.map_eq_nil_iff, List.filter_eq_nil_iff] at h
  rw [List.find?_eq_none.mpr h]
  rfl

theorem append_concat (store : ProbeStore) (samples : List ProbeView) (s : ProbeView) :
    store.append number (samples ++ [s]) =
      (store.append number samples).append_sample number s := by
  unfold ProbeStore.append
  rw [List.foldl_append]
  rfl

/-- Every series records the samples of its probe. -/
theorem append_records (samples : List ProbeView) (key : String) :
    ((ProbeStore.new.append number samples).series key = none →
      samples_of number key samples = []) ∧
    ∀ ser, (ProbeStore.new.append number samples).series key = some ser →
      ser.Records (samples_of number key samples) ∧ kind_of key samples = some ser.kind := by
  induction samples using List.reverseRecOn with
  | nil => exact ⟨fun _ => rfl, fun ser hser => by cases hser⟩
  | append_singleton samples s ih =>
    obtain ⟨hnone, hsome⟩ := ih
    rw [append_concat]
    by_cases hkey : probeKey s.board s.probe = key
    · subst hkey
      rw [samples_of_concat_self, kind_of_concat, if_pos rfl]
      have hseries : ((ProbeStore.new.append number samples).append_sample number s).series
          (probeKey s.board s.probe) = some ((((ProbeStore.new.append number samples).series
            (probeKey s.board s.probe)).getD (.new s.kind)).put s.virtual_time_ns
              (parseProbeValue number s.kind s.value) |>.trim s.virtual_time_ns) :=
        Function.update_self ..
      rw [hseries]
      refine ⟨fun h => (Option.some_ne_none _ h).elim, fun ser hser => ?_⟩
      cases hser
      -- the first sample of a probe makes its series, a later one finds it
      cases hold : (ProbeStore.new.append number samples).series (probeKey s.board s.probe) with
      | none =>
        have hnil := hnone hold
        have hkept : Kept [] (recorded s.kind (unrewound [])) := by
          show Kept [] (recorded s.kind [])
          rw [recorded_nil]
          exact .nil
        rw [hnil, kind_of_eq_none number hnil]
        obtain ⟨hrecords, hkind⟩ := Series.Records.sample (Series.holds_new s.kind) hkept
          (Series.exact_new s.kind) (s.virtual_time_ns, parseProbeValue number s.kind s.value)
        exact ⟨hrecords, congrArg some hkind.symm⟩
      | some ser =>
        obtain ⟨hrecords, hkind⟩ := hsome ser hold
        obtain ⟨l, hholds, hkept⟩ := hrecords.shown
        obtain ⟨hnext, hnext_kind⟩ := Series.Records.sample hholds hkept hrecords.extremes
          (s.virtual_time_ns, parseProbeValue number s.kind s.value)
        rw [hkind]
        exact ⟨hnext, congrArg some hnext_kind.symm⟩
    · have hseries : ((ProbeStore.new.append number samples).append_sample number s).series key =
          (ProbeStore.new.append number samples).series key :=
        Function.update_of_ne (Ne.symm hkey) ..
      rw [hseries, samples_of_concat_of_ne number hkey, kind_of_concat, if_neg hkey, Option.or_none]
      exact ⟨hnone, hsome⟩

theorem foldl_append (batches : List (List ProbeView)) : ∀ store : ProbeStore,
    batches.foldl (ProbeStore.append number) store = store.append number batches.flatten := by
  induction batches with
  | nil =>
    intro store
    rfl
  | cons batch batches ih =>
    intro store
    rw [List.foldl_cons, ih, List.flatten_cons]
    exact List.foldl_append.symm

theorem getLast_unrewound (samples : List (Int × Int)) :
    (unrewound samples).getLast? = samples.getLast? := by
  induction samples using List.reverseRecOn with
  | nil => rfl
  | append_singleton samples s ih =>
    rw [unrewound_concat, List.getLast?_concat]
    split
    · rfl
    · exact List.getLast?_concat

/-- After each sample of any batches: times and values of a series go together, the
    times ascend, strictly unless the kind is that of a UART, and the extremes are
    those of the values. The series is the end of what has been recorded since the
    last rewind, and it has all of that from the limit on and the last sample
    before the limit. -/
theorem viewer_series (batches : List (List ProbeView)) :
    batches.foldl (ProbeStore.append number) .new =
      ProbeStore.new.append number batches.flatten ∧
    ∀ samples, samples <+: batches.flatten → ∀ key,
      match (ProbeStore.new.append number samples).series key with
      | none => samples_of number key samples = []
      | some ser =>
        let history := recorded ser.kind (unrewound (samples_of number key samples))
        kind_of key samples = some ser.kind ∧
        ser.t.length = ser.v.length ∧
        ser.t.Pairwise (· ≤ ·) ∧
        (ser.kind ≠ .Uart → ser.t.Pairwise (· < ·)) ∧
        ser.min = ser.v.min? ∧ ser.max = ser.v.max? ∧
        ∃ latest, (samples_of number key samples).getLast? = some latest ∧
          ser.t.zip ser.v <:+ history ∧
          retained (latest.1 - RETAIN_NS) history <:+ ser.t.zip ser.v := by
  refine ⟨foldl_append number batches .new, ?_⟩
  intro samples _ key
  obtain ⟨hnone, hsome⟩ := append_records number samples key
  cases hseries : (ProbeStore.new.append number samples).series key with
  | none => exact hnone hseries
  | some ser =>
    obtain ⟨⟨⟨l, ⟨htimes, hvalues⟩, hkept⟩, hexact, hne⟩, hkind⟩ := hsome ser hseries
    have hrecord := pairwise_recorded ser.kind (samples_of number key samples)
    have hsorted := hkept.pairwise hrecord
    have hlength : ser.t.length = ser.v.length := by
      rw [htimes, hvalues, List.length_map, List.length_map]
    have hzip : ser.t.zip ser.v = l := by
      rw [htimes, hvalues]
      exact (List.zip_of_prod rfl rfl).symm
    -- the latest sample is the last of the record and of what is left of it
    obtain ⟨latest, hlatest⟩ := List.getLast?_isSome.mpr hne |> Option.isSome_iff_exists.mp
    refine ⟨hkind, hlength, ?_, ?_, hexact.minimum, hexact.maximum, latest, hlatest, ?_, ?_⟩
    · rw [htimes]
      exact List.pairwise_map.mpr (hsorted.imp And.left)
    · intro huart
      rw [htimes]
      exact List.pairwise_map.mpr (hsorted.imp fun h => h.2 huart)
    · rw [hzip]
      obtain ⟨cut, hcut, -⟩ := hkept
      exact ⟨cut, hcut.symm⟩
    · rw [hzip]
      have hlast : l.getLast? = some latest := by
        rw [hkept.getLast, getLast_recorded, getLast_unrewound, hlatest]
      exact hkept.retained hlast (hrecord.imp And.left)

end Appends

/-- One sample of a pin. -/
def pin_sample (t : Int) (value : String) : ProbeView := ⟨t, "board", "pin", .Digital, value⟩

/-- In the middle of a second batch, with a second sample at one time. -/
theorem viewer_series_pin :
    [pin_sample 5 "High", pin_sample 5 "Low"] <+:
      [[pin_sample 5 "High"], [pin_sample 5 "Low", pin_sample 1000000005 "HiZ"]].flatten ∧
    ∃ ser, (ProbeStore.new.append String.toInt? [pin_sample 5 "High", pin_sample 5 "Low"]).series
      "board/pin" = some ser ∧ ser.v = [2] ∧ ser.t.Pairwise (· < ·) ∧
      ser.min = ser.v.min? ∧ ser.max = ser.v.max? := by
  have hfront : [pin_sample 5 "High", pin_sample 5 "Low"] <+:
      [[pin_sample 5 "High"], [pin_sample 5 "Low", pin_sample 1000000005 "HiZ"]].flatten :=
    ⟨[pin_sample 1000000005 "HiZ"], rfl⟩
  have hv : ((ProbeStore.new.append String.toInt?
      [pin_sample 5 "High", pin_sample 5 "Low"]).series "board/pin").map
        (fun ser => (ser.kind, ser.v)) = some (.Digital, [2]) := by
    decide +kernel
  have hshown := (viewer_series String.toInt? _).2 _ hfront "board/pin"
  obtain ⟨ser, hseries, hser⟩ := Option.map_eq_some_iff.mp hv
  obtain ⟨hkind, hvalues⟩ := Prod.mk.inj hser
  rw [hseries] at hshown
  obtain ⟨-, -, -, hstrict, hmin, hmax, -⟩ := hshown
  exact ⟨hfront, ser, hseries, hvalues, hstrict (by simp [hkind]), hmin, hmax⟩

/-- Of two samples of a pin at one time the first is not in the series. -/
theorem same_time_collapses :
    let samples := [pin_sample 5 "High", pin_sample 5 "Low"]
    unrewound (samples_of String.toInt? "board/pin" samples) = [(5, 1), (5, 2)] ∧
    ((ProbeStore.new.append String.toInt? samples).series "board/pin").map
      (fun ser => (ser.t, ser.v)) = some ([5], [2]) := by
  decide +kernel

end Rl78Sim.Viewer
