import Mathlib.Data.List.Forall2
import Mathlib.Data.Rat.Defs
import Mathlib.Algebra.Order.Ring.Rat
import Rl78Sim.Framework.Fallible
import Rl78Sim.Kernel.Entity

/-! # Actions and Their Parameters

    An action names its parameters by a hash, and gives each a range and maybe a
    default. `prepare_parameters` checks the pairs of a request against that, and
    hands the action one value for each parameter, in the order of the schema.
    A value is a rational number, an infinity, or no number at all. -/

namespace Rl78Sim

/-! ### Values -/

/-- `f64`. -/
inductive F64 where
  | finite (value : ℚ)
  | infinite (negative : Bool)
  | nan
  deriving DecidableEq

namespace F64

/-- `f64::is_finite`. -/
def is_finite : F64 → Bool
  | finite _ => true
  | _ => false

/-- `<` of two floats; what is no number is not less than anything. -/
def lt : F64 → F64 → Bool
  | nan, _ | _, nan => false
  | finite a, finite b => a < b
  | infinite a, infinite b => a && !b
  | infinite a, finite _ => a
  | finite _, infinite b => !b

end F64

/-! ### Schemas -/

/-- `MAX_ACTION_PARAMS`. -/
def max_action_params : Nat := 8

/-- `ParamSpec`. -/
structure ParamSpec where
  name : String
  name_hash : Nat
  unit : Option String
  description : Option String
  min : Option F64
  max : Option F64
  default : Option F64
  deriving DecidableEq

/-- `ActionSpec`. -/
structure ActionSpec where
  id : String
  hash : Nat
  description : String
  params : List ParamSpec

/-- `Parameters`. -/
structure Parameters where
  values : List (Nat × F64)
  deriving DecidableEq

/-- `Parameters::get`. -/
def Parameters.get (p : Parameters) (name_hash : Nat) : Option F64 := p.values.lookup name_hash

/-! ### The check -/

/-- A round of the loop over `raw`: the pair goes to `seen`, unless its name was seen before or
    is not in the schema. -/
def note_seen (spec : ActionSpec) (seen : List (Nat × F64)) (entry : Nat × F64) :
    Except ActionFailure (List (Nat × F64)) :=
  if (seen.lookup entry.1).isSome then .error .BadParam
  else if !spec.params.any fun param => param.name_hash == entry.1 then .error .BadParam
  else .ok (entry :: seen)

/-- The value of a parameter, if it passes the checks. -/
def take_value (param : ParamSpec) (seen : List (Nat × F64)) : Except ActionFailure F64 :=
  match (seen.lookup param.name_hash).or param.default with
  | none => .error .BadParam
  | some value =>
      if !value.is_finite then .error .BadParam
      else if (param.min.map fun min => value.lt min) = some true then .error .BadParam
      else if (param.max.map fun max => max.lt value) = some true then .error .BadParam
      else .ok value

/-- The loop over the parameters of the schema: their values, and what is left of `seen`. -/
def take_values : List ParamSpec → List (Nat × F64) →
    Except ActionFailure (List (Nat × F64) × List (Nat × F64))
  | [], seen => .ok ([], seen)
  | param :: params, seen => do
      let value ← take_value param seen
      let (values, seen) ← take_values params (seen.filter fun e => e.1 != param.name_hash)
      return ((param.name_hash, value) :: values, seen)

/-- `prepare_parameters`. -/
def prepare_parameters (spec : ActionSpec) (raw : List (Nat × F64)) :
    Except ActionFailure Parameters :=
  if max_action_params < raw.length then .error .BadParam
  else do
    let seen ← raw.foldlM (note_seen spec) []
    let (values, seen) ← take_values spec.params seen
    if !seen.isEmpty then .error .BadParam else .ok ⟨values⟩

/-! ### What is accepted -/

/-- A bound from below; what is no number bounds nothing. -/
def AtLeast : Option F64 → ℚ → Prop
  | some (.finite min), q => min ≤ q
  | some (.infinite negative), _ => negative = true
  | some .nan, _ | none, _ => True

/-- A bound from above. -/
def AtMost : Option F64 → ℚ → Prop
  | some (.finite max), q => q ≤ max
  | some (.infinite negative), _ => negative = false
  | some .nan, _ | none, _ => True

/-- The value that a parameter gets: the one of the request, or its default. -/
def ParamSpec.given (param : ParamSpec) (raw : List (Nat × F64)) : Option F64 :=
  (raw.lookup param.name_hash).or param.default

/-- The request fits the schema. -/
structure ActionSpec.Accepts (spec : ActionSpec) (raw : List (Nat × F64)) : Prop where
  few : raw.length ≤ max_action_params
  known : ∀ entry ∈ raw, ∃ param ∈ spec.params, param.name_hash = entry.1
  once : (raw.map Prod.fst).Nodup
  present : ∀ param ∈ spec.params, param.default = none → ∃ entry ∈ raw, entry.1 = param.name_hash
  valid : ∀ param ∈ spec.params, ∀ value, param.given raw = some value →
    ∃ q, value = .finite q ∧ AtLeast param.min q ∧ AtMost param.max q

/-- The values of the schema's parameters, each once and in order. -/
def ActionSpec.Lists (spec : ActionSpec) (raw : List (Nat × F64)) (p : Parameters) : Prop :=
  List.Forall₂ (fun param entry => entry.1 = param.name_hash ∧ param.given raw = some entry.2)
    spec.params p.values

/-! ### Tables -/

section tables

variable {β : Type} {k : Nat}

/-- Without the entries of another key. -/
theorem lookup_filter_ne {l : List (Nat × β)} {k' : Nat} (hne : k ≠ k') :
    (l.filter fun e => e.1 != k').lookup k = l.lookup k := by
  induction l with
  | nil => rfl
  | cons entry rest ih =>
    obtain ⟨key, value⟩ := entry
    by_cases hkey : key = k'
    · subst hkey
      rw [List.filter_cons_of_neg (by simp), ih, List.lookup_cons, beq_false_of_ne hne]
    · rw [List.filter_cons_of_pos (by simpa using hkey), List.lookup_cons, List.lookup_cons, ih]

/-- A table without repeated keys may be read in either order. -/
theorem lookup_reverse {l : List (Nat × β)} (hnodup : (l.map Prod.fst).Nodup) :
    l.reverse.lookup k = l.lookup k := by
  induction l with
  | nil => rfl
  | cons entry rest ih =>
    obtain ⟨key, value⟩ := entry
    obtain ⟨hkey, hrest⟩ := List.nodup_cons.mp hnodup
    rw [List.reverse_cons, List.lookup_append, ih hrest, List.lookup_cons, List.lookup_cons,
      List.lookup_nil]
    by_cases heq : k = key
    · subst heq
      have hnone : rest.lookup k = none := by
        rw [List.lookup_eq_none_iff]
        intro entry hentry
        have hne : entry.1 ≠ k := fun h => hkey (List.mem_map.mpr ⟨entry, hentry, h⟩)
        simpa using hne.symm
      rw [hnone]
      simp
    · rw [beq_false_of_ne heq]
      simp

end tables

/-! ### What the loops check -/

variable {spec : ActionSpec}

theorem note_seen_ok_iff {seen final : List (Nat × F64)} {entry : Nat × F64} :
    note_seen spec seen entry = .ok final ↔ (∃ param ∈ spec.params, param.name_hash = entry.1) ∧
      seen.lookup entry.1 = none ∧ final = entry :: seen := by
  unfold note_seen
  by_cases hseen : (seen.lookup entry.1).isSome
  · have hnot : ¬ seen.lookup entry.1 = none := by
      intro h
      rw [h] at hseen
      cases hseen
    rw [if_pos hseen]
    simp [hnot]
  · rw [if_neg hseen]
    have hnone := Option.not_isSome_iff_eq_none.mp hseen
    by_cases hknown : spec.params.any fun param => param.name_hash == entry.1
    · rw [if_neg (by simpa using hknown)]
      have hknown' : ∃ param ∈ spec.params, param.name_hash = entry.1 := by
        simpa using hknown
      constructor
      · intro h
        exact ⟨hknown', hnone, (Except.ok.inj h).symm⟩
      · rintro ⟨-, -, rfl⟩
        rfl
    · rw [if_pos (by simpa using hknown)]
      have hunknown : ¬ ∃ param ∈ spec.params, param.name_hash = entry.1 := by
        simpa using hknown
      simp [hunknown]

/-- The first loop accepts pairs with known names, each once, and collects them. -/
theorem note_seen_all {raw seen final : List (Nat × F64)} :
    raw.foldlM (note_seen spec) seen = .ok final ↔
      (∀ entry ∈ raw, ∃ param ∈ spec.params, param.name_hash = entry.1) ∧
      (raw.map Prod.fst).Nodup ∧ (∀ entry ∈ raw, seen.lookup entry.1 = none) ∧
      final = raw.reverse ++ seen := by
  induction raw generalizing seen with
  | nil =>
    simp only [List.foldlM_nil, List.not_mem_nil, false_implies, implies_true, List.map_nil,
      List.nodup_nil, true_and, List.reverse_nil, List.nil_append]
    exact ⟨fun h => (Except.ok.inj h).symm, fun h => h ▸ rfl⟩
  | cons entry rest ih =>
    rw [List.foldlM_cons]
    constructor
    · intro h
      obtain ⟨seen', hnote, hrest⟩ := Fallible.bind_ok h
      obtain ⟨hknown, hnew, rfl⟩ := note_seen_ok_iff.mp hnote
      obtain ⟨hknowns, hnodup, hnews, rfl⟩ := ih.mp hrest
      refine ⟨?_, ?_, ?_, by simp⟩
      · intro e he
        rcases List.mem_cons.mp he with rfl | he
        · exact hknown
        · exact hknowns e he
      -- The rest was checked against a list that holds this name already.
      · refine List.nodup_cons.mpr ⟨?_, hnodup⟩
        intro hmem
        obtain ⟨e, he, heq⟩ := List.mem_map.mp hmem
        have hnone := hnews e he
        rw [List.lookup_cons, heq, beq_self_eq_true] at hnone
        cases hnone
      · intro e he
        rcases List.mem_cons.mp he with rfl | he
        · exact hnew
        · have hnone := hnews e he
          rw [List.lookup_cons] at hnone
          split at hnone
          · cases hnone
          · exact hnone
    · rintro ⟨hknowns, hnodup, hnews, rfl⟩
      obtain ⟨hkey, hnodup⟩ := List.nodup_cons.mp hnodup
      have hnote : note_seen spec seen entry = .ok (entry :: seen) :=
        note_seen_ok_iff.mpr
          ⟨hknowns entry List.mem_cons_self, hnews entry List.mem_cons_self, rfl⟩
      rw [hnote]
      refine ih.mpr ⟨fun e he => hknowns e (List.mem_cons_of_mem _ he), hnodup, ?_, by simp⟩
      intro e he
      -- Later names differ from this one, so they are still new.
      have hne : e.1 ≠ entry.1 := fun h => hkey (h ▸ List.mem_map_of_mem he)
      rw [List.lookup_cons, beq_false_of_ne hne]
      exact hnews e (List.mem_cons_of_mem _ he)

/-- The value of a parameter passes when it is a number within the bounds. -/
theorem take_value_ok_iff {param : ParamSpec} {seen : List (Nat × F64)} {value : F64} :
    take_value param seen = .ok value ↔ param.given seen = some value ∧
      ∃ q, value = .finite q ∧ AtLeast param.min q ∧ AtMost param.max q := by
  unfold take_value
  rw [← ParamSpec.given]
  cases hgiven : param.given seen with
  | none => simp
  | some v =>
    dsimp only
    cases v with
    -- What is not finite fails the first check.
    | nan =>
      rw [if_pos (show (!F64.nan.is_finite) = true from rfl)]
      refine ⟨nofun, ?_⟩
      rintro ⟨h, q, rfl, -⟩
      cases h
    | infinite negative =>
      rw [if_pos (show (!(F64.infinite negative).is_finite) = true from rfl)]
      refine ⟨nofun, ?_⟩
      rintro ⟨h, q, rfl, -⟩
      cases h
    | finite q =>
      -- A bound that is no number never fails a value, since nothing is less than it.
      have hmin : (param.min.map fun min => (F64.finite q).lt min) = some true ↔
          ¬ AtLeast param.min q := by
        rcases param.min with _ | ⟨min⟩ | ⟨negative⟩ | _ <;> simp [F64.lt, AtLeast]
      have hmax : (param.max.map fun max => max.lt (F64.finite q)) = some true ↔
          ¬ AtMost param.max q := by
        rcases param.max with _ | ⟨max⟩ | ⟨negative⟩ | _ <;> simp [F64.lt, AtMost]
      rw [if_neg (by simp [F64.is_finite])]
      by_cases hlow : AtLeast param.min q
      · rw [if_neg (mt hmin.mp (not_not.mpr hlow))]
        by_cases hhigh : AtMost param.max q
        · rw [if_neg (mt hmax.mp (not_not.mpr hhigh))]
          constructor
          · intro h
            obtain rfl := Except.ok.inj h
            exact ⟨rfl, q, rfl, hlow, hhigh⟩
          · rintro ⟨h, -⟩
            rw [Option.some.inj h]
        · rw [if_pos (hmax.mpr hhigh)]
          refine ⟨nofun, ?_⟩
          rintro ⟨h, q', rfl, -, hhigh'⟩
          cases h
          exact absurd hhigh' hhigh
      · rw [if_pos (hmin.mpr hlow)]
        refine ⟨nofun, ?_⟩
        rintro ⟨h, q', rfl, hlow', -⟩
        cases h
        exact absurd hlow' hlow

/-- Without an entry that is taken by another parameter. -/
theorem take_value_filter {param : ParamSpec} {seen : List (Nat × F64)} {hash : Nat}
    (hne : param.name_hash ≠ hash) :
    take_value param (seen.filter fun e => e.1 != hash) = take_value param seen := by
  unfold take_value
  rw [lookup_filter_ne hne]

/-- The second loop takes each parameter's value, and what no parameter takes is left. -/
theorem take_values_ok_iff {params : List ParamSpec} (hnodup : (params.map (·.name_hash)).Nodup)
    {seen values left : List (Nat × F64)} : take_values params seen = .ok (values, left) ↔
      List.Forall₂ (fun param e => e.1 = param.name_hash ∧ take_value param seen = .ok e.2)
        params values ∧ left = seen.filter fun e => e.1 ∉ params.map (·.name_hash) := by
  induction params generalizing seen values left with
  | nil =>
    unfold take_values
    constructor
    · intro h
      cases h
      exact ⟨.nil, by simp⟩
    · rintro ⟨hvalues, rfl⟩
      cases hvalues
      simp
  | cons param params ih =>
    obtain ⟨hhead, hnodup⟩ := List.nodup_cons.mp hnodup
    -- The other parameters do not see what this one takes away.
    have hsame : ∀ p ∈ params, ∀ e : Nat × F64, (e.1 = p.name_hash ∧
        take_value p (seen.filter fun e => e.1 != param.name_hash) = .ok e.2) ↔
          (e.1 = p.name_hash ∧ take_value p seen = .ok e.2) := by
      intro p hp e
      have hne : p.name_hash ≠ param.name_hash := fun h => hhead (List.mem_map.mpr ⟨p, hp, h⟩)
      rw [take_value_filter hne]
    have hleft : (seen.filter fun e => e.1 != param.name_hash).filter
        (fun e => e.1 ∉ params.map (·.name_hash)) =
          seen.filter fun e => e.1 ∉ (param :: params).map (·.name_hash) := by
      rw [List.filter_filter]
      refine List.filter_congr fun e _ => ?_
      by_cases heq : e.1 = param.name_hash
      · simp [heq]
      · simp [heq]
    unfold take_values
    constructor
    · intro h
      obtain ⟨value, hvalue, h⟩ := Fallible.bind_ok h
      obtain ⟨⟨values', left'⟩, hrest, h⟩ := Fallible.bind_ok h
      cases h
      obtain ⟨hvalues, rfl⟩ := (ih hnodup).mp hrest
      exact ⟨.cons ⟨rfl, hvalue⟩ ((Fallible.forall₂_congr hsame).mp hvalues), hleft⟩
    · rintro ⟨hvalues, rfl⟩
      cases hvalues with
      | @cons _ e _ values' hfirst hrest =>
        obtain ⟨hash, value⟩ := e
        obtain ⟨rfl, hvalue⟩ := hfirst
        rw [hvalue]
        have htail := (ih hnodup).mpr ⟨(Fallible.forall₂_congr hsame).mpr hrest, hleft.symm⟩
        show (take_values params _ >>= _) = _
        rw [htail]
        rfl

/-! ### The whole check -/

/-- A request is accepted, with one value for each parameter, exactly when it fits. -/
theorem prepare_parameters_eq_ok_iff (hdistinct : (spec.params.map (·.name_hash)).Nodup)
    {raw : List (Nat × F64)} {p : Parameters} :
    prepare_parameters spec raw = .ok p ↔ spec.Accepts raw ∧ spec.Lists raw p := by
  have hgiven (hnodup : (raw.map Prod.fst).Nodup) (param : ParamSpec) :
      param.given raw.reverse = param.given raw := by
    unfold ParamSpec.given
    rw [lookup_reverse hnodup]
  unfold prepare_parameters
  by_cases hlen : max_action_params < raw.length
  · rw [if_pos hlen]
    refine ⟨nofun, ?_⟩
    rintro ⟨haccepts, -⟩
    exact absurd haccepts.few (Nat.not_le_of_lt hlen)
  · rw [if_neg hlen]
    constructor
    · intro h
      obtain ⟨seen, hseen, h⟩ := Fallible.bind_ok h
      obtain ⟨⟨values, left⟩, htaken, h⟩ := Fallible.bind_ok h
      obtain ⟨hknown, hnodup, -, rfl⟩ := note_seen_all.mp hseen
      obtain ⟨hvalues, rfl⟩ := (take_values_ok_iff hdistinct).mp htaken
      have hp : p = ⟨values⟩ := by
        dsimp only at h
        split at h
        · cases h
        · exact (Except.ok.inj h).symm
      subst hp
      rw [List.append_nil] at hvalues
      have hlists : List.Forall₂ (fun param e => e.1 = param.name_hash ∧
          param.given raw = some e.2 ∧ ∃ q, e.2 = F64.finite q ∧ AtLeast param.min q ∧
            AtMost param.max q) spec.params values := by
        refine hvalues.imp fun param e he => ?_
        rw [take_value_ok_iff, hgiven hnodup] at he
        exact he
      refine ⟨⟨Nat.le_of_not_lt hlen, hknown, hnodup, ?_, ?_⟩, ?_⟩
      · intro param hparam hdefault
        obtain ⟨e, -, -, he, -⟩ := Fallible.forall₂_exists_right hlists hparam
        unfold ParamSpec.given at he
        rw [hdefault, Option.or_none] at he
        have hsome : (raw.lookup param.name_hash).isSome := by
          rw [he]
          rfl
        simpa using hsome
      · intro param hparam value hvalue
        obtain ⟨e, -, -, he, hvalid⟩ := Fallible.forall₂_exists_right hlists hparam
        obtain rfl := Option.some.inj (he.symm.trans hvalue)
        exact hvalid
      · exact hlists.imp fun param e he => ⟨he.1, he.2.1⟩
    · rintro ⟨haccepts, hlists⟩
      have hseen : raw.foldlM (note_seen spec) [] = .ok (raw.reverse ++ []) :=
        note_seen_all.mpr ⟨haccepts.known, haccepts.once, fun _ _ => rfl, rfl⟩
      have hvalues : List.Forall₂ (fun param e => e.1 = param.name_hash ∧
          take_value param (raw.reverse ++ []) = .ok e.2) spec.params p.values := by
        refine (Fallible.forall₂_mem hlists).imp ?_
        rintro param e ⟨hparam, he, hvalue⟩
        refine ⟨he, take_value_ok_iff.mpr ⟨?_, haccepts.valid param hparam _ hvalue⟩⟩
        rw [List.append_nil, hgiven haccepts.once]
        exact hvalue
      -- Every name is one of the schema, so nothing is left.
      have hleft : (raw.reverse ++ []).filter
          (fun e : Nat × F64 => e.1 ∉ spec.params.map ParamSpec.name_hash) = [] := by
        rw [List.append_nil, List.filter_eq_nil_iff]
        intro e he
        obtain ⟨param, hparam, hname⟩ := haccepts.known e (List.mem_reverse.mp he)
        simpa using ⟨param, hparam, hname⟩
      have htaken := (take_values_ok_iff hdistinct).mpr ⟨hvalues, rfl⟩
      rw [hleft] at htaken
      rw [hseen]
      show (take_values spec.params _ >>= _) = _
      rw [htaken]
      rfl

/-- A request that fits has a value for each parameter. -/
theorem ActionSpec.Accepts.lists {raw : List (Nat × F64)} (h : spec.Accepts raw) :
    ∃ p, spec.Lists raw p := by
  have hall : ∀ param ∈ spec.params, ∃ entry : Nat × F64,
      entry.1 = param.name_hash ∧ param.given raw = some entry.2 := by
    intro param hparam
    unfold ParamSpec.given
    cases hlookup : raw.lookup param.name_hash with
    | some value => exact ⟨(param.name_hash, value), rfl, rfl⟩
    | none =>
      cases hdefault : param.default with
      | some value => exact ⟨(param.name_hash, value), rfl, rfl⟩
      | none =>
        -- A parameter without a default is in the request.
        obtain ⟨entry, hentry, hname⟩ := h.present param hparam hdefault
        rw [List.lookup_eq_none_iff] at hlookup
        have hne := hlookup entry hentry
        rw [hname] at hne
        simp at hne
  obtain ⟨values, hvalues⟩ := Fallible.forall₂_of_forall hall
  exact ⟨⟨values⟩, hvalues⟩

/-- `prepare_parameters` accepts exactly the requests that fit the schema, and lists the value
    of each parameter once, in the order of the schema. -/
theorem prepare_parameters_exact (spec : ActionSpec)
    (hdistinct : (spec.params.map (·.name_hash)).Nodup) (raw : List (Nat × F64)) :
    ((∃ p, prepare_parameters spec raw = .ok p) ↔ spec.Accepts raw) ∧
      ∀ p, prepare_parameters spec raw = .ok p → spec.Lists raw p := by
  refine ⟨⟨?_, ?_⟩, ?_⟩
  · rintro ⟨p, hp⟩
    exact ((prepare_parameters_eq_ok_iff hdistinct).mp hp).1
  · intro haccepts
    obtain ⟨p, hp⟩ := haccepts.lists
    exact ⟨p, (prepare_parameters_eq_ok_iff hdistinct).mpr ⟨haccepts, hp⟩⟩
  · intro p hp
    exact ((prepare_parameters_eq_ok_iff hdistinct).mp hp).2

/-- A schema with a bounded parameter and one that has a default. -/
def blink : ActionSpec where
  id := "blink"
  hash := 1
  description := ""
  params := [⟨"count", 2, none, none, some (.finite 1), some (.finite 10), none⟩,
    ⟨"level", 3, none, none, none, some (.infinite false), some (.finite 5)⟩]

/-- The default is listed behind the value that was given. -/
theorem prepare_parameters_blink : blink.Accepts [(2, .finite 4)] ∧
    blink.Lists [(2, .finite 4)] ⟨[(2, .finite 4), (3, .finite 5)]⟩ := by
  have hok : prepare_parameters blink [(2, .finite 4)] =
      .ok ⟨[(2, .finite 4), (3, .finite 5)]⟩ := by decide +kernel
  obtain ⟨haccepts, hlists⟩ := prepare_parameters_exact blink (by decide) [(2, .finite 4)]
  exact ⟨haccepts.mp ⟨_, hok⟩, hlists _ hok⟩

end Rl78Sim
