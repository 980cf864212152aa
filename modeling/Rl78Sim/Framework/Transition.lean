import Mathlib.Order.Basic
import Mathlib.Data.List.Basic

/-! # Labelled Step Functions

    A transition system given by a set of initial states and a partial step
    function: `step s l = some s'` means that the action `l` is enabled in `s`
    and leads to `s'`. All nondeterminism is in the choice of the label, so a
    run can be replayed by evaluation (`System.exec`).

    Reachability carries a *guard* `ok s l`: only steps whose source state and
    label satisfy it are taken. Guards express assumptions on the environment
    ("no reset is issued while ...") without changing the system.
-/

namespace Transition

variable {State Label : Type*}

/-- A transition system with an executable step function. -/
structure System (State Label : Type*) where
  init : State → Prop
  step : State → Label → Option State

/-- A condition on the source state and the label of a step. -/
abbrev Guard (State Label : Type*) := State → Label → Prop

/-! ### Paths and reachability -/

/-- `Path sys ok s s'`: finitely many guarded steps lead from `s` to `s'`. -/
inductive Path (sys : System State Label) (ok : Guard State Label) :
    State → State → Prop where
  | refl (s : State) : Path sys ok s s
  | tail {s t t' : State} (l : Label) :
      Path sys ok s t → ok t l → sys.step t l = some t' → Path sys ok s t'

/-- States reached from an initial state by guarded steps. -/
inductive Reachable (sys : System State Label) (ok : Guard State Label) :
    State → Prop where
  | init {s : State} : sys.init s → Reachable sys ok s
  | step {s s' : State} (l : Label) :
      Reachable sys ok s → ok s l → sys.step s l = some s' → Reachable sys ok s'

variable {sys : System State Label} {ok ok' : Guard State Label}

/-- One guarded step is a path. -/
theorem Path.single {s s' : State} {l : Label} (hok : ok s l)
    (hstep : sys.step s l = some s') : Path sys ok s s' :=
  .tail l (.refl s) hok hstep

theorem Path.trans {s t u : State} (hst : Path sys ok s t) (htu : Path sys ok t u) :
    Path sys ok s u := by
  induction htu with
  | refl => exact hst
  | tail l _ hok hstep ih => exact .tail l ih hok hstep

/-- Weakening the guard keeps paths. -/
theorem Path.mono (hle : ∀ s l, ok s l → ok' s l) {s t : State}
    (h : Path sys ok s t) : Path sys ok' s t := by
  induction h with
  | refl => exact .refl _
  | tail l _ hok hstep ih => exact .tail l ih (hle _ _ hok) hstep

theorem Reachable.of_path {s t : State} (hs : Reachable sys ok s)
    (hst : Path sys ok s t) : Reachable sys ok t := by
  induction hst with
  | refl => exact hs
  | tail l _ hok hstep ih => exact .step l ih hok hstep

/-- Weakening the guard keeps reachable states. -/
theorem Reachable.mono (hle : ∀ s l, ok s l → ok' s l) {s : State}
    (h : Reachable sys ok s) : Reachable sys ok' s := by
  induction h with
  | init hi => exact .init hi
  | step l _ hok hstep ih => exact .step l ih (hle _ _ hok) hstep

/-! ### The invariant rule -/

/-- `Inv` is preserved by every guarded step. -/
def Inductive (sys : System State Label) (ok : Guard State Label)
    (Inv : State → Prop) : Prop :=
  ∀ s l s', Inv s → ok s l → sys.step s l = some s' → Inv s'

/-- A predicate that holds initially and is inductive holds of every
    reachable state. -/
theorem Reachable.invariant {Inv : State → Prop}
    (hinit : ∀ s, sys.init s → Inv s) (hstep : Inductive sys ok Inv)
    {s : State} (h : Reachable sys ok s) : Inv s := by
  induction h with
  | init hi => exact hinit _ hi
  | step l _ hok hs ih => exact hstep _ l _ ih hok hs

/-- Facts already known of all reachable states may be used as guards. -/
theorem Reachable.strengthen {Inv : State → Prop}
    (hinv : ∀ s, Reachable sys ok s → Inv s) {s : State} (h : Reachable sys ok s) :
    Reachable sys (fun s l => ok s l ∧ Inv s) s := by
  induction h with
  | init hi => exact .init hi
  | step l hpre hok hs ih => exact .step l ih ⟨hok, hinv _ hpre⟩ hs

/-- An inductive predicate is carried along every path. -/
theorem Path.invariant {Inv : State → Prop} (hstep : Inductive sys ok Inv)
    {s t : State} (h : Path sys ok s t) (hs : Inv s) : Inv t := by
  induction h with
  | refl => exact hs
  | tail l _ hok hstep' ih => exact hstep _ l _ ih hok hstep'

/-- An inductive predicate may be used as a guard along a path. -/
theorem Path.strengthen {Inv : State → Prop} (hstep : Inductive sys ok Inv)
    {s t : State} (h : Path sys ok s t) (hs : Inv s) :
    Path sys (fun s l => ok s l ∧ Inv s) s t := by
  induction h with
  | refl => exact .refl _
  | tail l hpre hok hstep' ih =>
    exact .tail l ih ⟨hok, hpre.invariant hstep hs⟩ hstep'

/-- What can be reached for each index, and stays while the other indices are
    served, can be reached for all indices of a list. -/
theorem Path.exists_forall {ι : Type*} {Inv : State → Prop} {P : ι → State → Prop}
    (hserve : ∀ i s, Inv s →
      ∃ t, Path sys ok s t ∧ Inv t ∧ P i t ∧ ∀ j, P j s → P j t)
    (is : List ι) {s : State} (hs : Inv s) :
    ∃ t, Path sys ok s t ∧ Inv t ∧ (∀ i ∈ is, P i t) ∧ ∀ j, P j s → P j t := by
  induction is generalizing s with
  | nil => exact ⟨s, .refl s, hs, by simp, fun _ h => h⟩
  | cons i is ih =>
    obtain ⟨t, hst, ht, hi, hkeep⟩ := hserve i s hs
    obtain ⟨u, htu, hu, hall, hkeep'⟩ := ih ht
    refine ⟨u, hst.trans htu, hu, ?_, fun j hj => hkeep' j (hkeep j hj)⟩
    intro j hj
    rcases List.mem_cons.mp hj with rfl | hj
    · exact hkeep' j hi
    · exact hall j hj

/-! ### History variables -/

section history

variable {H : Type*} {start : H} {log : State → Label → State → H → H}

/-- The system with a history: `log` records every step in a value that no
    step reads. -/
def System.logged (sys : System State Label) (start : H)
    (log : State → Label → State → H → H) : System (State × H) Label where
  init s := sys.init s.1 ∧ s.2 = start
  step s l := (sys.step s.1 l).map fun s' => (s', log s.1 l s' s.2)

theorem System.logged_step_cases {s s' : State × H} {l : Label}
    (h : (sys.logged start log).step s l = some s') :
    sys.step s.1 l = some s'.1 ∧ s'.2 = log s.1 l s'.1 s.2 := by
  obtain ⟨t, hstep, heq⟩ := Option.map_eq_some_iff.mp h
  subst heq
  exact ⟨hstep, rfl⟩

/-- A history does not restrict the runs. -/
theorem Reachable.logged {s : State} (h : Reachable sys ok s) :
    ∃ hist, Reachable (sys.logged start log) (fun s l => ok s.1 l) (s, hist) := by
  induction h with
  | init hi => exact ⟨start, .init ⟨hi, rfl⟩⟩
  | @step s s' l _ hok hs ih =>
    obtain ⟨hist, hreach⟩ := ih
    refine ⟨log s l s' hist, .step l hreach hok ?_⟩
    show (sys.step s l).map _ = _
    rw [hs]
    rfl

/-- Without its history, a run is a run of the system. -/
theorem Reachable.unlogged {okh : Guard (State × H) Label} {s : State × H}
    (hok : ∀ s l, okh s l → ok s.1 l) (h : Reachable (sys.logged start log) okh s) :
    Reachable sys ok s.1 := by
  induction h with
  | init hi => exact .init hi.1
  | step l _ hg hs ih => exact .step l ih (hok _ _ hg) (System.logged_step_cases hs).1

end history

/-! ### Functional projections -/

/-- `f` forgets a part of the state that no step depends on. -/
structure Projects {State' : Type*} (sys : System State Label) (sys' : System State' Label)
    (f : State → State') : Prop where
  init (s : State) : sys.init s → sys'.init (f s)
  init_lift (s' : State') : sys'.init s' → ∃ s, sys.init s ∧ f s = s'
  step (s : State) (l : Label) : sys'.step (f s) l = (sys.step s l).map f

/-- Every run of the smaller system is one of the larger. -/
theorem Projects.lift {State' : Type*} {sys' : System State' Label} {f : State → State'}
    (hf : Projects sys sys' f) {ok' : Guard State' Label} {s' : State'}
    (h : Reachable sys' ok' s') :
    ∃ s, Reachable sys (fun s l => ok' (f s) l) s ∧ f s = s' := by
  induction h with
  | init hi =>
    obtain ⟨s, hs, rfl⟩ := hf.init_lift _ hi
    exact ⟨s, .init hs, rfl⟩
  | step l _ hok hstep ih =>
    obtain ⟨s, hreach, rfl⟩ := ih
    rw [hf.step] at hstep
    obtain ⟨t, ht, rfl⟩ := Option.map_eq_some_iff.mp hstep
    exact ⟨t, .step l hreach hok ht, rfl⟩

/-! ### Replaying a list of labels -/

/-- Run the labels in order; `none` as soon as one is not enabled or not
    allowed by the guard. -/
def System.exec (sys : System State Label) (ok : Guard State Label)
    [∀ s l, Decidable (ok s l)] : State → List Label → Option State
  | s, [] => some s
  | s, l :: ls => if ok s l then (sys.step s l).bind fun s' => sys.exec ok s' ls else none

/-- A replay is a path. -/
theorem Path.of_exec [∀ s l, Decidable (ok s l)] {s t : State} {ls : List Label}
    (h : sys.exec ok s ls = some t) : Path sys ok s t := by
  induction ls generalizing s with
  | nil =>
    obtain rfl : s = t := by simpa [System.exec] using h
    exact .refl s
  | cons l ls ih =>
    simp only [System.exec] at h
    split at h
    · rename_i hok
      obtain ⟨s', hstep, hrest⟩ := Option.bind_eq_some_iff.mp h
      exact (Path.single hok hstep).trans (ih hrest)
    · cases h

/-- A replay that ends well is a path to such a state. -/
theorem Path.exists_of_exec [∀ s l, Decidable (ok s l)] {s : State} (ls : List Label)
    {p : State → Prop} [DecidablePred p] (h : ((sys.exec ok s ls).any fun t => p t) = true) :
    ∃ t, Path sys ok s t ∧ p t := by
  cases hexec : sys.exec ok s ls with
  | none => rw [hexec] at h; cases h
  | some t =>
    rw [hexec] at h
    exact ⟨t, .of_exec hexec, of_decide_eq_true h⟩

/-- A replay from an initial state that ends well reaches such a state. -/
theorem Reachable.exists_of_exec [∀ s l, Decidable (ok s l)] {s : State} (ls : List Label)
    {p : State → Prop} [DecidablePred p] (hs : sys.init s)
    (h : ((sys.exec ok s ls).any fun t => p t) = true) :
    ∃ t, Reachable sys ok t ∧ p t := by
  obtain ⟨t, hpath, hp⟩ := Path.exists_of_exec ls h
  exact ⟨t, (Reachable.init hs).of_path hpath, hp⟩

/-- The same for the step `l` that is taken after the replay. -/
theorem Reachable.exists_step_of_exec [∀ s l, Decidable (ok s l)] {s : State}
    (ls : List Label) {l : Label} {p : State → State → Prop} [∀ t t', Decidable (p t t')]
    (hs : sys.init s)
    (h : ((sys.exec ok s ls).any fun t => (sys.step t l).any fun t' => p t t') = true) :
    ∃ t t', Reachable sys ok t ∧ sys.step t l = some t' ∧ p t t' := by
  cases hexec : sys.exec ok s ls with
  | none => rw [hexec] at h; cases h
  | some t =>
    rw [hexec] at h
    cases hstep : sys.step t l with
    | none => simp [hstep] at h
    | some t' =>
      refine ⟨t, t', (Reachable.init hs).of_path (.of_exec hexec), hstep, ?_⟩
      simpa [hstep] using h

end Transition
