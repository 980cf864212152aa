import Rl78Sim.Kernel.SimRuns

/-! # The Step Grid of a Plant

    A plant steps its model at the time of its last reset and at every
    multiple of `dt` after it. The model is watched: beside it a counter moves
    whenever its `step` is executed, whoever calls it. The history keeps, for
    every reset, the times at which the counter moved until the next one. How
    the owner slices the time by ceilings and polls leaves no trace in it.
-/

namespace Rl78Sim

open Transition

/-- The model steps from one reset to the next: the time of the reset, and the
    times of the steps in order. -/
structure Epoch where
  start : Nat
  steps : List Nat
  deriving DecidableEq

/-- The first `n` times of the grid. -/
def grid (start dt n : Nat) : List Nat := (List.range n).map fun k => start + k * dt

theorem mem_grid {start dt n t : Nat} : t ∈ grid start dt n ↔ ∃ k < n, t = start + k * dt := by
  simp only [grid, List.mem_map, List.mem_range]
  constructor
  · rintro ⟨k, hk, rfl⟩
    exact ⟨k, hk, rfl⟩
  · rintro ⟨k, hk, rfl⟩
    exact ⟨k, hk, rfl⟩

theorem grid_succ (start dt n : Nat) :
    grid start dt (n + 1) = grid start dt n ++ [start + n * dt] := by
  simp [grid, List.range_succ]

theorem grid_add (start dt n m : Nat) :
    grid start dt (n + m) = grid start dt n ++ grid (start + n * dt) dt m := by
  induction m with
  | zero => simp [grid]
  | succ m ih =>
    rw [← Nat.add_assoc, grid_succ, ih, grid_succ, List.append_assoc, Nat.add_mul, Nat.add_assoc]

/-- Two initial parts of one grid agree below every time that both have
    passed. -/
theorem filter_grid {start dt n m T : Nat} (hn : T ≤ start + n * dt) (hm : T ≤ start + m * dt) :
    (grid start dt n).filter (fun t => t < T) = (grid start dt m).filter fun t => t < T := by
  have hlonger {n : Nat} (k : Nat) (hn : T ≤ start + n * dt) :
      (grid start dt (n + k)).filter (fun t => t < T) =
        (grid start dt n).filter fun t => t < T := by
    have hrest : (grid (start + n * dt) dt k).filter (fun t => t < T) = [] := by
      apply List.filter_eq_nil_iff.mpr
      intro t ht
      obtain ⟨j, -, rfl⟩ := mem_grid.mp ht
      have : 0 ≤ j * dt := Nat.zero_le _
      simp only [decide_eq_true_eq]
      omega
    rw [grid_add, List.filter_append, hrest, List.append_nil]
  rcases Nat.le_total n m with hle | hle
  · obtain ⟨k, rfl⟩ := Nat.exists_eq_add_of_le hle
    exact (hlonger k hn).symm
  · obtain ⟨k, rfl⟩ := Nat.exists_eq_add_of_le hle
    exact hlonger k hm

namespace Plant

variable {M F : Type} [Model M F]

/-- The `dt` of a model is constant. -/
structure ConstantDt (M : Type) {F : Type} [Model M F] : Prop where
  reset (m : M) : Model.dt (Model.reset m).1 = Model.dt m
  step (m : M) : Model.dt (Model.step m).1 = Model.dt m
  drive_in (port : String) (v : F) (m : M) : Model.dt (Model.drive_in port v m).1 = Model.dt m

end Plant

/-! ### Watching the model -/

/-- A model with the number of times that its `step` was executed. -/
structure Watched (M : Type) where
  model : M
  executed : Nat
  deriving DecidableEq

instance {M F : Type} [Model M F] : Model (Watched M) F where
  dt w := Model.dt w.model
  reset w := (⟨(Model.reset w.model).1, w.executed⟩, (Model.reset w.model).2)
  step w := (⟨(Model.step w.model).1, w.executed + 1⟩, (Model.step w.model).2)
  drive_in port v w :=
    (⟨(Model.drive_in port v w.model).1, w.executed⟩, (Model.drive_in port v w.model).2)

namespace Plant

variable {M F : Type} [Model M F]

theorem ConstantDt.watched (h : ConstantDt M) : ConstantDt (Watched M) :=
  ⟨fun w => h.reset w.model, fun w => h.step w.model, fun port v w => h.drive_in port v w.model⟩

/-- The plant around the bare model. -/
def unwatch (p : Plant (Watched M) F) : Plant M F :=
  ⟨p.model.model, p.clock, p.next_step_at, p.ports⟩

theorem unwatch_poll (p : Plant (Watched M) F) (ctx : AdvanceCtx) :
    p.unwatch.poll ctx = ((p.poll ctx).1.unwatch, (p.poll ctx).2) := by
  unfold poll
  dsimp only
  by_cases hbefore : p.clock.now < p.next_step_at
  · rw [if_pos hbefore, if_pos (show p.unwatch.clock.now < p.unwatch.next_step_at from hbefore)]
    show (if min (saturating_add p.clock.now ctx.budget) p.next_step_at - p.clock.now = 0 then
      (p.unwatch, EntityPoll.NoProgress) else _) = _
    split
    · rfl
    · rename_i hdelta
      rw [advance_clock, advance_clock, if_neg hdelta,
        if_neg (show ¬min (saturating_add p.unwatch.clock.now ctx.budget)
          p.unwatch.next_step_at - p.unwatch.clock.now = 0 from hdelta)]
      rfl
  · rw [if_neg hbefore, if_neg (show ¬p.unwatch.clock.now < p.unwatch.next_step_at from hbefore)]
    rfl

theorem hom_unwatch : Entity.Hom (unwatch : Plant (Watched M) F → Plant M F) where
  poll _ p ctx := congrArg some (unwatch_poll p ctx)
  reset _ := rfl
  now _ := rfl
  inspect _ _ := rfl
  poll_actions _ := rfl
  apply_action _ _ := rfl
  receive _ _ _ := rfl
  drain_pending _ _ := rfl

/-! ### Runs -/

/-- A plant around a model with the given `dt`, at time zero. -/
def Fresh (dt : Nat) (p : Plant M F) : Prop := ∃ m, p = Plant.new m ∧ Model.dt m = dt

/-- The same, watched from the start on. -/
def FreshWatched (dt : Nat) (p : Plant (Watched M) F) : Prop :=
  ∃ m, p = Plant.new ⟨m, 0⟩ ∧ Model.dt m = dt

/-- Every run of a plant is the run of a watched one. -/
theorem projects_unwatch (dt : Nat) :
    Projects (sim_runs (FreshWatched dt : Plant (Watched M) F → Prop)) (sim_runs (Fresh dt))
      (Entity.Hom.sim unwatch) := by
  apply hom_unwatch.projects
  · rintro p ⟨m, rfl, hdt⟩
    exact ⟨m, rfl, hdt⟩
  · rintro p ⟨m, rfl, hdt⟩
    exact ⟨Plant.new ⟨m, 0⟩, ⟨m, rfl, hdt⟩, rfl⟩

/-- How often the model has been stepped. -/
def executed (s : Simulator (Plant (Watched M) F)) : Nat := s.entity.model.executed

/-- Record `k` steps at time `t` in the current epoch. -/
def add_steps (k t : Nat) : List Epoch → List Epoch
  | [] => []
  | e :: rest => { e with steps := e.steps ++ List.replicate k t } :: rest

@[simp] theorem add_steps_zero (t : Nat) (epochs : List Epoch) : add_steps 0 t epochs = epochs := by
  cases epochs <;> simp [add_steps]

/-- A reset opens an epoch. -/
def open_epoch (t : Nat) : SimAct F → List Epoch → List Epoch
  | .reset, epochs => ⟨t, []⟩ :: epochs
  | _, epochs => epochs

/-- Record the steps that the model was made to execute in the call. -/
def note (s : Simulator (Plant (Watched M) F)) (l : SimAct F)
    (s' : Simulator (Plant (Watched M) F)) (epochs : List Epoch) : List Epoch :=
  add_steps (executed s' - executed s) s.now (open_epoch s.now l epochs)

/-- All runs of a simulator around a plant, with the history of its model
    steps, the current epoch first. -/
def plant_runs (dt : Nat) : System (Simulator (Plant (Watched M) F) × List Epoch) (SimAct F) :=
  System.logged (sim_runs (FreshWatched dt)) [⟨0, []⟩] note

/-- Times are far below `u64::MAX`. -/
def FarBelow (dt : Nat) (s : Simulator (Plant M F)) (_ : SimAct F) : Prop :=
  s.now + dt ≤ u64_max

/-- The same of a run with its history. -/
def AllFarBelow (dt : Nat) (s : Simulator (Plant (Watched M) F) × List Epoch) (l : SimAct F) :
    Prop :=
  FarBelow dt s.1 l

/-! ### The grid invariant -/

/-- Every epoch, the current one up to `now` and each older one up to the next
    reset, holds an initial part of its grid that misses nothing. -/
def OnGrid (dt now : Nat) : List Epoch → Prop
  | [] => True
  | e :: rest =>
      e.steps = grid e.start dt e.steps.length ∧ e.start ≤ now ∧ (∀ t ∈ e.steps, t ≤ now) ∧
        now ≤ e.start + e.steps.length * dt ∧ OnGrid dt e.start rest

/-- The plant is on the grid of its last reset. -/
structure GridInv (dt : Nat) (p : Plant M F) (epochs : List Epoch) : Prop where
  dt_eq : Model.dt p.model = dt
  on_grid : OnGrid dt p.clock.now epochs
  current : ∃ e rest, epochs = e :: rest ∧ p.next_step_at = e.start + e.steps.length * dt

theorem OnGrid.mono {dt now now' : Nat} {e : Epoch} {rest : List Epoch}
    (h : OnGrid dt now (e :: rest)) (hle : now ≤ now')
    (hbefore : now' ≤ e.start + e.steps.length * dt) : OnGrid dt now' (e :: rest) := by
  obtain ⟨hgrid, hstart, hsteps, -, hrest⟩ := h
  refine ⟨hgrid, Nat.le_trans hstart hle, ?_, hbefore, hrest⟩
  intro t ht
  exact Nat.le_trans (hsteps t ht) hle

omit [Model M F] in
theorem GridInv.now_le_next {dt : Nat} [Model M F] {p : Plant M F} {epochs : List Epoch}
    (h : GridInv dt p epochs) : p.clock.now ≤ p.next_step_at := by
  obtain ⟨e, rest, rfl, hnext⟩ := h.current
  rw [hnext]
  exact h.on_grid.2.2.2.1

/-- What an operation that keeps the clock and the next step does to the grid:
    nothing. -/
theorem GridInv.frame {dt : Nat} {p p' : Plant M F} {epochs : List Epoch}
    (h : GridInv dt p epochs) (hdt : Model.dt p'.model = Model.dt p.model)
    (hclock : p'.clock = p.clock) (hnext : p'.next_step_at = p.next_step_at) :
    GridInv dt p' epochs := by
  refine ⟨hdt.trans h.dt_eq, ?_, ?_⟩
  · rw [hclock]
    exact h.on_grid
  · rw [hnext]
    exact h.current

theorem GridInv.new {dt : Nat} {m : M} (hdt : Model.dt m = dt) :
    GridInv dt (Plant.new m : Plant M F) [⟨0, []⟩] := by
  refine ⟨hdt, ⟨rfl, Nat.le_refl _, nofun, ?_, trivial⟩, ⟨_, _, rfl, ?_⟩⟩
  · simp [Plant.new]
  · simp [Plant.new]

theorem GridInv.reset {dt : Nat} (hconst : ConstantDt M) {p : Plant M F} {epochs : List Epoch}
    (h : GridInv dt p epochs) : GridInv dt p.reset (⟨p.clock.now, []⟩ :: epochs) := by
  refine ⟨(hconst.reset p.model).trans h.dt_eq, ⟨rfl, Nat.le_refl _, nofun, ?_, h.on_grid⟩,
    ⟨_, _, rfl, ?_⟩⟩
  · simp [Plant.reset, Plant.update]
  · simp [Plant.reset, Plant.update]

/-- A poll before the next step moves the clock towards it. -/
theorem GridInv.poll_before {dt : Nat} {p : Plant M F} {epochs : List Epoch}
    (h : GridInv dt p epochs) (hbefore : p.clock.now < p.next_step_at) (ctx : AdvanceCtx) :
    GridInv dt (p.poll ctx).1 epochs := by
  unfold poll
  dsimp only
  rw [if_pos hbefore]
  split
  · exact h
  · rename_i hdelta
    rw [advance_clock, if_neg hdelta]
    obtain ⟨e, rest, rfl, hnext⟩ := h.current
    refine ⟨h.dt_eq, h.on_grid.mono (p.clock.le_advance _) ?_, ⟨e, rest, rfl, hnext⟩⟩
    have hle := saturating_add_le p.clock.now
      (min (saturating_add p.clock.now ctx.budget) p.next_step_at - p.clock.now)
    rw [VirtualClock.advance_now, ← hnext]
    omega

/-- A poll at the next step steps the model there. -/
theorem GridInv.poll_at {dt : Nat} (hconst : ConstantDt M) {p : Plant M F} {epochs : List Epoch}
    (h : GridInv dt p epochs) (hat : p.next_step_at ≤ p.clock.now)
    (hfar : p.clock.now + dt ≤ u64_max) (ctx : AdvanceCtx) :
    GridInv dt (p.poll ctx).1 (add_steps 1 p.clock.now epochs) := by
  have hnow : p.clock.now = p.next_step_at := Nat.le_antisymm h.now_le_next hat
  unfold poll
  dsimp only
  rw [if_neg (Nat.not_lt_of_le hat)]
  obtain ⟨e, rest, rfl, hnext⟩ := h.current
  obtain ⟨hgrid, hstart, hsteps, -, hrest⟩ := h.on_grid
  have hadd : saturating_add p.next_step_at (Model.dt p.model) =
      e.start + (e.steps ++ [p.clock.now]).length * dt := by
    rw [h.dt_eq, saturating_add, Nat.min_eq_left (by omega), List.length_append,
      List.length_singleton, Nat.add_mul, hnext]
    omega
  refine ⟨(hconst.step p.model).trans h.dt_eq, ⟨?_, hstart, ?_, ?_, hrest⟩, ⟨_, rest, rfl, hadd⟩⟩
  · show e.steps ++ [p.clock.now] = grid e.start dt (e.steps ++ [p.clock.now]).length
    rw [List.length_append, List.length_singleton, grid_succ, ← hgrid, hnow, hnext]
  · intro t ht
    rcases List.mem_append.mp ht with hold | hnew
    · exact hsteps t hold
    · exact Nat.le_of_eq (List.mem_singleton.mp hnew)
  · show p.clock.now ≤ e.start + (e.steps ++ [p.clock.now]).length * dt
    rw [List.length_append, List.length_singleton, Nat.add_mul]
    omega

/-! ### What a call executes -/

theorem command_entity (s : Simulator (Plant M F)) (cmd : Command) :
    (s.command cmd).1.entity = s.entity := by
  unfold Simulator.command
  split
  · rfl
  · cases cmd with
    | Inspect other =>
      dsimp only
      split <;> rfl
    | _ => rfl

/-- A poll before the next step leaves the model alone. -/
theorem poll_before_model {p : Plant M F} (hbefore : p.clock.now < p.next_step_at)
    (ctx : AdvanceCtx) : (p.poll ctx).1.model = p.model := by
  unfold poll
  dsimp only
  rw [if_pos hbefore]
  split
  · rfl
  · rename_i hdelta
    rw [advance_clock, if_neg hdelta]

/-- A poll at the next step makes the model execute one, and the clock stays. -/
theorem poll_at_model {p : Plant M F} (hat : p.next_step_at ≤ p.clock.now) (ctx : AdvanceCtx) :
    (p.poll ctx).1.model = (Model.step p.model).1 ∧ (p.poll ctx).1.clock = p.clock := by
  unfold poll
  dsimp only
  rw [if_neg (Nat.not_lt_of_le hat)]
  exact ⟨rfl, rfl⟩

/-- What one call makes the model execute: one step, in a poll at the next
    step during which the clock stays, and otherwise none. -/
theorem executed_cases {s s' : Simulator (Plant (Watched M) F)} {l : SimAct F}
    (hstep : SimAct.step s l = some s') :
    executed s' = executed s ∨
      (∃ fuel, l = .poll fuel) ∧ s.entity.next_step_at ≤ s.now ∧
        s'.entity = (s.entity.poll s.advance_ctx).1 ∧
        executed s' = executed s + 1 ∧ s'.now = s.now := by
  cases l with
  | command cmd =>
    cases hstep
    refine .inl ?_
    rw [executed, command_entity]
    rfl
  | poll fuel =>
    obtain ⟨⟨s₁, rsp⟩, hpoll, heq⟩ := Option.map_eq_some_iff.mp hstep
    cases heq
    rcases Simulator.poll_cases hpoll with ⟨-, rfl, -⟩ | ⟨-, -, r, hentity, -⟩
    · exact .inl rfl
    · have hs₁ : s₁.entity = (s.entity.poll s.advance_ctx).1 :=
        (congrArg Prod.fst (Option.some.inj hentity)).symm
      by_cases hat : s.entity.next_step_at ≤ s.now
      · obtain ⟨hmodel, hclock⟩ := poll_at_model (p := s.entity) hat s.advance_ctx
        refine .inr ⟨⟨fuel, rfl⟩, hat, hs₁, ?_, ?_⟩
        · show s₁.entity.model.executed = s.entity.model.executed + 1
          rw [hs₁, hmodel]
          rfl
        · show s₁.entity.clock.now = s.entity.clock.now
          rw [hs₁, hclock]
      · refine .inl ?_
        show s₁.entity.model.executed = s.entity.model.executed
        rw [hs₁, poll_before_model (Nat.lt_of_not_le hat)]
  | _ =>
    cases hstep
    exact .inl rfl

/-! ### Runs stay on the grid -/

/-- A call in which the model executes nothing keeps the grid. -/
theorem GridInv.idle {dt : Nat} (hconst : ConstantDt M) {s s' : Simulator (Plant M F)}
    {l : SimAct F} {epochs : List Epoch} (h : GridInv dt s.entity epochs)
    (hstep : SimAct.step s l = some s')
    (hnot : ∀ fuel, l = .poll fuel → s.state = .Running → s.now < s.entity.next_step_at) :
    GridInv dt s'.entity (open_epoch s.now l epochs) := by
  cases l with
  | command cmd =>
    cases hstep
    show GridInv dt (s.command cmd).1.entity epochs
    rw [command_entity]
    exact h
  | poll fuel =>
    obtain ⟨⟨s₁, rsp⟩, hpoll, heq⟩ := Option.map_eq_some_iff.mp hstep
    cases heq
    show GridInv dt s₁.entity epochs
    rcases Simulator.poll_cases hpoll with ⟨-, rfl, -⟩ | ⟨hrun, -, r, hentity, -⟩
    · exact h
    · rw [show s₁.entity = (s.entity.poll s.advance_ctx).1 from
        (congrArg Prod.fst (Option.some.inj hentity)).symm]
      exact h.poll_before (hnot fuel rfl hrun) _
  | reset =>
    cases hstep
    exact h.reset hconst
  | poll_actions | apply_action =>
    cases hstep
    exact h
  | receive port v =>
    cases hstep
    exact h.frame (hconst.drive_in port v s.entity.model) rfl rfl
  | drain_pending ports =>
    cases hstep
    exact h.frame rfl rfl rfl

theorem grid_step {dt : Nat} (hconst : ConstantDt M) {s s' : Simulator (Plant (Watched M) F)}
    {l : SimAct F} {epochs : List Epoch} (h : GridInv dt s.entity epochs)
    (hfar : s.now + dt ≤ u64_max) (hstep : SimAct.step s l = some s') :
    GridInv dt s'.entity (note s l s' epochs) := by
  rcases executed_cases hstep with hnone | ⟨⟨fuel, rfl⟩, hat, hentity, hone, -⟩
  · rw [note, hnone, Nat.sub_self, add_steps_zero]
    refine h.idle hconst.watched hstep ?_
    rintro fuel rfl hrun
    -- A running plant whose next step is due would have stepped its model.
    by_contra hdue
    obtain ⟨⟨s₁, rsp⟩, hpoll, heq⟩ := Option.map_eq_some_iff.mp hstep
    cases heq
    rcases Simulator.poll_cases hpoll with ⟨hidle, -⟩ | ⟨-, -, r, hentity, -⟩
    · exact hidle hrun
    · have hs₁ : s₁.entity = (s.entity.poll s.advance_ctx).1 :=
        (congrArg Prod.fst (Option.some.inj hentity)).symm
      have hmodel := (poll_at_model (p := s.entity) (Nat.le_of_not_lt hdue) s.advance_ctx).1
      replace hnone : s₁.entity.model.executed = s.entity.model.executed := hnone
      rw [hs₁, hmodel] at hnone
      exact Nat.succ_ne_self _ hnone
  · rw [note, hone, Nat.add_sub_cancel_left, hentity]
    exact h.poll_at hconst.watched hat hfar _

theorem gridInv_of_reachable {dt : Nat} (hconst : ConstantDt M)
    {s : Simulator (Plant (Watched M) F) × List Epoch}
    (h : Reachable (plant_runs dt) (AllFarBelow dt) s) : GridInv dt s.1.entity s.2 := by
  induction h with
  | init hi =>
    obtain ⟨⟨⟨m, hp, hdt⟩, -⟩, hlog⟩ := hi
    rw [hp, hlog]
    exact .new hdt
  | step l _ hok hstep ih =>
    obtain ⟨hsim, hlog⟩ := System.logged_step_cases hstep
    rw [hlog]
    exact grid_step hconst ih hok hsim

/-- No poll passes the ceiling. -/
theorem poll_le_ceiling {s s' : Simulator (Plant M F)} {fuel : Nat} {a : Nat}
    (hallowed : s.allowed = some a) (hstep : SimAct.step s (.poll fuel) = some s') :
    s'.now ≤ max s.now a := by
  obtain ⟨⟨s₁, rsp⟩, hpoll, heq⟩ := Option.map_eq_some_iff.mp hstep
  cases heq
  rcases Simulator.poll_cases hpoll with ⟨-, rfl, -⟩ | ⟨-, -, r, hentity, -⟩
  · exact Nat.le_max_left _ _
  · have hp : s.entity.poll s.advance_ctx = (s₁.entity, r) := Option.some.inj hentity
    have hbudget : s.advance_ctx.budget = a - s.now := by simp [Simulator.advance_ctx, hallowed]
    show s₁.entity.clock.now ≤ max s.entity.clock.now a
    generalize s₁.entity = p at hp
    rcases s.entity.poll_cases s.advance_ctx with hp' | ⟨delta, hdelta, hp'⟩ | hp' <;>
      rw [hp] at hp' <;> cases hp'
    · exact Nat.le_max_left _ _
    · have hle := saturating_add_le s.entity.clock.now delta
      rw [hbudget] at hdelta
      rw [VirtualClock.advance_now]
      have hnow : s.now = s.entity.clock.now := rfl
      omega
    · exact Nat.le_max_left _ _

/-! ### Two runs -/

/-- The times of all model steps of a run. -/
def step_times (epochs : List Epoch) : List Nat := epochs.flatMap Epoch.steps

theorem OnGrid.le {dt now : Nat} {epochs : List Epoch} (h : OnGrid dt now epochs) {t : Nat}
    (ht : t ∈ step_times epochs) : t ≤ now := by
  induction epochs generalizing now with
  | nil => cases ht
  | cons e rest ih =>
    obtain ⟨-, hstart, hsteps, -, hrest⟩ := h
    rcases List.mem_append.mp ht with hcur | hold
    · exact hsteps t hcur
    · exact Nat.le_trans (ih hrest hold) hstart

/-- Below a time that both have passed, histories with the same resets have the
    same step times. -/
theorem OnGrid.same_steps {dt now now' T : Nat} {epochs epochs' : List Epoch}
    (h : OnGrid dt now epochs) (h' : OnGrid dt now' epochs')
    (hstarts : epochs.map Epoch.start = epochs'.map Epoch.start) (hT : T ≤ now')
    {t : Nat} (hlt : t < T) (ht : t ∈ step_times epochs) : t ∈ step_times epochs' := by
  induction epochs generalizing now now' T epochs' with
  | nil => cases ht
  | cons e rest ih =>
    cases epochs' with
    | nil => cases hstarts
    | cons e' rest' =>
      simp only [List.map_cons, List.cons.injEq] at hstarts
      obtain ⟨hgrid, -, -, -, hrest⟩ := h
      obtain ⟨hgrid', hstart', -, hnow', hrest'⟩ := h'
      have hmem {k : Nat} (hk : e.start + k * dt < T) : e.start + k * dt ∈ e'.steps := by
        rw [hgrid', ← hstarts.1]
        apply mem_grid.mpr
        refine ⟨k, ?_, rfl⟩
        apply Nat.lt_of_mul_lt_mul_right (a := dt)
        rw [← hstarts.1] at hnow'
        omega
      rcases List.mem_append.mp ht with hcur | hold
      · rw [hgrid] at hcur
        obtain ⟨k, -, rfl⟩ := mem_grid.mp hcur
        exact List.mem_append_left _ (hmem hlt)
      · have hle := hrest.le hold
        rcases Nat.lt_or_eq_of_le hle with hbefore | heq
        · apply List.mem_append_right
          exact ih hrest hrest' hstarts.2 (Nat.le_of_eq hstarts.1) hbefore hold
        · -- A step at the instant of the reset is a step of the new epoch as well.
          have hfirst := hmem (k := 0) (by omega)
          rw [Nat.zero_mul, Nat.add_zero, ← heq] at hfirst
          exact List.mem_append_left _ hfirst

/-- Two runs with the same resets that have both reached `T` have made the same
    steps before it. -/
structure SameSteps (T : Nat) (epochs epochs' : List Epoch) : Prop where
  times (t : Nat) : t < T → (t ∈ step_times epochs ↔ t ∈ step_times epochs')
  current (e e' : Epoch) : epochs.head? = some e → epochs'.head? = some e' →
    e.steps.filter (fun t => t < T) = e'.steps.filter fun t => t < T

theorem OnGrid.same {dt now now' T : Nat} {epochs epochs' : List Epoch}
    (h : OnGrid dt now epochs) (h' : OnGrid dt now' epochs')
    (hstarts : epochs.map Epoch.start = epochs'.map Epoch.start) (hT : T ≤ now) (hT' : T ≤ now') :
    SameSteps T epochs epochs' := by
  refine ⟨?_, ?_⟩
  · intro t hlt
    exact ⟨h.same_steps h' hstarts hT' hlt, h'.same_steps h hstarts.symm hT hlt⟩
  · intro e e' he he'
    obtain ⟨rest, rfl⟩ := List.head?_eq_some_iff.mp he
    obtain ⟨rest', rfl⟩ := List.head?_eq_some_iff.mp he'
    simp only [List.map_cons, List.cons.injEq] at hstarts
    obtain ⟨hgrid, -, -, hnow, -⟩ := h
    obtain ⟨hgrid', -, -, hnow', -⟩ := h'
    rw [hgrid, hgrid', ← hstarts.1]
    apply filter_grid (Nat.le_trans hT hnow)
    rw [hstarts.1]
    exact Nat.le_trans hT' hnow'

/-! ### The step grid -/

/-- Since the last reset the model executed its steps at the first times of the
    grid, at all of them before `now`, one in a call and with the clock at
    rest; the clock is not past the next step. -/
structure Stepped (dt : Nat) (s : Simulator (Plant (Watched M) F) × List Epoch) : Prop where
  grid : ∃ e rest n, s.2 = e :: rest ∧ e.steps = grid e.start dt n ∧
    s.1.entity.next_step_at = e.start + n * dt
  now_le_next : s.1.now ≤ s.1.entity.next_step_at
  ceiling (fuel a : Nat) (s' : Simulator (Plant (Watched M) F) × List Epoch) :
    s.1.allowed = some a → (plant_runs dt).step s (.poll fuel) = some s' →
      s'.1.now ≤ max s.1.now a
  executes (l : SimAct F) (s' : Simulator (Plant (Watched M) F) × List Epoch) :
    (plant_runs dt).step s l = some s' →
      executed s'.1 = executed s.1 ∨ executed s'.1 = executed s.1 + 1 ∧ s'.1.now = s.1.now

/-- The step grid does not depend on how time is sliced. Every run of a plant
    is one in which its model is watched. -/
theorem plant_step_grid {dt : Nat} (hconst : ConstantDt M) :
    (∀ p : Simulator (Plant M F), Reachable (sim_runs (Fresh dt)) (FarBelow dt) p →
      ∃ s, Reachable (plant_runs dt) (AllFarBelow dt) s ∧ Entity.Hom.sim unwatch s.1 = p) ∧
    (∀ s : Simulator (Plant (Watched M) F) × List Epoch,
      Reachable (plant_runs dt) (AllFarBelow dt) s → Stepped dt s) ∧
    ∀ s s' : Simulator (Plant (Watched M) F) × List Epoch,
      Reachable (plant_runs dt) (AllFarBelow dt) s →
      Reachable (plant_runs dt) (AllFarBelow dt) s' →
      s.2.map Epoch.start = s'.2.map Epoch.start →
      ∀ T, T ≤ s.1.now → T ≤ s'.1.now → SameSteps T s.2 s'.2 := by
  refine ⟨?_, ?_, ?_⟩
  · intro p hp
    obtain ⟨s, hs, rfl⟩ := (projects_unwatch dt).lift hp
    obtain ⟨epochs, hlogged⟩ : ∃ epochs, Reachable (plant_runs dt) (AllFarBelow dt) (s, epochs) :=
      hs.logged
    exact ⟨(s, epochs), hlogged, rfl⟩
  · intro s h
    have hinv := gridInv_of_reachable hconst h
    refine ⟨?_, hinv.now_le_next, ?_, ?_⟩
    · obtain ⟨e, rest, hepochs, hnext⟩ := hinv.current
      have hgrid := hinv.on_grid
      rw [hepochs] at hgrid
      exact ⟨e, rest, e.steps.length, hepochs, hgrid.1, hnext⟩
    · intro fuel a s' hallowed hstep
      exact poll_le_ceiling hallowed (System.logged_step_cases hstep).1
    · intro l s' hstep
      rcases executed_cases (System.logged_step_cases hstep).1 with
        hnone | ⟨-, -, -, hone, hnow⟩
      · exact .inl hnone
      · exact .inr ⟨hone, hnow⟩
  · intro s s' h h' hresets T hT hT'
    exact (gridInv_of_reachable hconst h).on_grid.same
      (gridInv_of_reachable hconst h').on_grid hresets hT hT'

/-! ### Two slicings of one run -/

/-- A model that counts its steps. -/
structure Counter where
  dt : Nat
  steps : Nat
  deriving DecidableEq

instance : Model Counter Empty where
  dt c := c.dt
  reset c := ({ c with steps := 0 }, [])
  step c := ({ c with steps := c.steps + 1 }, [])
  drive_in _ _ c := (c, [])

theorem constantDt_counter : ConstantDt Counter := ⟨fun _ => rfl, fun _ => rfl, fun _ _ _ => rfl⟩

instance (dt : Nat) (s : Simulator (Plant (Watched M) F) × List Epoch) (l : SimAct F) :
    Decidable (AllFarBelow dt s l) :=
  inferInstanceAs (Decidable (_ ≤ _))

def counter_start : Simulator (Plant (Watched Counter) Empty) × List Epoch :=
  (Simulator.new (Plant.new ⟨⟨1000, 0⟩, 0⟩), [⟨0, []⟩])

/-- A reset at 1500, off the grid; one run goes there under one ceiling and the
    other under three. -/
theorem plant_step_grid_counter :
    ∃ s s' : Simulator (Plant (Watched Counter) Empty) × List Epoch,
    Reachable (plant_runs 1000) (AllFarBelow 1000) s ∧
    Reachable (plant_runs 1000) (AllFarBelow 1000) s' ∧
    s.2 = [⟨1500, [1500, 2500]⟩, ⟨0, [0, 1000]⟩] ∧ s.1.entity.model = ⟨⟨1000, 2⟩, 4⟩ ∧
    s'.1.entity.model = ⟨⟨1000, 1⟩, 3⟩ ∧ Stepped 1000 s ∧ SameSteps 2400 s.2 s'.2 := by
  obtain ⟨s, hs, hepochs, hcount, hnow⟩ :
      ∃ s : Simulator (Plant (Watched Counter) Empty) × List Epoch,
        Reachable (plant_runs 1000) (AllFarBelow 1000) s ∧
          s.2 = [⟨1500, [1500, 2500]⟩, ⟨0, [0, 1000]⟩] ∧
          s.1.entity.model = ⟨⟨1000, 2⟩, 4⟩ ∧ 2400 ≤ s.1.now :=
    Reachable.exists_of_exec (s := counter_start)
      [.command .Start, .command (.SetAllowed 1500), .poll 1, .poll 1, .poll 1, .poll 1, .reset,
        .command (.SetAllowed 9000), .poll 1, .poll 1, .poll 1]
      ⟨⟨⟨_, rfl, rfl⟩, rfl⟩, rfl⟩ (by decide +kernel)
  obtain ⟨s', hs', hstarts, hcount', hnow'⟩ :
      ∃ s : Simulator (Plant (Watched Counter) Empty) × List Epoch,
        Reachable (plant_runs 1000) (AllFarBelow 1000) s ∧ s.2.map Epoch.start = [1500, 0] ∧
          s.1.entity.model = ⟨⟨1000, 1⟩, 3⟩ ∧ 2400 ≤ s.1.now :=
    Reachable.exists_of_exec (s := counter_start)
      [.command .Start, .command (.SetAllowed 300), .poll 1, .poll 1, .poll 1,
        .command (.SetAllowed 1000), .poll 1, .poll 1, .command .Stop, .command .Start,
        .command (.SetAllowed 1500), .poll 1, .reset, .command (.SetAllowed 2400), .poll 1,
        .poll 1]
      ⟨⟨⟨_, rfl, rfl⟩, rfl⟩, rfl⟩ (by decide +kernel)
  have hgrid := @plant_step_grid Counter Empty _ 1000 constantDt_counter
  refine ⟨s, s', hs, hs', hepochs, hcount, hcount', hgrid.2.1 s hs,
    hgrid.2.2 s s' hs hs' ?_ 2400 hnow hnow'⟩
  rw [hstarts, hepochs]
  rfl

end Plant

end Rl78Sim
