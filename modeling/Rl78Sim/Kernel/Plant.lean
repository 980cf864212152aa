import Rl78Sim.Kernel.MachineLaws

/-! # Plants and Boards

    A plant steps a model on a fixed grid of virtual time. A board of a
    cluster is a machine or a plant.
-/

namespace Rl78Sim

/-- `Model`: a plant model of type `M`. `step` and the in-port writes may drive
    out-ports. -/
class Model (M : Type) (F : outParam Type) where
  dt : M → Nat
  reset : M → M × List (String × F)
  step : M → M × List (String × F)
  drive_in : String → F → M → M × List (String × F)

/-- `Plant`: the clock never passes the next step. -/
structure Plant (M F : Type) where
  model : M
  clock : VirtualClock
  next_step_at : Nat
  ports : OutPorts F

namespace Plant

variable {M F : Type}

/-- `Plant::new`. -/
def new (model : M) : Plant M F :=
  ⟨model, VirtualClock.new, VirtualClock.new.now, OutPorts.empty⟩

/-- `Plant::advance_clock`. -/
def advance_clock (p : Plant M F) (delta : Nat) : Plant M F :=
  if delta = 0 then p else { p with clock := p.clock.advance delta }

variable [Model M F]

/-- Replace the model and record the drives it made. -/
def update (p : Plant M F) (out : M × List (String × F)) : Plant M F :=
  { p with model := out.1, ports := p.ports.on_input p.clock.now out.2 }

/-- `Plant::poll`. At `next_step_at` the model steps and the clock stays; before
    it the clock moves towards it, within the budget. -/
def poll (p : Plant M F) (ctx : AdvanceCtx) : Plant M F × EntityPoll :=
  let now := p.clock.now
  if now < p.next_step_at then
    let target := min (saturating_add now ctx.budget) p.next_step_at
    let delta := target - now
    if delta = 0 then (p, .NoProgress)
    else (p.advance_clock delta, .Progressed)
  else
    let dt := Model.dt p.model
    let p := p.update (Model.step p.model)
    ({ p with next_step_at := saturating_add p.next_step_at dt }, .Progressed)

/-- `Plant::reset`. -/
def reset (p : Plant M F) : Plant M F :=
  let p := p.update (Model.reset p.model)
  { p with next_step_at := p.clock.now }

instance : Entity (Plant M F) F where
  poll _ p ctx := some (p.poll ctx)
  reset := reset
  now p := p.clock.now
  inspect p _ := (p, .Error .Unsupported)
  poll_actions p := p
  apply_action p _ := (p, some .NotFoundDevice)
  receive p port frame := p.update (Model.drive_in port frame p.model)
  ports := ports
  drain_pending p names := { p with ports := p.ports.drain_pending names }
  retired _ := 0

theorem timeless_update (p : Plant M F) (out : M × List (String × F)) :
    Entity.Timeless p (p.update out) :=
  ⟨rfl, rfl, OutPorts.extends_on_input _ _ _⟩

/-- The cases of a plant poll. -/
theorem poll_cases (p : Plant M F) (ctx : AdvanceCtx) :
    (p.poll ctx = (p, .NoProgress)) ∨
      (∃ delta, delta ≤ ctx.budget ∧
        p.poll ctx = ({ p with clock := p.clock.advance delta }, .Progressed)) ∨
      (p.poll ctx =
        ({ p.update (Model.step p.model) with
            next_step_at := saturating_add p.next_step_at (Model.dt p.model) },
          .Progressed)) := by
  unfold poll
  dsimp only
  split
  · split
    · exact .inl rfl
    · rename_i hdelta
      refine .inr (.inl ⟨_, ?_, by rw [advance_clock, if_neg hdelta]⟩)
      have hsum := saturating_add_le p.clock.now ctx.budget
      omega
  · exact .inr (.inr rfl)

instance : LawfulEntity (Plant M F) where
  now_le_max p := p.clock.le_max
  poll_now_le {_ p p' ctx r} h := by
    replace h : p.poll ctx = (p', r) := Option.some.inj h
    rcases poll_cases p ctx with hp | ⟨delta, -, hp⟩ | hp <;> rw [hp] at h <;> cases h
    · exact Nat.le_refl _
    · exact p.clock.le_advance delta
    · exact Nat.le_refl _
  poll_le_budget {_ p p' ctx r} h _ := by
    replace h : p.poll ctx = (p', r) := Option.some.inj h
    rcases poll_cases p ctx with hp | ⟨delta, hdelta, hp⟩ | hp <;> rw [hp] at h <;> cases h
    · exact Nat.le_add_right _ _
    · exact Nat.le_trans (saturating_add_le _ _) (Nat.add_le_add_left hdelta _)
    · exact Nat.le_add_right _ _
  poll_noProgress {_ p p' ctx} h := by
    replace h : p.poll ctx = (p', .NoProgress) := Option.some.inj h
    rcases poll_cases p ctx with hp | ⟨delta, -, hp⟩ | hp <;> rw [hp] at h <;> cases h
    rfl
  poll_error {_ p p' ctx err} h := by
    replace h : p.poll ctx = (p', .Done (.Error err)) := Option.some.inj h
    rcases poll_cases p ctx with hp | ⟨delta, -, hp⟩ | hp <;> rw [hp] at h <;> cases h
  poll_done {_ p p' ctx rsp} h := by
    replace h : p.poll ctx = (p', .Done rsp) := Option.some.inj h
    rcases poll_cases p ctx with hp | ⟨delta, -, hp⟩ | hp <;> rw [hp] at h <;> cases h
  poll_retired _ _ := Nat.le_succ 0
  poll_noProgress_retired _ := rfl
  poll_ports {_ p p' ctx r} h := by
    replace h : p.poll ctx = (p', r) := Option.some.inj h
    rcases poll_cases p ctx with hp | ⟨delta, -, hp⟩ | hp <;> rw [hp] at h <;> cases h
    · exact OutPorts.Extends.refl _ _ _
    · exact OutPorts.Extends.refl _ _ _
    · exact OutPorts.extends_on_input _ _ _
  poll_drive_quantum {_ p p' ctx r} h _ := by
    replace h : p.poll ctx = (p', r) := Option.some.inj h
    rcases poll_cases p ctx with hp | ⟨delta, -, hp⟩ | hp <;> rw [hp] at h <;> cases h
    · exact .inl rfl
    · exact .inl rfl
    · exact .inr (Nat.le_add_right _ _)
  reset_timeless p := ⟨rfl, rfl, (timeless_update p (Model.reset p.model)).ports⟩
  inspect_timeless p _ := ⟨rfl, rfl, OutPorts.Extends.refl _ _ _⟩
  poll_actions_timeless p := ⟨rfl, rfl, OutPorts.Extends.refl _ _ _⟩
  apply_action_timeless p _ := ⟨rfl, rfl, OutPorts.Extends.refl _ _ _⟩
  receive_timeless p port frame := timeless_update p _
  drain_now _ _ := rfl
  drain_retired _ _ := rfl
  drain_ports _ _ := rfl

end Plant

/-! ### Boards -/

/-- What a node of a cluster runs: a machine or a plant. -/
inductive Board (C Ev M F : Type) where
  | machine (m : Machine C Ev F)
  | plant (p : Plant M F)

namespace Board

variable {C Ev M F : Type} [Cpu C Ev F] [Model M F]

instance : Entity (Board C Ev M F) F where
  poll fuel
    | .machine m, ctx => (m.poll fuel ctx).map fun (m', r) => (.machine m', r)
    | .plant p, ctx => (Entity.poll fuel p ctx).map fun (p', r) => (.plant p', r)
  reset
    | .machine m => .machine m.reset
    | .plant p => .plant p.reset
  now
    | .machine m => Entity.now m
    | .plant p => Entity.now p
  inspect
    | .machine m, cmd => ((Entity.inspect m cmd).map .machine id)
    | .plant p, cmd => ((Entity.inspect p cmd).map .plant id)
  poll_actions
    | .machine m => .machine (Entity.poll_actions m)
    | .plant p => .plant (Entity.poll_actions p)
  apply_action
    | .machine m, req => ((Entity.apply_action m req).map .machine id)
    | .plant p, req => ((Entity.apply_action p req).map .plant id)
  receive
    | .machine m, port, frame => .machine (Entity.receive m port frame)
    | .plant p, port, frame => .plant (Entity.receive p port frame)
  ports
    | .machine m => Entity.ports m
    | .plant p => Entity.ports p
  drain_pending
    | .machine m, names => .machine (Entity.drain_pending m names)
    | .plant p, names => .plant (Entity.drain_pending p names)
  retired
    | .machine m => Entity.retired m
    | .plant p => Entity.retired p

/-- A poll of a board is a poll of its machine or of its plant. -/
theorem poll_cases {fuel : Nat} {b b' : Board C Ev M F} {ctx : AdvanceCtx} {r : EntityPoll}
    (h : Entity.poll fuel b ctx = some (b', r)) :
    (∃ m m' : Machine C Ev F, b = .machine m ∧ b' = .machine m' ∧
      Entity.poll fuel m ctx = some (m', r)) ∨
    (∃ p p' : Plant M F, b = .plant p ∧ b' = .plant p' ∧
      Entity.poll fuel p ctx = some (p', r)) := by
  cases b with
  | machine m =>
    obtain ⟨⟨m', r'⟩, hpoll, heq⟩ := Option.map_eq_some_iff.mp h
    cases heq
    exact .inl ⟨m, m', rfl, rfl, hpoll⟩
  | plant p =>
    obtain ⟨⟨p', r'⟩, hpoll, heq⟩ := Option.map_eq_some_iff.mp h
    cases heq
    exact .inr ⟨p, p', rfl, rfl, hpoll⟩

theorem timeless_machine {m m' : Machine C Ev F} (h : Entity.Timeless m m') :
    Entity.Timeless (.machine m : Board C Ev M F) (.machine m') :=
  ⟨h.now_eq, h.retired_eq, h.ports⟩

theorem timeless_plant {p p' : Plant M F} (h : Entity.Timeless p p') :
    Entity.Timeless (.plant p : Board C Ev M F) (.plant p') :=
  ⟨h.now_eq, h.retired_eq, h.ports⟩

instance : LawfulEntity (Board C Ev M F) where
  now_le_max
    | .machine m => LawfulEntity.now_le_max m
    | .plant p => LawfulEntity.now_le_max p
  poll_now_le h := by
    rcases poll_cases h with ⟨m, m', rfl, rfl, hm⟩ | ⟨p, p', rfl, rfl, hp⟩
    · exact LawfulEntity.poll_now_le (E := Machine C Ev F) hm
    · exact LawfulEntity.poll_now_le (E := Plant M F) hp
  poll_le_budget h := by
    rcases poll_cases h with ⟨m, m', rfl, rfl, hm⟩ | ⟨p, p', rfl, rfl, hp⟩
    · exact LawfulEntity.poll_le_budget (E := Machine C Ev F) hm
    · exact LawfulEntity.poll_le_budget (E := Plant M F) hp
  poll_noProgress h := by
    rcases poll_cases h with ⟨m, m', rfl, rfl, hm⟩ | ⟨p, p', rfl, rfl, hp⟩
    · exact LawfulEntity.poll_noProgress (E := Machine C Ev F) hm
    · exact LawfulEntity.poll_noProgress (E := Plant M F) hp
  poll_error h := by
    rcases poll_cases h with ⟨m, m', rfl, rfl, hm⟩ | ⟨p, p', rfl, rfl, hp⟩
    · exact LawfulEntity.poll_error (E := Machine C Ev F) hm
    · exact LawfulEntity.poll_error (E := Plant M F) hp
  poll_done h := by
    rcases poll_cases h with ⟨m, m', rfl, rfl, hm⟩ | ⟨p, p', rfl, rfl, hp⟩
    · exact LawfulEntity.poll_done (E := Machine C Ev F) hm
    · exact LawfulEntity.poll_done (E := Plant M F) hp
  poll_retired h := by
    rcases poll_cases h with ⟨m, m', rfl, rfl, hm⟩ | ⟨p, p', rfl, rfl, hp⟩
    · exact LawfulEntity.poll_retired (E := Machine C Ev F) hm
    · exact LawfulEntity.poll_retired (E := Plant M F) hp
  poll_noProgress_retired h := by
    rcases poll_cases h with ⟨m, m', rfl, rfl, hm⟩ | ⟨p, p', rfl, rfl, hp⟩
    · exact LawfulEntity.poll_noProgress_retired (E := Machine C Ev F) hm
    · exact LawfulEntity.poll_noProgress_retired (E := Plant M F) hp
  poll_ports h := by
    rcases poll_cases h with ⟨m, m', rfl, rfl, hm⟩ | ⟨p, p', rfl, rfl, hp⟩
    · exact LawfulEntity.poll_ports (E := Machine C Ev F) hm
    · exact LawfulEntity.poll_ports (E := Plant M F) hp
  poll_drive_quantum h := by
    rcases poll_cases h with ⟨m, m', rfl, rfl, hm⟩ | ⟨p, p', rfl, rfl, hp⟩
    · exact LawfulEntity.poll_drive_quantum (E := Machine C Ev F) hm
    · exact LawfulEntity.poll_drive_quantum (E := Plant M F) hp
  reset_timeless
    | .machine m => timeless_machine (LawfulEntity.reset_timeless m)
    | .plant p => timeless_plant (LawfulEntity.reset_timeless p)
  inspect_timeless
    | .machine m, cmd => timeless_machine (LawfulEntity.inspect_timeless m cmd)
    | .plant p, cmd => timeless_plant (LawfulEntity.inspect_timeless p cmd)
  poll_actions_timeless
    | .machine m => timeless_machine (LawfulEntity.poll_actions_timeless m)
    | .plant p => timeless_plant (LawfulEntity.poll_actions_timeless p)
  apply_action_timeless
    | .machine m, req => timeless_machine (LawfulEntity.apply_action_timeless m req)
    | .plant p, req => timeless_plant (LawfulEntity.apply_action_timeless p req)
  receive_timeless
    | .machine m, port, frame => timeless_machine (LawfulEntity.receive_timeless m port frame)
    | .plant p, port, frame => timeless_plant (LawfulEntity.receive_timeless p port frame)
  drain_now
    | .machine _, _ => rfl
    | .plant _, _ => rfl
  drain_retired
    | .machine _, _ => rfl
    | .plant _, _ => rfl
  drain_ports
    | .machine _, _ => rfl
    | .plant _, _ => rfl

end Board

end Rl78Sim
