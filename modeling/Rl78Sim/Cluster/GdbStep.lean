import Rl78Sim.Cluster.Deadlock
import Rl78Sim.Cluster.Phases

/-! # One Step of the Debugger

    A gdb step has two phases. The stepped board executes one instruction by
    itself, whatever its ceiling, and reports its clock and then its stop. When
    the arbiter has taken both it starts the boards with that clock as target,
    so the stepped board stands at its ceiling while the others catch up. The
    stepped board's queue and report are followed through both phases.
-/

namespace Rl78Sim

open Transition

variable {n m : Nat} {E F : Type}

/-- Steps that handle no host command. -/
def NoCommand (_ : Cluster n m E F) (l : Step n) : Prop := is_command l = false

instance (s : Cluster n m E F) (l : Step n) : Decidable (NoCommand s l) :=
  inferInstanceAs (Decidable (is_command l = false))

/-- Runs without a reset. -/
def NoReset (_ : Cluster n m E F) (l : Step n) : Prop := is_reset l = false

instance (s : Cluster n m E F) (l : Step n) : Decidable (NoReset s l) :=
  inferInstanceAs (Decidable (is_reset l = false))

/-! ### Ceilings of a catch-up -/

/-- Whenever the node runs while it handles the queue, it is not given a
    ceiling past `v`. -/
def Held (v : Nat) : NodeState → List (ControlToNode n) → Prop
  | _, [] => True
  | state, msg :: rest =>
      match msg with
      | .Start c => c ≤ v ∧ Held v .Running rest
      | .Allowed c => (state = .Running → c ≤ v) ∧ Held v state rest
      | .ClusterStop _ => Held v .Stopped rest
      | .GdbStep _ => Held v .Stopped rest
      | _ => Held v state rest

theorem Held.append {v : Nat} {out : List (ControlToNode n)} (hout : ∀ state, Held v state out)
    {state : NodeState} {q : List (ControlToNode n)} (h : Held v state q) :
    Held v state (q ++ out) := by
  induction q generalizing state with
  | nil => exact hout state
  | cons msg q ih =>
    cases msg with
    | Start => exact ⟨h.1, ih h.2⟩
    | Allowed => exact ⟨h.1, ih h.2⟩
    | _ => exact ih h

/-- A node that stands, with no start queued, is given no ceiling that counts. -/
theorem Held.of_stands (v : Nat) {state : NodeState} {q : List (ControlToNode n)}
    (hstate : state ≠ .Running) (hq : ∀ msg ∈ q, msg.starts = false) : Held v state q := by
  induction q generalizing state with
  | nil => trivial
  | cons msg q ih =>
    have hrest (m) (hm : m ∈ q) : m.starts = false := hq m (List.mem_cons_of_mem _ hm)
    cases msg with
    | Start => cases hq _ List.mem_cons_self
    | Allowed => exact ⟨fun h => absurd h hstate, ih hstate hrest⟩
    | ClusterStop | GdbStep => exact ih (by decide) hrest
    | _ => exact ih hstate hrest

/-- Ceilings up to `v` hold a node in any state. -/
theorem Held.of_steady {v : Nat} {out : List (ControlToNode n)}
    (hout : ∀ msg ∈ out, msg.steady = true ∧ ∀ c, msg.ceiling_of = some c → c ≤ v)
    (state : NodeState) : Held v state out := by
  induction out with
  | nil => trivial
  | cons msg out ih =>
    have hrest := ih fun m hm => hout m (List.mem_cons_of_mem _ hm)
    obtain ⟨hsteady, hceil⟩ := hout msg List.mem_cons_self
    cases msg with
    | Allowed c => exact ⟨fun _ => hceil c rfl, hrest⟩
    | ProbeWatch => exact hrest
    | _ => cases hsteady

namespace Arbiter

/-- What an iteration without a host command does to the phases of a step. -/
inductive StepRound (a a' : Arbiter n) (out : List (ControlToNode n)) : Prop
  | same : a.found.2 = none → a'.gdb_step = a.gdb_step → a'.until_cap = a.until_cap →
      a'.ceiling = a.ceiling → (∀ msg ∈ out, msg.steady = true ∧
        ∀ v, a.until_cap = some v → ∀ c, msg.ceiling_of = some c → c ≤ v) → StepRound a a' out
  | catch_up (insn : StopReport n) (c : Nat) : a.found.2 = some insn →
      a'.gdb_step = some (.CatchUp insn.reason) →
      a'.until_cap = some (a.ceiling.reports insn.board) → c ≤ a.ceiling.reports insn.board →
      out = [.Start c] → StepRound a a' out
  | ended : a'.gdb_step = none → StepRound a a' out

theorem Effect.stepRound {a a' : Arbiter n} {act : Act n} {out : List (ControlToNode n)}
    (h : a.Effect act a' out) (hact : is_command (.hub act) = false) : StepRound a a' out := by
  cases h with
  | shutdown | refuse | start_stops | start | stop | stop_idle | reset | step_unknown
  | step_running | step_idle => cases hact
  | watch _ _ _ hpc =>
    exact .same (by rw [found_host hpc]) rfl rfl rfl
      (by simp [ControlToNode.steady, ControlToNode.ceiling_of])
  | sync_begin hpc => exact .same (by rw [found_host hpc]) rfl rfl rfl (by simp)
  | host_stop | until_stop | republish_until_stop => exact .ended rfl
  | catch_up _ insn hpc =>
    exact .catch_up insn _ (by rw [found_sync hpc]) rfl rfl (a.ceiling.allowed_until_le _) rfl
  | unchanged _ hpc => exact .same (by rw [found_sync hpc]) rfl rfl rfl (by simp)
  | republish hpc =>
    refine .same (by rw [found_sync hpc]) rfl rfl rfl fun msg hmsg => ?_
    rw [List.mem_singleton.mp hmsg]
    refine ⟨rfl, fun v hcap c hc => ?_⟩
    cases hc
    rw [hcap]
    exact a.ceiling.allowed_until_le v

/-- Only the stop of the stepped board is found as such. -/
theorem Recv.found_insn_eq {a a' : Arbiter n} {i : Fin n} {r : Report}
    (h : a.Recv i r.handled r.msg a')
    (hno : r.stops = false ∨ a.gdb_step ≠ some (.WaitInsn i)) : a'.found.2 = a.found.2 := by
  obtain ⟨msg, handled⟩ := r
  cases h with
  | ready => rfl
  | time _ _ _ _ hpc => rw [found_sync hpc]; rfl
  | insn _ _ _ _ _ hgdb =>
    rcases hno with hno | hno
    · cases hno
    · exact absurd hgdb hno
  | stop _ _ _ _ hpc => rw [found_sync hpc]; rfl

/-- The stop of the stepped board is found. -/
theorem Recv.finds_insn {a a' : Arbiter n} {b : Fin n} {r : Report}
    (h : a.Recv b r.handled r.msg a') (hstops : r.stops = true)
    (hgdb : a.gdb_step = some (.WaitInsn b)) :
    a'.ceiling = a.ceiling ∧ ∃ insn, a'.found.2 = some insn ∧ insn.board = b := by
  obtain ⟨msg, handled⟩ := r
  cases h with
  | ready => cases hstops
  | time => cases hstops
  | insn => exact ⟨rfl, _, rfl, rfl⟩
  | stop _ _ _ _ _ hne => exact absurd hgdb hne

end Arbiter

/-! ### Standing nodes -/

variable [Entity E F]

namespace Node

/-- A node that polls runs below its ceiling. -/
theorem Acted.standing {nd nd' : Node m E F} {l : Act} {msgs : List ControlToArbiter}
    (h : Acted nd l nd' msgs) (hwf : nd.Wf)
    (hstand : nd.state = .Running → nd.allowed_ns ≤ nd.now) :
    msgs = [] ∧ nd'.now = nd.now ∧
      Entity.retired nd'.sim.entity = Entity.retired nd.sim.entity := by
  cases h with
  | quiet _ _ hquiet => exact ⟨rfl, hquiet.now, hquiet.retired_eq⟩
  | polled _ _ _ _ _ _ hpc hrun hwait =>
    have hstate := hwf.running_of_poll hpc
    have hceil : nd.allowed_ns ≤ nd.sim.now := hstand hstate
    have hroom : nd.allowed_ns - nd.sim.now = 0 := by omega
    simp [Simulator.waiting_on_allowed_ceiling, hrun, hwf.allowed hstate, hroom] at hwait

/-- Handling a message other than its gdb step, a node reports no time and no
    stop, and its guest retires nothing. -/
theorem Took.standing [LawfulEntity E] {i : Fin n} {nd nd' : Node m E F} {msg : ControlToNode n}
    {msgs : List ControlToArbiter} (h : Took i nd msg nd' msgs) (hmsg : msg ≠ .GdbStep i) :
    times (nd'.stamp msgs) = [] ∧ (∀ r ∈ nd'.stamp msgs, r.stops = false) ∧
      Entity.retired nd'.sim.entity = Entity.retired nd.sim.entity := by
  have hhalt (sim : Simulator E) :
      Entity.retired (nd.halt_if_running sim).entity = Entity.retired sim.entity := by
    unfold halt_if_running
    split <;> rfl
  cases h with
  | startup _ _ out hready =>
    refine ⟨List.filterMap_eq_nil_iff.mpr fun r hr => ?_, fun r hr => ?_, rfl⟩
    · obtain ⟨msg, hmsg, rfl⟩ := List.mem_map.mp hr
      rw [hready msg hmsg]
    · obtain ⟨msg, hmsg, rfl⟩ := List.mem_map.mp hr
      rw [hready msg hmsg]
      rfl
  | start a =>
    refine ⟨rfl, nofun, ?_⟩
    dsimp only
    unfold started
    split <;> rfl
  | cluster_stop => exact ⟨rfl, nofun, hhalt nd.sim⟩
  | reset => exact ⟨rfl, nofun, (LawfulEntity.reset_timeless nd.sim.entity).retired_eq⟩
  | gdb_other => exact ⟨rfl, nofun, hhalt nd.sim⟩
  | gdb_step => exact absurd rfl hmsg
  | _ => exact ⟨rfl, nofun, rfl⟩

/-- The gdb step of a node: one instruction at most, and its clock reported
    before its stop, or nothing reported. -/
theorem Took.insn [LawfulEntity E] {i : Fin n} {nd nd' : Node m E F}
    {msgs : List ControlToArbiter} (h : Took i nd (.GdbStep i) nd' msgs) :
    nd'.state ≠ .Running ∧
      Entity.retired nd'.sim.entity ≤ Entity.retired nd.sim.entity + 1 ∧
      (msgs = [] ∨ ∃ reason, msgs = [.TimeReport nd'.now, .HostStop reason]) := by
  cases h with
  | gdb_other _ hne => exact absurd rfl hne
  | gdb_step nd₁ _ hstep =>
    have hret : Entity.retired (nd.halt_if_running nd₁.sim).entity =
        Entity.retired nd₁.sim.entity := by
      unfold halt_if_running
      split <;> rfl
    refine ⟨by simp, ?_, ?_⟩
    · rw [hret]
      cases hstep with
      | stopped _ _ _ hspec => exact hspec.retired_le
      | silent _ _ hspec => exact hspec.retired_le
    · cases hstep with
      | stopped sim _ host_reason =>
        refine .inr ⟨host_reason, ?_⟩
        exact congrArg (fun v => [ControlToArbiter.TimeReport v, .HostStop host_reason])
          (halt_now nd sim).symm
      | silent => exact .inl rfl

end Node

/-! ### The report of the instruction -/

/-- No stop of the stepped board is in flight or was found. -/
structure Unreported (a : Arbiter n) (up : List Report) : Prop where
  flight : ∀ r ∈ up, r.stops = false
  found : a.found.2 = none

/-- How far the report of the stepped board has come, which stands at `now`:
    its stop is in flight behind a report of `now`, or both were taken. -/
inductive InsnReport (b : Fin n) (a : Arbiter n) (now : Nat) (up : List Report) : Prop where
  | unreported : Unreported a up → InsnReport b a now up
  | sent (pre post : List Report) (r : Report) : up = pre ++ r :: post → r.stops = true →
      (∀ r ∈ pre, r.stops = false) → (∀ r ∈ post, r.stops = false) → times post = [] →
      latest a b pre = now → a.found.2 = none → InsnReport b a now up
  | found (insn : StopReport n) : a.found.2 = some insn → insn.board = b →
      a.ceiling.reports b = now → (∀ r ∈ up, r.stops = false) → times up = [] →
      InsnReport b a now up

section report

variable {b i : Fin n} {a a' : Arbiter n} {now : Nat} {up out rest : List Report} {r : Report}

omit [Entity E F] in
theorem Unreported.append (h : Unreported a up) (hout : ∀ r ∈ out, r.stops = false) :
    Unreported a (up ++ out) :=
  ⟨fun r hr => (List.mem_append.mp hr).elim (h.flight r) (hout r), h.found⟩

omit [Entity E F] in
theorem InsnReport.append (h : InsnReport b a now up) (hout : ∀ r ∈ out, r.stops = false)
    (htimes : times out = []) : InsnReport b a now (up ++ out) := by
  have hboth {rs : List Report} (hrs : ∀ r ∈ rs, r.stops = false) :
      ∀ r ∈ rs ++ out, r.stops = false :=
    fun r hr => (List.mem_append.mp hr).elim (hrs r) (hout r)
  cases h with
  | unreported h => exact .unreported (h.append hout)
  | sent pre post r heq hr hpre hpost hnil hlatest hfound =>
    refine .sent pre (post ++ out) r (by rw [heq]; simp) hr hpre (hboth hpost) ?_ hlatest hfound
    rw [times_append, hnil, htimes]
    rfl
  | found insn hfound hb hrep hup hnil =>
    exact .found insn hfound hb hrep (hboth hup) (by rw [times_append, hnil, htimes]; rfl)

omit [Entity E F] in
/-- The arbiter takes a report of another board. -/
theorem InsnReport.deliver_other (h : InsnReport b a now up) (hrecv : a.Recv i r.handled r.msg a')
    (hi : b ≠ i) (hfound : a'.found.2 = a.found.2) : InsnReport b a' now up := by
  have hrep : a'.ceiling.reports b = a.ceiling.reports b := hrecv.latest_ne hi []
  cases h with
  | unreported h => exact .unreported ⟨h.flight, hfound.trans h.found⟩
  | sent pre post r heq hr hpre hpost hnil hlatest hnone =>
    exact .sent pre post r heq hr hpre hpost hnil ((hrecv.latest_ne hi pre).trans hlatest)
      (hfound.trans hnone)
  | found insn hsome hb hnow hup hnil =>
    exact .found insn (hfound.trans hsome) hb (hrep.trans hnow) hup hnil

omit [Entity E F] in
/-- The arbiter takes a report of the stepped board. -/
theorem InsnReport.deliver (h : InsnReport b a now (r :: rest))
    (hrecv : a.Recv b r.handled r.msg a') (hgdb : a.gdb_step = some (.WaitInsn b)) :
    InsnReport b a' now rest := by
  cases h with
  | unreported h =>
    have hfound := hrecv.found_insn_eq (.inl (h.flight r List.mem_cons_self))
    exact .unreported ⟨fun x hx => h.flight x (List.mem_cons_of_mem _ hx), hfound.trans h.found⟩
  | sent pre post stop heq hstop hpre hpost hnil hlatest hnone =>
    cases pre with
    | nil =>
      -- The stop itself is taken; its board stands where its last report says.
      obtain ⟨rfl, rfl⟩ := List.cons.inj heq
      obtain ⟨hceil, insn, hsome, hb⟩ := hrecv.finds_insn hstop hgdb
      exact .found insn hsome hb (by rw [hceil]; exact hlatest) hpost hnil
    | cons x pre =>
      obtain ⟨rfl, rfl⟩ := List.cons.inj heq
      have hfound := hrecv.found_insn_eq (.inl (hpre r List.mem_cons_self))
      exact .sent pre post stop rfl hstop (fun y hy => hpre y (List.mem_cons_of_mem _ hy)) hpost
        hnil (hrecv.latest_eq.trans hlatest) (hfound.trans hnone)
  | found insn hsome hb hnow hup hnil =>
    have hno := hup r List.mem_cons_self
    have hfound := hrecv.found_insn_eq (.inl hno)
    have hup' : ∀ x ∈ rest, x.stops = false := fun x hx => hup x (List.mem_cons_of_mem _ hx)
    obtain ⟨msg, handled⟩ := r
    cases hrecv with
    | ready => exact .found insn hsome hb hnow hup' hnil
    | time => cases hnil
    | insn => cases hno
    | stop => cases hno

omit [Entity E F] in
/-- An iteration that found nothing leaves the report where it is. -/
theorem InsnReport.same (h : InsnReport b a now up) (hnone : a.found.2 = none)
    (hceil : a'.ceiling = a.ceiling) (hnone' : a'.found.2 = none) : InsnReport b a' now up := by
  have hlatest (up : List Report) : latest a' b up = latest a b up := by simp only [latest, hceil]
  cases h with
  | unreported h => exact .unreported ⟨h.flight, hnone'⟩
  | sent pre post r heq hr hpre hpost hnil hl =>
    exact .sent pre post r heq hr hpre hpost hnil ((hlatest pre).trans hl) hnone'
  | found insn hsome =>
    rw [hnone] at hsome
    cases hsome

end report

/-! ### The link of a board during a step -/

/-- The stepped board: its step is queued, or was handled. -/
inductive Stepping (b : Fin n) (before : Nat) (a : Arbiter n) (nd : Node m E F)
    (down : List (ControlToNode n)) (up : List Report) : Prop where
  | queued : Entity.retired nd.sim.entity = before → down.count (.GdbStep b) ≤ 1 →
      Unreported a up → Stepping b before a nd down up
  | handled : .GdbStep b ∉ down → Entity.retired nd.sim.entity ≤ before + 1 →
      InsnReport b a nd.now up → Stepping b before a nd down up

/-- The link of board `k` while the arbiter waits for the instruction of `b`:
    every board stands, and all but `b` stand where they did. -/
structure Waits (b : Fin n) (start : Fin n → Nat) (before : Nat) (k : Fin n) (a : Arbiter n)
    (nd : Node m E F) (down : List (ControlToNode n)) (up : List Report) : Prop where
  phase : a.gdb_step = some (.WaitInsn b)
  stopped : nd.state ≠ .Running
  no_start : ∀ msg ∈ down, msg.starts = false
  steps : ∀ c, .GdbStep c ∈ down → c = b
  others : k ≠ b → nd.now = start k
  stepped : k = b → Stepping b before a nd down up

/-- The link of board `k` while the boards catch up with `b`: no board is given
    a ceiling past the clock of `b`. -/
structure CatchesUp (b : Fin n) (start : Fin n → Nat) (before v : Nat) (k : Fin n) (a : Arbiter n)
    (nd : Node m E F) (down : List (ControlToNode n)) : Prop where
  phase : ∃ reason, a.gdb_step = some (.CatchUp reason)
  until_cap : a.until_cap = some v
  found : a.found.2 = none
  ceiling : nd.state = .Running → nd.allowed_ns ≤ v
  held : Held v nd.state down
  steps : ∀ c, .GdbStep c ∈ down → c = b
  others : k ≠ b → nd.now ≤ max (start k) v
  stepped : k = b → nd.now = v ∧ .GdbStep b ∉ down ∧ Entity.retired nd.sim.entity ≤ before + 1

/-- The link of board `k` since the arbiter handled a step of board `b`, until
    the next host command. -/
inductive StepLink (b : Fin n) (start : Fin n → Nat) (before : Nat) (k : Fin n) (a : Arbiter n)
    (nd : Node m E F) (down : List (ControlToNode n)) (up : List Report) : Prop where
  | waits : Waits b start before k a nd down up → StepLink b start before k a nd down up
  | catches_up (v : Nat) : CatchesUp b start before v k a nd down →
      StepLink b start before k a nd down up
  | ended : a.gdb_step = none → a.found.2 = none → StepLink b start before k a nd down up

section link

variable {b k i : Fin n} {start : Fin n → Nat} {before v : Nat} {a a' : Arbiter n}
  {nd nd' : Node m E F} {msg : ControlToNode n} {down rest out : List (ControlToNode n)}
  {up : List Report} {msgs : List ControlToArbiter} {l : Node.Act}

omit [Entity E F] in
theorem ControlToNode.not_mem_of_steady (hout : ∀ msg ∈ out, msg.steady = true) (c : Fin n) :
    .GdbStep c ∉ out := fun hmem => by cases hout _ hmem

/-- An iteration of the arbiter while it waits. -/
theorem Waits.hub (h : Waits b start before k a nd down up) (hround : a.StepRound a' out)
    (hfound' : a'.found = (none, none)) : StepLink b start before k a' nd (down ++ out) up := by
  -- The round ends the step, leaves it as it is, or has found the stop of the
  -- instruction and begins to catch up.
  cases hround with
  | ended hnone => exact .ended hnone (by rw [hfound'])
  | same hnone hgdb hcap hceil hout =>
    have hno := ControlToNode.not_mem_of_steady fun msg hmsg => (hout msg hmsg).1
    refine .waits ⟨hgdb.trans h.phase, h.stopped, fun msg hmsg => ?_, fun c hc => ?_, h.others,
      fun hk => ?_⟩
    · refine (List.mem_append.mp hmsg).elim (h.no_start msg) fun hnew => ?_
      have hsteady := (hout msg hnew).1
      cases msg <;> first | rfl | cases hsteady
    · exact (List.mem_append.mp hc).elim (h.steps c) fun hnew => absurd hnew (hno c)
    · cases h.stepped hk with
      | queued hret hcount hunrep =>
        refine .queued hret ?_ ⟨hunrep.flight, by rw [hfound']⟩
        rwa [List.count_append, List.count_eq_zero_of_not_mem (hno b)]
      | handled hmem hret hrep =>
        exact .handled (fun hb => (List.mem_append.mp hb).elim hmem (hno b)) hret
          (hrep.same hnone hceil (by rw [hfound']))
  | catch_up insn c hsome hgdb hcap hc hout =>
    subst hout
    have hsent (state : NodeState) :
        Held (a.ceiling.reports insn.board) state [(.Start c : ControlToNode n)] := ⟨hc, trivial⟩
    refine .catches_up (a.ceiling.reports insn.board) ⟨⟨_, hgdb⟩, hcap, by rw [hfound'],
      fun hs => absurd hs h.stopped, ?_, fun c' hc' => h.steps c' (by simpa using hc'),
      fun hk => (h.others hk).symm ▸ Nat.le_max_left _ _, fun hk => ?_⟩
    · exact (Held.of_stands _ h.stopped h.no_start).append hsent
    · cases h.stepped hk with
      | queued _ _ hunrep =>
        rw [hunrep.found] at hsome
        cases hsome
      -- What was found is the report of the stepped board, so its time is the
      -- target.
      | handled hmem hret hrep =>
        cases hrep with
        | unreported hunrep =>
          rw [hunrep.found] at hsome
          cases hsome
        | sent _ _ _ _ _ _ _ _ _ hnone =>
          rw [hnone] at hsome
          cases hsome
        | found insn' hsome' hb hnow =>
          rw [hsome'] at hsome
          cases hsome
          rw [hb]
          exact ⟨hnow.symm, by simpa using hmem, hret⟩

/-- An iteration of the arbiter during the catch-up. -/
theorem CatchesUp.hub (h : CatchesUp b start before v k a nd down) (hround : a.StepRound a' out)
    (hfound' : a'.found = (none, none)) : StepLink b start before k a' nd (down ++ out) up := by
  cases hround with
  | ended hnone => exact .ended hnone (by rw [hfound'])
  | catch_up insn c hsome =>
    rw [h.found] at hsome
    cases hsome
  | same hnone hgdb hcap hceil hout =>
    have hno := ControlToNode.not_mem_of_steady fun msg hmsg => (hout msg hmsg).1
    refine .catches_up v ⟨hgdb ▸ h.phase, hcap.trans h.until_cap, by rw [hfound'], h.ceiling,
      h.held.append (Held.of_steady fun msg hmsg => ?_), fun c hc => ?_, h.others, fun hk => ?_⟩
    · exact ⟨(hout msg hmsg).1, (hout msg hmsg).2 v h.until_cap⟩
    · exact (List.mem_append.mp hc).elim (h.steps c) fun hnew => absurd hnew (hno c)
    · obtain ⟨hnow, hmem, hret⟩ := h.stepped hk
      exact ⟨hnow, fun hb => (List.mem_append.mp hb).elim hmem (hno b), hret⟩

/-- A standing board does nothing by itself. -/
theorem Waits.acted (h : Waits b start before k a nd down up) (hwf : nd.Wf)
    (hacted : nd.Acted l nd' msgs) :
    Waits b start before k a nd' down (up ++ nd'.stamp msgs) := by
  obtain ⟨rfl, hnow, hret⟩ := hacted.standing hwf fun hs => absurd hs h.stopped
  rw [show nd'.stamp [] = [] from rfl, List.append_nil]
  refine ⟨h.phase, hacted.state_eq ▸ h.stopped, h.no_start, h.steps,
    fun hk => hnow.trans (h.others hk), fun hk => ?_⟩
  cases h.stepped hk with
  | queued hr hcount hunrep => exact .queued (hret.trans hr) hcount hunrep
  | handled hmem hr hrep => exact .handled hmem (hret ▸ hr) (hnow ▸ hrep)

/-- A board that catches up obeys its ceiling; the stepped board is at it. -/
theorem CatchesUp.acted (h : CatchesUp b start before v k a nd down) (hwf : nd.Wf)
    (hacted : nd.Acted l nd' msgs) : CatchesUp b start before v k a nd' down := by
  refine ⟨h.phase, h.until_cap, h.found, fun hs => ?_, hacted.state_eq ▸ h.held, h.steps,
    fun hk => ?_, fun hk => ?_⟩
  · rw [hacted.allowed_ns_eq]
    exact h.ceiling (hacted.state_eq ▸ hs)
  · have hle := hacted.now_le_ceiling hwf
    have hold := h.others hk
    cases hacted with
    | quiet _ _ hquiet => exact hquiet.now ▸ hold
    | polled _ _ _ _ _ _ hpc =>
      have hceil := h.ceiling (hwf.running_of_poll hpc)
      omega
  · obtain ⟨hnow, hmem, hret⟩ := h.stepped hk
    obtain ⟨-, hnow', hret'⟩ := hacted.standing hwf fun hs => hnow ▸ h.ceiling hs
    exact ⟨hnow'.trans hnow, hmem, hret' ▸ hret⟩

/-- A standing board handles a message; `b` may execute its instruction. -/
theorem Waits.took [LawfulEntity E] (h : Waits b start before k a nd (msg :: rest) up)
    (htook : nd.Took k msg nd' msgs) :
    Waits b start before k a nd' rest (up ++ nd'.stamp msgs) := by
  have hlife := htook.life
  have hstart := h.no_start msg List.mem_cons_self
  have hstopped : nd'.state ≠ .Running := by
    cases hh : msg.halts with
    | true => exact hlife.halts hh
    | false => exact (hlife.keeps hstart hh).symm ▸ h.stopped
  refine ⟨h.phase, hstopped, fun m hm => h.no_start m (List.mem_cons_of_mem _ hm),
    fun c hc => h.steps c (List.mem_cons_of_mem _ hc), fun hk => ?_, fun hk => ?_⟩
  · have hmsg : msg ≠ .GdbStep k := by
      rintro rfl
      exact hk (h.steps k List.mem_cons_self)
    exact (htook.now_eq hmsg).trans (h.others hk)
  · subst hk
    -- The stepped board: the message is its step, or one that leaves it standing.
    by_cases hmsg : msg = .GdbStep k
    · subst hmsg
      obtain ⟨-, hret, hmsgs⟩ := htook.insn
      cases h.stepped rfl with
      | handled hmem => exact absurd List.mem_cons_self hmem
      | queued hbefore hcount hunrep =>
        rw [List.count_cons_self] at hcount
        have hmem : .GdbStep k ∉ rest := List.count_eq_zero.mp (by omega)
        refine .handled hmem (hbefore ▸ hret) ?_
        rcases hmsgs with rfl | ⟨reason, rfl⟩
        · exact .unreported (hunrep.append nofun)
        · refine .sent (up ++ [⟨.TimeReport nd'.now, nd'.handled⟩]) []
            ⟨.HostStop reason, nd'.handled⟩ (by simp [Node.stamp]) rfl (fun r hr => ?_) nofun rfl
            (latest_append_of_times rfl) hunrep.found
          rcases List.mem_append.mp hr with hold | hnew
          · exact hunrep.flight r hold
          · rw [List.mem_singleton.mp hnew]
            rfl
    · obtain ⟨hnil, hstops, hret⟩ := htook.standing hmsg
      cases h.stepped rfl with
      | queued hbefore hcount hunrep =>
        rw [List.count_cons_of_ne hmsg] at hcount
        exact .queued (hret.trans hbefore) hcount (hunrep.append hstops)
      | handled hmem hle hrep =>
        refine .handled (fun hb => hmem (List.mem_cons_of_mem _ hb)) (hret ▸ hle) ?_
        exact (htook.now_eq hmsg).symm ▸ hrep.append hstops hnil

/-- A board handles a message during the catch-up. -/
theorem CatchesUp.took [LawfulEntity E] (h : CatchesUp b start before v k a nd (msg :: rest))
    (htook : nd.Took k msg nd' msgs) : CatchesUp b start before v k a nd' rest := by
  have hmsg : msg ≠ .GdbStep k := by
    rintro rfl
    have hk := h.steps k List.mem_cons_self
    subst hk
    exact (h.stepped rfl).2.1 List.mem_cons_self
  have hnow := htook.now_eq hmsg
  obtain ⟨-, -, hret⟩ := htook.standing hmsg
  have hheld : (nd'.state = .Running → nd'.allowed_ns ≤ v) ∧ Held v nd'.state rest := by
    have hold := h.held
    cases htook with
    | start c => exact ⟨fun _ => hold.1, hold.2⟩
    | allowed c => exact ⟨hold.1, hold.2⟩
    | cluster_stop => exact ⟨nofun, hold⟩
    | gdb_other => exact ⟨nofun, hold⟩
    | gdb_step => exact absurd rfl hmsg
    | startup => exact ⟨h.ceiling, hold⟩
    | reset => exact ⟨h.ceiling, hold⟩
    | reset_ignored => exact ⟨h.ceiling, hold⟩
    | watch => exact ⟨h.ceiling, hold⟩
  refine ⟨h.phase, h.until_cap, h.found, hheld.1, hheld.2,
    fun c hc => h.steps c (List.mem_cons_of_mem _ hc), fun hk => hnow ▸ h.others hk, fun hk => ?_⟩
  obtain ⟨hv, hmem, hle⟩ := h.stepped hk
  exact ⟨hnow.trans hv, fun hb => hmem (List.mem_cons_of_mem _ hb), hret ▸ hle⟩

/-- The arbiter takes a report of any board during the catch-up. -/
theorem CatchesUp.recv {r : Report} (h : CatchesUp b start before v k a nd down)
    (hrecv : a.Recv i r.handled r.msg a') : CatchesUp b start before v k a' nd down := by
  obtain ⟨reason, hphase⟩ := h.phase
  have hfound := hrecv.found_insn_eq (.inr (by rw [hphase]; nofun))
  exact ⟨⟨reason, hrecv.keeps.1.trans hphase⟩, hrecv.run_eq.2.trans h.until_cap,
    hfound.trans h.found, h.ceiling, h.held, h.steps, h.others, h.stepped⟩

/-- The arbiter takes a report after the step ended. -/
theorem StepLink.recv_ended {r : Report} (hrecv : a.Recv i r.handled r.msg a')
    (hnone : a.gdb_step = none) (hfound : a.found.2 = none) :
    StepLink b start before k a' nd down up :=
  .ended (hrecv.keeps.1.trans hnone)
    ((hrecv.found_insn_eq (.inr (by rw [hnone]; nofun))).trans hfound)

/-- The arbiter takes a report of the board. -/
theorem StepLink.deliver {r : Report} {reports : List Report}
    (h : StepLink b start before k a nd down (r :: reports))
    (hrecv : a.Recv k r.handled r.msg a') : StepLink b start before k a' nd down reports := by
  cases h with
  | waits h =>
    refine .waits ⟨hrecv.keeps.1.trans h.phase, h.stopped, h.no_start, h.steps, h.others,
      fun hk => ?_⟩
    subst hk
    cases h.stepped rfl with
    | queued hret hcount hunrep =>
      have hfound := hrecv.found_insn_eq (.inl (hunrep.flight r List.mem_cons_self))
      exact .queued hret hcount ⟨fun x hx => hunrep.flight x (List.mem_cons_of_mem _ hx),
        hfound.trans hunrep.found⟩
    | handled hmem hret hrep => exact .handled hmem hret (hrep.deliver hrecv h.phase)
  | catches_up v h => exact .catches_up v (h.recv hrecv)
  | ended hnone hfound => exact .recv_ended hrecv hnone hfound

/-- The arbiter takes a report of another board. -/
theorem StepLink.deliver_other {r : Report} (h : StepLink b start before k a nd down up)
    (hrecv : a.Recv i r.handled r.msg a') (hk : k ≠ i) :
    StepLink b start before k a' nd down up := by
  cases h with
  | waits h =>
    refine .waits ⟨hrecv.keeps.1.trans h.phase, h.stopped, h.no_start, h.steps, h.others,
      fun hkb => ?_⟩
    subst hkb
    have hother : a.gdb_step ≠ some (.WaitInsn i) := by
      rw [h.phase]
      exact fun heq => hk (GdbStepPhase.WaitInsn.inj (Option.some.inj heq))
    have hfound := hrecv.found_insn_eq (.inr hother)
    cases h.stepped rfl with
    | queued hret hcount hunrep =>
      exact .queued hret hcount ⟨hunrep.flight, hfound.trans hunrep.found⟩
    | handled hmem hret hrep => exact .handled hmem hret (hrep.deliver_other hrecv hk hfound)
  | catches_up v h => exact .catches_up v (h.recv hrecv)
  | ended hnone hfound => exact .recv_ended hrecv hnone hfound

end link

theorem stepLink_rule [LawfulEntity E] (b : Fin n) (start : Fin n → Nat) (before : Nat) :
    LinkRule (E := E) (m := m) NoCommand (StepLink b start before) where
  hub s l a out k hok heff hlink := by
    have hround := heff.stepRound hok
    cases hlink with
    | waits h => exact h.hub hround heff.found_eq
    | catches_up v h => exact h.hub hround heff.found_eq
    | ended hnone hfound =>
      cases hround with
      | same _ hgdb => exact .ended (hgdb.trans hnone) (by rw [heff.found_eq])
      | catch_up _ _ hsome =>
        rw [hfound] at hsome
        cases hsome
      | ended hnone' => exact .ended hnone' (by rw [heff.found_eq])
  deliver s k r rest a _ _ hrecv hlink := hlink.deliver hrecv
  deliver_other s i k r rest a hk _ _ hrecv hlink := hlink.deliver_other hrecv hk
  act s k l nd msgs _ hwf hacted hlink := by
    cases hlink with
    | waits h => exact .waits (h.acted hwf hacted)
    | catches_up v h => exact .catches_up v (h.acted hwf hacted)
    | ended hnone hfound => exact .ended hnone hfound
  take s k t msg rest nd msgs _ _ _ htook hlink := by
    cases hlink with
    | waits h => exact .waits (h.took htook)
    | catches_up v h => exact .catches_up v (h.took htook)
    | ended hnone hfound => exact .ended hnone hfound

/-- The clock of the stepped board since its step was handled. -/
def StillLink (b : Fin n) (c : Nat) (k : Fin n) (a : Arbiter n) (nd : Node m E F)
    (down : List (ControlToNode n)) (_ : List Report) : Prop :=
  k = b → a.gdb_step = none ∨ (nd.now = c ∧ .GdbStep b ∉ down)

theorem stillLink_rule [LawfulEntity E] (b : Fin n) (start : Fin n → Nat) (before c : Nat) :
    LinkRule (E := E) (m := m)
      (fun s l => NoCommand s l ∧ Star.Net.All (StepLink b start before) s) (StillLink b c) where
  hub s l a out k hok heff hlink := by
    intro hk
    rcases hlink hk with hnone | ⟨hnow, hmem⟩
    · left
      cases heff.stepRound hok.1 with
      | same _ hgdb => exact hgdb.trans hnone
      | ended hnone' => exact hnone'
      | catch_up _ _ hsome =>
        cases hok.2 k with
        | waits h => rw [h.phase] at hnone; cases hnone
        | catches_up v h => obtain ⟨_, hphase⟩ := h.phase; rw [hphase] at hnone; cases hnone
        | ended _ hfound => rw [hfound] at hsome; cases hsome
    · refine .inr ⟨hnow, fun hb => (List.mem_append.mp hb).elim hmem fun hnew => ?_⟩
      have hact := hok.1
      rw [heff.gdb_step_mem hnew] at hact
      cases hact
  deliver s k r rest a _ _ hrecv hlink hk := hrecv.keeps.1.symm ▸ hlink hk
  deliver_other s i k r rest a _ _ _ hrecv hlink hk := hrecv.keeps.1.symm ▸ hlink hk
  act s k l nd msgs hok hwf hacted hlink hk := by
    -- The board stands while the others catch up: it is at the target already.
    rcases hlink hk with hnone | ⟨hnow, hmem⟩
    · exact .inl hnone
    cases hok.2 k with
    | waits h =>
      obtain ⟨-, hsame, -⟩ := hacted.standing hwf fun hs => absurd hs h.stopped
      exact .inr ⟨hsame.trans hnow, hmem⟩
    | catches_up v h =>
      have hv := (h.stepped hk).1
      obtain ⟨-, hsame, -⟩ := hacted.standing hwf fun hs => hv ▸ h.ceiling hs
      exact .inr ⟨hsame.trans hnow, hmem⟩
    | ended hnone => exact .inl hnone
  take s k t msg rest nd msgs hok _ hdown htook hlink hk := by
    refine (hlink hk).imp_right fun ⟨hnow, hmem⟩ => ⟨?_, fun hb => hmem (List.mem_cons_of_mem _ hb)⟩
    have hmsg : msg ≠ .GdbStep k := by
      rintro rfl
      exact hmem (hk ▸ List.mem_cons_self)
    exact (htook.now_eq hmsg).trans hnow

/-! ### One instruction and the catch-up -/

section run

variable {cfg : Config n m} {s₀ s₁ t s₂ s₃ : Cluster n m E F} {b : Fin n}

/-- The links right after the arbiter handled the step. -/
theorem stepLink_of_step [LawfulEntity E] (h₀ : Reachable (system cfg) NoReset s₀)
    (hidle : s₀.hub.running = false) (hdown : ∀ i, ∀ msg ∈ s₀.down i, msg.halts = false)
    (hup : ∀ i, ∀ r ∈ s₀.up i, r.msg = .Ready)
    (hstep : (system cfg).step s₀ (.hub (.host (.Step (some b)))) = some s₁) :
    Star.Net.All (StepLink b (fun k => (s₀.spoke k).now)
      (Entity.retired (s₀.spoke b).sim.entity)) s₁ := by
  intro k
  -- Nobody runs in an idle cluster, and no start is on its way.
  have hstand : (s₀.spoke k).state ≠ .Running ∧ ∀ msg ∈ s₀.down k, msg.starts = false := by
    refine ((standLink_of_reachable h₀ k).stands hidle).resolve_right fun hstop => ?_
    obtain ⟨msg, hmsg, _, hhalts, -⟩ := hstop.exists_mem
    rw [hdown k msg hmsg] at hhalts
    cases hhalts
  have hno (c : Fin n) : .GdbStep c ∉ s₀.down k := fun hmem => by cases hdown k _ hmem
  cases step_moved (wf_of_reachable h₀) hstep with
  | hub _ a out heff =>
    have hfound := heff.found_eq
    cases heff with
    | step_running _ _ hrun =>
      rw [hidle] at hrun
      cases hrun
    | step_idle =>
      refine .waits ⟨rfl, hstand.1, fun msg hmsg => ?_, fun c hc => ?_, fun _ => rfl, fun hk => ?_⟩
      · rcases List.mem_append.mp hmsg with hold | hnew
        · exact hstand.2 msg hold
        · rw [List.mem_singleton.mp hnew]
          rfl
      · simpa [hno c] using hc
      · subst hk
        refine .queued rfl ?_ ⟨fun r hr => ?_, by rw [hfound]⟩
        · simp [List.count_append, List.count_eq_zero_of_not_mem (hno k)]
        · rw [Report.stops, hup k r hr]

/-- The arbiter ends the catch-up because its target is reached. -/
theorem Arbiter.Effect.reached_of_over {a a' : Arbiter n} {out : List (ControlToNode n)}
    {reason : HostStopReason} {v : Nat} (h : a.Effect .sync_finish a' out)
    (hphase : a.gdb_step = some (.CatchUp reason)) (hcap : a.until_cap = some v)
    (hfound : a.acts_on = none) (hover : a'.gdb_step = none) : v ≤ a.vt := by
  have hreach (h : reached_until a.until_cap a.vt = true) : v ≤ a.vt := by
    rw [hcap] at h
    exact of_decide_eq_true h
  cases h with
  | host_stop _ _ _ hpc =>
    rw [acts_on, found_sync hpc] at hfound
    cases hfound
  | catch_up _ _ hpc =>
    rw [acts_on, found_sync hpc] at hfound
    cases hfound
  | unchanged =>
    rw [show _ = a.gdb_step from rfl, hphase] at hover
    cases hover
  | republish =>
    rw [show _ = a.gdb_step from rfl, hphase] at hover
    cases hover
  | until_stop _ _ _ hr => exact hreach hr
  | republish_until_stop _ hr => exact hreach hr

/-- Once the stepped board has retired its instruction, its clock stands until
    the step is over. -/
theorem clock_of_retired [LawfulEntity E] {start : Fin n → Nat} {before : Nat}
    (hwf : ClusterWf t) (hlink : Star.Net.All (StepLink b start before) t)
    (hret : before < Entity.retired (t.spoke b).sim.entity)
    (hpath : Path (system cfg) NoCommand t s₂) (hphase : s₂.hub.gdb_step ≠ none) :
    (t.spoke b).now = (s₂.spoke b).now := by
  have hstill : Star.Net.All (StillLink b (t.spoke b).now) t := by
    rintro k rfl
    cases hlink k with
    | waits h =>
      cases h.stepped rfl with
      | queued hbefore => exact absurd hbefore (Nat.ne_of_gt hret)
      | handled hmem => exact .inr ⟨rfl, hmem⟩
    | catches_up v h => exact .inr ⟨rfl, (h.stepped rfl).2.1⟩
    | ended hnone => exact .inl hnone
  have hguarded := (stepLink_rule b start before).strengthen hpath hwf hlink
  have hend := (stillLink_rule b start before _).along hguarded hwf hstill
  exact ((hend b rfl).resolve_left hphase).1.symm

/-- A gdb step of board `b` in a stopped cluster, with nothing of an earlier
    run or step on its way, when the arbiter ends its catch-up because the
    target is reached: `b` has retired one instruction at most and has not moved
    since, the others have reached its clock, and none has passed it that had
    not before. -/
theorem gdb_step_one_insn {C Ev M : Type} [Cpu C Ev F] [Model M F]
    {s₀ s₁ t s₂ s₃ : Cluster n m (Board C Ev M F) F} {b : Fin n} {reason : HostStopReason}
    (h₀ : Reachable (system cfg) NoReset s₀) (hidle : s₀.hub.running = false)
    (hdown : ∀ i, ∀ msg ∈ s₀.down i, msg.halts = false)
    (hup : ∀ i, ∀ r ∈ s₀.up i, r.msg = .Ready)
    (hstep : (system cfg).step s₀ (.hub (.host (.Step (some b)))) = some s₁)
    (h₁ : Path (system cfg) NoCommand s₁ t) (h₂ : Path (system cfg) NoCommand t s₂)
    (hphase : s₂.hub.gdb_step = some (.CatchUp reason)) (hfound : s₂.hub.acts_on = none)
    (hends : (system cfg).step s₂ (.hub .sync_finish) = some s₃)
    (hover : s₃.hub.gdb_step = none) :
    Entity.retired (s₃.spoke b).sim.entity ≤ Entity.retired (s₀.spoke b).sim.entity + 1 ∧
      (Entity.retired (s₀.spoke b).sim.entity < Entity.retired (t.spoke b).sim.entity →
        (s₃.spoke b).now = (t.spoke b).now) ∧
      (∀ j, (s₃.spoke b).now ≤ (s₃.spoke j).now) ∧
      ∀ j, j ≠ b → (s₃.spoke j).now ≤ max (s₀.spoke j).now (s₃.spoke b).now := by
  have hreset {s : Cluster n m (Board C Ev M F) F} {l : Step n} (h : is_command l = false) :
      NoReset s l := by
    cases l with
    | hub act => cases act <;> first | rfl | cases h
    | _ => rfl
  have hr₁ : Reachable (system cfg) NoReset s₁ :=
    .step (.hub (.host (.Step (some b)))) h₀ rfl hstep
  have hrt : Reachable (system cfg) NoReset t := hr₁.of_path (h₁.mono fun _ _ => hreset)
  have hr₂ : Reachable (system cfg) NoReset s₂ := hrt.of_path (h₂.mono fun _ _ => hreset)
  have hlink₁ := stepLink_of_step h₀ hidle hdown hup hstep
  have hlinkt := (stepLink_rule _ _ _).along h₁ (wf_of_reachable hr₁) hlink₁
  have hlink₂ := (stepLink_rule _ _ _).along h₂ (wf_of_reachable hrt) hlinkt
  -- All boards see the same phase, so all of them catch up to one target.
  have hcatch (k : Fin n) : ∃ v, CatchesUp b (fun k => (s₀.spoke k).now)
      (Entity.retired (s₀.spoke b).sim.entity) v k s₂.hub (s₂.spoke k) (s₂.down k) := by
    cases hlink₂ k with
    | waits h =>
      rw [h.phase] at hphase
      cases hphase
    | catches_up v h => exact ⟨v, h⟩
    | ended hnone =>
      rw [hnone] at hphase
      cases hphase
  obtain ⟨v, hb⟩ := hcatch b
  obtain ⟨hnow, -, hret⟩ := hb.stepped rfl
  have hbelow : ReportsBelow s₂ := by
    refine (reportsSorted_of_reachable (hr₂.mono fun _ l hl => ?_)).below
    exact fun hr => by rw [hl] at hr; cases hr
  cases step_moved (wf_of_reachable hr₂) hends with
  | hub _ a out heff =>
    have hreached := heff.reached_of_over hphase hb.until_cap hfound hover
    refine ⟨hret, fun hbefore => ?_, fun j => ?_, fun j hj => ?_⟩
    · exact (clock_of_retired (wf_of_reachable hrt) hlinkt hbefore h₂ (by rw [hphase]; nofun)).symm
    · exact hnow ▸ Nat.le_trans hreached (hbelow.vt_le j)
    · obtain ⟨v', hj'⟩ := hcatch j
      obtain rfl : v' = v := Option.some.inj (hj'.until_cap.symm.trans hb.until_cap)
      exact hnow.symm ▸ hj'.others hj

end run

/-- Board 0 executes its instruction. -/
def insn_run : List (Step 2) := receive 0 1

/-- Board 1 catches up with it and reports. -/
def catch_up_run : List (Step 2) :=
  receive 1 1 ++ sync [0, 0] ++ receive 0 1 ++ receive 1 1 ++ full_loop 1 ++ full_loop 1 ++
    [.hub .sync_begin, .deliver 1, .deliver 1]

theorem gdb_step_one_insn_pair :
    ∃ s₁ t s₂ s₃ : GuestCluster 2 0,
      (system (unwired 1000000 100000)).step (guests (unwired 1000000 100000) stop_kinds)
        (.hub (.host (.Step (some 0)))) = some s₁ ∧
      Path (system (unwired 1000000 100000)) NoCommand s₁ t ∧
      Path (system (unwired 1000000 100000)) NoCommand t s₂ ∧
      (system (unwired 1000000 100000)).step s₂ (.hub .sync_finish) = some s₃ ∧
      Entity.retired (t.spoke 0).sim.entity = 1 ∧ (t.spoke 1).now = 0 ∧
      Entity.retired (s₃.spoke 0).sim.entity ≤ 1 ∧ (s₃.spoke 0).now = (t.spoke 0).now ∧
      ∀ j, (s₃.spoke 0).now ≤ (s₃.spoke j).now := by
  -- The whole run by evaluation; the theorem is applied to its stages.
  have hrun : (((system (unwired 1000000 100000)).step
      (guests (unwired 1000000 100000) stop_kinds) (.hub (.host (.Step (some 0))))).any fun s₁ =>
        ((system (unwired 1000000 100000)).exec NoCommand s₁ insn_run).any fun t =>
          (Entity.retired (t.spoke 0).sim.entity = 1 ∧ (t.spoke 1).now = 0) ∧
          ((system (unwired 1000000 100000)).exec NoCommand t catch_up_run).any fun s₂ =>
            (s₂.hub.gdb_step = some (.CatchUp .Step) ∧ s₂.hub.acts_on = none) ∧
            ((system (unwired 1000000 100000)).step s₂ (.hub .sync_finish)).any fun s₃ =>
              s₃.hub.gdb_step = none) = true := by
    decide +kernel
  obtain ⟨s₁, hstep, hrest⟩ := (Option.any_eq_true _ _).mp hrun
  obtain ⟨t, hexec₁, hrest⟩ := (Option.any_eq_true _ _).mp hrest
  obtain ⟨⟨hret, hnow⟩, hrest⟩ := of_decide_eq_true hrest
  obtain ⟨s₂, hexec₂, hrest⟩ := (Option.any_eq_true _ _).mp hrest
  obtain ⟨⟨hphase, hfound⟩, hrest⟩ := of_decide_eq_true hrest
  obtain ⟨s₃, hends, hover⟩ := (Option.any_eq_true _ _).mp hrest
  have hone := gdb_step_one_insn (.init (initial_guests _ stop_kinds)) rfl nofun nofun hstep
    (.of_exec hexec₁) (.of_exec hexec₂) hphase hfound hends (of_decide_eq_true hover)
  exact ⟨s₁, t, s₂, s₃, hstep, .of_exec hexec₁, .of_exec hexec₂, hends, hret, hnow, hone.1,
    hone.2.1 (by rw [hret]; decide), hone.2.2.1⟩

/-- No host command is handled, and no board but `b` publishes a stop. -/
def StepRun (cfg : Config n m) (b : Fin n) (s : Cluster n m E F) (l : Step n) : Prop :=
  NoCommand s l ∧ ∀ p ∈ published cfg s l, p.board ≠ b → ∀ r ∈ p.reports, r.stops = false

instance (cfg : Config n m) (b : Fin n) (s : Cluster n m E F) (l : Step n) :
    Decidable (StepRun cfg b s l) :=
  inferInstanceAs (Decidable (NoCommand s l ∧
    ∀ p ∈ published cfg s l, p.board ≠ b → ∀ r ∈ p.reports, r.stops = false))

/-- Board 0 has two steps queued, and executes the second one when the catch-up
    with the first is about to end. -/
def two_steps_run : List (Step 2) :=
  receive 0 1 ++ sync [0, 0] ++ receive 1 3 ++ full_loop 1 ++ full_loop 1 ++
    [.hub .sync_begin, .deliver 1, .deliver 1] ++ receive 0 1

/-- A step that is handled while an earlier one is still queued: two
    instructions are retired, and the other board is behind. -/
theorem two_steps_two_insns :
    ∃ s₀ s₁ s₂ s₃ : GuestCluster 2 0,
      Reachable (system (unwired 1000000 100000)) NoReset s₀ ∧ s₀.hub.running = false ∧
      (∀ i, ∀ msg ∈ s₀.down i, ∀ reason, msg ≠ .ClusterStop reason) ∧ (∀ i, s₀.up i = []) ∧
      (system (unwired 1000000 100000)).step s₀ (.hub (.host (.Step (some 0)))) = some s₁ ∧
      Path (system (unwired 1000000 100000)) (StepRun (unwired 1000000 100000) 0) s₁ s₂ ∧
      s₂.hub.gdb_step = some (.CatchUp .Step) ∧ s₂.hub.acts_on = none ∧
      (system (unwired 1000000 100000)).step s₂ (.hub .sync_finish) = some s₃ ∧
      s₃.hub.gdb_step = none ∧
      Entity.retired (s₃.spoke 0).sim.entity = Entity.retired (s₀.spoke 0).sim.entity + 2 ∧
      (s₃.spoke 1).now < (s₃.spoke 0).now := by
  obtain ⟨s₀, s₁, hs₀, hstep, ⟨hidle, hdown, hup⟩, hrest⟩ : ∃ s₀ s₁ : GuestCluster 2 0,
      Reachable (system (unwired 1000000 100000)) NoReset s₀ ∧
      (system (unwired 1000000 100000)).step s₀ (.hub (.host (.Step (some 0)))) = some s₁ ∧
      (s₀.hub.running = false ∧ (∀ i, s₀.down i = [.GdbStep 0]) ∧ ∀ i, s₀.up i = []) ∧
      (((system (unwired 1000000 100000)).exec (StepRun (unwired 1000000 100000) 0) s₁
          two_steps_run).any fun s₂ =>
        (s₂.hub.gdb_step = some (.CatchUp .Step) ∧ s₂.hub.acts_on = none) ∧
        ((system (unwired 1000000 100000)).step s₂ (.hub .sync_finish)).any fun s₃ =>
          s₃.hub.gdb_step = none ∧
          Entity.retired (s₃.spoke 0).sim.entity = Entity.retired (s₀.spoke 0).sim.entity + 2 ∧
          (s₃.spoke 1).now < (s₃.spoke 0).now) = true :=
    Reachable.exists_step_of_exec [host (.Step (some 0))] (initial_guests _ stop_kinds)
      (by decide +kernel)
  -- The path is the run evaluated above, and the last step follows it.
  obtain ⟨s₂, hexec, hrest⟩ := (Option.any_eq_true _ _).mp hrest
  obtain ⟨⟨hphase, hfound⟩, hrest⟩ := of_decide_eq_true hrest
  obtain ⟨s₃, hends, hrest⟩ := (Option.any_eq_true _ _).mp hrest
  obtain ⟨hover, hret, hnow⟩ := of_decide_eq_true hrest
  refine ⟨s₀, s₁, s₂, s₃, hs₀, hidle, fun i msg hmsg reason => ?_, hup, hstep, .of_exec hexec,
    hphase, hfound, hends, hover, hret, hnow⟩
  rw [hdown i, List.mem_singleton] at hmsg
  rw [hmsg]
  nofun

end Rl78Sim
