import Rl78Sim.Cluster.Until

/-! # Reports and Progress

    A node reports its time after a poll that leaves it near its ceiling. The
    arbiter waits for these reports, so what matters at rest is the latest
    report of a board, taken or still in flight: a running board either has
    room below its ceiling or has reported its clock. A ceiling that is lowered
    to or below an unreported clock breaks this, since the board then neither
    polls nor reports.
-/

namespace Rl78Sim

open Transition

variable {n m : Nat} {E F : Type} [Entity E F]

/-! ### The latest report -/

/-- The latest virtual time that board `i` reported: the last report in
    flight, or else the one that the arbiter took last. -/
def latest (a : Arbiter n) (i : Fin n) (up : List Report) : Nat :=
  (times up).getLast?.getD (a.ceiling.reports i)

theorem latest_nil (a : Arbiter n) (i : Fin n) : latest a i [] = a.ceiling.reports i := rfl

theorem latest_append_of_times_nil {a : Arbiter n} {i : Fin n} {up out : List Report}
    (h : times out = []) : latest a i (up ++ out) = latest a i up := by
  simp [latest, h]

theorem latest_append_of_times {a : Arbiter n} {i : Fin n} {up out : List Report} {v : Nat}
    (h : times out = [v]) : latest a i (up ++ out) = v := by
  simp [latest, h]

/-- Taking a report of a board leaves its latest report as it is. -/
theorem Arbiter.Recv.latest_eq {a a' : Arbiter n} {i : Fin n} {r : Report} {rest : List Report}
    (h : a.Recv i r.handled r.msg a') : latest a' i rest = latest a i (r :: rest) := by
  obtain ⟨msg, handled⟩ := r
  cases h with
  | time _ _ _ v =>
    simp only [latest, times_cons_time, TimeCeiling.report_self]
    cases hrest : times rest with
    | nil => rfl
    | cons w ws => simp [List.getLast?_cons]
  | ready => rfl
  | insn => rfl
  | stop => rfl

theorem Arbiter.Recv.latest_ne {a a' : Arbiter n} {i j : Fin n} {handled : Nat}
    {msg : ControlToArbiter} (h : a.Recv i handled msg a') (hj : j ≠ i) (up : List Report) :
    latest a' j up = latest a j up := by
  cases h with
  | time => simp only [latest, TimeCeiling.report_ne _ _ hj]
  | _ => rfl

/-! ### When a node reports -/

/-- A step of a node that moves its clock ends with room below the ceiling or
    with a report of the clock, unless the clock was reported before. -/
theorem Node.Acted.reports {nd nd' : Node m E F} {l : Node.Act} {msgs : List ControlToArbiter}
    (h : nd.Acted l nd' msgs) :
    nd'.now = nd.now ∨ times (nd'.stamp msgs) = [nd'.now] ∨
      nd.headroom_threshold_ns ≤ nd.allowed_ns - nd'.now ∨
        nd.last_time_report = some nd'.now := by
  cases h with
  | quiet _ _ hquiet => exact .inl hquiet.now
  | polled _ sim _ _ _ _ _ _ _ _ hspec hrep hquiet =>
    have hnow : nd'.now = sim.now := hquiet.now_eq
    have hmaybe {last : Option Nat} {msgs : List ControlToArbiter}
        (h : Node.MaybeReport nd sim.now last msgs) :
        msgs = [.TimeReport sim.now] ∨ nd.headroom_threshold_ns ≤ nd.allowed_ns - sim.now ∨
          nd.last_time_report = some sim.now := by
      cases h with
      | report => exact .inl rfl
      | skip hno =>
        refine .inr ?_
        -- With little headroom, only a time just reported is not reported again.
        by_cases hroom : nd.allowed_ns - sim.now < nd.headroom_threshold_ns
        · exact .inr (by_contra fun hlast => hno ⟨hroom, hlast⟩)
        · exact .inl (Nat.le_of_not_lt hroom)
    rw [hnow]
    cases hrep with
    | running _ _ hm =>
      refine .inr ((hmaybe hm).imp_left ?_)
      rintro rfl
      rfl
    | stopped _ _ _ _ hm =>
      refine .inr ((hmaybe hm).imp_left ?_)
      rintro rfl
      rfl
    | failed =>
      cases hspec.outcome with
      | failed _ _ _ heq => exact .inl heq

/-- A node that moves to or past its ceiling reports its clock. -/
theorem Node.Acted.reports_at {nd nd' : Node m E F} {l : Node.Act}
    {msgs : List ControlToArbiter} {b : Nat} (h : nd.Acted l nd' msgs) (hwf : nd.Wf)
    (hthr : 1 ≤ nd.headroom_threshold_ns)
    (hlast : ∀ v, nd.last_time_report = some v → v ≤ nd.now)
    (hceil : nd.state = .Running → nd.allowed_ns ≤ b) :
    nd'.now = nd.now ∨ nd'.now < b ∨ times (nd'.stamp msgs) = [nd'.now] := by
  rcases h.reports with hsame | hrep | hroom | hdone
  · exact .inl hsame
  · exact .inr (.inr hrep)
  · cases h with
    | quiet _ _ hquiet => exact .inl hquiet.now
    | polled _ _ _ _ _ _ hpc =>
      have hle := hceil (hwf.running_of_poll hpc)
      exact .inr (.inl (by omega))
  · exact .inl (Nat.le_antisymm (hlast _ hdone) h.now_le)

/-- What every node keeps about its reports. -/
structure ReportLink (cfg : Config n m) (_ : Fin n) (_ : Arbiter n) (nd : Node m E F)
    (down : List (ControlToNode n)) (_ : List Report) : Prop where
  thr_eq : nd.headroom_threshold_ns = cfg.headroom_threshold_ns
  startup {margin_ns thr : Nat} : .StartupRecord margin_ns thr ∈ down →
    thr = cfg.headroom_threshold_ns
  last_le {v : Nat} : nd.last_time_report = some v → v ≤ nd.now

/-- The arbiter sends no startup record after the Ready barrier. -/
theorem Arbiter.Effect.no_startup {a a' : Arbiter n} {act : Arbiter.Act n}
    {out : List (ControlToNode n)} (h : a.Effect act a' out) {margin_ns thr : Nat} :
    .StartupRecord margin_ns thr ∉ out := by
  cases h <;> simp

theorem Node.Acted.last_le {nd nd' : Node m E F} {l : Node.Act} {msgs : List ControlToArbiter}
    (h : nd.Acted l nd' msgs) (hlast : ∀ v, nd.last_time_report = some v → v ≤ nd.now) {v : Nat}
    (hv : nd'.last_time_report = some v) : v ≤ nd'.now := by
  have hle := h.now_le
  cases h with
  | quiet _ _ hquiet => exact Nat.le_trans (hlast v (hquiet.last_eq ▸ hv)) hle
  | polled _ sim _ _ _ _ _ _ _ _ _ hrep hquiet =>
    have hnow : nd'.now = sim.now := hquiet.now_eq
    rw [hquiet.last_eq] at hv
    have hmaybe {last : Option Nat} {msgs : List ControlToArbiter}
        (h : Node.MaybeReport nd sim.now last msgs) (hv : last = some v) : v ≤ nd'.now := by
      cases h with
      | report => exact Nat.le_of_eq (by rw [hnow]; exact (Option.some.inj hv).symm)
      | skip => exact Nat.le_trans (hlast v hv) hle
    cases hrep with
    | running _ _ hm => exact hmaybe hm hv
    | stopped _ _ _ _ hm => exact hmaybe hm hv
    | failed => exact Nat.le_trans (hlast v hv) hle

theorem Node.Took.last_le [LawfulEntity E] {i : Fin n} {nd nd' : Node m E F}
    {msg : ControlToNode n} {msgs : List ControlToArbiter} (h : nd.Took i msg nd' msgs)
    (hlast : ∀ v, nd.last_time_report = some v → v ≤ nd.now) {v : Nat}
    (hv : nd'.last_time_report = some v) : v ≤ nd'.now := by
  have hle := h.now_le
  cases h with
  | reset => cases hv
  | gdb_step nd₁ _ hstep =>
    cases hstep with
    | stopped sim =>
      have hnow := Node.halt_now nd sim
      exact Nat.le_of_eq ((Option.some.inj hv).symm.trans hnow.symm)
    | silent => exact Nat.le_trans (hlast v hv) hle
  | _ => exact Nat.le_trans (hlast v hv) hle

/-- The report threshold changes only to that of a startup record. -/
theorem Node.Took.thr_cases {i : Fin n} {nd nd' : Node m E F} {msg : ControlToNode n}
    {msgs : List ControlToArbiter} (h : nd.Took i msg nd' msgs) :
    nd'.headroom_threshold_ns = nd.headroom_threshold_ns ∨
      ∃ margin_ns, msg = .StartupRecord margin_ns nd'.headroom_threshold_ns := by
  cases h with
  | startup margin_ns => exact .inr ⟨margin_ns, rfl⟩
  | gdb_step _ _ hstep => cases hstep <;> exact .inl rfl
  | _ => exact .inl rfl

theorem Node.Acted.thr_eq {nd nd' : Node m E F} {l : Node.Act} {msgs : List ControlToArbiter}
    (h : nd.Acted l nd' msgs) : nd'.headroom_threshold_ns = nd.headroom_threshold_ns := by
  cases h with
  | quiet _ _ hquiet => exact hquiet.thr_eq
  | polled _ _ _ _ _ _ _ _ _ _ _ _ hquiet => exact hquiet.thr_eq

variable {cfg : Config n m} {s s' : Cluster n m E F} {l : Step n}

theorem reportLink_rule [LawfulEntity E] (ok : Guard (Cluster n m E F) (Step n)) :
    LinkRule ok (ReportLink cfg) where
  hub s l a out i _ heff hlink :=
    ⟨hlink.thr_eq, fun h => (List.mem_append.mp h).elim hlink.startup
      fun hnew => absurd hnew heff.no_startup, hlink.last_le⟩
  deliver s i r rest a _ _ _ hlink := ⟨hlink.thr_eq, hlink.startup, hlink.last_le⟩
  deliver_other s i j r rest a _ _ _ _ hlink := ⟨hlink.thr_eq, hlink.startup, hlink.last_le⟩
  act s i l nd msgs _ _ hacted hlink :=
    ⟨hacted.thr_eq.trans hlink.thr_eq, hlink.startup,
      hacted.last_le fun _ => hlink.last_le⟩
  take s i t msg rest nd msgs _ _ _ htook hlink := by
    refine ⟨?_, fun h => hlink.startup (List.mem_cons_of_mem _ h),
      htook.last_le fun _ => hlink.last_le⟩
    rcases htook.thr_cases with heq | ⟨margin_ns, rfl⟩
    · exact heq.trans hlink.thr_eq
    · exact hlink.startup List.mem_cons_self

theorem Initial.reportLink (h : Initial cfg s) : Star.Net.All (ReportLink cfg) s := by
  intro i
  refine ⟨(h.spoke i).thr_eq, fun hmsg => ?_, fun hv => ?_⟩
  · cases h.down i _ hmsg
    rfl
  · rw [(h.spoke i).last_eq] at hv
    cases hv

theorem reportLink_of_reachable [LawfulEntity E] {ok : Guard (Cluster n m E F) (Step n)}
    (h : Reachable (system cfg) ok s) : Star.Net.All (ReportLink cfg) s :=
  (reportLink_rule ok).invariant (fun _ => Initial.reportLink) h

/-! ### The cluster at rest -/

/-- An iteration of the session loop without a command or a report changes
    nothing. -/
def Arbiter.Idle (a : Arbiter n) : Prop :=
  ∃ b, a.act .sync_begin = some (b, []) ∧ b.act .sync_finish = some (a, [])

theorem Arbiter.idle_iff (a : Arbiter n) :
    a.Idle ↔ a.pc = .host ∧ reached_until a.until_cap a.vt = false := by
  constructor
  · rintro ⟨b, hbegin, hfinish⟩
    cases act_effect hbegin with
    | sync_begin hpc =>
      refine ⟨hpc, ?_⟩
      cases hreach : reached_until a.until_cap a.vt with
      | false => rfl
      | true =>
        have hstop : reached_until a.until_cap a.ceiling.virtual_time_ns = true := hreach
        simp [act, sync_finish, republish, vt, hstop, broadcast_cluster_stop] at hfinish
  · rintro ⟨hpc, hreach⟩
    have hgo : reached_until a.until_cap a.ceiling.virtual_time_ns = false := hreach
    refine ⟨{ a with pc := .sync false none none }, if_pos hpc, ?_⟩
    simp [act, sync_finish, republish, vt, hgo, ← hpc]

/-- No control message is in flight, and the arbiter has nothing to do. -/
structure Silent (s : Cluster n m E F) : Prop where
  down (i : Fin n) : s.down i = []
  up (i : Fin n) : s.up i = []
  arbiter : s.hub.Idle

/-- Besides, every running node stands at its ceiling. -/
structure Quiescent (s : Cluster n m E F) : Prop extends Silent s where
  ceiling (i : Fin n) : (s.spoke i).state = .Running → (s.spoke i).allowed_ns ≤ (s.spoke i).now

/-! ### A run with a target ends -/

/-- The board that handles the start of the current run with a target, and the
    target. -/
def handles_target (s : Cluster n m E F) : Step n → Option (Fin n × Nat)
  | .take i _ =>
      match s.down i with
      | .Start _ :: rest =>
          if s.hub.running && rest.all fun msg => !msg.moves then s.hub.until_cap.map (i, ·)
          else none
      | _ => none
  | _ => none

/-- A board that handles the start of a run with a target is before the target,
    or has reported that it is not. -/
def TargetGuard (s : Cluster n m E F) (l : Step n) : Prop :=
  ∀ p ∈ handles_target s l, (s.spoke p.1).now < p.2 ∨ p.2 ≤ latest s.hub p.1 (s.up p.1)

instance (s : Cluster n m E F) (l : Step n) : Decidable (TargetGuard s l) :=
  inferInstanceAs (Decidable (∀ p ∈ handles_target s l,
    (s.spoke p.1).now < p.2 ∨ p.2 ≤ latest s.hub p.1 (s.up p.1)))

/-- The messages of a run with target `u`: its start, or no message that starts
    or moves boards and no ceiling past `u`. -/
theorem Arbiter.Effect.running_cases {u : Nat} {a a' : Arbiter n} {act : Arbiter.Act n}
    {out : List (ControlToNode n)} (h : a.Effect act a' out) (hrun : a'.running = true)
    (hcap : a'.until_cap = some u) :
    (∃ c, c ≤ u ∧ out = [.Start c]) ∨
      (a.running = true ∧ a.until_cap = some u ∧ a'.ceiling = a.ceiling ∧
        (∀ msg ∈ out, msg.moves = false) ∧ Capped u (some u) out) := by
  cases h with
  | shutdown | sync_begin | step_unknown | unchanged =>
    exact .inr ⟨hrun, hcap, rfl, nofun, rfl⟩
  | watch => exact .inr ⟨hrun, hcap, rfl, by simp [ControlToNode.moves], rfl⟩
  | start until_ns =>
    obtain rfl : until_ns = some u := hcap
    exact .inl ⟨_, a.ceiling.allowed_until_le u, rfl⟩
  | catch_up =>
    obtain rfl := Option.some.inj hcap
    exact .inl ⟨_, a.ceiling.allowed_until_le _, rfl⟩
  | stop_idle _ hidle => exact absurd hrun (by simp [hidle])
  | step_idle _ _ hidle => exact absurd hrun (by simp [hidle])
  | refuse _ _ _ hidle => cases hcap
  | republish =>
    have hcap : a.until_cap = some u := hcap
    refine .inr ⟨hrun, hcap, rfl, by simp [ControlToNode.moves], ?_, rfl⟩
    rw [hcap]
    exact a.ceiling.allowed_until_le u
  | start_stops | stop | step_running | host_stop | until_stop | republish_until_stop =>
    cases hrun
  | reset => cases hcap

/-- The link of a board in a run with target `u`: its start is on its way, or
    was handled, and then the board is before `u` or has reported that it is
    not. -/
def TargetLink (i : Fin n) (a : Arbiter n) (nd : Node m E F) (down : List (ControlToNode n))
    (up : List Report) : Prop :=
  ∀ u, a.running = true → a.until_cap = some u →
    StartQueued u (some u) down ∨
      (StartHandled u (some u) nd down ∧ (nd.now < u ∨ u ≤ latest a i up))

section target

variable {u : Nat} {nd nd' : Node m E F} {i : Fin n} {a : Arbiter n} {msg : ControlToNode n}
  {down rest : List (ControlToNode n)} {up : List Report} {msgs : List ControlToArbiter}

/-- A board that reaches its target reports it. -/
theorem Node.Acted.reaches {l : Node.Act} (hacted : nd.Acted l nd' msgs) (hwf : nd.Wf)
    (hthr : 1 ≤ nd.headroom_threshold_ns)
    (hlast : ∀ v, nd.last_time_report = some v → v ≤ nd.now)
    (hceil : nd.state = .Running → nd.allowed_ns ≤ u)
    (h : nd.now < u ∨ u ≤ latest a i up) :
    nd'.now < u ∨ u ≤ latest a i (up ++ nd'.stamp msgs) := by
  by_cases hnow : nd'.now < u
  · exact .inl hnow
  refine .inr ?_
  rcases hacted.times_eq with hnil | hone
  · rw [latest_append_of_times_nil hnil]
    rcases hacted.reports_at hwf hthr hlast hceil with hsame | hbefore | hrep
    · exact h.resolve_left (by omega)
    · exact absurd hbefore hnow
    · rw [hnil] at hrep
      cases hrep
  · rw [latest_append_of_times hone]
    omega

/-- Handling a message leaves the clock and the reports behind the target, or
    at it. -/
theorem Node.Took.reaches [LawfulEntity E] (htook : nd.Took i msg nd' msgs)
    (hmsg : msg ≠ .GdbStep i) (h : nd.now < u ∨ u ≤ latest a i up) :
    nd'.now < u ∨ u ≤ latest a i (up ++ nd'.stamp msgs) := by
  rw [← htook.now_eq hmsg] at h
  rcases htook.times_eq with hnil | hone
  · rwa [latest_append_of_times_nil hnil]
  · rw [latest_append_of_times hone]
    omega

end target

theorem targetLink_rule [LawfulEntity E] (hthr : 1 ≤ cfg.headroom_threshold_ns) :
    LinkRule (fun s l => TargetGuard s l ∧ Star.Net.All (ReportLink cfg) s)
      (TargetLink (n := n) (m := m) (E := E)) where
  hub s l a out i _ heff hlink := by
    intro u hrun hcap
    rcases heff.running_cases hrun hcap with ⟨c, hc, rfl⟩ |
      ⟨hrun₀, hcap₀, hceil, hmoves, hout⟩
    · exact .inl (.send _ ⟨⟨c, hc, rfl⟩, nofun, rfl⟩)
    · have hlatest : latest a i (s.up i) = latest s.hub i (s.up i) := by
        simp only [latest, hceil]
      rw [hlatest]
      exact (hlink u hrun₀ hcap₀).imp (·.append hmoves fun _ => hout)
        fun h => ⟨h.1.append hmoves fun _ => hout, h.2⟩
  deliver s i r rest a _ _ hrecv hlink := by
    intro u hrun hcap
    obtain ⟨hrun₀, hcap₀⟩ := hrecv.run_eq
    rw [hrecv.latest_eq]
    exact hlink u (hrun₀ ▸ hrun) (hcap₀ ▸ hcap)
  deliver_other s i j r rest a hj _ _ hrecv hlink := by
    intro u hrun hcap
    obtain ⟨hrun₀, hcap₀⟩ := hrecv.run_eq
    rw [hrecv.latest_ne hj]
    exact hlink u (hrun₀ ▸ hrun) (hcap₀ ▸ hcap)
  act s i l nd msgs hok hwf hacted hlink := by
    intro u hrun hcap
    have hrep := hok.2 i
    refine (hlink u hrun hcap).imp_right fun ⟨hhandled, hnow⟩ => ⟨hhandled.acted hacted, ?_⟩
    exact hacted.reaches hwf (hrep.thr_eq ▸ hthr) (fun _ => hrep.last_le)
      (fun hstate => (hhandled.ceiling hstate).1) hnow
  take s i t msg rest nd msgs hok _ hdown htook hlink := by
    intro u hrun hcap
    rcases hlink u hrun hcap with hqueued | ⟨hhandled, hnow⟩
    · rcases hqueued.take with hrest | ⟨⟨c, -, rfl⟩, hmoves, -⟩
      · exact .inl hrest
      -- The ceiling of the target is the last one in the queue, so the guard applies.
      · have htarget : handles_target s (.take i t) = some (i, u) := by
          have hall : rest.all (fun msg => !msg.moves) = true := by simpa using hmoves
          simp [handles_target, hdown, hrun, hcap, hall]
        have hnow := hok.1 (i, u) htarget
        exact (hqueued.took htook).imp_right fun hhandled =>
          ⟨hhandled, htook.reaches nofun hnow⟩
    · refine .inr ⟨hhandled.took htook, htook.reaches ?_ hnow⟩
      rintro rfl
      cases hhandled.quiet _ List.mem_cons_self

theorem targetLink_of_reachable [LawfulEntity E] (hthr : 1 ≤ cfg.headroom_threshold_ns)
    (h : Reachable (system cfg) TargetGuard s) : Star.Net.All TargetLink s := by
  refine (targetLink_rule hthr).invariant (fun s hs i u hrun => ?_)
    (h.strengthen fun _ => reportLink_of_reachable)
  rw [hs.hub_eq] at hrun
  cases hrun

/-- A cluster at rest never waits for a target that every board has reached. -/
theorem until_run_ends {C Ev M : Type} [Cpu C Ev F] [Model M F]
    {s : Cluster n m (Board C Ev M F) F} (hthr : 1 ≤ cfg.headroom_threshold_ns)
    (h : Reachable (system cfg) TargetGuard s) (hsilent : Silent s) :
    ¬ ∃ u, s.hub.running = true ∧ s.hub.until_cap = some u ∧ ∀ i, u ≤ (s.spoke i).now := by
  rintro ⟨u, hrun, hcap, hclocks⟩
  have hreports (i : Fin n) : u ≤ s.hub.ceiling.reports i := by
    have hlink := targetLink_of_reachable hthr h i u hrun hcap
    rw [hsilent.down i, hsilent.up i] at hlink
    rcases hlink with hqueued | ⟨-, hbefore | hreport⟩
    · exact absurd hqueued Fifo.not_followed_nil
    · exact absurd (hclocks i) (Nat.not_le.mpr hbefore)
    · exact hreport
  have hvt : u ≤ s.hub.vt := TimeCeiling.le_virtual_time _ cfg.boards_pos hreports
  have hidle := (s.hub.idle_iff.mp hsilent.arbiter).2
  rw [hcap] at hidle
  exact absurd hvt (of_decide_eq_false hidle)

/-- Both boards run to 500, with room below the ceiling of 1000, and stop. -/
def stop_run : List (Step 2) :=
  host (.Start none) :: receive 0 1 ++ receive 1 1 ++ full_loop 0 ++ full_loop 0 ++
    full_loop 1 ++ full_loop 1 ++ host .Stop :: receive 0 1 ++ receive 1 1

/-- They go on to a target of 800, which ends the run. -/
def resume_run : List (Step 2) :=
  stop_run ++ host (.Start (some 800)) :: receive 0 1 ++ receive 1 1 ++ full_loop 0 ++
    full_loop 0 ++ full_loop 1 ++ full_loop 1 ++ sync [0, 1] ++ receive 0 1 ++ receive 1 1

theorem until_run_ends_pair :
    ∃ s : GuestCluster 2 0, Reachable (system (unwired 1000 100)) TargetGuard s ∧ Silent s ∧
      (∀ i, (s.spoke i).now = 800) ∧
      ¬ ∃ u, s.hub.running = true ∧ s.hub.until_cap = some u ∧ ∀ i, u ≤ (s.spoke i).now := by
  obtain ⟨s, hs, hdown, hup, hpc, hreach, hnow⟩ : ∃ s : GuestCluster 2 0,
      Reachable (system (unwired 1000 100)) TargetGuard s ∧ (∀ i, s.down i = []) ∧
      (∀ i, s.up i = []) ∧ s.hub.pc = .host ∧
      Arbiter.reached_until s.hub.until_cap s.hub.vt = false ∧ ∀ i, (s.spoke i).now = 800 :=
    Reachable.exists_of_exec resume_run (initial_plants (unwired 1000 100) 500 false)
      (by decide +kernel)
  have hsilent : Silent s := ⟨hdown, hup, s.hub.idle_iff.mpr ⟨hpc, hreach⟩⟩
  exact ⟨s, hs, hsilent, hnow, until_run_ends (by decide) hs hsilent⟩

/-- A start with target 300 finds both boards at 500, which they never
    reported: nobody polls, and the arbiter waits. -/
theorem until_run_stuck :
    ∃ s : GuestCluster 2 0, Reachable (system (unwired 1000 100)) NoGdbStep s ∧ Quiescent s ∧
      s.hub.running = true ∧ s.hub.until_cap = some 300 ∧ ∀ i, 300 ≤ (s.spoke i).now := by
  obtain ⟨s, hs, hdown, hup, hpc, hreach, hceil, hstuck⟩ : ∃ s : GuestCluster 2 0,
      Reachable (system (unwired 1000 100)) NoGdbStep s ∧ (∀ i, s.down i = []) ∧
      (∀ i, s.up i = []) ∧ s.hub.pc = .host ∧
      Arbiter.reached_until s.hub.until_cap s.hub.vt = false ∧
      (∀ i, (s.spoke i).allowed_ns ≤ (s.spoke i).now) ∧
      s.hub.running = true ∧ s.hub.until_cap = some 300 ∧ ∀ i, 300 ≤ (s.spoke i).now :=
    Reachable.exists_of_exec
      (stop_run ++ host (.Start (some 300)) :: receive 0 1 ++ receive 1 1)
      (initial_plants (unwired 1000 100) 500 false) (by decide +kernel)
  have hidle := s.hub.idle_iff.mpr ⟨hpc, hreach⟩
  exact ⟨s, hs, ⟨⟨hdown, hup, hidle⟩, fun i _ => hceil i⟩, hstuck⟩

end Rl78Sim
