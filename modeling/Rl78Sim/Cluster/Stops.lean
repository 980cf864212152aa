import Rl78Sim.Framework.Fifo
import Rl78Sim.Kernel.Failure
import Rl78Sim.Cluster.Guests
import Rl78Sim.Cluster.Observe

/-! # Stops of a Node

    A poll that stops the simulator is answered by a `HostStop` message, with
    one exception: an instruction period that exceeds the quantum is an error
    of the machine, which the node only logs. Where this does not happen, the
    arbiter's view of a running cluster is right for every node that has
    handled the messages on their way to it.
-/

namespace Rl78Sim

open Transition

variable {n m : Nat} {E F : Type}

/-! ### Messages that start and stop a node -/

/-- The message starts a node. -/
def ControlToNode.starts : ControlToNode n → Bool
  | .Start _ => true
  | _ => false

/-- The message stops a node. -/
def ControlToNode.halts : ControlToNode n → Bool
  | .ClusterStop _ => true
  | .GdbStep _ => true
  | _ => false

/-- The report is a host stop. -/
def Report.stops (r : Report) : Bool :=
  match r.msg with
  | .HostStop _ => true
  | _ => false

namespace Arbiter

/-- What an arbiter step does to the lifecycle of the nodes. -/
inductive Lifecycle (a a' : Arbiter n) (out : List (ControlToNode n)) : Prop where
  | same : a'.running = a.running → (∀ msg ∈ out, msg.starts = false ∧ msg.halts = false) →
      (∀ b, a'.gdb_step = some (.WaitInsn b) → a.gdb_step = some (.WaitInsn b)) →
      Lifecycle a a' out
  | start (c : Nat) : out = [.Start c] → a'.running = true →
      (∀ b, a'.gdb_step ≠ some (.WaitInsn b)) → Lifecycle a a' out
  | restart (reason : HostStopReason) (c : Nat) : out = [.ClusterStop reason, .Reset, .Start c] →
      a'.running = true → (∀ b, a'.gdb_step ≠ some (.WaitInsn b)) → Lifecycle a a' out
  | halt : a'.running = false → (∀ msg ∈ out, msg.starts = false) →
      (a.running = true → ∃ msg ∈ out, msg.halts = true) → Lifecycle a a' out

theorem Effect.lifecycle {a a' : Arbiter n} {act : Act n} {out : List (ControlToNode n)}
    (h : a.Effect act a' out) : Lifecycle a a' out := by
  cases h with
  | shutdown | sync_begin | stop_idle | step_unknown | unchanged =>
    exact .same rfl nofun fun _ => id
  | refuse => exact .same rfl nofun nofun
  | watch | republish =>
    exact .same rfl (by simp [ControlToNode.starts, ControlToNode.halts]) fun _ => id
  | start => exact .start _ rfl rfl nofun
  | catch_up => exact .start _ rfl rfl nofun
  | reset => exact .restart _ _ rfl rfl nofun
  | step_idle _ _ hidle =>
    exact .halt hidle (by simp [ControlToNode.starts]) (by simp [hidle])
  | start_stops | stop | step_running | host_stop | until_stop | republish_until_stop =>
    refine .halt rfl (by simp [ControlToNode.starts]) fun _ => ?_
    simp [ControlToNode.halts]

/-- The drain has found a host stop. -/
def HasStop (a : Arbiter n) : Prop :=
  ∃ changed stop gdb_insn, a.pc = .sync changed (some stop) gdb_insn

/-- A host stop that was found ends the run. -/
theorem Effect.of_hasStop {a a' : Arbiter n} {act : Act n} {out : List (ControlToNode n)}
    (h : a.Effect act a' out) (hstop : a.HasStop) : a'.running = false := by
  obtain ⟨changed, stop, gdb_insn, hpc⟩ := hstop
  cases h with
  | host_stop => rfl
  | _ => simp_all

/-- Taking a report leaves the phase alone, and what was found stays found. -/
theorem Recv.keeps {a a' : Arbiter n} {i : Fin n} {handled : Nat} {msg : ControlToArbiter}
    (h : a.Recv i handled msg a') :
    a'.gdb_step = a.gdb_step ∧ (a.HasStop → a'.HasStop) ∧
      ∀ j, a.peers j = .Stopped → a'.peers j = .Stopped := by
  have hpeers (j : Fin n) (hj : a.peers j = .Stopped) :
      Function.update a.peers i .Stopped j = .Stopped := by
    by_cases hji : j = i
    · subst hji
      exact Function.update_self _ _ _
    · rw [Function.update_of_ne hji]
      exact hj
  -- A round that holds a stop keeps it, whatever it receives.
  have hstop {changed : Bool} {cluster_stop gdb_insn : Option (StopReport n)}
      (hpc : a.pc = .sync changed cluster_stop gdb_insn) (hs : a.HasStop) :
      ∃ stop, cluster_stop = some stop := by
    obtain ⟨_, stop, _, hpc'⟩ := hs
    rw [hpc] at hpc'
    cases hpc'
    exact ⟨stop, rfl⟩
  cases h with
  | ready => exact ⟨rfl, id, fun _ => id⟩
  | time _ _ gdb_insn _ hpc =>
    refine ⟨rfl, fun hs => ?_, fun _ => id⟩
    obtain ⟨stop, rfl⟩ := hstop hpc hs
    exact ⟨true, stop, gdb_insn, rfl⟩
  | insn changed _ _ reason hpc =>
    refine ⟨rfl, fun hs => ?_, hpeers⟩
    obtain ⟨stop, rfl⟩ := hstop hpc hs
    exact ⟨changed, stop, _, rfl⟩
  | stop changed _ gdb_insn => exact ⟨rfl, fun _ => ⟨changed, _, gdb_insn, rfl⟩, hpeers⟩

/-- A host stop that is taken while no stepped board is waited for is found. -/
theorem Recv.finds {a a' : Arbiter n} {i : Fin n} {r : Report}
    (h : a.Recv i r.handled r.msg a') (hstops : r.stops = true)
    (hphase : ∀ b, a.gdb_step ≠ some (.WaitInsn b)) : a'.peers i = .Stopped ∧ a'.HasStop := by
  obtain ⟨msg, handled⟩ := r
  cases h with
  | ready => cases hstops
  | time => cases hstops
  | insn _ _ _ _ _ hgdb => exact absurd hgdb (hphase i)
  | stop changed _ gdb_insn => exact ⟨Function.update_self _ _ _, changed, _, gdb_insn, rfl⟩

end Arbiter

variable [Entity E F]

namespace Node

/-- What handling a message does to the lifecycle of a node. -/
structure TookLife (nd nd' : Node m E F) (msg : ControlToNode n) : Prop where
  starts : msg.starts = true → nd'.state = .Running ∧
    (nd.state ≠ .Running → nd'.sim.state = .Running)
  halts : msg.halts = true → nd'.state ≠ .Running
  keeps : msg.starts = false → msg.halts = false → nd'.state = nd.state
  sim : nd.state = .Running → msg.halts = false → nd'.sim.state = nd.sim.state

theorem Took.life {i : Fin n} {nd nd' : Node m E F} {msg : ControlToNode n}
    {msgs : List ControlToArbiter} (h : Took i nd msg nd' msgs) : TookLife nd nd' msg := by
  cases h with
  | start a =>
    refine ⟨fun _ => ⟨rfl, fun hs => ?_⟩, nofun, nofun, fun hs _ => ?_⟩
    · simp [started, hs]
    · simp [started, hs]
  | cluster_stop => exact ⟨nofun, nofun, nofun, nofun⟩
  | gdb_other => exact ⟨nofun, nofun, nofun, nofun⟩
  | gdb_step => exact ⟨nofun, nofun, nofun, nofun⟩
  | reset hs => exact ⟨nofun, nofun, fun _ _ => rfl, fun _ _ => rfl⟩
  | _ => exact ⟨nofun, nofun, fun _ _ => rfl, fun _ _ => rfl⟩

end Node

/-! ### The link of a board -/

/-- A start behind which nothing stops the node. -/
def LastStart (msg : ControlToNode n) (post : List (ControlToNode n)) : Prop :=
  msg.starts = true ∧ ∀ msg ∈ post, msg.halts = false

/-- A stop behind which nothing starts the node. -/
def LastStop (msg : ControlToNode n) (post : List (ControlToNode n)) : Prop :=
  msg.halts = true ∧ ∀ msg ∈ post, msg.starts = false

/-- The node will run once it handled its queue: a last start is queued, and it
    starts the node, which stands stopped or will be stopped before. -/
def StartAhead (state : NodeState) (down : List (ControlToNode n)) : Prop :=
  (state ≠ .Running ∧ Fifo.Followed LastStart down) ∨
    Fifo.Followed (fun msg post => msg.halts = true ∧ Fifo.Followed LastStart post) down

/-- The node will stand stopped once it handled its queue. -/
def StopAhead (state : NodeState) (down : List (ControlToNode n)) : Prop :=
  (state ≠ .Running ∧ ∀ msg ∈ down, msg.starts = false) ∨ Fifo.Followed LastStop down

/-- The simulator runs, or its stop is on its way or was found. -/
def Alert (i : Fin n) (a : Arbiter n) (nd : Node m E F) (up : List Report) : Prop :=
  nd.sim.state = .Running ∨ (∃ r ∈ up, r.stops = true) ∨ (a.peers i = .Stopped ∧ a.HasStop)

/-- The node runs, and nothing is queued that stops it. -/
structure Going (i : Fin n) (a : Arbiter n) (nd : Node m E F) (down : List (ControlToNode n))
    (up : List Report) : Prop where
  running : nd.state = .Running
  no_halt : ∀ msg ∈ down, msg.halts = false
  alert : Alert i a nd up

/-- The link of a board on every run: while the arbiter runs, no stepped board is
    waited for, and while it does not, the board stands stopped or will. -/
structure StandLink (_ : Fin n) (a : Arbiter n) (nd : Node m E F) (down : List (ControlToNode n))
    (_ : List Report) : Prop where
  phase : a.running = true → ∀ b, a.gdb_step ≠ some (.WaitInsn b)
  stands : a.running = false → StopAhead nd.state down

/-- The link of a board that the arbiter takes to run: it does or will. -/
def LifeLink (i : Fin n) (a : Arbiter n) (nd : Node m E F) (down : List (ControlToNode n))
    (up : List Report) : Prop :=
  a.running = true → StartAhead nd.state down ∨ Going i a nd down up

section link

variable {nd nd' : Node m E F} {i : Fin n} {a a' : Arbiter n} {msg : ControlToNode n}
  {down rest out : List (ControlToNode n)} {up : List Report} {msgs : List ControlToArbiter}
  {state : NodeState}

theorem StopAhead.append (h : StopAhead state down) (hout : ∀ msg ∈ out, msg.starts = false) :
    StopAhead state (down ++ out) := by
  rcases h with ⟨hs, hnone⟩ | hstop
  · exact .inl ⟨hs, fun msg hmsg => (List.mem_append.mp hmsg).elim (hnone msg) (hout msg)⟩
  · refine .inr (hstop.append fun x post ⟨hx, hpost⟩ => ⟨hx, fun msg hmsg => ?_⟩)
    exact (List.mem_append.mp hmsg).elim (hpost msg) (hout msg)

/-- A queue that is sent a stop. -/
theorem StopAhead.of_halt (hout : ∀ msg ∈ out, msg.starts = false)
    (hhalt : ∃ msg ∈ out, msg.halts = true) : StopAhead state (down ++ out) := by
  obtain ⟨msg, hmsg, hh⟩ := hhalt
  obtain ⟨before, behind, rfl⟩ := List.append_of_mem hmsg
  refine .inr ⟨down ++ before, msg, behind, by simp, hh, fun m hm => hout m ?_⟩
  exact List.mem_append_right _ (List.mem_cons_of_mem _ hm)

theorem StartAhead.append (h : StartAhead state down) (hout : ∀ msg ∈ out, msg.halts = false) :
    StartAhead state (down ++ out) := by
  have hlast (x) (post) (hx : LastStart x post) : LastStart x (post ++ out) :=
    ⟨hx.1, fun msg hmsg => (List.mem_append.mp hmsg).elim (hx.2 msg) (hout msg)⟩
  exact h.imp (fun ⟨hs, hstart⟩ => ⟨hs, hstart.append hlast⟩)
    fun hhalt => hhalt.append fun x post ⟨hx, hpost⟩ => ⟨hx, hpost.append hlast⟩

/-- A start that is sent to a node that will stand stopped. -/
theorem StopAhead.send_start (h : StopAhead state down) (c : Nat) :
    StartAhead state (down ++ [.Start c]) := by
  have hlast : LastStart (.Start c : ControlToNode n) [] := ⟨rfl, nofun⟩
  refine h.imp (fun ⟨hs, _⟩ => ⟨hs, .send down hlast⟩) fun hstop => hstop.append ?_
  exact fun x post hx => ⟨hx.1, .send post hlast⟩

theorem StartAhead.start_mem (h : StartAhead state down) : ∃ msg ∈ down, msg.starts = true := by
  have hlast {q : List (ControlToNode n)} (hq : Fifo.Followed LastStart q) :
      ∃ msg ∈ q, msg.starts = true := by
    obtain ⟨msg, hmsg, _, hs, -⟩ := hq.exists_mem
    exact ⟨msg, hmsg, hs⟩
  rcases h with ⟨-, hstart⟩ | ⟨pre, x, post, rfl, -, hstart⟩
  · exact hlast hstart
  · obtain ⟨msg, hmsg, hs⟩ := hlast hstart
    exact ⟨msg, List.mem_append_right _ (List.mem_cons_of_mem _ hmsg), hs⟩

/-- Handling a message before the last start, or the start itself. -/
theorem StartAhead.took (h : StartAhead nd.state (msg :: rest)) (htook : nd.Took i msg nd' msgs) :
    StartAhead nd'.state rest ∨
      (nd'.state = .Running ∧ (∀ msg ∈ rest, msg.halts = false) ∧ nd'.sim.state = .Running) := by
  have hlife := htook.life
  rcases h with ⟨hs, hstart⟩ | hhalt
  · rcases hstart.take with hrest | ⟨hmsg, hno⟩
    · cases hst : msg.starts with
      | true =>
        obtain ⟨hrun, hsim⟩ := hlife.starts hst
        have hfree : ∀ (x : ControlToNode n) post, LastStart x post →
            ∀ y ∈ x :: post, y.halts = false := by
          rintro x post ⟨hx, hpost⟩ y hy
          rcases List.mem_cons.mp hy with rfl | hy
          · cases y <;> first | rfl | cases hx
          · exact hpost y hy
        exact (hrest.split hfree).elim (fun hno => .inr ⟨hrun, hno, hsim hs⟩) fun h => .inl (.inr h)
      | false =>
        cases hh : msg.halts with
        | true => exact .inl (.inl ⟨hlife.halts hh, hrest⟩)
        | false => exact .inl (.inl ⟨by rwa [hlife.keeps hst hh], hrest⟩)
    · obtain ⟨hrun, hsim⟩ := hlife.starts hmsg
      exact .inr ⟨hrun, hno, hsim hs⟩
  · rcases hhalt.take with hrest | ⟨hh, hrest⟩
    · exact .inl (.inr hrest)
    · exact .inl (.inl ⟨hlife.halts hh, hrest⟩)

/-- Handling a message before or at the last stop. -/
theorem StopAhead.took (h : StopAhead nd.state (msg :: rest)) (htook : nd.Took i msg nd' msgs) :
    StopAhead nd'.state rest := by
  have hlife := htook.life
  rcases h with ⟨hs, hnone⟩ | hstop
  · have hst := hnone msg List.mem_cons_self
    have hrest (m) (hm : m ∈ rest) : m.starts = false := hnone m (List.mem_cons_of_mem _ hm)
    cases hh : msg.halts with
    | true => exact .inl ⟨hlife.halts hh, hrest⟩
    | false => exact .inl ⟨by rwa [hlife.keeps hst hh], hrest⟩
  · exact hstop.take.elim .inr fun ⟨hh, hrest⟩ => .inl ⟨hlife.halts hh, hrest⟩

/-- Handling a message that does not stop the node. -/
theorem Going.took (h : Going i a nd (msg :: rest) up) (htook : nd.Took i msg nd' msgs) :
    Going i a nd' rest (up ++ nd'.stamp msgs) := by
  have hlife := htook.life
  have hh := h.no_halt msg List.mem_cons_self
  have hrun : nd'.state = .Running := by
    cases hst : msg.starts with
    | true => exact (hlife.starts hst).1
    | false => rw [hlife.keeps hst hh, h.running]
  refine ⟨hrun, fun m hm => h.no_halt m (List.mem_cons_of_mem _ hm), ?_⟩
  refine h.alert.imp (fun hsim => by rw [hlife.sim h.running hh, hsim]) (.imp_left ?_)
  rintro ⟨r, hr, hstop⟩
  exact ⟨r, List.mem_append_left _ hr, hstop⟩

omit [Entity E F] in
/-- What the arbiter broadcasts to a running board while the run goes on. -/
theorem Going.append (h : Going i a nd down up) (hout : ∀ msg ∈ out, msg.halts = false)
    (hstop : ¬ a.HasStop) : Going i a' nd (down ++ out) up := by
  refine ⟨h.running, fun msg hmsg => ?_, ?_⟩
  · exact (List.mem_append.mp hmsg).elim (h.no_halt msg) (hout msg)
  · rcases h.alert with hsim | hup | ⟨-, hs⟩
    · exact .inl hsim
    · exact .inr (.inl hup)
    · exact absurd hs hstop

omit [Entity E F] in
/-- A report of the board is taken. -/
theorem Going.deliver {r : Report} {rest : List Report} (h : Going i a nd down (r :: rest))
    (hrecv : a.Recv i r.handled r.msg a') (hphase : ∀ b, a.gdb_step ≠ some (.WaitInsn b)) :
    Going i a' nd down rest := by
  refine ⟨h.running, h.no_halt, ?_⟩
  obtain ⟨-, hkeep, hpeers⟩ := hrecv.keeps
  rcases h.alert with hsim | ⟨r', hr', hs⟩ | ⟨hpeer, hs⟩
  · exact .inl hsim
  · rcases List.mem_cons.mp hr' with rfl | hr'
    · exact .inr (.inr (hrecv.finds hs hphase))
    · exact .inr (.inl ⟨r', hr', hs⟩)
  · exact .inr (.inr ⟨hpeers i hpeer, hkeep hs⟩)

omit [Entity E F] in
/-- A report of another board is taken. -/
theorem Going.deliver_other {j : Fin n} {handled : Nat} {msg : ControlToArbiter}
    (h : Going i a nd down up) (hrecv : a.Recv j handled msg a') : Going i a' nd down up := by
  obtain ⟨-, hkeep, hpeers⟩ := hrecv.keeps
  exact ⟨h.running, h.no_halt, h.alert.imp_right (.imp_right fun hs => ⟨hpeers i hs.1, hkeep hs.2⟩)⟩

/-- The link of a board that the arbiter takes to stand. -/
theorem standLink_rule (ok : Guard (Cluster n m E F) (Step n)) : LinkRule ok StandLink where
  hub s l a out i _ heff hlink := by
    have hidle {p : Prop} (hrun : a.running = true) (hr : a.running = false) : p := by
      rw [hrun] at hr
      cases hr
    cases heff.lifecycle with
    | same hrun hout hphase =>
      refine ⟨fun hr b hb => hlink.phase (hrun ▸ hr) b (hphase b hb), fun hr => ?_⟩
      exact (hlink.stands (hrun ▸ hr)).append fun msg hmsg => (hout msg hmsg).1
    | start _ _ hrun hphase => exact ⟨fun _ => hphase, hidle hrun⟩
    | restart _ _ _ hrun hphase => exact ⟨fun _ => hphase, hidle hrun⟩
    | halt hrun hout hhalt =>
      refine ⟨fun hr => hidle hr hrun, fun _ => ?_⟩
      cases hold : s.hub.running with
      | true => exact .of_halt hout (hhalt hold)
      | false => exact (hlink.stands hold).append hout
  deliver s i r rest a _ _ hrecv hlink :=
    ⟨fun hr => hrecv.keeps.1 ▸ hlink.phase (hrecv.run_eq.1 ▸ hr),
      fun hr => hlink.stands (hrecv.run_eq.1 ▸ hr)⟩
  deliver_other s i j r rest a _ _ _ hrecv hlink :=
    ⟨fun hr => hrecv.keeps.1 ▸ hlink.phase (hrecv.run_eq.1 ▸ hr),
      fun hr => hlink.stands (hrecv.run_eq.1 ▸ hr)⟩
  act s i l nd msgs _ _ hacted hlink :=
    ⟨hlink.phase, fun hr => hacted.state_eq ▸ hlink.stands hr⟩
  take s i t msg rest nd msgs _ _ _ htook hlink :=
    ⟨hlink.phase, fun hr => (hlink.stands hr).took htook⟩

theorem Initial.standLink {cfg : Config n m} {s : Cluster n m E F} (h : Initial cfg s) :
    Star.Net.All StandLink s := by
  intro i
  refine ⟨fun hr => ?_, fun _ => .inl ⟨by rw [(h.spoke i).state_eq]; decide, fun msg hmsg => ?_⟩⟩
  · rw [h.hub_eq] at hr
    cases hr
  · rw [h.down i msg hmsg]
    rfl

theorem standLink_of_reachable [LawfulEntity E] {cfg : Config n m}
    {ok : Guard (Cluster n m E F) (Step n)} {s : Cluster n m E F}
    (h : Reachable (system cfg) ok s) : Star.Net.All StandLink s :=
  (standLink_rule ok).invariant (fun _ => Initial.standLink) h

end link

/-! ### Silent stops -/

section board

variable {C Ev M : Type} [Cpu C Ev F] [Model M F] {cfg : Config n m}
  {s s' : Cluster n m (Board C Ev M F) F}

/-- The step polls a machine whose instruction period exceeds the quantum. -/
def slow_poll (s : Cluster n m (Board C Ev M F) F) : Step n → Bool
  | .spoke i (.poll fuel) =>
      (s.spoke i).polls &&
        (s.spoke i).sim.entity.period_exceeds fuel (s.spoke i).sim.max_quantum
  | _ => false

/-- No instruction period exceeds the quantum at a poll. -/
def PeriodGuard (s : Cluster n m (Board C Ev M F) F) (l : Step n) : Prop := slow_poll s l = false

instance (s : Cluster n m (Board C Ev M F) F) (l : Step n) : Decidable (PeriodGuard s l) :=
  inferInstanceAs (Decidable (slow_poll s l = false))

/-- A running simulator goes on, or its stop is published. -/
theorem Going.acted {i : Fin n} {l : Node.Act} {nd : Node m (Board C Ev M F) F}
    {msgs : List ControlToArbiter} (h : Going i s.hub (s.spoke i) (s.down i) (s.up i))
    (hok : PeriodGuard s (.spoke i l)) (hacted : (s.spoke i).Acted l nd msgs) :
    Going i s.hub nd (s.down i) (s.up i ++ nd.stamp msgs) := by
  refine ⟨hacted.state_eq.trans h.running, h.no_halt, ?_⟩
  have hold {up' : List Report} : Alert i s.hub nd (s.up i ++ up') ∨
      (s.spoke i).sim.state = .Running := by
    rcases h.alert with hsim | ⟨r, hr, hs⟩ | hfound
    · exact .inr hsim
    · exact .inl (.inr (.inl ⟨r, List.mem_append_left _ hr, hs⟩))
    · exact .inl (.inr (.inr hfound))
  refine hold.elim id fun hsim => ?_
  cases hacted with
  | quiet _ _ hquiet => exact .inl (hquiet.sim_state_eq.trans hsim)
  | polled fuel sim rsp _ _ _ _ hrun hwait hpoll hspec hrep hquiet =>
    cases hspec.outcome with
    | running hstate => exact .inl (hquiet.sim_state_eq.trans hstate)
    | stopped =>
      cases hrep with
      | stopped _ host_reason _ msgs =>
        refine .inr (.inl ⟨⟨.HostStop host_reason, nd.handled⟩, ?_, rfl⟩)
        simp [Node.stamp]
    | failed err =>
      have hslow := (Simulator.poll_error_iff hrun hpoll).mp ⟨err, rfl⟩
      have hpolls : (s.spoke i).polls = true := by simp [Node.polls, hrun, hwait]
      simp [PeriodGuard, slow_poll, hpolls, hslow] at hok

theorem lifeLink_rule :
    LinkRule (E := Board C Ev M F) (m := m)
      (fun s l => PeriodGuard s l ∧ Star.Net.All StandLink s) (LifeLink (n := n)) where
  hub s l a out i hok heff hlink := by
    have hgo (hrun : s.hub.running = true) (hr : a.running = true) : ¬ s.hub.HasStop := fun hs => by
      rw [heff.of_hasStop hs] at hr
      cases hr
    intro hr
    cases heff.lifecycle with
    | same hrun hout =>
      have hrun := hrun ▸ hr
      exact (hlink hrun).imp (·.append fun msg hmsg => (hout msg hmsg).2)
        (·.append (fun msg hmsg => (hout msg hmsg).2) (hgo hrun hr))
    | start c hout =>
      subst hout
      -- A `Start` to a running cluster changes nothing; to one at rest it comes first.
      cases hold : s.hub.running with
      | true =>
        have hno : ∀ msg ∈ ([.Start c] : List (ControlToNode n)), msg.halts = false := by
          simp [ControlToNode.halts]
        exact (hlink hold).imp (·.append hno) (·.append hno (hgo hold hr))
      | false => exact .inl (((hok.2 i).stands hold).send_start c)
    | restart reason c hout =>
      subst hout
      exact .inl (.inr (.send (s.down i) ⟨rfl, .send [ControlToNode.Reset] ⟨rfl, nofun⟩⟩))
    | halt hrun =>
      rw [hrun] at hr
      cases hr
  deliver s i r rest a hok _ hrecv hlink hr := by
    have hrun := hrecv.run_eq.1 ▸ hr
    exact (hlink hrun).imp_right (·.deliver hrecv ((hok.2 i).phase hrun))
  deliver_other s i j r rest a _ _ _ hrecv hlink hr :=
    (hlink (hrecv.run_eq.1 ▸ hr)).imp_right (·.deliver_other hrecv)
  act s i l nd msgs hok _ hacted hlink hr :=
    (hlink hr).imp (fun h => hacted.state_eq ▸ h) (·.acted hok.1 hacted)
  take s i t msg rest nd msgs _ _ _ htook hlink hr := by
    rcases hlink hr with hahead | hgoing
    · refine (hahead.took htook).imp_right ?_
      exact fun ⟨hrun, hno, hsim⟩ => ⟨hrun, hno, .inl hsim⟩
    · exact .inr (hgoing.took htook)

theorem lifeLink_of_reachable (h : Reachable (system cfg) PeriodGuard s) :
    Star.Net.All LifeLink s := by
  refine lifeLink_rule.invariant (fun s hs i hr => ?_)
    (h.strengthen fun _ => standLink_of_reachable)
  rw [hs.hub_eq] at hr
  cases hr

/-- A poll that stops the simulator publishes a host stop, unless the
    instruction period exceeds the quantum. -/
theorem Node.Polled.stop_reported_iff {nd nd' : Node m (Board C Ev M F) F} {fuel : Nat}
    {sim : Simulator (Board C Ev M F)} {rsp : Option Response} {last : Option Nat}
    {msgs : List ControlToArbiter} (h : nd.Polled fuel sim rsp last nd' msgs) :
    (nd'.sim.state = .Stopped → ∃ r ∈ nd'.stamp msgs, r.stops = true) ↔
      nd.sim.entity.period_exceeds fuel nd.sim.max_quantum = false := by
  have hstate : nd'.sim.state = sim.state := h.quiet.sim_state_eq
  have herror := Simulator.poll_error_iff h.running h.poll
  have hrep := h.reported
  cases h.spec.outcome with
  | running hrun =>
    have hslow : ¬ nd.sim.entity.period_exceeds fuel nd.sim.max_quantum = true :=
      fun hslow => by obtain ⟨err, herr⟩ := herror.mpr hslow; cases herr
    refine ⟨fun _ => by simpa using hslow, fun _ hstop => ?_⟩
    rw [hstate, hrun] at hstop
    cases hstop
  | stopped reason =>
    have hslow : ¬ nd.sim.entity.period_exceeds fuel nd.sim.max_quantum = true :=
      fun hslow => by obtain ⟨err, herr⟩ := herror.mpr hslow; cases herr
    refine ⟨fun _ => by simpa using hslow, fun _ _ => ?_⟩
    cases hrep with
    | stopped _ host_reason _ msgs =>
      exact ⟨⟨.HostStop host_reason, nd'.handled⟩, by simp [Node.stamp], rfl⟩
  -- A poll that fails stops the board, and its node reports nothing.
  | failed err hstop =>
    have hslow := herror.mp ⟨err, rfl⟩
    rw [hslow]
    refine ⟨fun hrep' => ?_, fun htrue => by cases htrue⟩
    cases hrep with
    | failed =>
      obtain ⟨r, hr, -⟩ := hrep' (hstate.trans hstop)
      cases hr

/-- At every poll of every run, a simulator that stops is reported exactly when
    the instruction period does not exceed the quantum. Without such polls, a
    board that the arbiter takes to run does run, or its stop is on its way,
    or it has not yet handled its start. -/
theorem stop_reported {C Ev M : Type} [Cpu C Ev F] [Model M F]
    {s : Cluster n m (Board C Ev M F) F} (h : Reachable (system cfg) AnyRun s) :
    (∀ i fuel s' out, (s.spoke i).polls = true →
      (system cfg).step s (.spoke i (.poll fuel)) = some s' → s'.up i = s.up i ++ out →
      (((s'.spoke i).sim.state = .Stopped → ∃ r ∈ out, r.stops = true) ↔
        (s.spoke i).sim.entity.period_exceeds fuel (s.spoke i).sim.max_quantum = false)) ∧
    (Reachable (system cfg) PeriodGuard s → ∀ i, s.hub.running = true →
      s.hub.peers i = .Running → (s.spoke i).sim.state = .Running ∨
        (∃ r ∈ s.up i, r.stops = true) ∨ ∃ msg ∈ s.down i, msg.starts = true) := by
  refine ⟨fun i fuel s' out hpolls hstep hup => ?_, fun hguard i hrun hpeer => ?_⟩
  · cases step_moved (wf_of_reachable h) hstep with
    | act _ _ _ nd msgs hact =>
      obtain ⟨sim, rsp, last, msgs', hout, hpolled⟩ := Node.act_poll_cases hpolls hact
      rw [Star.Net.move_up_self, hout] at hup
      rw [Star.Net.move_spoke_self, ← List.append_cancel_left hup]
      exact hpolled.stop_reported_iff
  · rcases lifeLink_of_reachable hguard i hrun with hahead | hgoing
    · exact .inr (.inr hahead.start_mem)
    · rcases hgoing.alert with hsim | hstop | ⟨hpeer', -⟩
      · exact .inl hsim
      · exact .inr (.inl hstop)
      · rw [hpeer] at hpeer'
        cases hpeer'

end board

/-- A chip that stops at its fifth instruction, and a plant. -/
def stop_kinds (i : Fin 2) : GuestKind := if i = 0 then .chip [] [5] else .plant 10000 false

theorem stop_reported_breakpoint :
    ∃ s s' : GuestCluster 2 0, Reachable (system (unwired 1000000 100000)) AnyRun s ∧
      (system (unwired 1000000 100000)).step s (.spoke 0 (.poll 2)) = some s' ∧
      (s'.spoke 0).sim.state = .Stopped ∧ ∃ r ∈ s'.up 0, r.stops = true := by
  obtain ⟨s, s', hs, hstep, hpolls, hfits, hup, hstop⟩ : ∃ s s' : GuestCluster 2 0,
      Reachable (system (unwired 1000000 100000)) AnyRun s ∧
      (system (unwired 1000000 100000)).step s (.spoke 0 (.poll 2)) = some s' ∧
      (s.spoke 0).polls = true ∧
      (s.spoke 0).sim.entity.period_exceeds 2 (s.spoke 0).sim.max_quantum = false ∧
      s.up 0 = [] ∧ (s'.spoke 0).sim.state = .Stopped :=
    Reachable.exists_step_of_exec (host (.Start none) :: receive 0 1 ++ running_loop 0)
      (initial_guests _ stop_kinds) (by decide +kernel)
  have hiff := (stop_reported hs).1 0 2 s' (s'.up 0) hpolls hstep (by rw [hup]; rfl)
  exact ⟨s, s', hs, hstep, hstop, hiff.mpr hfits hstop⟩

/-- A chip that selects the low-speed oscillator once it has retired 100
    instructions, and a plant. -/
def slow_kinds (i : Fin 2) : GuestKind :=
  if i = 0 then .chip [(100, .sfr 7 0x01), (100, .sfr 4 0x40)] [] else .plant 10000 false

/-- The first poll of the chip, and its loop up to the second. -/
def slow_run : List (Step 2) :=
  host (.Start none) :: receive 0 1 ++ full_loop 0 ++ running_loop 0

/-- The second poll stops the simulator, and nothing is published. -/
theorem silent_stop :
    ∃ s s' : GuestCluster 2 0, Reachable (system (unwired 1000000 100000)) AnyRun s ∧
      (system (unwired 1000000 100000)).step s (.spoke 0 (.poll 2)) = some s' ∧
      (s.spoke 0).sim.state = .Running ∧ (s'.spoke 0).sim.state = .Stopped ∧
      (s'.spoke 0).state = .Running ∧ s'.up 0 = s.up 0 ∧ s'.hub.running = true ∧
      s'.hub.peers 0 = .Running ∧ s'.down 0 = [] ∧ ∀ r ∈ s'.up 0, r.stops = false :=
  Reachable.exists_step_of_exec slow_run (initial_guests _ slow_kinds) (by decide +kernel)

end Rl78Sim
