import Rl78Sim.Cluster.Guests
import Rl78Sim.Cluster.RunEnds
import Rl78Sim.Cluster.StatusWire
import Rl78Sim.Gdb.Backend

/-! # The Stop Reason of a Gdb Session

    The stub continues or steps the target with a host command, waits in
    `wait_running` for a status that looks like progress, and then reports the
    reason of the first status that is not `running`. It does not see which
    command a status is an answer to. -/

namespace Rl78Sim

open Transition

variable {n m : Nat} {E F : Type}

/-! ### Statuses -/

/-- `SingleThreadStopReason`, as far as the target uses it. -/
inductive SingleThreadStopReason where
  | SwBreak
  | DoneStep
  | SIGSEGV
  | SIGINT
  deriving DecidableEq

/-- `map_status_reason`. -/
def map_status_reason : Option String → SingleThreadStopReason
  | some "breakpoint" => .SwBreak
  | some "step" => .DoneStep
  | some "unmapped" => .SIGSEGV
  | _ => .SIGINT

/-- A status that the arbiter has published. The history tells when: what the
    arbiter had handled and ended, and whether a step waited for its instruction. -/
structure Published where
  status : Arbiter.Status
  waiting : Bool
  log : RunLog
  deriving DecidableEq

/-- The status at the end of an iteration. -/
def Published.at_end (a : Arbiter n) (log : RunLog) : Published := ⟨a.status, a.waits, log⟩

/-- `status_stop_reason`. -/
def status_stop_reason (status : Arbiter.Status) : Option HostStopReason :=
  if status.running then none else status.stop_reason

/-- What `wait_running` takes for progress. -/
def progressed (before now : Arbiter.Status) : Bool :=
  now.running || now.virtual_time_ns ≠ before.virtual_time_ns ||
    now.stop_reason ≠ before.stop_reason

/-! ### The thread -/

/-- Where the thread of the stub stands. -/
inductive ResumePc where
  | idle
  /-- The command is published. -/
  | requested
  /-- `wait_running`, with the status that it has found. -/
  | wait_running (before : Arbiter.Status)
  | wait_for_stop_reason
  deriving DecidableEq

/-- A `TargetStopped` of `wait_for_stop_reason`. The last two are history: the
    reason with which the arbiter has ended the run of the latest request, if it
    has, and that the status was published after that. -/
structure TargetStopped where
  event : SingleThreadStopReason
  reason : HostStopReason
  ended : Option HostStopReason
  fresh : Bool
  deriving DecidableEq

/-- The thread of the stub and the simulation. `reported` is the status that the
    arbiter has published last, `view` the one that the worker has taken last.
    `posted` counts the commands of the stub. -/
structure GdbTarget (n m : Nat) (E F : Type) where
  backend : Backend n m E F
  statuses : List Published
  reported : Arbiter.Status
  view : Published
  pc : ResumePc
  posted : Nat
  log : RunLog
  stops : List TargetStopped

inductive TargetStep (n : Nat) where
  /-- A step of a node, of the arbiter within an iteration, or an inspection. -/
  | other (l : BackendStep n)
  /-- The arbiter handles the oldest command. -/
  | command
  /-- The arbiter ends an iteration. The last status may be old by then. -/
  | finish (due : Bool)
  /-- The worker takes the oldest status. -/
  | take_status
  /-- The queue of statuses is full and drops the oldest. -/
  | drop_status
  | resume
  | step
  /-- `wait_running` starts. -/
  | wait_running
  /-- It looks at the status. -/
  | poll
  /-- It has waited long enough. -/
  | deadline
  /-- `wait_for_stop_reason` looks at the status. -/
  | wait_for_stop_reason
  /-- A byte from the client, or an error. -/
  | leave

/-- Steps that neither publish nor handle a command, nor end an iteration. -/
def silent : BackendStep n → Bool
  | .net (.hub .sync_finish) => false
  | .net _ => true
  | .ask _ => true
  | .serve => true
  | _ => false

namespace GdbTarget

/-- The reason with which the arbiter has ended the run of the latest request. -/
def ended (s : GdbTarget n m E F) : Option HostStopReason :=
  if s.log.handled = s.posted then s.log.ended else none

/-- The status that the worker has was published after that. -/
def fresh (s : GdbTarget n m E F) : Bool :=
  s.view.log.handled = s.posted && s.view.log.ended.isSome

/-- A command is published. -/
def post (s : GdbTarget n m E F) (cmd : HostCommand n) : GdbTarget n m E F :=
  { s with backend := s.backend.post cmd, posted := s.posted + 1, pc := .requested }

/-- The event of `wait_for_stop_reason`. -/
def report (s : GdbTarget n m E F) (reason : HostStopReason) : GdbTarget n m E F :=
  let stop : TargetStopped :=
    ⟨map_status_reason (some reason.as_str), reason, s.ended, s.fresh⟩
  { s with stops := s.stops ++ [stop], pc := .idle }

/-- The end of an iteration: what is published, if anything is. -/
def publish (s : GdbTarget n m E F) (due : Bool) : GdbTarget n m E F :=
  let a := s.backend.net.hub
  if a.status ≠ s.reported ∨ due then
    { s with statuses := s.statuses ++ [.at_end a s.log], reported := a.status }
  else s

variable [Entity E F]

def next (cfg : Config n m) (b : Fin n) (s : GdbTarget n m E F) :
    TargetStep n → Option (GdbTarget n m E F)
  | .other l =>
    if silent l then (s.backend.step cfg b l).map fun backend => { s with backend := backend }
    else none
  | .command => (s.backend.step cfg b .command).map fun backend =>
      { s with backend := backend, log := s.log.opened }
  | .finish due => (s.backend.step cfg b (.net (.hub .sync_finish))).map fun backend =>
      let log := s.log.synced s.backend.net.hub.sync_step
      publish { s with backend := backend, log := log } due
  | .take_status =>
    match s.statuses with
    | [] => none
    | status :: rest => some { s with view := status, statuses := rest }
  | .drop_status =>
    match s.statuses with
    | [] => none
    | _ :: rest => some { s with statuses := rest }
  | .resume => if s.pc = .idle then some (s.post (.Start none)) else none
  | .step => if s.pc = .idle then some (s.post (.Step (some b))) else none
  | .wait_running =>
    if s.pc = .requested then some { s with pc := .wait_running s.view.status } else none
  | .poll =>
    match s.pc with
    | .wait_running before =>
      -- The loop sleeps and looks again until the view has moved.
      if progressed before s.view.status then some { s with pc := .wait_for_stop_reason }
      else some s
    | _ => none
  | .deadline =>
    match s.pc with
    | .wait_running _ => some { s with pc := .wait_for_stop_reason }
    | _ => none
  | .wait_for_stop_reason =>
    if s.pc = .wait_for_stop_reason then
      match status_stop_reason s.view.status with
      | some reason => some (s.report reason)
      | none => some s
    else none
  | .leave => if s.pc = .idle then none else some { s with pc := .idle }

/-- All a step can do. -/
inductive Moved (cfg : Config n m) (b : Fin n) (s : GdbTarget n m E F) :
    TargetStep n → GdbTarget n m E F → Prop where
  | other (l : BackendStep n) (backend : Backend n m E F) : silent l = true →
      Backend.Stepped cfg b s.backend l backend →
      Moved cfg b s (.other l) { s with backend := backend }
  | command (cmd : HostCommand n) (rest : List (HostCommand n)) (net : Cluster n m E F) :
      s.backend.commands = cmd :: rest → (protocol cfg).step s.backend.net (host cmd) = some net →
      Moved cfg b s .command { s with
        backend := { s.backend with net := net, commands := rest }, log := s.log.opened }
  | finish (due : Bool) (net : Cluster n m E F) :
      (protocol cfg).step s.backend.net (.hub .sync_finish) = some net →
      Moved cfg b s (.finish due) (publish { s with
        backend := { s.backend with net := net }
        log := s.log.synced s.backend.net.hub.sync_step } due)
  | take_status (status : Published) (rest : List Published) : s.statuses = status :: rest →
      Moved cfg b s .take_status { s with view := status, statuses := rest }
  | drop_status (status : Published) (rest : List Published) : s.statuses = status :: rest →
      Moved cfg b s .drop_status { s with statuses := rest }
  | post (l : TargetStep n) (cmd : HostCommand n) : l = .resume ∨ l = .step →
      cmd = .Start none ∨ cmd = .Step (some b) → Moved cfg b s l (s.post cmd)
  | wait (l : TargetStep n) (pc : ResumePc) :
      l = .wait_running ∨ l = .poll ∨ l = .deadline ∨ l = .leave →
      pc = .idle ∨ s.pc ≠ .idle → Moved cfg b s l { s with pc := pc }
  | report (reason : HostStopReason) : s.pc = .wait_for_stop_reason →
      status_stop_reason s.view.status = some reason →
      Moved cfg b s .wait_for_stop_reason (s.report reason)
  | silent : status_stop_reason s.view.status = none → Moved cfg b s .wait_for_stop_reason s

theorem next_cases {cfg : Config n m} {b : Fin n} {s s' : GdbTarget n m E F} {l : TargetStep n}
    (h : s.next cfg b l = some s') : Moved cfg b s l s' := by
  cases l with
  | other l =>
    simp only [next] at h
    split at h
    · rename_i hsilent
      obtain ⟨backend, hstep, rfl⟩ := Option.map_eq_some_iff.mp h
      exact .other l backend hsilent (Backend.step_cases hstep)
    · cases h
  | command =>
    obtain ⟨backend, hstep, rfl⟩ := Option.map_eq_some_iff.mp h
    cases Backend.step_cases hstep with
    | command cmd rest net hcommands hnet => exact .command cmd rest net hcommands hnet
  | finish due =>
    obtain ⟨backend, hstep, rfl⟩ := Option.map_eq_some_iff.mp h
    cases Backend.step_cases hstep with
    | net l net _ hnet => exact .finish due net hnet
  | take_status =>
    simp only [next] at h
    split at h <;> cases h
    rename_i status rest hstatuses
    exact .take_status status rest hstatuses
  | drop_status =>
    simp only [next] at h
    split at h <;> cases h
    rename_i status rest hstatuses
    exact .drop_status status rest hstatuses
  | resume =>
    simp only [next] at h
    split at h <;> cases h
    exact .post _ _ (.inl rfl) (.inl rfl)
  | step =>
    simp only [next] at h
    split at h <;> cases h
    exact .post _ _ (.inr rfl) (.inr rfl)
  | wait_running =>
    simp only [next] at h
    split at h <;> cases h
    rename_i hpc
    exact .wait _ _ (.inl rfl) (.inr (by rw [hpc]; nofun))
  | poll =>
    simp only [next] at h
    split at h
    · rename_i before hpc
      have hbusy : s.pc ≠ .idle := by
        rw [hpc]
        nofun
      split at h <;> cases h
      · exact .wait _ _ (.inr (.inl rfl)) (.inr hbusy)
      · exact .wait _ s.pc (.inr (.inl rfl)) (.inr hbusy)
    · cases h
  | deadline =>
    simp only [next] at h
    split at h <;> cases h
    rename_i before hpc
    exact .wait _ _ (.inr (.inr (.inl rfl))) (.inr (by rw [hpc]; nofun))
  | wait_for_stop_reason =>
    simp only [next] at h
    split at h
    · rename_i hpc
      split at h <;> cases h
      · rename_i reason hreason
        exact .report reason hpc hreason
      · rename_i hreason
        exact .silent hreason
    · cases h
  | leave =>
    simp only [next] at h
    split at h <;> cases h
    exact .wait _ _ (.inr (.inr (.inr rfl))) (.inl rfl)

end GdbTarget

/-! ### Statuses and the run that they speak of -/

namespace Published

/-- A status and the history with which it was published. -/
structure Sound (p : Published) : Prop where
  standing : 0 < p.log.handled → p.status.running = false → p.waiting = false →
    p.log.ended.isSome = true
  ended : ∀ reason, p.log.ended = some reason → p.status.running = false ∧ p.waiting = false ∧
    (p.log.replaced = false ↔ p.status.stop_reason = some reason)

theorem sound_at_end {a : Arbiter n} {log : RunLog} (h : a.Logged log) : (at_end a log).Sound where
  standing hpos hrun hwait := by
    have hrun : a.running = false := hrun
    have hwait : a.waits = false := hwait
    by_contra hnone
    have hnone : log.ended = none := Option.not_isSome_iff_eq_none.mp hnone
    rcases h.going hpos hnone with hgoing | hwaiting
    · rw [hrun] at hgoing
      cases hgoing
    · rw [hwait] at hwaiting
      cases hwaiting
  ended reason hended := by
    obtain ⟨hrun, hgdb, hreplaced⟩ := h.ended reason hended
    refine ⟨hrun, ?_, ?_⟩
    · show a.waits = false
      unfold Arbiter.waits
      rw [hgdb]
    · show log.replaced = false ↔ (if a.running then none else a.last_stop_reason) = some reason
      rw [if_neg (by simp [hrun])]
      exact hreplaced

/-- The status is no younger than the history, and what it knows of the run of
    the latest request is still so. -/
structure Dated (p : Published) (log : RunLog) : Prop where
  sound : p.Sound
  handled : p.log.handled ≤ log.handled
  ended : p.log.handled = log.handled → ∀ reason, p.log.ended = some reason →
    log.ended = some reason

theorem Dated.opened {p : Published} {log : RunLog} (h : p.Dated log) : p.Dated log.opened where
  sound := h.sound
  handled := Nat.le_succ_of_le h.handled
  ended heq := by
    have hle := h.handled
    have heq : p.log.handled = log.handled + 1 := heq
    omega

theorem Dated.synced {p : Published} {log : RunLog} (h : p.Dated log)
    (result : Option HostStopReason) : p.Dated (log.synced result) where
  sound := h.sound
  handled := by
    rw [log.synced_handled]
    exact h.handled
  ended heq reason hreason := by
    rw [log.synced_handled] at heq
    exact RunLog.synced_ended (h.ended heq reason hreason) result

end Published

/-- What holds of every run of the stub. -/
structure Targeted (b : Fin n) (s : GdbTarget n m E F) : Prop where
  logged : s.backend.net.hub.Logged s.log
  commands : ∀ cmd ∈ s.backend.commands, cmd = .Start none ∨ cmd = .Step (some b)
  count : s.posted = s.log.handled + s.backend.commands.length
  busy : s.pc ≠ .idle → 0 < s.posted
  view : s.view.Dated s.log
  statuses : ∀ p ∈ s.statuses, p.Dated s.log

namespace Targeted

variable [Entity E F] {cfg : Config n m} {b : Fin n} {s s' : GdbTarget n m E F} {l : TargetStep n}

/-- The cluster has moved by itself, and the arbiter has ended no iteration. -/
theorem logged_net {net net' : Cluster n m E F} {log : RunLog} {l : Step n}
    (h : net.hub.Logged log) (hinner : inner b l = true) (hfinish : l ≠ .hub .sync_finish)
    (hstep : (protocol cfg).step net l = some net') : net'.hub.Logged log := by
  rcases Star.Protocol.step_cases hstep with ⟨a, hub, out, rfl, hact, rfl⟩ |
    ⟨i, msg, rest, hub, rfl, -, htake, rfl⟩ | ⟨i, a, env, nd, out, rfl, -, rfl⟩ |
    ⟨i, a, msg, rest, env, nd, out, rfl, -, -, rfl⟩
  · refine h.other ?_ ?_ hact
    · rintro cmd rfl
      cases hinner
    · rintro rfl
      exact hfinish rfl
  · exact h.recv htake
  · exact h
  · exact h

theorem of_other (h : Targeted b s) {l : BackendStep n} {backend : Backend n m E F}
    (hsilent : silent l = true) (hstep : Backend.Stepped cfg b s.backend l backend) :
    Targeted b { s with backend := backend } := by
  have hsame : backend.commands = s.backend.commands ∧ backend.net.hub.Logged s.log := by
    cases hstep with
    | net l net hinner hnet =>
      refine ⟨rfl, logged_net h.logged hinner ?_ hnet⟩
      rintro rfl
      cases hsilent
    | command | post => cases hsilent
    | ask => exact ⟨rfl, h.logged⟩
    | serve r rest net _ hnet =>
      refine ⟨rfl, ?_⟩
      obtain ⟨⟨env, nd, out⟩, -, rfl⟩ := Option.map_eq_some_iff.mp hnet
      exact h.logged
  refine ⟨hsame.2, ?_, ?_, h.busy, h.view, h.statuses⟩
  · rw [hsame.1]
    exact h.commands
  · rw [hsame.1]
    exact h.count

theorem of_command (h : Targeted b s) {cmd : HostCommand n} {rest : List (HostCommand n)}
    {net : Cluster n m E F} (hcommands : s.backend.commands = cmd :: rest)
    (hnet : (protocol cfg).step s.backend.net (host cmd) = some net) :
    Targeted b { s with
      backend := { s.backend with net := net, commands := rest }, log := s.log.opened } := by
  have hall := h.commands
  have hcount := h.count
  rw [hcommands] at hall hcount
  obtain ⟨⟨hub, out⟩, hact, rfl⟩ := Option.map_eq_some_iff.mp hnet
  refine ⟨?_, fun c hc => hall c (List.mem_cons_of_mem _ hc), ?_, h.busy, h.view.opened, ?_⟩
  · refine h.logged.command ?_ hact
    rcases hall cmd List.mem_cons_self with hstart | hstep
    · exact .inl hstart
    · exact .inr ⟨b, hstep⟩
  · show s.posted = s.log.handled + 1 + rest.length
    rw [hcount, List.length_cons]
    omega
  · intro p hp
    exact (h.statuses p hp).opened

theorem of_finish (h : Targeted b s) {due : Bool} {net : Cluster n m E F}
    (hnet : (protocol cfg).step s.backend.net (.hub .sync_finish) = some net) :
    Targeted b (GdbTarget.publish { s with
      backend := { s.backend with net := net }
      log := s.log.synced s.backend.net.hub.sync_step } due) := by
  obtain ⟨⟨hub, out⟩, hact, rfl⟩ := Option.map_eq_some_iff.mp hnet
  have hlogged := h.logged.finish hact
  have hcount : s.posted = (s.log.synced s.backend.net.hub.sync_step).handled +
      s.backend.commands.length := by
    rw [s.log.synced_handled]
    exact h.count
  have hold : ∀ p ∈ s.statuses, p.Dated (s.log.synced s.backend.net.hub.sync_step) :=
    fun p hp => (h.statuses p hp).synced _
  unfold GdbTarget.publish
  dsimp only
  split
  · refine ⟨hlogged, h.commands, hcount, h.busy, h.view.synced _, ?_⟩
    intro p hp
    rcases List.mem_append.mp hp with hp | hp
    · exact hold p hp
    · rw [List.mem_singleton.mp hp]
      exact ⟨Published.sound_at_end hlogged, Nat.le_refl _, fun _ _ hended => hended⟩
  · exact ⟨hlogged, h.commands, hcount, h.busy, h.view.synced _, hold⟩

theorem moved (h : Targeted b s) (hm : GdbTarget.Moved cfg b s l s') : Targeted b s' := by
  cases hm with
  | other l backend hsilent hstep => exact h.of_other hsilent hstep
  | command cmd rest net hcommands hnet => exact h.of_command hcommands hnet
  | finish due net hnet => exact h.of_finish hnet
  | take_status status rest hstatuses =>
    -- The status taken becomes the view, the rest stays queued.
    have hall := h.statuses
    rw [hstatuses] at hall
    refine ⟨h.logged, h.commands, h.count, h.busy, hall status List.mem_cons_self, ?_⟩
    exact fun p hp => hall p (List.mem_cons_of_mem _ hp)
  | drop_status status rest hstatuses =>
    have hall := h.statuses
    rw [hstatuses] at hall
    refine ⟨h.logged, h.commands, h.count, h.busy, h.view, ?_⟩
    exact fun p hp => hall p (List.mem_cons_of_mem _ hp)
  | post l cmd _ hcmd =>
    refine ⟨h.logged, ?_, ?_, fun _ => Nat.succ_pos _, h.view, h.statuses⟩
    · intro c hc
      rcases List.mem_append.mp hc with hc | hc
      · exact h.commands c hc
      · rw [List.mem_singleton.mp hc]
        exact hcmd
    -- A command posted is counted once, in the queue.
    · show s.posted + 1 = s.log.handled + (s.backend.commands ++ [cmd]).length
      rw [h.count, List.length_append, List.length_singleton]
      omega
  | wait l pc _ hpc =>
    refine ⟨h.logged, h.commands, h.count, ?_, h.view, h.statuses⟩
    intro hbusy
    rcases hpc with hidle | hpc
    · exact absurd hidle hbusy
    · exact h.busy hpc
  | report reason =>
    exact ⟨h.logged, h.commands, h.count, nofun, h.view, h.statuses⟩
  | silent => exact h

end Targeted

/-! ### Reports -/

/-- The reported reason is the one with which the arbiter has ended the run of the
    latest request, and comes from a status that was published after that. -/
def TargetStopped.Current (stop : TargetStopped) : Prop :=
  stop.ended = some stop.reason ∧ stop.fresh = true

/-- All reports so far are current. -/
def AllCurrent (s : GdbTarget n m E F) : Prop := ∀ stop ∈ s.stops, stop.Current

/-- The status that `wait_for_stop_reason` reports was published after the arbiter
    had handled the command of the latest request, not while a step waited for its
    instruction, and before another stop replaced the reason. -/
def RepliesTo (s : GdbTarget n m E F) : TargetStep n → Prop
  | .wait_for_stop_reason => (status_stop_reason s.view.status).isSome = true →
      s.view.log.handled = s.posted ∧ s.view.waiting = false ∧ s.view.log.replaced = false
  | _ => True

theorem status_stop_reason_some {status : Arbiter.Status} {reason : HostStopReason} :
    status_stop_reason status = some reason ↔
      status.running = false ∧ status.stop_reason = some reason := by
  unfold status_stop_reason
  cases status.running <;> simp

/-- The report is current exactly if the status answers the latest request. -/
theorem Targeted.current_iff {b : Fin n} {s : GdbTarget n m E F} (h : Targeted b s)
    {reason : HostStopReason} (hpc : s.pc = .wait_for_stop_reason)
    (hreason : status_stop_reason s.view.status = some reason) :
    (s.ended = some reason ∧ s.fresh = true) ↔ RepliesTo s .wait_for_stop_reason := by
  have hpos : 0 < s.posted := h.busy (by rw [hpc]; nofun)
  obtain ⟨hrun, hstop⟩ := status_stop_reason_some.mp hreason
  have hsome : (status_stop_reason s.view.status).isSome = true := by
    rw [hreason]
    rfl
  have hanswers : RepliesTo s .wait_for_stop_reason ↔
      s.view.log.handled = s.posted ∧ s.view.waiting = false ∧ s.view.log.replaced = false :=
    ⟨fun hanswers => hanswers hsome, fun hall _ => hall⟩
  -- If the status knows of the latest command, there is none on its way.
  have hcount := h.count
  have hle := h.view.handled
  rw [hanswers]
  constructor
  · rintro ⟨hended, hfresh⟩
    obtain ⟨hposted, hdone⟩ := Bool.and_eq_true_iff.mp hfresh
    have hposted : s.view.log.handled = s.posted := of_decide_eq_true hposted
    obtain ⟨first, hfirst⟩ := Option.isSome_iff_exists.mp hdone
    obtain ⟨-, hwait, hreplaced⟩ := h.view.sound.ended first hfirst
    have hhandled : s.log.handled = s.posted := by omega
    have hlog := h.view.ended (hposted.trans hhandled.symm) first hfirst
    unfold GdbTarget.ended at hended
    rw [if_pos hhandled, hlog] at hended
    cases hended
    exact ⟨hposted, hwait, hreplaced.mpr hstop⟩
  · rintro ⟨hposted, hwait, hreplaced⟩
    have hhandled : s.log.handled = s.posted := by omega
    have hdone := h.view.sound.standing (by omega) hrun hwait
    obtain ⟨first, hfirst⟩ := Option.isSome_iff_exists.mp hdone
    have hlog := h.view.ended (hposted.trans hhandled.symm) first hfirst
    have hsame := ((h.view.sound.ended first hfirst).2.2.mp hreplaced).symm.trans hstop
    cases hsame
    refine ⟨?_, ?_⟩
    · unfold GdbTarget.ended
      rw [if_pos hhandled]
      exact hlog
    · unfold GdbTarget.fresh
      rw [hdone, Bool.and_true]
      exact decide_eq_true hposted

section Runs

variable [Entity E F]

/-- All runs of the stub of board `b`, from a new simulation. The arbiter has
    published its first status. -/
def target_runs (E F : Type) [Entity E F] (cfg : Config n m) (b : Fin n) :
    System (GdbTarget n m E F) (TargetStep n) where
  init s := ∃ net, Initial cfg net ∧ s =
    { backend := Backend.boot net
      statuses := [.at_end net.hub RunLog.new]
      reported := net.hub.status
      view := ⟨⟨false, 0, none⟩, false, RunLog.new⟩
      pc := .idle
      posted := 0
      log := RunLog.new
      stops := [] }
  step s := s.next cfg b

def AnyTarget (_ : GdbTarget n m E F) (_ : TargetStep n) : Prop := True

variable {cfg : Config n m} {b : Fin n} {s s' : GdbTarget n m E F} {l : TargetStep n}

theorem targeted_of_reachable {ok : Guard (GdbTarget n m E F) (TargetStep n)}
    (h : Reachable (target_runs E F cfg b) ok s) : Targeted b s := by
  induction h with
  | init hinit =>
    obtain ⟨net, hnet, rfl⟩ := hinit
    have hlogged : net.hub.Logged RunLog.new := by
      rw [hnet.hub_eq]
      exact Arbiter.logged_new cfg.margin_ns
    refine ⟨hlogged, nofun, rfl, fun hbusy => absurd rfl hbusy, ?_, ?_⟩
    · exact ⟨⟨nofun, nofun⟩, Nat.le_refl _, fun _ _ h => h⟩
    · intro p hp
      rw [List.mem_singleton.mp hp]
      exact ⟨Published.sound_at_end hlogged, Nat.le_refl _, fun _ _ h => h⟩
  | step _ _ _ hstep ih => exact ih.moved (GdbTarget.next_cases hstep)

/-- A step adds at most one report. -/
theorem Targeted.all_current_iff (h : Targeted b s) (hm : GdbTarget.Moved cfg b s l s') :
    AllCurrent s' ↔ AllCurrent s ∧ RepliesTo s l := by
  have hkeep (hstops : s'.stops = s.stops) (hanswers : RepliesTo s l) :
      AllCurrent s' ↔ AllCurrent s ∧ RepliesTo s l := by
    unfold AllCurrent
    rw [hstops]
    exact ⟨fun hall => ⟨hall, hanswers⟩, And.left⟩
  cases hm with
  | other | command | take_status | drop_status => exact hkeep rfl trivial
  | finish due =>
    refine hkeep ?_ trivial
    unfold GdbTarget.publish
    dsimp only
    split <;> rfl
  | post l cmd hl =>
    refine hkeep rfl ?_
    rcases hl with rfl | rfl <;> trivial
  | wait l pc hl =>
    refine hkeep rfl ?_
    rcases hl with rfl | rfl | rfl | rfl <;> trivial
  | silent hnone =>
    refine hkeep rfl ?_
    intro hsome
    rw [hnone] at hsome
    cases hsome
  | report reason hpc hreason =>
    -- The stop reported is the last of the list.
    rw [← h.current_iff hpc hreason]
    constructor
    · intro hall
      refine ⟨fun stop hstop => hall stop (List.mem_append_left _ hstop), ?_⟩
      exact hall _ (List.mem_append_right _ (List.mem_singleton_self _))
    · rintro ⟨hall, hcurrent⟩ stop hstop
      rcases List.mem_append.mp hstop with hstop | hstop
      · exact hall stop hstop
      · rw [List.mem_singleton.mp hstop]
        exact hcurrent

/-- Every reason that the stub reports is the one with which the arbiter ended the
    run of the latest resume or step, exactly in the runs in which every status
    that it reports answers that request. -/
theorem stop_reason_belongs (h : Reachable (target_runs E F cfg b) AnyTarget s) :
    AllCurrent s ↔ Reachable (target_runs E F cfg b) RepliesTo s := by
  constructor
  · intro hall
    induction h with
    | init hinit => exact .init hinit
    | step l hreach _ hstep ih =>
      have hiff := (targeted_of_reachable hreach).all_current_iff (GdbTarget.next_cases hstep)
      obtain ⟨hbefore, hanswers⟩ := hiff.mp hall
      exact .step l (ih hbefore) hanswers hstep
  · intro hreach
    induction hreach with
    | init hinit =>
      obtain ⟨net, -, rfl⟩ := hinit
      exact nofun
    | step l hreach hanswers hstep ih =>
      have hiff := (targeted_of_reachable hreach).all_current_iff (GdbTarget.next_cases hstep)
      exact hiff.mpr ⟨ih (hreach.mono fun _ _ _ => trivial), hanswers⟩

end Runs

/-! ### A breakpoint and a step -/

/-- A cluster of one board. -/
def one_board : Config 1 0 := ⟨1000000, 100000, nofun, Nat.one_pos, nofun⟩

/-- The stub of a chip that stops after three instructions. -/
def fresh_target : GdbTarget 1 0 Guest Nat :=
  let net := guests one_board fun _ => .chip [] [3]
  { backend := Backend.boot net
    statuses := [.at_end net.hub RunLog.new]
    reported := net.hub.status
    view := ⟨⟨false, 0, none⟩, false, RunLog.new⟩
    pc := .idle
    posted := 0
    log := RunLog.new
    stops := [] }

theorem init_fresh_target : (target_runs Guest Nat one_board 0).init fresh_target :=
  ⟨_, initial_guests _ _, rfl⟩

instance (s : GdbTarget 1 0 Guest Nat) (l : TargetStep 1) : Decidable (AnyTarget s l) :=
  .isTrue trivial

/-- Steps of the cluster. -/
def alone (steps : List (Step 1)) : List (TargetStep 1) := steps.map fun l => .other (.net l)

/-- The client continues, and the chip comes to the breakpoint. -/
def continued_to_stop : List (TargetStep 1) :=
  [.resume, .wait_running, .command] ++ alone [.hub .sync_begin] ++
    [.finish false, .take_status, .take_status, .poll] ++ alone (receive 0 1 ++ poll_loop 0) ++
    alone [.hub .sync_begin, .deliver 0] ++ [.finish false, .take_status, .wait_for_stop_reason]

/-- It steps, and the arbiter takes the time report of the instruction and ends
    the iteration before the stop report has come. -/
def step_outstanding : List (TargetStep 1) :=
  [.step, .wait_running, .command] ++ alone (.spoke 0 .pump_tx :: receive 0 2) ++
    alone [.hub .sync_begin, .deliver 0] ++
    [.finish false, .take_status, .poll, .wait_for_stop_reason]

/-- The breakpoint is reported for the continue that came to it. -/
theorem stop_reason_belongs_breakpoint :
    ∃ s, Reachable (target_runs Guest Nat one_board 0) RepliesTo s ∧
      s.stops = [⟨.SwBreak, .Breakpoint, some .Breakpoint, true⟩] := by
  obtain ⟨s, hs, hstops⟩ : ∃ s, Reachable (target_runs Guest Nat one_board 0) AnyTarget s ∧
      s.stops = [⟨.SwBreak, .Breakpoint, some .Breakpoint, true⟩] :=
    Reachable.exists_of_exec continued_to_stop init_fresh_target (by decide +kernel)
  refine ⟨s, (stop_reason_belongs hs).mp ?_, hstops⟩
  intro stop hstop
  rw [hstops, List.mem_singleton] at hstop
  subst hstop
  exact ⟨rfl, rfl⟩

/-- It is reported again for the step, which the arbiter has not ended. -/
theorem stop_reason_left_over :
    ∃ s, Reachable (target_runs Guest Nat one_board 0) AnyTarget s ∧ s.log.handled = s.posted ∧
      s.backend.net.hub.gdb_step = some (.WaitInsn 0) ∧ s.log.ended = none ∧
      s.stops = [⟨.SwBreak, .Breakpoint, some .Breakpoint, true⟩,
        ⟨.SwBreak, .Breakpoint, none, false⟩] :=
  Reachable.exists_of_exec (continued_to_stop ++ step_outstanding) init_fresh_target
    (by decide +kernel)

end Rl78Sim
