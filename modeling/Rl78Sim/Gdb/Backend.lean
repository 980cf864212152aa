import Rl78Sim.Cluster.Guests

/-! # The Server and One Simulation

    The worker of the server publishes host commands, which the arbiter handles
    one at a time and in order, and writes requests to the inspect socket of a
    board, which its node serves one at a time and in order. A client that has
    given up waiting for its reply takes nothing back: the node serves the
    request all the same. -/

namespace Rl78Sim

open Transition

variable {n m : Nat} {E F : Type}

/-- A request on the inspect socket. The ticket tells requests apart. -/
structure Inquiry where
  cmd : InspectCommand
  ticket : Nat
  deriving DecidableEq

namespace Inquiry

/-- The request inserts a breakpoint. -/
def inserts (r : Inquiry) : Bool :=
  match r.cmd with
  | .AddBreakpoint _ => true
  | _ => false

end Inquiry

/-- A simulation as the worker has it: the cluster, the commands on their way to
    the arbiter and the requests on the socket of one board. -/
structure Backend (n m : Nat) (E F : Type) where
  net : Cluster n m E F
  commands : List (HostCommand n)
  socket : List Inquiry
  tickets : Nat

/-- What happens at the backend. -/
inductive BackendStep (n : Nat) where
  /-- A step of the cluster by itself. -/
  | net (l : Step n)
  /-- The arbiter handles the oldest command. -/
  | command
  /-- A command is published. -/
  | post (cmd : HostCommand n)
  /-- A request is written to the socket. -/
  | ask (cmd : InspectCommand)
  /-- The node serves the oldest request. -/
  | serve

/-- The step is one of the cluster alone: it takes no command of the host, and
    serves no request of the board. -/
def inner (b : Fin n) : Step n → Bool
  | .hub (.host _) => false
  | .spoke i (.inspect _) => i ≠ b
  | _ => true

namespace Backend

/-- The simulation has just started. -/
def boot (net : Cluster n m E F) : Backend n m E F := ⟨net, [], [], 0⟩

/-- A request is written to the socket. -/
def ask (s : Backend n m E F) (cmd : InspectCommand) : Backend n m E F :=
  { s with socket := s.socket ++ [⟨cmd, s.tickets⟩], tickets := s.tickets + 1 }

/-- A command is published. -/
def post (s : Backend n m E F) (cmd : HostCommand n) : Backend n m E F :=
  { s with commands := s.commands ++ [cmd] }

/-- Tickets are handed out once. -/
def Ticketed (s : Backend n m E F) : Prop :=
  s.socket.Pairwise (fun r r' => r.ticket < r'.ticket) ∧ ∀ r ∈ s.socket, r.ticket < s.tickets

theorem Ticketed.ask {s : Backend n m E F} (h : s.Ticketed) (cmd : InspectCommand) :
    (s.ask cmd).Ticketed := by
  refine ⟨?_, ?_⟩
  · refine List.pairwise_append.mpr ⟨h.1, List.pairwise_singleton _ _, ?_⟩
    intro r hr r' hr'
    rw [List.mem_singleton.mp hr']
    exact h.2 r hr
  · intro r hr
    show r.ticket < s.tickets + 1
    rcases List.mem_append.mp hr with hr | hr
    · exact Nat.lt_succ_of_lt (h.2 r hr)
    · rw [List.mem_singleton.mp hr]
      exact Nat.lt_succ_self _

variable [Entity E F]

/-- What the node answers to a request. -/
def answer (s : Backend n m E F) (b : Fin n) (r : Inquiry) : Response :=
  ((s.net.spoke b).sim.command (.Inspect r.cmd)).2

def step (cfg : Config n m) (b : Fin n) (s : Backend n m E F) :
    BackendStep n → Option (Backend n m E F)
  | .net l =>
    if inner b l then ((protocol cfg).step s.net l).map fun net => { s with net := net } else none
  | .command =>
    match s.commands with
    | [] => none
    | cmd :: rest =>
      ((protocol cfg).step s.net (host cmd)).map fun net => { s with net := net, commands := rest }
  | .post cmd => some (s.post cmd)
  | .ask cmd => some (s.ask cmd)
  | .serve =>
    match s.socket with
    | [] => none
    | r :: rest =>
      ((protocol cfg).step s.net (.spoke b (.inspect r.cmd))).map fun net =>
        { s with net := net, socket := rest }

/-- All a step can do. -/
inductive Stepped (cfg : Config n m) (b : Fin n) (s : Backend n m E F) :
    BackendStep n → Backend n m E F → Prop where
  | net (l : Step n) (net : Cluster n m E F) : inner b l = true →
      (protocol cfg).step s.net l = some net → Stepped cfg b s (.net l) { s with net := net }
  | command (cmd : HostCommand n) (rest : List (HostCommand n)) (net : Cluster n m E F) :
      s.commands = cmd :: rest → (protocol cfg).step s.net (host cmd) = some net →
      Stepped cfg b s .command { s with net := net, commands := rest }
  | post (cmd : HostCommand n) : Stepped cfg b s (.post cmd) (s.post cmd)
  | ask (cmd : InspectCommand) : Stepped cfg b s (.ask cmd) (s.ask cmd)
  | serve (r : Inquiry) (rest : List Inquiry) (net : Cluster n m E F) : s.socket = r :: rest →
      (protocol cfg).step s.net (.spoke b (.inspect r.cmd)) = some net →
      Stepped cfg b s .serve { s with net := net, socket := rest }

theorem step_cases {cfg : Config n m} {b : Fin n} {s s' : Backend n m E F} {l : BackendStep n}
    (h : s.step cfg b l = some s') : Stepped cfg b s l s' := by
  cases l with
  | net l =>
    simp only [step] at h
    split at h
    · rename_i hinner
      obtain ⟨net, hstep, rfl⟩ := Option.map_eq_some_iff.mp h
      exact .net l net hinner hstep
    · cases h
  | command =>
    simp only [step] at h
    split at h
    · cases h
    · rename_i cmd rest hcommands
      obtain ⟨net, hstep, rfl⟩ := Option.map_eq_some_iff.mp h
      exact .command cmd rest net hcommands hstep
  | post cmd =>
    cases h
    exact .post cmd
  | ask cmd =>
    cases h
    exact .ask cmd
  | serve =>
    simp only [step] at h
    split at h
    · cases h
    · rename_i r rest hsocket
      obtain ⟨net, hstep, rfl⟩ := Option.map_eq_some_iff.mp h
      exact .serve r rest net hsocket hstep

theorem serve_cases {cfg : Config n m} {b : Fin n} {s s' : Backend n m E F} {r : Inquiry}
    {rest : List Inquiry} (hsocket : s.socket = r :: rest)
    (h : s.step cfg b .serve = some s') :
    ∃ net, (protocol cfg).step s.net (.spoke b (.inspect r.cmd)) = some net ∧
      s' = { s with net := net, socket := rest } := by
  cases step_cases h with
  | serve r' rest' net hsocket' hnet =>
    rw [hsocket] at hsocket'
    cases hsocket'
    exact ⟨net, hnet, rfl⟩

theorem Stepped.ticketed {cfg : Config n m} {b : Fin n} {s s' : Backend n m E F}
    {l : BackendStep n} (h : Stepped cfg b s l s') (hs : s.Ticketed) : s'.Ticketed := by
  cases h with
  | net | command | post => exact hs
  | ask cmd => exact hs.ask cmd
  | serve r rest net hsocket =>
    unfold Ticketed at hs
    rw [hsocket] at hs
    exact ⟨(List.pairwise_cons.mp hs.1).2, fun r' hr' => hs.2 r' (List.mem_cons_of_mem _ hr')⟩

end Backend

end Rl78Sim
