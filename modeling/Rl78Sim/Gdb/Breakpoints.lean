import Rl78Sim.Gdb.Store

/-! # Breakpoints of a Gdb Session

    The thread of the stub accepts one connection at a time. It clears the
    breakpoints of the board when a session begins and when it has ended, and
    takes no notice of how that goes. The simulator refuses the request while it
    runs, so a client that leaves a running guest leaves its breakpoints behind.

    What the protocol engine makes of the bytes of the client is left open: it
    may call the target in any order, and the client may go at any moment. -/

namespace Rl78Sim

open Transition

variable {n m : Nat} {E F : Type}

/-- Where the thread of `gdb_accept_loop` stands. A ticket is that of the request
    that it has written, and waits for a reply to. -/
inductive GdbPc where
  /-- `listener.accept`. -/
  | accepting
  /-- `clear_session_breakpoints`, before the session or (`last`) after it. -/
  | clearing (last : Bool) (ticket : Option Nat)
  /-- `run_blocking`. -/
  | serving (ticket : Option Nat)
  deriving DecidableEq

/-- The request under way. -/
def GdbPc.ticket : GdbPc → Option Nat
  | .accepting => none
  | .clearing _ ticket => ticket
  | .serving ticket => ticket

/-- The thread of `gdb_accept_loop` and the simulation. `inserts` is a history
    variable: the session in progress has inserted a breakpoint. -/
structure GdbThread (n m : Nat) (E F : Type) where
  backend : Backend n m E F
  pc : GdbPc
  connected : Bool
  inserts : Bool

inductive StubStep (n : Nat) where
  /-- A step of the simulation, or of another client of the server. -/
  | other (l : BackendStep n)
  /-- The node serves the oldest request. -/
  | serve
  | connect
  /-- `clear_session_breakpoints` writes its request. -/
  | clear
  /-- The target is asked for or told memory, registers or breakpoints. -/
  | request (cmd : InspectCommand)
  | resume
  | step
  | on_interrupt
  /-- The call of the backend fails, or it waits no longer for the reply. -/
  | give_up
  /-- `run_blocking` ends. -/
  | disconnect

/-- What other clients ask of the board: attaching and detaching clear its
    breakpoints. -/
def foreign : BackendStep n → Bool
  | .serve => false
  | .ask cmd => cmd = .ClearBreakpoints
  | _ => true

namespace GdbThread

/-- The call of the backend has returned. -/
def returned (s : GdbThread n m E F) : GdbThread n m E F :=
  match s.pc with
  | .accepting => s
  | .clearing false _ => { s with pc := .serving none }
  | .clearing true _ => { s with pc := .accepting, inserts := false }
  | .serving _ => { s with pc := .serving none }

/-- A request is written. -/
def ask (s : GdbThread n m E F) (cmd : InspectCommand) (pc : Option Nat → GdbPc) :
    GdbThread n m E F :=
  { s with backend := s.backend.ask cmd, pc := pc (some s.backend.tickets) }

/-- A command is published for the target. -/
def post (s : GdbThread n m E F) (cmd : HostCommand n) : Option (GdbThread n m E F) :=
  match s.pc with
  | .serving none => some { s with backend := s.backend.post cmd }
  | _ => none

section Steps

variable [Entity E F]

def next (cfg : Config n m) (b : Fin n) (s : GdbThread n m E F) :
    StubStep n → Option (GdbThread n m E F)
  | .other l =>
    if foreign l then (s.backend.step cfg b l).map fun backend => { s with backend := backend }
    else none
  | .serve =>
    match s.backend.socket with
    | [] => none
    | r :: _ => (s.backend.step cfg b .serve).map fun backend =>
        if s.pc.ticket = some r.ticket then returned { s with backend := backend }
        else { s with backend := backend }
  | .connect =>
    match s.pc with
    | .accepting => some { s with pc := .clearing false none, connected := true }
    | _ => none
  | .clear =>
    match s.pc with
    | .clearing last none => some (s.ask .ClearBreakpoints (.clearing last))
    | _ => none
  | .request cmd =>
    match s.pc with
    | .serving none => some { s.ask cmd .serving with
        inserts := s.inserts || Inquiry.inserts ⟨cmd, s.backend.tickets⟩ }
    | _ => none
  | .resume => s.post (.Start none)
  | .step => s.post (.Step (some b))
  | .on_interrupt => s.post .Stop
  | .give_up =>
    match s.pc with
    | .accepting | .serving none => none
    | _ => some s.returned
  | .disconnect =>
    match s.pc with
    | .serving none => some { s with pc := .clearing true none, connected := false }
    | _ => none

/-- All a step can do. -/
inductive Moved (cfg : Config n m) (b : Fin n) (s : GdbThread n m E F) :
    StubStep n → GdbThread n m E F → Prop where
  | other (l : BackendStep n) (backend : Backend n m E F) : foreign l = true →
      Backend.Stepped cfg b s.backend l backend →
      Moved cfg b s (.other l) { s with backend := backend }
  | served (r : Inquiry) (rest : List Inquiry) (net : Cluster n m E F) :
      s.backend.socket = r :: rest →
      (protocol cfg).step s.backend.net (.spoke b (.inspect r.cmd)) = some net →
      s.pc.ticket ≠ some r.ticket →
      Moved cfg b s .serve { s with backend := { s.backend with net := net, socket := rest } }
  | answered (r : Inquiry) (rest : List Inquiry) (net : Cluster n m E F) :
      s.backend.socket = r :: rest →
      (protocol cfg).step s.backend.net (.spoke b (.inspect r.cmd)) = some net →
      s.pc.ticket = some r.ticket → Moved cfg b s .serve
        (returned { s with backend := { s.backend with net := net, socket := rest } })
  | connect : s.pc = .accepting →
      Moved cfg b s .connect { s with pc := .clearing false none, connected := true }
  | clear (last : Bool) : s.pc = .clearing last none →
      Moved cfg b s .clear (s.ask .ClearBreakpoints (.clearing last))
  | request (cmd : InspectCommand) : s.pc = .serving none →
      Moved cfg b s (.request cmd) { s.ask cmd .serving with
        inserts := s.inserts || Inquiry.inserts ⟨cmd, s.backend.tickets⟩ }
  | post (l : StubStep n) (cmd : HostCommand n) : l = .resume ∨ l = .step ∨ l = .on_interrupt →
      s.pc = .serving none → Moved cfg b s l { s with backend := s.backend.post cmd }
  | give_up : s.pc ≠ .accepting → s.pc ≠ .serving none → Moved cfg b s .give_up s.returned
  | disconnect : s.pc = .serving none →
      Moved cfg b s .disconnect { s with pc := .clearing true none, connected := false }

theorem next_cases {cfg : Config n m} {b : Fin n} {s s' : GdbThread n m E F} {l : StubStep n}
    (h : s.next cfg b l = some s') : Moved cfg b s l s' := by
  have hpost (cmd : HostCommand n) (hl : l = .resume ∨ l = .step ∨ l = .on_interrupt)
      (h : s.post cmd = some s') : Moved cfg b s l s' := by
    unfold post at h
    split at h
    · rename_i hpc
      cases h
      exact .post l cmd hl hpc
    · cases h
  cases l with
  | other l =>
    simp only [next] at h
    split at h
    · rename_i hforeign
      obtain ⟨backend, hstep, rfl⟩ := Option.map_eq_some_iff.mp h
      exact .other l backend hforeign (Backend.step_cases hstep)
    · cases h
  | serve =>
    simp only [next] at h
    split at h
    · cases h
    · rename_i r rest hsocket
      obtain ⟨backend, hstep, heq⟩ := Option.map_eq_some_iff.mp h
      obtain ⟨net, hnet, rfl⟩ := Backend.serve_cases hsocket hstep
      split at heq
      -- The answer that the thread waits for has its ticket.
      · rename_i hticket
        cases heq
        exact .answered r rest net hsocket hnet hticket
      · rename_i hticket
        cases heq
        exact .served r rest net hsocket hnet hticket
  | connect =>
    simp only [next] at h
    split at h <;> cases h
    rename_i hpc
    exact .connect hpc
  | clear =>
    simp only [next] at h
    split at h <;> cases h
    rename_i last hpc
    exact .clear last hpc
  | request cmd =>
    simp only [next] at h
    split at h <;> cases h
    rename_i hpc
    exact .request cmd hpc
  | resume => exact hpost _ (.inl rfl) h
  | step => exact hpost _ (.inr (.inl rfl)) h
  | on_interrupt => exact hpost _ (.inr (.inr rfl)) h
  | give_up =>
    simp only [next] at h
    split at h <;> cases h
    rename_i haccepting hserving
    exact .give_up haccepting hserving
  | disconnect =>
    simp only [next] at h
    split at h <;> cases h
    rename_i hpc
    exact .disconnect hpc

end Steps

end GdbThread

/-! ### The requests on the socket -/

/-- Tickets tell what comes before a clearing from what comes after it, which is
    no insertion. Only a session in progress has inserted a breakpoint. -/
structure Tidy (s : GdbThread n m E F) : Prop where
  ticketed : s.backend.Ticketed
  below : ∀ t, s.pc.ticket = some t → t < s.backend.tickets
  accepting : s.pc = .accepting → s.connected = false ∧ s.inserts = false
  opening : ∀ t, s.pc = .clearing false t → s.inserts = false
  closing : ∀ t, s.pc = .clearing true t → s.connected = false
  clears : ∀ last t, s.pc = .clearing last (some t) → ∀ r ∈ s.backend.socket,
    (r.ticket = t → r.cmd = .ClearBreakpoints) ∧ (t ≤ r.ticket → r.inserts = false)

namespace Tidy

variable {s s' : GdbThread n m E F}

/-- The backend has moved, and the socket holds old requests and clearings. -/
theorem of_backend (h : Tidy s) {backend : Backend n m E F} (hticketed : backend.Ticketed)
    (htickets : s.backend.tickets ≤ backend.tickets)
    (hsocket : ∀ r ∈ backend.socket, r ∈ s.backend.socket ∨ r.cmd = .ClearBreakpoints) :
    Tidy { s with backend := backend } := by
  refine ⟨hticketed, ?_, h.accepting, h.opening, h.closing, ?_⟩
  · intro t ht
    exact Nat.lt_of_lt_of_le (h.below t ht) htickets
  · intro last t hpc r hr
    rcases hsocket r hr with hold | hclear
    · exact h.clears last t hpc r hold
    · refine ⟨fun _ => hclear, fun _ => ?_⟩
      unfold Inquiry.inserts
      rw [hclear]

/-- The thread goes on without a request under way. -/
theorem of_pc (h : Tidy s) {pc : GdbPc} {connected inserts : Bool} (hticket : pc.ticket = none)
    (haccepting : pc = .accepting → connected = false ∧ inserts = false)
    (hopening : ∀ t, pc = .clearing false t → inserts = false)
    (hclosing : ∀ t, pc = .clearing true t → connected = false) :
    Tidy { s with pc := pc, connected := connected, inserts := inserts } := by
  refine ⟨h.ticketed, ?_, haccepting, hopening, hclosing, ?_⟩
  · intro t ht
    have ht : pc.ticket = some t := ht
    rw [hticket] at ht
    cases ht
  · intro last t hpc
    have hpc : pc = .clearing last (some t) := hpc
    rw [hpc] at hticket
    cases hticket

theorem returned (h : Tidy s) : Tidy s.returned := by
  unfold GdbThread.returned
  split
  · exact h
  · exact h.of_pc rfl nofun nofun nofun
  · rename_i t hpc
    exact h.of_pc rfl (fun _ => ⟨h.closing t hpc, rfl⟩) nofun nofun
  · exact h.of_pc rfl nofun nofun nofun

theorem ask_clear (h : Tidy s) {last : Bool} (hpc : s.pc = .clearing last none) :
    Tidy (s.ask .ClearBreakpoints (.clearing last)) := by
  refine ⟨h.ticketed.ask _, ?_, nofun, ?_, ?_, ?_⟩
  · rintro t ⟨⟩
    exact Nat.lt_succ_self _
  · rintro t ⟨⟩
    exact h.opening none hpc
  · rintro t ⟨⟩
    exact h.closing none hpc
  · rintro last' t ⟨⟩ r hr
    rcases List.mem_append.mp hr with hr | hr
    · have hlt := h.ticketed.2 r hr
      exact ⟨fun heq => by omega, fun hle => by omega⟩
    · rw [List.mem_singleton.mp hr]
      exact ⟨fun _ => rfl, fun _ => rfl⟩

theorem ask_request (h : Tidy s) (cmd : InspectCommand) (inserts : Bool) :
    Tidy { s.ask cmd .serving with inserts := inserts } := by
  refine ⟨h.ticketed.ask _, ?_, nofun, nofun, nofun, nofun⟩
  rintro t ⟨⟩
  exact Nat.lt_succ_self _

variable [Entity E F] {cfg : Config n m} {b : Fin n} {l : StubStep n}

theorem moved (h : Tidy s) (hm : GdbThread.Moved cfg b s l s') : Tidy s' := by
  have hserve {r : Inquiry} {rest : List Inquiry} (hsocket : s.backend.socket = r :: rest)
      (net : Cluster n m E F) :
      Tidy { s with backend := { s.backend with net := net, socket := rest } } := by
    have hticketed := h.ticketed
    unfold Backend.Ticketed at hticketed
    rw [hsocket] at hticketed
    refine h.of_backend ⟨(List.pairwise_cons.mp hticketed.1).2, ?_⟩ (Nat.le_refl _) ?_
    · exact fun r' hr' => hticketed.2 r' (List.mem_cons_of_mem _ hr')
    · intro r' hr'
      rw [hsocket]
      exact .inl (List.mem_cons_of_mem _ hr')
  -- Other writers ask for nothing but clearings.
  cases hm with
  | other l backend hforeign hstep =>
    cases hstep with
    | net | command | post => exact h.of_backend h.ticketed (Nat.le_refl _) fun r hr => .inl hr
    | ask cmd =>
      refine h.of_backend (h.ticketed.ask cmd) (Nat.le_succ _) ?_
      intro r hr
      rcases List.mem_append.mp hr with hr | hr
      · exact .inl hr
      · rw [List.mem_singleton.mp hr]
        exact .inr (of_decide_eq_true hforeign)
    | serve => cases hforeign
  | served r rest net hsocket => exact hserve hsocket net
  | answered r rest net hsocket => exact (hserve hsocket net).returned
  | connect hpc => exact h.of_pc rfl nofun (fun _ _ => (h.accepting hpc).2) nofun
  | clear last hpc => exact h.ask_clear hpc
  | request cmd => exact h.ask_request cmd _
  | post l cmd => exact h.of_backend h.ticketed (Nat.le_refl _) fun r hr => .inl hr
  | give_up => exact h.returned
  | disconnect => exact h.of_pc rfl nofun nofun fun _ _ => rfl

end Tidy

section Runs

variable {C Ev M : Type} [Cpu C Ev F] [Model M F]

/-- The breakpoints of the board. -/
abbrev GdbThread.store (b : Fin n) (s : GdbThread n m (Board C Ev M F) F) : List Breakpoint :=
  (guest s.backend.net b).breakpoints

/-- All runs of the stub of board `b`, from a new simulation. -/
def gdb_runs (C Ev M : Type) {F : Type} [Cpu C Ev F] [Model M F] (cfg : Config n m) (b : Fin n) :
    System (GdbThread n m (Board C Ev M F) F) (StubStep n) where
  init s := ∃ net, Initial cfg net ∧ (guest net b).breakpoints = [] ∧
    s = ⟨Backend.boot net, .accepting, false, false⟩
  step s := s.next cfg b

def AnyGdb (_ : GdbThread n m (Board C Ev M F) F) (_ : StubStep n) : Prop := True

/-- The clearing that ends a session: when the node serves it, the simulator is
    stopped, unless there is nothing to clear. The thread does not give it up,
    unless there is nothing to clear and no insertion is on its way. -/
def Cleared (b : Fin n) (s : GdbThread n m (Board C Ev M F) F) : StubStep n → Prop
  | .serve =>
    match s.pc, s.backend.socket with
    | .clearing true (some t), r :: _ => r.ticket = t →
        (s.backend.net.spoke b).sim.state = .Stopped ∨ s.store b = []
    | _, _ => True
  | .give_up =>
    match s.pc with
    | .clearing true _ => s.store b = [] ∧ ∀ r ∈ s.backend.socket, r.inserts = false
    | _ => True
  | _ => True

/-- The store is empty, and no insertion is on its way, unless the session in
    progress has inserted a breakpoint. -/
def Swept (b : Fin n) (s : GdbThread n m (Board C Ev M F) F) : Prop :=
  s.inserts = false → s.store b = [] ∧ ∀ r ∈ s.backend.socket, r.inserts = false

/-! ### What a step does to the store -/

section Store

variable {cfg : Config n m} {b : Fin n} {net net' : Cluster n m (Board C Ev M F) F}

/-- A stopped simulator clears the store. -/
theorem store_cleared
    (h : (protocol cfg).step net (.spoke b (.inspect .ClearBreakpoints)) = some net')
    (hstate : (net.spoke b).sim.state = .Stopped) : (guest net' b).breakpoints = [] := by
  show (net'.spoke b).sim.entity.breakpoints = []
  rw [served_sim h]
  unfold Simulator.command
  rw [if_neg (by rw [hstate]; decide)]
  dsimp only
  rw [if_neg (by rw [hstate]; decide)]
  exact Board.breakpoints_clear _

/-- An empty store stays empty but for an insertion. -/
theorem store_empty {cmd : InspectCommand}
    (h : (protocol cfg).step net (.spoke b (.inspect cmd)) = some net')
    (hempty : (guest net b).breakpoints = []) (hcmd : ∀ addr, cmd ≠ .AddBreakpoint addr) :
    (guest net' b).breakpoints = [] := by
  show (net'.spoke b).sim.entity.breakpoints = []
  rw [served_sim h]
  unfold Simulator.command
  split
  · exact hempty
  · dsimp only
    split
    · exact hempty
    · exact Board.breakpoints_inspect hempty hcmd

/-- A simulator that is not stopped refuses the request. -/
theorem store_refused {cmd : InspectCommand}
    (h : (protocol cfg).step net (.spoke b (.inspect cmd)) = some net')
    (hstate : (net.spoke b).sim.state ≠ .Stopped) :
    (guest net' b).breakpoints = (guest net b).breakpoints := by
  show (net'.spoke b).sim.entity.breakpoints = _
  rw [served_sim h]
  unfold Simulator.command
  split
  · rfl
  · rename_i hquit
    dsimp only
    split
    · rfl
    · rename_i hrun
      exfalso
      cases hcase : (net.spoke b).sim.state with
      | Stopped => exact hstate hcase
      | Running => exact hrun hcase
      | Quit => exact hquit hcase

theorem Inquiry.not_insert {r : Inquiry} (h : r.inserts = false) (addr : Nat) :
    r.cmd ≠ .AddBreakpoint addr := by
  intro hcmd
  unfold Inquiry.inserts at h
  rw [hcmd] at h
  cases h

/-- What is not served by the node leaves the store as it is. -/
theorem store_unserved {s s' : Backend n m (Board C Ev M F) F} {l : BackendStep n}
    (h : Backend.Stepped cfg b s l s') (hl : l ≠ .serve) :
    (guest s'.net b).breakpoints = (guest s.net b).breakpoints := by
  cases h with
  | net l net hinner hstep =>
    refine Board.steady_breakpoints.net_step ?_ hstep
    intro cmd heq
    rw [heq] at hinner
    simp [inner] at hinner
  | command cmd rest net _ hstep =>
    refine Board.steady_breakpoints.net_step ?_ hstep
    intro cmd heq
    cases heq
  | post | ask => rfl
  | serve => exact absurd rfl hl

end Store

/-! ### Sessions -/

section Sessions

variable {cfg : Config n m} {b : Fin n} {s s' : GdbThread n m (Board C Ev M F) F} {l : StubStep n}

/-- What the node serves inserts nothing, unless the session has. -/
theorem Swept.served {r : Inquiry} {rest : List Inquiry} {net : Cluster n m (Board C Ev M F) F}
    (h : Swept b s) (hsocket : s.backend.socket = r :: rest)
    (hstep : (protocol cfg).step s.backend.net (.spoke b (.inspect r.cmd)) = some net) :
    Swept b { s with backend := { s.backend with net := net, socket := rest } } := by
  intro hinserts
  obtain ⟨hempty, hnone⟩ := h hinserts
  rw [hsocket] at hnone
  refine ⟨?_, fun r' hr' => hnone r' (List.mem_cons_of_mem _ hr')⟩
  exact store_empty hstep hempty (Inquiry.not_insert (hnone r List.mem_cons_self))

omit [Cpu C Ev F] [Model M F] in
/-- A request that inserts nothing is written. -/
theorem Swept.ask (h : Swept b s) {cmd : InspectCommand} {pc : Option Nat → GdbPc}
    {inserts : Bool} (hinserts : inserts = false → s.inserts = false ∧
      Inquiry.inserts ⟨cmd, s.backend.tickets⟩ = false) :
    Swept b { s.ask cmd pc with inserts := inserts } := by
  intro hnone
  obtain ⟨hold, hcmd⟩ := hinserts hnone
  obtain ⟨hempty, hsocket⟩ := h hold
  refine ⟨hempty, ?_⟩
  intro r hr
  rcases List.mem_append.mp hr with hr | hr
  · exact hsocket r hr
  · rw [List.mem_singleton.mp hr]
    exact hcmd

/-- The final clearing is served: the store is empty after it if it was empty
    before, or if the simulator was stopped. -/
theorem Swept.answered_last {r : Inquiry} {rest : List Inquiry}
    {net : Cluster n m (Board C Ev M F) F} (htidy : Tidy s)
    (hpc : s.pc = .clearing true (some r.ticket)) (hsocket : s.backend.socket = r :: rest)
    (hstep : (protocol cfg).step s.backend.net (.spoke b (.inspect r.cmd)) = some net) :
    ((guest net b).breakpoints = [] ∧ ∀ r' ∈ rest, r'.inserts = false) ↔
      (s.backend.net.spoke b).sim.state = .Stopped ∨ s.store b = [] := by
  have hclears := htidy.clears true r.ticket hpc
  have hcmd : r.cmd = .ClearBreakpoints :=
    (hclears r (by rw [hsocket]; exact List.mem_cons_self)).1 rfl
  rw [hcmd] at hstep
  -- A board that is not stopped refuses the clearing, and its store stays.
  constructor
  · rintro ⟨hempty, -⟩
    by_cases hstate : (s.backend.net.spoke b).sim.state = .Stopped
    · exact .inl hstate
    · exact .inr ((store_refused hstep hstate).symm.trans hempty)
  · intro hcleared
    refine ⟨?_, ?_⟩
    · rcases hcleared with hstopped | hempty
      · exact store_cleared hstep hstopped
      · exact store_empty hstep hempty nofun
    · -- What is still on the socket was written after the clearing.
      intro r' hr'
      have hticketed := htidy.ticketed.1
      rw [hsocket] at hticketed
      have hlt := (List.pairwise_cons.mp hticketed).1 r' hr'
      refine (hclears r' (by rw [hsocket]; exact List.mem_cons_of_mem _ hr')).2 ?_
      exact Nat.le_of_lt hlt

/-- Whether a step leaves no breakpoint behind is decided by the clearing at the
    end of the session. -/
theorem Swept.moved (htidy : Tidy s) (h : Swept b s) (hm : GdbThread.Moved cfg b s l s') :
    Swept b s' ↔ Cleared b s l := by
  cases hm with
  | other l backend hforeign hstep =>
    refine iff_of_true ?_ trivial
    intro hinserts
    obtain ⟨hempty, hnone⟩ := h hinserts
    have hl : l ≠ .serve := by
      intro heq
      rw [heq] at hforeign
      cases hforeign
    refine ⟨(store_unserved hstep hl).trans hempty, ?_⟩
    cases hstep with
    | net | command | post => exact hnone
    | ask cmd =>
      intro r hr
      rcases List.mem_append.mp hr with hr | hr
      · exact hnone r hr
      · have hcmd : cmd = .ClearBreakpoints := of_decide_eq_true hforeign
        rw [List.mem_singleton.mp hr, hcmd]
        rfl
    | serve => exact absurd rfl hl
  | served r rest net hsocket hstep hticket =>
    refine iff_of_true (h.served hsocket hstep) ?_
    show match s.pc, s.backend.socket with
      | .clearing true (some t), r :: _ => r.ticket = t →
          (s.backend.net.spoke b).sim.state = .Stopped ∨ s.store b = []
      | _, _ => True
    split
    · rename_i t r' rest' hpc hsocket'
      intro heq
      rw [hsocket] at hsocket'
      cases hsocket'
      rw [hpc, ← heq] at hticket
      exact absurd rfl hticket
    · trivial
  | answered r rest net hsocket hstep hticket =>
    have hserved := h.served hsocket hstep
    cases hpc : s.pc with
    | accepting =>
      rw [hpc] at hticket
      cases hticket
    | serving t =>
      refine iff_of_true ?_ ?_
      · unfold GdbThread.returned
        exact hserved
      · unfold Cleared
        simp only [hpc]
    | clearing last t =>
      rw [hpc] at hticket
      have hticket : t = some r.ticket := hticket
      subst hticket
      cases last with
      | false =>
        refine iff_of_true ?_ ?_
        · unfold GdbThread.returned
          exact hserved
        · unfold Cleared
          simp only [hpc]
      | true =>
        have hlast := Swept.answered_last htidy hpc hsocket hstep
        unfold GdbThread.returned Cleared
        simp only [hpc, hsocket]
        constructor
        · intro hswept _
          exact hlast.mp (hswept rfl)
        · intro hcleared _
          exact hlast.mpr (hcleared trivial)
  | connect => exact iff_of_true h trivial
  | clear => exact iff_of_true (h.ask fun hinserts => ⟨hinserts, rfl⟩) trivial
  | request cmd =>
    refine iff_of_true (h.ask fun hinserts => ?_) trivial
    exact Bool.or_eq_false_iff.mp hinserts
  | post l cmd hl =>
    refine iff_of_true h ?_
    rcases hl with rfl | rfl | rfl <;> trivial
  | give_up haccepting hserving =>
    unfold GdbThread.returned Cleared
    cases hpc : s.pc with
    | accepting => exact absurd hpc haccepting
    | serving t => exact iff_of_true h trivial
    | clearing last t =>
      cases last with
      | false => exact iff_of_true h trivial
      | true =>
        constructor
        · intro hswept
          exact hswept rfl
        · intro hcleared _
          exact hcleared
  | disconnect => exact iff_of_true h trivial

theorem tidy_of_reachable {ok : Guard (GdbThread n m (Board C Ev M F) F) (StubStep n)}
    (h : Reachable (gdb_runs C Ev M cfg b) ok s) : Tidy s := by
  induction h with
  | init hinit =>
    obtain ⟨net, -, -, rfl⟩ := hinit
    exact ⟨⟨.nil, nofun⟩, nofun, fun _ => ⟨rfl, rfl⟩, nofun, nofun, nofun⟩
  | step _ _ _ hstep ih => exact ih.moved (GdbThread.next_cases hstep)

theorem swept_of_reachable (h : Reachable (gdb_runs C Ev M cfg b) (Cleared b) s) : Swept b s := by
  induction h with
  | init hinit =>
    obtain ⟨net, -, hempty, rfl⟩ := hinit
    exact fun _ => ⟨hempty, nofun⟩
  | step _ hreach hok hstep ih =>
    exact (ih.moved (tidy_of_reachable hreach) (GdbThread.next_cases hstep)).mpr hok

/-- In a run in which every clearing that ends a session finds the simulator
    stopped, or nothing to clear, the store is empty from the end of a session
    until the next session inserts a breakpoint. The first step of a run that
    does not meet this ends a session with a breakpoint in the store, or on its
    way there. -/
theorem no_breakpoint_outlives_session (h : Reachable (gdb_runs C Ev M cfg b) (Cleared b) s) :
    (s.pc = .accepting → s.connected = false ∧ s.inserts = false) ∧
      (s.inserts = false → s.store b = []) ∧
      ∀ l s', (gdb_runs C Ev M cfg b).step s l = some s' → (Swept b s' ↔ Cleared b s l) := by
  have htidy := tidy_of_reachable h
  have hswept := swept_of_reachable h
  refine ⟨htidy.accepting, fun hinserts => (hswept hinserts).1, ?_⟩
  intro l s' hstep
  exact hswept.moved htidy (GdbThread.next_cases hstep)

end Sessions

end Runs

/-! ### Two sessions -/

/-- The stub of the first of two boards, of a cluster that has just booted. -/
def stub : GdbThread 2 0 Guest Nat :=
  ⟨Backend.boot (guests (unwired 1000 100) fun _ => .chip [] []), .accepting, false, false⟩

abbrev stub_runs := gdb_runs Script Empty Ticker (unwired 1000 100) 0

theorem init_stub : stub_runs.init stub := ⟨_, initial_guests _ _, rfl, rfl⟩

instance (s : GdbThread 2 0 Guest Nat) (l : StubStep 2) : Decidable (Cleared 0 s l) := by
  unfold Cleared
  split <;> (try split) <;> infer_instance

instance (s : GdbThread 2 0 Guest Nat) (l : StubStep 2) : Decidable (AnyGdb s l) := .isTrue trivial

/-- A client connects and inserts a breakpoint. -/
def insertion : List (StubStep 2) :=
  [.connect, .clear, .other (.net (.spoke 0 .drained)), .serve, .request (.AddBreakpoint 0x100),
    .serve]

/-- It continues the guest, and the start reaches the board. -/
def continued : List (StubStep 2) :=
  [.resume, .other .command, .other (.net (.spoke 0 (.service []))), .other (.net (.take 0 ⟨2, 0⟩)),
    .other (.net (.spoke 0 .drained))]

/-- A client that leaves a stopped guest leaves no breakpoint. -/
theorem no_breakpoint_outlives_session_stopped :
    ∃ s, Reachable stub_runs (Cleared 0) s ∧ s.pc = .accepting ∧ s.connected = false ∧
      s.store 0 = [] := by
  obtain ⟨s, hs, hpc⟩ : ∃ s, Reachable stub_runs (Cleared 0) s ∧ s.pc = .accepting :=
    Reachable.exists_of_exec (insertion ++ [.disconnect, .clear, .serve]) init_stub
      (by decide +kernel)
  obtain ⟨hended, hempty, -⟩ := no_breakpoint_outlives_session hs
  exact ⟨s, hs, hpc, (hended hpc).1, hempty (hended hpc).2⟩

/-- A client that leaves a running guest leaves its breakpoint. -/
theorem breakpoint_left_behind :
    ∃ s, Reachable stub_runs AnyGdb s ∧ s.pc = .accepting ∧ s.connected = false ∧
      s.inserts = false ∧ s.backend.socket = [] ∧ s.store 0 = [⟨1, 0x100, true⟩] :=
  Reachable.exists_of_exec (insertion ++ continued ++ [.disconnect, .clear, .serve]) init_stub
    (by decide +kernel)

end Rl78Sim
