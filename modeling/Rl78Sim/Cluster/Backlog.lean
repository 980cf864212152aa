import Mathlib.Data.List.Chain
import Rl78Sim.Cluster.Delivery

/-! # How Many Frames a Ring Has to Hold

    When the receiver has not yet taken a frame, its clock is at most a margin
    past the publication of the frame, and the clock of the sender is at most
    another margin past that. A ring that holds what the sender drives in two
    margins, and in the polls that delay a frame at either end, never
    overflows.
-/

namespace Rl78Sim

open Transition

variable {n m : Nat} {E F : Type} [Entity E F]
variable {cfg : Config n m} {s s' : Cluster n m E F} {l : Step n}

/-! ### The age of frames -/

/-- The board is in the middle of a `pump_tx`. -/
def NodePc.pumps_tx : NodePc m F → Bool
  | .tx _ => true
  | _ => false

/-- A drive is published in the iteration that polls it, and so at most one
    poll of the sender late. -/
structure Fresh (cfg : Config n m) (stride : Nat) (e : Fin m) (s : Cluster n m E F) : Prop where
  at_le : ∀ d ∈ unsent cfg s e, d.at_ ≤ (s.spoke (cfg.edge e).src).now
  young : ∀ d ∈ unsent cfg s e, (s.spoke (cfg.edge e).src).now ≤
    d.at_ + if NodePc.pumps_tx (s.spoke (cfg.edge e).src).pc then stride else 0
  drained : NodePc.pumps_tx (s.spoke (cfg.edge e).src).pc = true →
    ∀ d ∈ (Entity.ports (guest s (cfg.edge e).src)).pending, d.port ≠ (cfg.edge e).src_port
  sent_le : ∀ f ∈ (s.env e).ring, f.sent_at ≤ f.driven_at + stride

namespace Fresh

variable {stride : Nat} {e : Fin m}

theorem initial (h : Initial cfg s) : Fresh cfg stride e s := by
  have hspoke := h.spoke (cfg.edge e).src
  have hunsent : unsent cfg s e = [] := by
    simp [unsent, Node.unsent, hspoke.pc_eq, hspoke.ports_eq, OutPorts.empty, NodePc.tx_todo]
  refine ⟨?_, ?_, ?_, ?_⟩
  · rw [hunsent]
    exact List.forall_mem_nil _
  · rw [hunsent]
    exact List.forall_mem_nil _
  · rw [hspoke.pc_eq]
    intro htx
    cases htx
  · rw [h.env_eq e]
    exact List.forall_mem_nil _

theorem le_stride (h : Fresh cfg stride e s) :
    ∀ d ∈ unsent cfg s e, (s.spoke (cfg.edge e).src).now ≤ d.at_ + stride := by
  intro d hd
  have hyoung := h.young d hd
  split at hyoung <;> omega

/-- Frames that are published now were driven at most one poll ago. -/
theorem ring_moved (h : Fresh cfg stride e s) (hedge : EdgeMoved cfg s l s' e) :
    ∀ f ∈ (s'.env e).ring, f.sent_at ≤ f.driven_at + stride := by
  intro f hf
  cases hedge with
  | grew _ henv =>
    rw [henv] at hf
    exact h.sent_le f hf
  | published d _ _ hunsent _ henv =>
    rw [henv] at hf
    -- A full ring loses its oldest frame, which only leaves fewer to look at.
    have hsub : f ∈ (s.env e).ring ∨
        f = ⟨d.value, d.at_, (s.spoke (cfg.edge e).src).now⟩ := by
      unfold Lane.send at hf
      split at hf
      · simpa using hf
      · rcases List.mem_append.mp hf with hold | hnew
        · exact .inl (List.mem_of_mem_tail hold)
        · exact .inr (List.mem_singleton.mp hnew)
    rcases hsub with hold | rfl
    · exact h.sent_le f hold
    · exact h.le_stride d (hunsent ▸ List.mem_cons_self)
  | delivered frame lane _ hrecv henv =>
    rw [henv] at hf
    apply h.sent_le f
    rw [(Lane.receive_cases hrecv).1]
    exact List.mem_cons_of_mem _ hf
  | discarded _ henv =>
    rw [henv] at hf
    cases hf

/-- A drive that is still to be published was so before, or is new. -/
theorem unsent_cases (hedge : EdgeMoved cfg s l s' e) :
    ∀ d ∈ unsent cfg s' e, d ∈ unsent cfg s e ∨
      ((s.spoke (cfg.edge e).src).now ≤ d.at_ ∧ d.at_ ≤ (s'.spoke (cfg.edge e).src).now) := by
  intro d hd
  cases hedge with
  | grew new _ hunsent _ hat =>
    rw [hunsent] at hd
    rcases List.mem_append.mp hd with hold | hnew
    · exact .inl hold
    · exact .inr (hat d hnew)
  | published _ _ _ hunsent =>
    rw [hunsent]
    exact .inl (List.mem_cons_of_mem _ hd)
  | delivered _ _ _ _ _ hunsent =>
    rw [hunsent] at hd
    exact .inl hd
  | discarded _ _ hunsent =>
    rw [hunsent] at hd
    exact .inl hd

/-- A board that does not enter or leave `pump_tx`, at an instant. -/
theorem young_keep (h : Fresh cfg stride e s) (hedge : EdgeMoved cfg s l s' e)
    (hnow : (s'.spoke (cfg.edge e).src).now = (s.spoke (cfg.edge e).src).now)
    (hpc : NodePc.pumps_tx (s'.spoke (cfg.edge e).src).pc =
      NodePc.pumps_tx (s.spoke (cfg.edge e).src).pc) :
    ∀ d ∈ unsent cfg s' e, (s'.spoke (cfg.edge e).src).now ≤
      d.at_ + if NodePc.pumps_tx (s'.spoke (cfg.edge e).src).pc then stride else 0 := by
  intro d hd
  rw [hnow, hpc]
  rcases unsent_cases hedge d hd with hold | ⟨hle, -⟩
  · exact h.young d hold
  · exact Nat.le_trans hle (Nat.le_add_right _ _)

theorem moved [LawfulEntity E] (h : Fresh cfg stride e s) (hm : Moved cfg s l s')
    (hwf : ClusterWf s) (hskew : SkewInv cfg s) (hown : AllPumpsOwn cfg s)
    (hwired : (cfg.edge e).wired) (hstride : (s.spoke (cfg.edge e).src).Strides stride) :
    Fresh cfg stride e s' := by
  have hedge := hm.edge hwf hown hwired
  have hat : ∀ d ∈ unsent cfg s' e, d.at_ ≤ (s'.spoke (cfg.edge e).src).now := by
    intro d hd
    rcases unsent_cases hedge d hd with hold | ⟨-, hle⟩
    · exact Nat.le_trans (h.at_le d hold) (hm.now_le _)
    · exact hle
  have hpc_of_outside {pc : NodePc m F} (hpc : Node.NodePc.outside pc = true) :
      NodePc.pumps_tx pc = false := by
    cases pc <;> first | rfl | cases hpc
  -- Outside of `pump_tx` nothing is asked of the port.
  have hidle {pc : NodePc m F} (hpc : (s'.spoke (cfg.edge e).src).pc = pc)
      (hno : NodePc.pumps_tx pc = false)
      (hyoung : ∀ d ∈ unsent cfg s' e, (s'.spoke (cfg.edge e).src).now ≤
        d.at_ + if NodePc.pumps_tx (s'.spoke (cfg.edge e).src).pc then stride else 0) :
      Fresh cfg stride e s' := by
    refine ⟨hat, hyoung, ?_, h.ring_moved hedge⟩
    intro htx
    rw [hpc, hno] at htx
    cases htx
  cases hm.loop (hskew.no_step (cfg.edge e).src (cfg.edge e).src) with
  | still _ hspoke =>
    refine ⟨hat, h.young_keep hedge (by rw [hspoke]) (by rw [hspoke]), ?_, h.ring_moved hedge⟩
    unfold guest
    rw [hspoke]
    exact h.drained
  | handled _ hpc hpc' hnow =>
    exact hidle hpc' rfl (h.young_keep hedge hnow (by rw [hpc, hpc']))
  | looped act _ hlooped _ =>
    cases hlooped with
    | outside hpc hpc' hnow =>
      have hno := hpc_of_outside hpc'
      exact hidle rfl hno (h.young_keep hedge hnow (by rw [hno, hpc_of_outside hpc]))
    | begin_rx hpc hpc' hnow =>
      exact hidle hpc' rfl (h.young_keep hedge hnow (by rw [hpc, hpc']; rfl))
    | skip p rest hpc hpc' _ hnow =>
      exact hidle hpc' rfl (h.young_keep hedge hnow (by rw [hpc, hpc']; rfl))
    | took e' k rest frame lane hpc hpc' _ hnow =>
      exact hidle hpc' rfl (h.young_keep hedge hnow (by rw [hpc, hpc']; rfl))
    | end_rx hpc hpc' hnow =>
      exact hidle hpc' rfl (h.young_keep hedge hnow (by rw [hpc, hpc']; rfl))
    | no_poll hpc hpc' hnow =>
      exact hidle hpc' rfl (h.young_keep hedge hnow (by rw [hpc, hpc']; rfl))
    | polled fuel sim rsp todo hpc hpc' hrun hpoll hnow hdrained =>
      have hmoved := hstride hpc hrun fuel sim rsp hpoll
      refine ⟨hat, ?_, ?_, h.ring_moved hedge⟩
      · intro d hd
        rw [hpc', hnow]
        show sim.now ≤ d.at_ + stride
        rcases unsent_cases hedge d hd with hold | ⟨hle, -⟩
        · have hyoung := h.young d hold
          rw [hpc] at hyoung
          exact Nat.le_trans hmoved (Nat.add_le_add_right hyoung _)
        · omega
      · intro _ d hd hport
        exact hdrained d hd (hport ▸ cfg.mem_tx_ports rfl hwired)
    | sent e' d rest hpc hpc' hsim =>
      have hnow : (s'.spoke (cfg.edge e).src).now = (s.spoke (cfg.edge e).src).now := by
        rw [Node.now, hsim, Node.now]
      refine ⟨hat, h.young_keep hedge hnow (by rw [hpc, hpc']; rfl), ?_, h.ring_moved hedge⟩
      intro _
      unfold guest
      rw [hsim]
      exact h.drained (by rw [hpc]; rfl)
    | end_tx hpc hpc' hsim =>
      -- The queue is empty, and so is the port.
      have hunsent : unsent cfg s' e = [] := by
        have hdrained := h.drained (by rw [hpc]; rfl)
        unfold unsent Node.unsent
        rw [hpc', hsim]
        refine List.append_eq_nil_iff.mpr ⟨rfl, ?_⟩
        apply List.filter_eq_nil_iff.mpr
        intro d hd hport
        exact hdrained d hd (of_decide_eq_true hport)
      apply hidle hpc' rfl
      rw [hunsent]
      exact List.forall_mem_nil _

end Fresh

/-! ### Spaced drives -/

/-- Consecutive times are at least `frame_time` apart. -/
def Spaced (frame_time : Nat) (times : List Nat) : Prop :=
  times.IsChain fun a b => a + frame_time ≤ b

instance (frame_time : Nat) (times : List Nat) : Decidable (Spaced frame_time times) :=
  inferInstanceAs (Decidable (times.IsChain fun a b => a + frame_time ≤ b))

/-- The time that `k` steps of a spaced sequence span. -/
theorem Spaced.span {frame_time : Nat} {times : List Nat} (h : Spaced frame_time times)
    {i k a b : Nat} (ha : times[i]? = some a) (hb : times[i + k]? = some b) :
    a + k * frame_time ≤ b := by
  induction k generalizing b with
  | zero =>
    rw [Nat.add_zero, ha] at hb
    obtain rfl := Option.some.inj hb
    omega
  | succ k ih =>
    obtain ⟨hlt, hget⟩ := List.getElem?_eq_some_iff.mp hb
    have hstep : times[i + k] + frame_time ≤ times[i + k + 1] :=
      List.isChain_iff_getElem.mp h (i + k) hlt
    have hprev : a + k * frame_time ≤ times[i + k] :=
      ih (List.getElem?_eq_getElem (Nat.lt_of_succ_lt hlt))
    have hmul : (k + 1) * frame_time = k * frame_time + frame_time := Nat.succ_mul _ _
    rw [← hget]
    show a + (k + 1) * frame_time ≤ times[i + k + 1]
    omega

/-! ### Rings that are large enough -/

/-- The most that one poll of a board covers: a machine's poll is a quantum. -/
def stride (margin_ns : Nat) (is_plant : Bool) : Nat :=
  if is_plant then margin_ns else min margin_ns default_max_quantum

/-- The ring of `e` takes the frames of two margins, of one poll of the sender
    and of the polls of the receiver that full batches wait for. -/
def Sized (cfg : Config n m) (e : Fin m) (frame_time : Nat) (src dst : Bool) : Prop :=
  2 * cfg.margin_ns + stride cfg.margin_ns src +
    stride cfg.margin_ns dst * (((cfg.edge e).capacity - 1) / rx_batch) <
      (cfg.edge e).capacity * frame_time

instance (cfg : Config n m) (e : Fin m) (frame_time : Nat) (src dst : Bool) :
    Decidable (Sized cfg e frame_time src dst) :=
  inferInstanceAs (Decidable (_ < _))

/-- When the next frame of spaced drives is published, there is room for it. -/
theorem room_of_sized {e : Fin m} {frame_time : Nat} {src dst : Bool} (hcalm : Calm cfg s)
    (hlag : Lag cfg (cfg.edge e).capacity (stride cfg.margin_ns dst) e
      (s.spoke (cfg.edge e).dst) (s.env e))
    (horder : InOrder cfg s e) (hfresh : Fresh cfg (stride cfg.margin_ns src) e s)
    (hsized : Sized cfg e frame_time src dst)
    (hspaced : Spaced frame_time ((made cfg s e).map (·.at_))) {d : Drive F}
    {rest : List (Drive F)} (hunsent : unsent cfg s e = d :: rest) :
    (s.env e).ring.length < (cfg.edge e).capacity := by
  by_contra hfull
  have hlen : (s.env e).ring.length = (cfg.edge e).capacity :=
    Nat.le_antisymm hlag.length_le (Nat.le_of_not_lt hfull)
  have hpos : 0 < (cfg.edge e).capacity := by
    apply Nat.pos_of_ne_zero
    intro hzero
    unfold Sized at hsized
    rw [hzero] at hsized
    omega
  -- `f` is the oldest frame of the full ring, and `d` the next to be published.
  obtain ⟨f, hf⟩ : ∃ f, (s.env e).ring[0]? = some f :=
    ⟨_, List.getElem?_eq_getElem (Nat.lt_of_lt_of_eq hpos hlen.symm)⟩
  have hnear := hlag.near 0 f hf
  have hskew := hcalm.skew.clock_le (cfg.edge e).src (cfg.edge e).dst
  have hat := hfresh.at_le d (hunsent ▸ List.mem_cons_self)
  have hsent := hfresh.sent_le f (List.mem_of_getElem? hf)
  have hspan : f.driven_at + (cfg.edge e).capacity * frame_time ≤ d.at_ := by
    have htimes := congrArg (List.map Prod.snd) horder.made_eq
    simp only [Lane.left, List.map_append, List.map_map, hunsent, List.map_cons] at htimes
    have hmade : (made cfg s e).map (·.at_) =
        (s.env e).delivered.map (·.frame.driven_at) ++ (s.env e).ring.map (·.driven_at) ++
          (d.at_ :: rest.map (·.at_)) := htimes.symm
    rw [hmade] at hspaced
    apply hspaced.span (i := (s.env e).delivered.length)
    · rw [List.append_assoc, List.getElem?_append_right (by simp)]
      rw [List.length_map, Nat.sub_self, List.getElem?_append_left (by simpa [hlen] using hpos)]
      rw [List.getElem?_map, hf]
      rfl
    · rw [List.getElem?_append_right (by simp [hlen])]
      simp [hlen]
  unfold Sized at hsized
  unfold due slack at hnear
  rw [Nat.sub_zero] at hnear
  omega

/-! ### Runs of boards -/

section boards

variable {C Ev M : Type} [Cpu C Ev F] [Model M F] {s s' : Cluster n m (Board C Ev M F) F}

omit [Entity E F]

/-- The polls of a board within the skew bound. -/
theorem SkewInv.strides (h : SkewInv cfg s) (hwf : ClusterWf s) {i : Fin n}
    (hquantum : (s.spoke i).sim.max_quantum = default_max_quantum) :
    (s.spoke i).Strides (stride cfg.margin_ns (guest s i).is_plant) := by
  intro hpc hrun fuel sim rsp hpoll
  have hmargin := h.strides_margin hwf i hpc hrun fuel sim rsp hpoll
  cases hguest : guest s i with
  | plant p => exact hmargin
  | machine mach =>
    have honce := (hwf.node i).step_once ((hwf.node i).running_of_poll hpc)
    have hle : sim.now ≤ (s.spoke i).now + default_max_quantum := by
      rcases Simulator.poll_cases hpoll with ⟨hidle, -⟩ | ⟨-, -, r, hentity, -⟩
      · exact absurd hrun hidle
      rcases Board.poll_cases hentity with ⟨m₀, m₁, hm₀, hsim, hm⟩ | ⟨p, _, hp, -⟩
      · have hspec := (Machine.poll_spec hm).le_quantum honce
        rw [Node.now, Simulator.now, Simulator.now, hsim, hm₀, ← hquantum]
        exact hspec
      · rw [show (s.spoke i).sim.entity = .machine mach from hguest] at hp
        cases hp
    show sim.now ≤ (s.spoke i).now + min cfg.margin_ns default_max_quantum
    omega

/-- What holds of an edge with a ring of the right size. -/
structure Roomy (cfg : Config n m) (e : Fin m) (s : Cluster n m (Board C Ev M F) F) : Prop where
  lag : Lag cfg (cfg.edge e).capacity
    (stride cfg.margin_ns (guest s (cfg.edge e).dst).is_plant) e
    (s.spoke (cfg.edge e).dst) (s.env e)
  order : InOrder cfg s e
  fresh : Fresh cfg (stride cfg.margin_ns (guest s (cfg.edge e).src).is_plant) e s

/-- The run is calm, and the edge is roomy if the sender has kept the spacing
    so far. -/
structure RoomyIfSpaced (cfg : Config n m) (e : Fin m) (frame_time : Nat)
    (s : Cluster n m (Board C Ev M F) F) : Prop where
  calm : Calm cfg s
  quantum (i : Fin n) : (s.spoke i).sim.max_quantum = default_max_quantum
  roomy : Sized cfg e frame_time (guest s (cfg.edge e).src).is_plant
    (guest s (cfg.edge e).dst).is_plant →
    Spaced frame_time ((made cfg s e).map (·.at_)) → Roomy cfg e s

theorem roomyIfSpaced_of_reachable {e : Fin m} {frame_time : Nat} (hwired : (cfg.edge e).wired)
    (h : Reachable (system cfg) StartStop s) : RoomyIfSpaced cfg e frame_time s := by
  refine invariant_of_moved ?_ ?_ h
  · intro s hinit
    refine ⟨.initial hinit, ?_, fun _ _ => ⟨?_, .initial hinit e, .initial hinit⟩⟩
    · intro i
      rw [(hinit.spoke i).sim_eq]
      rfl
    · rw [hinit.env_eq e]
      exact .empty _
  · intro s l s' hs hwf hok hm
    refine ⟨hs.calm.moved hwf hok hm, fun i => (hm.max_quantum_eq i).trans (hs.quantum i), ?_⟩
    intro hsized hspaced
    have hedge := hm.edge hwf hs.calm.pumps hwired
    have hkind (i : Fin n) : (guest s' i).is_plant = (guest s i).is_plant :=
      (hm.guest hwf hs.calm.pumps i).is_plant
    rw [hkind, hkind] at hsized
    -- What has been made so far is spaced as well.
    have hbefore : Spaced frame_time ((made cfg s e).map (·.at_)) :=
      hspaced.prefix (hedge.made_prefix.map _)
    obtain ⟨hlag, horder, hfresh⟩ := hs.roomy hsized hbefore
    have hroom : PublishedOn cfg s l e → (s.env e).ring.length < (cfg.edge e).capacity := by
      intro hpub
      obtain ⟨d, hunsent⟩ := hedge.unsent_of_published hpub
      exact room_of_sized hs.calm hlag horder hfresh hsized hbefore hunsent
    refine ⟨?_, horder.moved hedge (hs.calm.not_resetAt _) hroom, ?_⟩
    · rw [hkind]
      apply hlag.moved hm hwf hs.calm.skew hs.calm.pumps hwired
        (hs.calm.skew.strides hwf (hs.quantum _))
      intro hpub
      rw [Nat.min_self]
      exact hroom hpub
    · rw [hkind]
      exact hfresh.moved hm hwf hs.calm.skew hs.calm.pumps hwired
        (hs.calm.skew.strides hwf (hs.quantum _))

/-- Under Start and Stop, a ring that is sized for two margins drops no frame
    of a sender that keeps the spacing. -/
theorem sized_ring_drops_nothing {e : Fin m} {frame_time : Nat}
    (huart : (cfg.edge e).payload = .Uart) (h : Reachable (system cfg) StartStop s)
    (hsized : Sized cfg e frame_time (guest s (cfg.edge e).src).is_plant
      (guest s (cfg.edge e).dst).is_plant)
    (hspaced : Spaced frame_time ((made cfg s e).map (·.at_))) :
    (s.env e).dropped = [] := by
  have hroomy : RoomyIfSpaced cfg e frame_time s :=
    roomyIfSpaced_of_reachable (Edge.wired_of_uart huart) h
  exact (hroomy.roomy hsized hspaced).order.not_dropped

end boards

/-- A plant that sends every `dt`, and one that only listens. -/
def sender_and_listener (dt : Nat) (i : Fin 2) : GuestKind :=
  if i = 0 then .plant dt true else .plant 10000 false

/-- The receiver looks at its empty ring and is about to poll; the sender runs
    to its ceiling; the receiver's poll raises the ceiling, and the sender goes
    on. -/
def backlog_run : List (Step 2) :=
  host (.Start none) :: receive 0 1 ++ receive 1 1 ++
    recv_loop 1 0 ++ [.spoke 1 (.poll 2), .spoke 1 .pump_tx] ++ recv_loop 1 0 ++
    (List.replicate 4 (send_loop 0 ++ full_loop 0)).flatten ++
    .spoke 1 (.poll 2) :: sync [0, 1] ++ receive 0 1 ++ send_loop 0

theorem sized_ring_drops_nothing_run :
    ∃ s : GuestCluster 2 1,
      Reachable (system (uart_pair 1000 100 (some 16))) StartStop s ∧
      (s.env 0).ring.length = 5 ∧ (s.env 0).dropped = [] := by
  obtain ⟨s, hs, hsized, hspaced, hring⟩ : ∃ s : GuestCluster 2 1,
      Reachable (system (uart_pair 1000 100 (some 16))) StartStop s ∧
      Sized (uart_pair 1000 100 (some 16)) 0 250 (guest s 0).is_plant (guest s 1).is_plant ∧
      Spaced 250 ((made (uart_pair 1000 100 (some 16)) s 0).map (·.at_)) ∧
      (s.env 0).ring.length = 5 :=
    Reachable.exists_of_exec backlog_run
      (initial_guests (uart_pair 1000 100 (some 16)) (sender_and_listener 250))
      (by decide +kernel)
  exact ⟨s, hs, hring, sized_ring_drops_nothing rfl hs hsized hspaced⟩

/-- A ring of 4 frames drops one, for a margin of 1000 and a frame every 250. -/
theorem margin_ring_drops :
    ∃ s : GuestCluster 2 1,
      Reachable (system (uart_pair 1000 100 (some 4))) StartStop s ∧
      1000 ≤ 4 * 250 ∧
      Spaced 250 ((made (uart_pair 1000 100 (some 4)) s 0).map (·.at_)) ∧
      (s.env 0).dropped ≠ [] := by
  obtain ⟨s, hs, hspaced, hdropped⟩ : ∃ s : GuestCluster 2 1,
      Reachable (system (uart_pair 1000 100 (some 4))) StartStop s ∧
      Spaced 250 ((made (uart_pair 1000 100 (some 4)) s 0).map (·.at_)) ∧
      (s.env 0).dropped.length = 1 :=
    Reachable.exists_of_exec backlog_run
      (initial_guests (uart_pair 1000 100 (some 4)) (sender_and_listener 250))
      (by decide +kernel)
  refine ⟨s, hs, by decide, hspaced, ?_⟩
  intro hnil
  rw [hnil] at hdropped
  cases hdropped

end Rl78Sim
