import Rl78Sim.Cluster.GuestMoves
import Rl78Sim.Cluster.Loop
import Rl78Sim.Cluster.Skew

/-! # How Late and in Which Order Frames Arrive

    A frame is published at a time that is within the margin of every ceiling
    and of every clock. The receiver takes up to `rx_batch` frames of a lane
    before each poll, so a frame waits for one poll with the ceiling of the
    moment of publication, and then for one poll for every full batch before
    it. While the host only starts and stops the cluster, nothing else delays
    a frame, and nothing but a full ring loses one.
-/

namespace Rl78Sim

open Transition

variable {n m : Nat} {E F : Type} [Entity E F]

/-! ### Runs under Start and Stop -/

/-- The host gives neither step nor reset commands. -/
def StartStop (_ : Cluster n m E F) (l : Step n) : Prop :=
  is_gdb_step l = false ∧ is_reset l = false

instance (s : Cluster n m E F) (l : Step n) : Decidable (StartStop s l) :=
  inferInstanceAs (Decidable (is_gdb_step l = false ∧ is_reset l = false))

/-- What holds throughout a run under Start and Stop. -/
structure Calm (cfg : Config n m) (s : Cluster n m E F) : Prop where
  skew : SkewInv cfg s
  pumps : AllPumpsOwn cfg s
  no_reset (i : Fin n) : .Reset ∉ s.down i

variable {cfg : Config n m} {s s' : Cluster n m E F} {l : Step n}

theorem Calm.initial (h : Initial cfg s) : Calm cfg s := by
  refine ⟨.initial h, .initial h, ?_⟩
  intro i hmsg
  cases h.down i _ hmsg

theorem Calm.moved [LawfulEntity E] (h : Calm cfg s) (hwf : ClusterWf s) (hok : StartStop s l)
    (hm : Moved cfg s l s') : Calm cfg s' := by
  have hguard : SkewGuard s l := ⟨hok.1, fun hreset => by rw [hok.2] at hreset; cases hreset⟩
  refine ⟨h.skew.moved hwf hguard hm, h.pumps.moved hm, ?_⟩
  intro i hmsg
  rcases hm.mem_down hmsg with hold | ⟨act, out, rfl, heff, hnew⟩
  · exact h.no_reset i hold
  · obtain rfl := heff.reset_mem hnew
    cases hok.2

theorem Calm.not_resetAt (h : Calm cfg s) (i : Fin n) : ¬ ResetAt s l i := by
  rintro ⟨-, -, hhead⟩
  exact h.no_reset i (List.mem_of_mem_head? (Option.mem_def.mpr hhead))

/-! ### How long a frame may wait -/

/-- The virtual time that passes in polls while the frame at place `p` of a
    ring of `size` waits behind full batches that came before it. -/
def slack (size stride p : Nat) : Nat := stride * ((size - 1 - p) / rx_batch)

theorem slack_anti (size stride : Nat) {p p' : Nat} (h : p ≤ p') :
    slack size stride p' ≤ slack size stride p :=
  Nat.mul_le_mul_left _ (Nat.div_le_div_right (Nat.sub_le_sub_left h _))

/-- A frame that moves up by a full batch has waited for one more poll. -/
theorem slack_batch (size stride : Nat) {p : Nat} (h : p + rx_batch < size) :
    slack size stride (p + rx_batch) + stride = slack size stride p := by
  have hsub : size - 1 - p = size - 1 - (p + rx_batch) + rx_batch := by omega
  have hpos : 0 < rx_batch := by decide
  rw [slack, slack, hsub, Nat.add_div_right _ hpos, Nat.mul_succ]

/-- A ring within one batch is emptied before each poll. -/
theorem slack_of_le {size : Nat} (h : size ≤ rx_batch) (stride p : Nat) :
    slack size stride p = 0 := by
  have hpos : 0 < rx_batch := by decide
  rw [slack, Nat.div_eq_of_lt (by omega), Nat.mul_zero]

/-- The latest virtual time at which the receiver may still hold, at place `p`
    of its ring, a frame that was published at `sent_at`. -/
def due (cfg : Config n m) (size stride sent_at p : Nat) : Nat :=
  sent_at + cfg.margin_ns + slack size stride p

/-- The next poll of the receiver keeps the frame in time. -/
def Covered (cfg : Config n m) (size stride : Nat) (nd : Node m E F) (sent_at p : Nat) : Prop :=
  nd.allowed_ns ≤ sent_at + cfg.margin_ns ∨ nd.now + stride ≤ due cfg size stride sent_at p

/-- Where the receiver stands with a frame at place `p` of the lane `e`. In the
    middle of a `pump_rx` that has `k` more frames to take, the frame has moved
    up by `rx_batch - k` places since the last poll. -/
def Placed (cfg : Config n m) (size stride : Nat) (e : Fin m) (nd : Node m E F)
    (sent_at p : Nat) : Prop :=
  match nd.pc with
  | .rx todo => Covered cfg size stride nd sent_at p ∨
      ∃ k, (e, k) ∈ todo ∧ p + (rx_batch - k) < size ∧
        nd.now ≤ due cfg size stride sent_at (p + (rx_batch - k))
  | .poll => Covered cfg size stride nd sent_at p
  | _ => True

/-- Every frame of the lane is on its way in time, and was delivered so. -/
structure Lag (cfg : Config n m) (size stride : Nat) (e : Fin m) (nd : Node m E F)
    (lane : Lane F) : Prop where
  length_le : lane.ring.length ≤ size
  sent_le : ∀ f ∈ lane.ring, f.sent_at ≤ nd.now + cfg.margin_ns
  near (p : Nat) (f : Frame F) : lane.ring[p]? = some f →
    nd.now ≤ due cfg size stride f.sent_at p
  placed (p : Nat) (f : Frame F) : lane.ring[p]? = some f →
    Placed cfg size stride e nd f.sent_at p
  delivered : ∀ d ∈ lane.delivered,
    d.recv_at ≤ due cfg size stride d.frame.sent_at 0 ∧
      d.frame.sent_at ≤ d.recv_at + cfg.margin_ns

/-- The polls of the node cover at most `stride`. -/
def Node.Strides (stride : Nat) (nd : Node m E F) : Prop :=
  nd.pc = .poll → nd.sim.state = .Running → ∀ fuel sim rsp,
    nd.sim.poll fuel = some (sim, rsp) → sim.now ≤ nd.now + stride

namespace Lag

variable {size stride : Nat} {e : Fin m} {nd nd' : Node m E F} {lane : Lane F}

theorem empty (nd : Node m E F) : Lag cfg size stride e nd Lane.empty := by
  refine ⟨Nat.zero_le _, ?_, ?_, ?_, ?_⟩
  · intro f hf
    cases hf
  · intro p f hf
    cases hf
  · intro p f hf
    cases hf
  · intro d hd
    cases hd

/-- A step that leaves the lane and the clock alone. -/
theorem keep (h : Lag cfg size stride e nd lane) (hnow : nd'.now = nd.now)
    (hplaced : ∀ p f, lane.ring[p]? = some f → Placed cfg size stride e nd' f.sent_at p) :
    Lag cfg size stride e nd' lane := by
  refine ⟨h.length_le, ?_, ?_, hplaced, h.delivered⟩
  · intro f hf
    rw [hnow]
    exact h.sent_le f hf
  · intro p f hf
    rw [hnow]
    exact h.near p f hf

omit [Entity E F] in
/-- The frames of the lane after a frame is published into a ring with room. -/
theorem send_ring {capacity : Nat} (hroom : lane.ring.length < capacity) (f : Frame F) :
    lane.send capacity f = { lane with ring := lane.ring ++ [f] } := by
  rw [Lane.send, if_pos hroom]

/-- A covered frame is in its place wherever the receiver stands. -/
theorem placed_of_covered {sent_at p : Nat} (h : Covered cfg size stride nd sent_at p) :
    Placed cfg size stride e nd sent_at p := by
  unfold Placed
  split
  · exact .inl h
  · exact h
  · trivial

/-- Publishing: the receiver's clock and its ceiling are within the margin of
    the sender's clock. -/
theorem send (h : Lag cfg size stride e nd lane) {capacity : Nat} {f : Frame F}
    (hroom : lane.ring.length < min capacity size)
    (hnow : nd.now ≤ f.sent_at + cfg.margin_ns)
    (hallowed : nd.allowed_ns ≤ f.sent_at + cfg.margin_ns)
    (hsent : f.sent_at ≤ nd.now + cfg.margin_ns) :
    Lag cfg size stride e nd (lane.send capacity f) := by
  have hcases {p : Nat} {g : Frame F} (hg : (lane.ring ++ [f])[p]? = some g) :
      lane.ring[p]? = some g ∨ g = f := by
    rw [List.getElem?_append] at hg
    split at hg
    · exact .inl hg
    · exact .inr (List.mem_singleton.mp (List.mem_of_getElem? hg))
  -- There is room, so the frame joins the ring at its end.
  rw [send_ring (by omega)]
  refine ⟨?_, ?_, ?_, ?_, h.delivered⟩
  · show (lane.ring ++ [f]).length ≤ size
    rw [List.length_append, List.length_singleton]
    omega
  · intro g hg
    rcases List.mem_append.mp hg with hold | hnew
    · exact h.sent_le g hold
    · rw [List.mem_singleton.mp hnew]
      exact hsent
  · intro p g hg
    rcases hcases hg with hold | rfl
    · exact h.near p g hold
    · exact Nat.le_trans hnow (Nat.le_add_right _ _)
  · intro p g hg
    rcases hcases hg with hold | rfl
    · exact h.placed p g hold
    · exact placed_of_covered (.inl hallowed)

/-- Taking the oldest frame moves every other frame up by one place. -/
theorem receive (h : Lag cfg size stride e nd lane) {frame : Frame F} {lane' : Lane F}
    (hrecv : lane.receive nd.now = some (frame, lane')) (hnow : nd'.now = nd.now)
    (hallowed : nd'.allowed_ns = nd.allowed_ns) {k : Nat} {rest : List (Fin m × Nat)}
    (hpc : nd.pc = .rx ((e, k + 1) :: rest)) (hpc' : nd'.pc = .rx ((e, k) :: rest)) :
    Lag cfg size stride e nd' lane' := by
  obtain ⟨ring, delivered, dropped⟩ := lane
  cases ring with
  | nil => cases hrecv
  | cons f ring =>
    obtain ⟨rfl, rfl⟩ : f = frame ∧ _ = lane' := by simpa [Lane.receive] using hrecv
    refine ⟨Nat.le_of_succ_le h.length_le, ?_, ?_, ?_, ?_⟩
    · intro g hg
      rw [hnow]
      exact h.sent_le g (List.mem_cons_of_mem _ hg)
    · intro p g hg
      have hold := h.near (p + 1) g hg
      have hmono := slack_anti size stride (Nat.le_add_right p 1)
      rw [hnow]
      unfold due at hold ⊢
      omega
    · intro p g hg
      have hold := h.placed (p + 1) g hg
      unfold Placed at hold ⊢
      rw [hpc] at hold
      rw [hpc']
      dsimp only at hold ⊢
      have hmono := slack_anti size stride (Nat.le_add_right p 1)
      rcases hold with hcov | ⟨k₀, hk₀, hsize, hdue⟩
      · left
        unfold Covered due at hcov ⊢
        rw [hnow, hallowed]
        omega
      · right
        rw [hnow]
        rcases List.mem_cons.mp hk₀ with heq | hrest
        · -- The lane that is being taken from: one place up, one frame fewer to take.
          obtain rfl : k₀ = k + 1 := (Prod.mk.inj heq).2
          refine ⟨k, List.mem_cons_self, ?_, ?_⟩
          · omega
          · refine Nat.le_trans hdue (Nat.add_le_add_left (slack_anti size stride ?_) _)
            omega
        · refine ⟨k₀, List.mem_cons_of_mem _ hrest, ?_, ?_⟩
          · omega
          · refine Nat.le_trans hdue (Nat.add_le_add_left (slack_anti size stride ?_) _)
            omega
    · intro d hd
      rcases List.mem_append.mp hd with hold | hnew
      · exact h.delivered d hold
      · rw [List.mem_singleton.mp hnew]
        exact ⟨h.near 0 f rfl, h.sent_le f List.mem_cons_self⟩

/-- One step of the receiver's loop. -/
theorem looped [LawfulEntity E] {i : Fin n} {lanes lanes' : Lanes m F}
    (h : Lag cfg size stride e nd (lanes e)) (hl : Node.Looped cfg i lanes lanes' nd nd')
    (hallowed : nd'.allowed_ns = nd.allowed_ns) (hwf : nd.Wf) (hown : nd.PumpsOwn cfg i)
    (hstride : nd.Strides stride) (hdst : (cfg.edge e).dst = i) (hwired : (cfg.edge e).wired) :
    Lag cfg size stride e nd' (lanes' e) := by
  -- A place that asks nothing of the frame.
  have hfree {pc : NodePc m F} (hpc : nd'.pc = pc) (hrx : ∀ todo, pc ≠ .rx todo)
      (hpoll : pc ≠ .poll) (p : Nat) (f : Frame F) :
      Placed cfg size stride e nd' f.sent_at p := by
    unfold Placed
    rw [hpc]
    split
    · exact absurd rfl (hrx _)
    · exact absurd rfl hpoll
    · trivial
  have hcov {sent_at p : Nat} (hnow : nd'.now = nd.now)
      (hcov : Covered cfg size stride nd sent_at p) : Covered cfg size stride nd' sent_at p := by
    unfold Covered at hcov ⊢
    rw [hnow, hallowed]
    exact hcov
  cases hl with
  | outside hpc hpc' hnow hlanes =>
    rw [hlanes]
    refine h.keep hnow fun p f _ => ?_
    apply hfree rfl
    · intro todo heq
      rw [heq] at hpc'
      cases hpc'
    · intro heq
      rw [heq] at hpc'
      cases hpc'
  | begin_rx hpc hpc' hnow hlanes =>
    rw [hlanes]
    refine h.keep hnow fun p f hf => ?_
    have hp : p < (lanes e).ring.length := (List.getElem?_eq_some_iff.mp hf).1
    have hlen := h.length_le
    unfold Placed
    rw [hpc']
    right
    refine ⟨rx_batch, ?_, ?_, ?_⟩
    · exact List.mem_map.mpr ⟨e, cfg.mem_in_lanes.mpr ⟨hdst, hwired⟩, rfl⟩
    · omega
    · rw [hnow, Nat.sub_self]
      exact h.near p f hf
  | skip q rest hpc hpc' hempty hnow hlanes =>
    rw [hlanes]
    refine h.keep hnow fun p f hf => ?_
    have hold := h.placed p f hf
    unfold Placed at hold ⊢
    rw [hpc] at hold
    rw [hpc']
    rcases hold with hold | ⟨k, hk, hsize, hdue⟩
    · exact .inl (hcov hnow hold)
    · rcases List.mem_cons.mp hk with rfl | hrest
      · left
        rcases hempty with hzero | hring
        · -- The batch is used up: the frame has moved up by `rx_batch` places.
          obtain rfl : k = 0 := hzero
          right
          have hbatch := slack_batch size stride hsize
          unfold due at hdue ⊢
          rw [Nat.sub_zero] at hdue
          rw [hnow]
          omega
        · rw [hring] at hf
          cases hf
      · right
        rw [hnow]
        exact ⟨k, hrest, hsize, hdue⟩
  | took e' k rest frame lane hpc hpc' hrecv hnow hlanes =>
    by_cases he : e = e'
    · subst he
      rw [hlanes, Function.update_self]
      exact h.receive hrecv hnow hallowed hpc hpc'
    · rw [hlanes, Function.update_of_ne he]
      refine h.keep hnow fun p f hf => ?_
      have hold := h.placed p f hf
      unfold Placed at hold ⊢
      rw [hpc] at hold
      rw [hpc']
      rcases hold with hold | ⟨k₀, hk₀, hsize, hdue⟩
      · exact .inl (hcov hnow hold)
      · right
        rw [hnow]
        rcases List.mem_cons.mp hk₀ with heq | hrest
        · exact absurd (Prod.mk.inj heq).1 he
        · exact ⟨k₀, List.mem_cons_of_mem _ hrest, hsize, hdue⟩
  | end_rx hpc hpc' hnow hlanes =>
    rw [hlanes]
    refine h.keep hnow fun p f hf => ?_
    have hold := h.placed p f hf
    unfold Placed at hold ⊢
    rw [hpc] at hold
    rw [hpc']
    rcases hold with hold | ⟨k, hk, -⟩
    · exact hcov hnow hold
    · cases hk
  | no_poll hpc hpc' hnow hlanes =>
    rw [hlanes]
    exact h.keep hnow fun p f _ => hfree hpc' (fun _ => nofun) nofun p f
  | polled fuel sim rsp todo hpc hpc' hrun hpoll hnow hdrained hlanes =>
    rw [hlanes]
    have hspec := Simulator.poll_spec hrun hpoll
    have hstate := hwf.running_of_poll hpc
    have hge : nd.now ≤ sim.now := hspec.now_le
    have hceil : sim.now ≤ max nd.now nd.allowed_ns :=
      hspec.le_allowed (hwf.step_once hstate) _ (hwf.allowed hstate)
    have hmoved := hstride hpc hrun fuel sim rsp hpoll
    refine ⟨h.length_le, ?_, ?_, fun p f _ => hfree hpc' (fun _ => nofun) nofun p f,
      h.delivered⟩
    · intro f hf
      have hsent := h.sent_le f hf
      omega
    · intro p f hf
      have hnear := h.near p f hf
      have hplaced := h.placed p f hf
      unfold Placed at hplaced
      rw [hpc] at hplaced
      rw [hnow]
      unfold due at hnear ⊢
      rcases hplaced with hcovered | hcovered
      · omega
      · exact Nat.le_trans hmoved hcovered
  | sent e' d rest hpc hpc' hsim hlanes =>
    have hne : e ≠ e' := by
      intro heq
      subst heq
      have hsrc := (hown.tx (e, d) (by rw [hpc]; exact List.mem_cons_self)).1
      exact cfg.edge_ne e (hsrc.trans hdst.symm)
    rw [hlanes, Function.update_of_ne hne]
    have hnow : nd'.now = nd.now := by rw [Node.now, hsim, Node.now]
    exact h.keep hnow fun p f _ => hfree hpc' (fun _ => nofun) nofun p f
  | end_tx hpc hpc' hsim hlanes =>
    rw [hlanes]
    have hnow : nd'.now = nd.now := by rw [Node.now, hsim, Node.now]
    exact h.keep hnow fun p f _ => hfree hpc' (fun _ => nofun) nofun p f

/-- Discarding leaves only what was delivered. -/
theorem discard (h : Lag cfg size stride e nd lane) : Lag cfg size stride e nd' lane.discard := by
  refine ⟨Nat.zero_le _, ?_, ?_, ?_, h.delivered⟩
  · intro f hf
    cases hf
  · intro p f hf
    cases hf
  · intro p f hf
    cases hf

/-- One step of the cluster. -/
theorem moved [LawfulEntity E]
    (h : Lag cfg size stride e (s.spoke (cfg.edge e).dst) (s.env e)) (hm : Moved cfg s l s')
    (hwf : ClusterWf s) (hskew : SkewInv cfg s) (hown : AllPumpsOwn cfg s)
    (hwired : (cfg.edge e).wired) (hstride : (s.spoke (cfg.edge e).dst).Strides stride)
    (hroom : PublishedOn cfg s l e →
      (s.env e).ring.length < min (cfg.edge e).capacity size) :
    Lag cfg size stride e (s'.spoke (cfg.edge e).dst) (s'.env e) := by
  have hedge := hm.edge hwf hown hwired
  cases hm.loop (hskew.no_step (cfg.edge e).dst (cfg.edge e).dst) with
  -- The receiver stands still; only its ring may change.
  | still hactor hspoke =>
    rw [hspoke]
    cases hedge with
    | grew new henv =>
      rw [henv]
      exact h
    | published d _ hpub _ _ henv =>
      rw [henv]
      apply h.send (hroom hpub)
      · exact hskew.clock_le _ _
      · exact hskew.allowed_le _ _
      · exact hskew.clock_le _ _
    | delivered frame lane hl =>
      subst hl
      exact absurd rfl hactor
    | discarded _ henv =>
      rw [henv]
      exact h.discard
  -- The receiver takes a control message; no frame is in the middle of a pump then.
  | handled htaker hpc hpc' hnow =>
    have hkeep (henv : s'.env e = s.env e) :
        Lag cfg size stride e (s'.spoke (cfg.edge e).dst) (s'.env e) := by
      rw [henv]
      refine h.keep hnow fun p f _ => ?_
      unfold Placed
      rw [hpc']
      trivial
    cases hedge with
    | grew new henv => exact hkeep henv
    | published d hl =>
      subst hl
      cases htaker
    | delivered frame lane hl =>
      subst hl
      cases htaker
    | discarded _ henv =>
      rw [henv]
      exact h.discard
  | looped act _ hlooped hallowed =>
    exact h.looped hlooped hallowed (hwf.node _) (hown _) hstride rfl hwired

end Lag

/-! ### Frames keep their order -/

/-- A drive, as its frames carry it. -/
def Drive.content (d : Drive F) : F × Nat := (d.value, d.at_)

/-- A frame, as it was driven. -/
def Frame.content (f : Frame F) : F × Nat := (f.value, f.driven_at)

/-- The frames that have left the sender: delivered, or still in the ring. -/
def Lane.left (lane : Lane F) : List (Frame F) := lane.delivered.map (·.frame) ++ lane.ring

/-- What has left the sender, followed by what it has yet to publish, is all
    that its guest drove. -/
structure InOrder (cfg : Config n m) (s : Cluster n m E F) (e : Fin m) : Prop where
  made_eq : (s.env e).left.map Frame.content ++ (unsent cfg s e).map Drive.content =
    (made cfg s e).map Drive.content
  not_dropped : (s.env e).dropped = []

omit [Entity E F] in
theorem Lane.left_send (lane : Lane F) {capacity : Nat} (hroom : lane.ring.length < capacity)
    (f : Frame F) : (lane.send capacity f).left = lane.left ++ [f] ∧
      (lane.send capacity f).dropped = lane.dropped := by
  rw [Lag.send_ring hroom]
  exact ⟨(List.append_assoc _ _ _).symm, rfl⟩

omit [Entity E F] in
theorem Lane.left_receive {lane lane' : Lane F} {now : Nat} {f : Frame F}
    (h : lane.receive now = some (f, lane')) :
    lane'.left = lane.left ∧ lane'.dropped = lane.dropped := by
  obtain ⟨ring, delivered, dropped⟩ := lane
  cases ring with
  | nil => cases h
  | cons g ring =>
    cases h
    refine ⟨?_, rfl⟩
    simp [Lane.left]

theorem InOrder.initial (h : Initial cfg s) (e : Fin m) : InOrder cfg s e := by
  have hspoke := h.spoke (cfg.edge e).src
  refine ⟨?_, ?_⟩
  · simp [h.env_eq e, Lane.left, Lane.empty, unsent, made, Node.unsent, Node.made, hspoke.pc_eq,
      hspoke.ports_eq, OutPorts.empty, NodePc.tx_todo]
  · rw [h.env_eq e]
    rfl

/-- Without a reset, only a full ring breaks the order. -/
theorem InOrder.moved {e : Fin m} (h : InOrder cfg s e) (hedge : EdgeMoved cfg s l s' e)
    (hno : ¬ ResetAt s l (cfg.edge e).dst)
    (hroom : PublishedOn cfg s l e → (s.env e).ring.length < (cfg.edge e).capacity) :
    InOrder cfg s' e := by
  cases hedge with
  | grew new henv hunsent hmade =>
    refine ⟨?_, ?_⟩
    · rw [henv, hunsent, hmade, List.map_append, List.map_append, ← List.append_assoc, h.made_eq]
    · rw [henv]
      exact h.not_dropped
  | published d _ hpub hunsent hmade henv =>
    obtain ⟨hleft, hdropped⟩ := (s.env e).left_send (hroom hpub)
      ⟨d.value, d.at_, (s.spoke (cfg.edge e).src).now⟩
    refine ⟨?_, ?_⟩
    · rw [henv, hleft, hmade, ← h.made_eq, hunsent, List.map_append, List.append_assoc]
      rfl
    · rw [henv, hdropped]
      exact h.not_dropped
  | delivered frame lane _ hrecv henv hunsent hmade =>
    obtain ⟨hleft, hdropped⟩ := Lane.left_receive hrecv
    refine ⟨?_, ?_⟩
    · rw [henv, hleft, hunsent, hmade]
      exact h.made_eq
    · rw [henv, hdropped]
      exact h.not_dropped
  | discarded hreset => exact absurd hreset hno

/-- What the receiving guest was given is the beginning of what the sending
    guest drove. -/
theorem InOrder.delivered_prefix {e : Fin m} (h : InOrder cfg s e) :
    (s.env e).delivered.map (·.frame.value) <+: (made cfg s e).map (·.value) := by
  have hvalues := congrArg (List.map Prod.fst) h.made_eq
  simp only [Lane.left, List.map_append, List.map_map, List.append_assoc] at hvalues
  exact ⟨_, hvalues⟩

/-! ### Delivery within the margin -/

/-- Every poll ends within the margin, since the ceiling is. -/
theorem SkewInv.strides_margin [LawfulEntity E] (h : SkewInv cfg s) (hwf : ClusterWf s)
    (i : Fin n) :
    (s.spoke i).Strides cfg.margin_ns := by
  intro hpc hrun fuel sim rsp hpoll
  have hspec := Simulator.poll_spec hrun hpoll
  have hstate := (hwf.node i).running_of_poll hpc
  have hceil : sim.now ≤ max (s.spoke i).now (s.spoke i).allowed_ns :=
    hspec.le_allowed ((hwf.node i).step_once hstate) _ ((hwf.node i).allowed hstate)
  have hallowed := h.allowed_le i i
  omega

/-- The edge holds at most one batch of frames, and none overflows. -/
def ShortRing (cfg : Config n m) (e : Fin m) (s : Cluster n m E F) (l : Step n) : Prop :=
  PublishedOn cfg s l e → (s.env e).ring.length < min (cfg.edge e).capacity rx_batch

instance (cfg : Config n m) (e : Fin m) (s : Cluster n m E F) (l : Step n) :
    Decidable (ShortRing cfg e s l) :=
  inferInstanceAs (Decidable (PublishedOn cfg s l e →
    (s.env e).ring.length < min (cfg.edge e).capacity rx_batch))

/-- What holds of an edge whose ring stays short. -/
structure Prompt (cfg : Config n m) (e : Fin m) (s : Cluster n m E F) : Prop where
  calm : Calm cfg s
  lag : Lag cfg (min (cfg.edge e).capacity rx_batch) cfg.margin_ns e
    (s.spoke (cfg.edge e).dst) (s.env e)
  order : InOrder cfg s e

theorem prompt_of_reachable [LawfulEntity E] {e : Fin m} (hwired : (cfg.edge e).wired)
    (h : Reachable (system cfg) (fun s l => StartStop s l ∧ ShortRing cfg e s l) s) :
    Prompt cfg e s := by
  refine invariant_of_moved ?_ ?_ h
  · intro s hinit
    refine ⟨.initial hinit, ?_, .initial hinit e⟩
    rw [hinit.env_eq e]
    exact .empty _
  · rintro s l s' hs hwf ⟨hok, hshort⟩ hm
    refine ⟨hs.calm.moved hwf hok hm, ?_, ?_⟩
    · apply hs.lag.moved hm hwf hs.calm.skew hs.calm.pumps hwired
        (hs.calm.skew.strides_margin hwf _)
      intro hpub
      exact Nat.lt_of_lt_of_eq (hshort hpub) (by omega)
    · apply hs.order.moved (hm.edge hwf hs.calm.pumps hwired) (hs.calm.not_resetAt _)
      intro hpub
      exact Nat.lt_of_lt_of_le (hshort hpub) (Nat.min_le_left _ _)

/-- While the host only starts and stops the cluster and the ring of an edge
    stays short, frames arrive within the margin of their publication, and in
    the order in which they were driven. -/
theorem uart_within_margin [LawfulEntity E] {e : Fin m} (huart : (cfg.edge e).payload = .Uart)
    (h : Reachable (system cfg) (fun s l => StartStop s l ∧ ShortRing cfg e s l) s) :
    (∀ d ∈ (s.env e).delivered, d.recv_at ≤ d.frame.sent_at + cfg.margin_ns ∧
      d.frame.sent_at ≤ d.recv_at + cfg.margin_ns) ∧
    (s.env e).delivered.map (·.frame.value) <+: (made cfg s e).map (·.value) := by
  have hprompt := prompt_of_reachable (Edge.wired_of_uart huart) h
  refine ⟨fun d hd => ?_, hprompt.order.delivered_prefix⟩
  obtain ⟨hrecv, hsent⟩ := hprompt.lag.delivered d hd
  rw [due, slack_of_le (Nat.min_le_right _ _), Nat.add_zero] at hrecv
  exact ⟨hrecv, hsent⟩

/-- One iteration of a running node without receive lanes that publishes one
    frame. -/
def send_loop {n : Nat} (i : Fin n) : List (Step n) := full_loop i ++ [.spoke i .pump_tx]

/-- The iteration of a running node with one receive lane, up to its poll, with
    `k` frames in the lane. -/
def recv_loop {n : Nat} (i : Fin n) (k : Nat) : List (Step n) :=
  idle_loop i ++ List.replicate (k + 2) (.spoke i .pump_rx)

/-- Board 0 sends at 0 and at 900 before board 1 has polled once. -/
def lead_run : List (Step 2) :=
  host (.Start none) :: receive 0 1 ++ send_loop 0 ++ full_loop 0 ++ send_loop 0 ++
    receive 1 1 ++ recv_loop 1 2

theorem uart_within_margin_lead :
    ∃ s : GuestCluster 2 1,
      Reachable (system (uart_pair 1000 100 none))
        (fun s l => StartStop s l ∧ ShortRing (uart_pair 1000 100 none) 0 s l) s ∧
      (s.env 0).delivered.map (fun d => (d.recv_at, d.frame.sent_at)) = [(0, 0), (0, 900)] ∧
      (∀ d ∈ (s.env 0).delivered, d.recv_at ≤ d.frame.sent_at + 1000 ∧
        d.frame.sent_at ≤ d.recv_at + 1000) ∧
      (s.env 0).delivered.map (·.frame.value) <+:
        (made (uart_pair 1000 100 none) s 0).map (·.value) := by
  obtain ⟨s, hs, hdelivered⟩ : ∃ s : GuestCluster 2 1,
      Reachable (system (uart_pair 1000 100 none))
        (fun s l => StartStop s l ∧ ShortRing (uart_pair 1000 100 none) 0 s l) s ∧
      (s.env 0).delivered.map (fun d => (d.recv_at, d.frame.sent_at)) = [(0, 0), (0, 900)] :=
    Reachable.exists_of_exec lead_run (initial_plants (uart_pair 1000 100 none) 900 true)
      (by decide +kernel)
  exact ⟨s, hs, hdelivered, uart_within_margin rfl hs⟩

end Rl78Sim
