import Rl78Sim.Cluster.Backlog
import Rl78Sim.Hw.RxLine

/-! # Pacing

    Frames carry no time. The receiver drives them into its guest when its loop
    looks into the ring, while its clock may be a margin ahead of the sender's
    or a margin behind. What the sender leaves between its drives shrinks by
    two margins on the way, and by the poll that a frame waits for before it is
    published. What is left has to be a frame time, if a guest that takes that
    long to empty the buffer of its channel is not to be overrun.
-/

namespace Rl78Sim

open Transition

variable {n m : Nat} {E F : Type} [Entity E F]
variable {cfg : Config n m} {s s' : Cluster n m E F} {l : Step n} {e : Fin m}

theorem spaced_iff_pairwise {frame_time : Nat} {times : List Nat} :
    Spaced frame_time times ↔ times.Pairwise fun a b => a + frame_time ≤ b := by
  have htrans : IsTrans Nat fun a b => a + frame_time ≤ b := by
    constructor
    intro a b c hab hbc
    omega
  exact List.isChain_iff_pairwise

/-! ### From the drive to the guest -/

/-- When the frames that have left the sender, and those that it has yet to
    publish, were driven. -/
def drive_times (cfg : Config n m) (s : Cluster n m E F) (e : Fin m) : List Nat :=
  (s.env e).left.map (·.driven_at) ++ (unsent cfg s e).map (·.at_)

/-- The frames of an edge keep the order of their drives, and its ring holds one
    of them at most. -/
structure Passage (cfg : Config n m) (stride : Nat) (e : Fin m) (s : Cluster n m E F) : Prop where
  lag : Lag cfg 1 cfg.margin_ns e (s.spoke (cfg.edge e).dst) (s.env e)
  fresh : Fresh cfg stride e s
  order : (drive_times cfg s e).Sublist ((made cfg s e).map (·.at_))
  timely : ∀ f ∈ (s.env e).left, f.driven_at ≤ f.sent_at ∧ f.sent_at ≤ f.driven_at + stride
  not_dropped : (s.env e).dropped = []

namespace Passage

variable {stride frame_time : Nat}

theorem initial (h : Initial cfg s) : Passage cfg stride e s := by
  have hspoke := h.spoke (cfg.edge e).src
  have hunsent : unsent cfg s e = [] := by
    simp [unsent, Node.unsent, hspoke.pc_eq, hspoke.ports_eq, OutPorts.empty, NodePc.tx_todo]
  refine ⟨?_, .initial h, ?_, ?_, ?_⟩
  · rw [h.env_eq e]
    exact .empty _
  · simp [drive_times, hunsent, h.env_eq e, Lane.left, Lane.empty]
  · rw [h.env_eq e]
    exact List.forall_mem_nil _
  · rw [h.env_eq e]
    rfl

/-- A frame in the ring of the edge and a drive that is still to be published
    are spaced. -/
theorem ring_before (h : Passage cfg stride e s)
    (hspaced : Spaced frame_time ((made cfg s e).map (·.at_))) {f : Frame F}
    (hf : f ∈ (s.env e).ring) {d : Drive F} (hd : d ∈ unsent cfg s e) :
    f.driven_at + frame_time ≤ d.at_ := by
  have htimes := (spaced_iff_pairwise.mp hspaced).sublist h.order
  refine (List.pairwise_append.mp htimes).2.2 _ ?_ _ (List.mem_map_of_mem hd)
  exact List.mem_map_of_mem (List.mem_append_right _ hf)

/-- When the next frame is published, the one before it has been taken: at that
    time the receiver is at most a margin behind the sender, and it is not past
    the one before by more than a margin. -/
theorem ring_nil (h : Passage cfg stride e s) (hskew : SkewInv cfg s) (hpos : 0 < frame_time)
    (hspaced : Spaced (frame_time + 2 * cfg.margin_ns + stride) ((made cfg s e).map (·.at_)))
    {d : Drive F} (hd : d ∈ unsent cfg s e) : (s.env e).ring = [] := by
  by_contra hne
  obtain ⟨f, rest, hring⟩ := List.exists_cons_of_ne_nil hne
  have hmem : f ∈ (s.env e).ring := hring ▸ List.mem_cons_self
  have hbefore := h.ring_before hspaced hmem hd
  have hnear := h.lag.near 0 f (by rw [hring]; rfl)
  have hclock := hskew.clock_le (cfg.edge e).src (cfg.edge e).dst
  have hat := h.fresh.at_le d hd
  have hsent := h.fresh.sent_le f hmem
  rw [due, slack_of_le (by decide), Nat.add_zero] at hnear
  omega

/-- What reaches the guest is at least a frame time apart. -/
theorem recv_spaced (h : Passage cfg stride e s)
    (hspaced : Spaced (frame_time + 2 * cfg.margin_ns + stride) ((made cfg s e).map (·.at_))) :
    Spaced frame_time ((s.env e).delivered.map (·.recv_at)) := by
  have htimes := (spaced_iff_pairwise.mp hspaced).sublist h.order
  have hleft := (List.pairwise_append.mp htimes).1
  rw [Lane.left, List.map_append, List.map_map] at hleft
  have hdriven := List.pairwise_map.mp (List.pairwise_append.mp hleft).1
  refine spaced_iff_pairwise.mpr (List.pairwise_map.mpr (hdriven.imp_of_mem ?_))
  intro a b ha hb hab
  -- `a` was taken at most a margin after it was sent, `b` at most a margin before.
  have hlate := (h.lag.delivered a ha).1
  have hearly := (h.lag.delivered b hb).2
  have hsent := (h.timely a.frame (List.mem_append_left _ (List.mem_map_of_mem ha))).2
  have hdrive := (h.timely b.frame (List.mem_append_left _ (List.mem_map_of_mem hb))).1
  rw [due, slack_of_le (by decide), Nat.add_zero] at hlate
  simp only [Function.comp_apply] at hab
  omega

/-- One step of the cluster. -/
theorem moved [LawfulEntity E] (h : Passage cfg stride e s) (hm : Moved cfg s l s')
    (hwf : ClusterWf s) (hskew : SkewInv cfg s) (hown : AllPumpsOwn cfg s)
    (huart : (cfg.edge e).payload = .Uart)
    (hstride : (s.spoke (cfg.edge e).src).Strides stride) (hpos : 0 < frame_time)
    (hspaced : Spaced (frame_time + 2 * cfg.margin_ns + stride) ((made cfg s e).map (·.at_))) :
    Passage cfg stride e s' := by
  have hwired := Edge.wired_of_uart huart
  have hedge := hm.edge hwf hown hwired
  have hcapacity := Edge.two_le_capacity huart
  -- Each frame finds an empty ring, and so one place is enough.
  have hroom : PublishedOn cfg s l e → (s.env e).ring = [] := by
    intro hpub
    obtain ⟨d, hunsent⟩ := hedge.unsent_of_published hpub
    exact h.ring_nil hskew hpos hspaced (hunsent ▸ List.mem_cons_self)
  have hlag : Lag cfg 1 cfg.margin_ns e (s'.spoke (cfg.edge e).dst) (s'.env e) := by
    apply h.lag.moved hm hwf hskew hown hwired (hskew.strides_margin hwf _)
    intro hpub
    rw [hroom hpub]
    show 0 < min (cfg.edge e).capacity 1
    omega
  have hfresh := h.fresh.moved hm hwf hskew hown hwired hstride
  cases hedge with
  | grew new henv hunsent hmade =>
    refine ⟨hlag, hfresh, ?_, ?_, ?_⟩
    · rw [drive_times, henv, hunsent, hmade, List.map_append, List.map_append, ← List.append_assoc]
      exact h.order.append_right _
    · rw [henv]
      exact h.timely
    · rw [henv]
      exact h.not_dropped
  -- The drive becomes a frame at its place in the order, at most a poll late.
  | published d _ hpub hunsent hmade henv =>
    have hlt : (s.env e).ring.length < (cfg.edge e).capacity := by
      rw [hroom hpub]
      exact Nat.lt_of_lt_of_le Nat.zero_lt_two hcapacity
    obtain ⟨hleft, hdropped⟩ := (s.env e).left_send hlt
      ⟨d.value, d.at_, (s.spoke (cfg.edge e).src).now⟩
    refine ⟨hlag, hfresh, ?_, ?_, ?_⟩
    · have hold := h.order
      rw [drive_times, hunsent] at hold
      rw [drive_times, henv, hleft, hmade, List.map_append, List.append_assoc]
      exact hold
    · intro f hf
      rw [henv, hleft] at hf
      rcases List.mem_append.mp hf with hold | hnew
      · exact h.timely f hold
      · rw [List.mem_singleton.mp hnew]
        have hmem : d ∈ unsent cfg s e := hunsent ▸ List.mem_cons_self
        exact ⟨h.fresh.at_le d hmem, h.fresh.le_stride d hmem⟩
    · rw [henv, hdropped]
      exact h.not_dropped
  | delivered frame lane _ hrecv henv hunsent hmade =>
    obtain ⟨hleft, hdropped⟩ := Lane.left_receive hrecv
    refine ⟨hlag, hfresh, ?_, ?_, ?_⟩
    · rw [drive_times, henv, hleft, hunsent, hmade]
      exact h.order
    · rw [henv, hleft]
      exact h.timely
    · rw [henv, hdropped]
      exact h.not_dropped
  -- A reset takes frames away, and leaves the others in their order.
  | discarded _ henv hunsent hmade =>
    have hsub : (s'.env e).left.Sublist (s.env e).left := by
      rw [henv]
      exact List.Sublist.append_left (List.nil_sublist _) _
    refine ⟨hlag, hfresh, ?_, ?_, ?_⟩
    · rw [drive_times, hunsent, hmade]
      exact ((hsub.map _).append_right _).trans h.order
    · intro f hf
      exact h.timely f (hsub.subset hf)
    · rw [henv]
      exact h.not_dropped

end Passage

/-! ### Guests that read in time -/

/-- The guest at the end of `e` has read the data register of its channel within
    `frame_time` of each receive interrupt: a full buffer holds the frame that
    the guest was handed last, and less than that time has passed since. -/
def ReadsInTime (cfg : Config n m) (line : RxLine E) (e : Fin m) (frame_time : Nat)
    (s : Cluster n m E F) : Prop :=
  line.full (guest s (cfg.edge e).dst) = true →
    ((s.env e).delivered.getLast?.any fun d =>
      (s.spoke (cfg.edge e).dst).now < d.recv_at + frame_time) = true

instance (cfg : Config n m) (line : RxLine E) (e : Fin m) (frame_time : Nat)
    (s : Cluster n m E F) : Decidable (ReadsInTime cfg line e frame_time s) :=
  inferInstanceAs (Decidable (_ → _))

/-- The runs within the skew bound whose receiving guest reads in time. -/
def Attended (cfg : Config n m) (line : RxLine E) (e : Fin m) (frame_time : Nat)
    (s : Cluster n m E F) (l : Step n) : Prop :=
  SkewGuard s l ∧ ReadsInTime cfg line e frame_time s

instance (cfg : Config n m) (line : RxLine E) (e : Fin m) (frame_time : Nat)
    (s : Cluster n m E F) (l : Step n) : Decidable (Attended cfg line e frame_time s l) :=
  inferInstanceAs (Decidable (_ ∧ _))

/-- A guest that reads in time has emptied its buffer when the next frame is
    handed to it a frame time later. -/
theorem ReadsInTime.empty {line : RxLine E} {frame_time : Nat}
    (h : ReadsInTime cfg line e frame_time s) {d : Delivery F}
    (hspaced : Spaced frame_time (((s.env e).delivered ++ [d]).map (·.recv_at)))
    (hnow : d.recv_at = (s.spoke (cfg.edge e).dst).now) :
    line.full (guest s (cfg.edge e).dst) = false := by
  by_contra hfull
  have hlast := h (by simpa using hfull)
  cases hd : (s.env e).delivered.getLast? with
  | none =>
    rw [hd] at hlast
    cases hlast
  | some last =>
    rw [hd] at hlast
    have hlate : (s.spoke (cfg.edge e).dst).now < last.recv_at + frame_time := by
      simpa using hlast
    rw [List.map_append] at hspaced
    have hcross := (List.pairwise_append.mp (spaced_iff_pairwise.mp hspaced)).2.2 last.recv_at
      (List.mem_map_of_mem (List.mem_of_getLast? hd)) d.recv_at (List.mem_map_of_mem (by simp))
    omega

/-! ### Runs of boards -/

section boards

variable {C Ev M : Type} [Cpu C Ev F] [Model M F] {s s' : Cluster n m (Board C Ev M F) F}

omit [Entity E F]

/-- A frame time, with what the spacing of the drives on `e` may lose on the way:
    two margins, and what one poll of the sender may cover. -/
def pace (cfg : Config n m) (s : Cluster n m (Board C Ev M F) F) (e : Fin m)
    (frame_time : Nat) : Nat :=
  frame_time + 2 * cfg.margin_ns + stride cfg.margin_ns (guest s (cfg.edge e).src).is_plant

/-- The run is within the skew bound, and the frames of `e` make their way if
    the sender has kept the pace so far. -/
structure PassageIfPaced (cfg : Config n m) (e : Fin m) (frame_time : Nat)
    (s : Cluster n m (Board C Ev M F) F) : Prop where
  skew : SkewInv cfg s
  pumps : AllPumpsOwn cfg s
  quantum (i : Fin n) : (s.spoke i).sim.max_quantum = default_max_quantum
  passage : Spaced (pace cfg s e frame_time) ((made cfg s e).map (·.at_)) →
    Passage cfg (stride cfg.margin_ns (guest s (cfg.edge e).src).is_plant) e s

theorem PassageIfPaced.moved {frame_time : Nat} (huart : (cfg.edge e).payload = .Uart)
    (hpos : 0 < frame_time) (h : PassageIfPaced cfg e frame_time s) (hwf : ClusterWf s)
    (hok : SkewGuard s l) (hm : Moved cfg s l s') : PassageIfPaced cfg e frame_time s' := by
  refine ⟨h.skew.moved hwf hok hm, h.pumps.moved hm,
    fun i => (hm.max_quantum_eq i).trans (h.quantum i), ?_⟩
  intro hspaced
  have hkind : (guest s' (cfg.edge e).src).is_plant = (guest s (cfg.edge e).src).is_plant :=
    (hm.guest hwf h.pumps _).is_plant
  rw [pace, hkind] at hspaced
  -- What has been driven so far is spaced as well.
  have hedge := hm.edge hwf h.pumps (Edge.wired_of_uart huart)
  have hbefore := List.IsChain.prefix hspaced (hedge.made_prefix.map _)
  rw [hkind]
  exact (h.passage hbefore).moved hm hwf h.skew h.pumps huart
    (h.skew.strides hwf (h.quantum _)) hpos hbefore

theorem passageIfPaced_of_reachable {frame_time : Nat} (huart : (cfg.edge e).payload = .Uart)
    (hpos : 0 < frame_time) (h : Reachable (system cfg) SkewGuard s) :
    PassageIfPaced cfg e frame_time s := by
  refine invariant_of_moved ?_ ?_ h
  · intro s hinit
    refine ⟨.initial hinit, .initial hinit, ?_, fun _ => .initial hinit⟩
    intro i
    rw [(hinit.spoke i).sim_eq]
    rfl
  · intro s l s' hs hwf hok hm
    exact hs.moved huart hpos hwf hok hm

/-- What a step may do to a line that is kept free. -/
structure KeptFree (cfg : Config n m) (line : RxLine (Board C Ev M F)) (e : Fin m)
    (frame_time : Nat) (s s' : Cluster n m (Board C Ev M F) F) : Prop where
  not_dropped : (s'.env e).dropped = []
  recv_spaced : Spaced frame_time ((s'.env e).delivered.map (·.recv_at))
  ovf_eq : (s'.env e).delivered ≠ (s.env e).delivered →
    line.ovf (guest s' (cfg.edge e).dst) = line.ovf (guest s (cfg.edge e).dst)

/-- A sender that keeps the pace loses no frame on the way and overruns no guest
    that reads in time, in every run within the skew bound. -/
theorem paced_sender_never_overruns {line : RxLine (Board C Ev M F)} {frame_time : Nat}
    (huart : (cfg.edge e).payload = .Uart) (hport : (cfg.edge e).dst_port = line.port)
    (hpos : 0 < frame_time) (h : Reachable (system cfg) (Attended cfg line e frame_time) s)
    (hok : Attended cfg line e frame_time s l) (hstep : (system cfg).step s l = some s')
    (hspaced : Spaced (pace cfg s' e frame_time) ((made cfg s' e).map (·.at_))) :
    KeptFree cfg line e frame_time s s' := by
  have hskew : Reachable (system cfg) SkewGuard s := h.mono fun _ _ hok => hok.1
  have hwf := wf_of_reachable hskew
  have hpaced : PassageIfPaced cfg e frame_time s' :=
    passageIfPaced_of_reachable huart hpos (.step l hskew hok.1 hstep)
  have hpassage := hpaced.passage hspaced
  have hrecv := hpassage.recv_spaced hspaced
  refine ⟨hpassage.not_dropped, hrecv, ?_⟩
  intro hnew
  have hedge := (step_moved hwf hstep).edge hwf (allPumpsOwn_of_reachable hskew)
    (Edge.wired_of_uart huart)
  -- Nothing but a delivery changes what the guest was handed.
  cases hedge with
  | grew _ henv => exact absurd (by rw [henv]) hnew
  | published _ _ _ _ _ henv =>
    rw [henv] at hnew
    exact absurd (by unfold Lane.send; split <;> rfl) hnew
  | discarded _ henv =>
    rw [henv] at hnew
    exact absurd rfl hnew
  | delivered frame lane _ hreceive henv _ _ hentity =>
    have hdelivered := (Lane.receive_cases hreceive).2.1
    rw [henv, hdelivered] at hrecv
    rw [guest, hentity, hport]
    exact line.ovf_receive (hok.2.empty hrecv rfl) frame.value

end boards

/-! ### A beacon and a reader -/

/-- A plant that sends the same frame at every step. -/
structure Beacon where
  dt : Nat
  frame : UartFrame

instance : Model Beacon UartFrame where
  dt b := b.dt
  reset b := (b, [])
  step b := (b, [("tx", b.frame)])
  drive_in _ _ b := (b, [])

/-- A guest that reads the data register of channel 1 when it has retired `delay`
    instructions since a frame came in. `wait` is what is left of them. -/
structure Reader where
  delay : Nat
  wait : Option Nat

namespace Reader

instance : Rest Reader Empty UartFrame where
  run_quantum max _ k :=
    match k.wait with
    | none => .done k ⟨max, none, Nat.le_refl _⟩
    | some left =>
        if max < left then
          .done { k with wait := some (left - max) } ⟨max, none, Nat.le_refl _⟩
        else
          .access { k with wait := none } .read 0xFFF12 [0, 0] fun k _ _ =>
            .done k ⟨max, none, Nat.le_refl _⟩
  wires _ _ _ _ k := .done k []
  reset _ _ _ k := .done k []
  read_reg _ id := .error (.UnknownRegister id)
  write_reg k id _ := (k, .error (.UnknownRegister id))
  sync_breakpoints k _ := k
  read_gdb_registers _ := .ok []
  pc _ := 0
  write_gdb_registers k _ := (k, .error .Unsupported)
  poll_actions _ k := .done k []
  apply_action _ _ k := (.done k [], some .NotFoundAction)
  drive_in port frame _ k :=
    if port = "rx" then .drive (.uart 1 frame) fun _ => .done { k with wait := some k.delay } []
    else .done k []
  mmio w := w.elim
  answer _ _ offset len _ := .error (.OutOfRange offset offset len)

/-- Its in-port. -/
def rx : G23.WiredPort Reader where
  port := "rx"
  channel := 1
  frame := some
  drives v now k uart h := by
    cases h
    exact ⟨_, rfl, fun _ => trivial⟩
  spares v now k h := by cases h

/-- A core at 8 MHz whose channel 1 is enabled to receive. -/
def units : Units :=
  { Units.new with
    clock := ClockGenerator.new.reset.write_hoco 8 2
    sau := { SauUnit.new with scr := fun _ => 0x4004, se := 2 } }

/-- A frame as channel 1 expects it. -/
def matching : UartFrame :=
  { units.sau.local_rx_frame units.f_clk 1 with data := 0x41 }

/-- Its machine, with the data registers of the unit on the bus. It reads within
    20 instructions of a frame. -/
def machine : Machine (Soc (G23 Reader) (Window Empty)) G23Event UartFrame :=
  Machine.new ⟨⟨units, ⟨20, none⟩, fun _ => none, []⟩,
    ⟨[⟨0xFFF10, 4, .Device (.Mmio .SauSdr01)⟩], .Log, [], none⟩⟩

end Reader

/-- A board with a reader, or a beacon. -/
abbrev Station := Board (Soc (G23 Reader) (Window Empty)) G23Event Beacon UartFrame

/-- A beacon that sends every `dt`, and a reader. -/
def stations (dt : Nat) (i : Fin 2) : Station :=
  if i = 0 then .plant (Plant.new ⟨dt, Reader.matching⟩) else .machine Reader.machine

theorem initial_stations (cfg : Config 2 1) (dt : Nat) :
    Initial cfg (boot cfg (stations dt)) := by
  apply boot_initial
  · intro i
    unfold stations
    split <;> rfl
  · intro i
    unfold stations
    split <;> rfl

/-- The line of the reader. -/
def reader_line : RxLine Station := Reader.rx.line

/-- A frame of the reader's line takes 2500 ns, and 20 instructions as long. -/
example :
    Reader.units.sau.frame_time Reader.units.f_clk 1 = some 2500 ∧
      Reader.units.f_clk.period = some 125 := by
  decide +kernel

/-- Board 1 looks into its empty ring and polls. -/
def listen_loop : List (Step 2) := recv_loop 1 0 ++ [.spoke 1 (.poll 5), .spoke 1 .pump_tx]

/-- The reader runs to its ceiling of one margin, and is handed the first frame
    there, which was sent at 0. It runs to the next ceiling of two margins. -/
def first_frame_run : List (Step 2) :=
  host (.Start none) :: receive 0 1 ++ receive 1 1 ++ listen_loop ++ send_loop 0 ++
    recv_loop 1 1 ++ .spoke 1 (.poll 5) :: full_loop 0 ++ sync [0, 1] ++ receive 0 1 ++
    receive 1 1 ++ listen_loop

/-- The beacon runs up to one margin ahead of the reader and sends again; the
    reader, which has not moved, is about to be handed the second frame. -/
def overrun_run : List (Step 2) :=
  first_frame_run ++ full_loop 0 ++ sync [0, 1] ++ receive 0 1 ++ full_loop 0 ++ send_loop 0 ++
    idle_loop 1

/-- The beacon is slower, and the reader comes to its next ceiling as well. -/
def paced_run : List (Step 2) :=
  first_frame_run ++ full_loop 0 ++ sync [0, 1] ++ receive 0 1 ++ receive 1 1 ++ listen_loop ++
    full_loop 0 ++ sync [0, 1] ++ receive 0 1 ++ receive 1 1 ++ full_loop 0 ++ listen_loop ++
    sync [0, 1] ++ receive 0 1 ++ full_loop 0 ++ send_loop 0 ++ idle_loop 1

theorem paced_sender_never_overruns_reader :
    ∃ s s' : Cluster 2 1 Station UartFrame,
      Reachable (system (uart_pair 2375 100 none))
        (Attended (uart_pair 2375 100 none) reader_line 0 2500) s ∧
      (system (uart_pair 2375 100 none)).step s (.spoke 1 .pump_rx) = some s' ∧
      (s'.env 0).delivered.map (·.recv_at) = [2375, 9500] ∧
      KeptFree (uart_pair 2375 100 none) reader_line 0 2500 s s' := by
  obtain ⟨s, s', hs, hstep, hok, hspaced, hrecv⟩ : ∃ s s' : Cluster 2 1 Station UartFrame,
      Reachable (system (uart_pair 2375 100 none))
        (Attended (uart_pair 2375 100 none) reader_line 0 2500) s ∧
      (system (uart_pair 2375 100 none)).step s (.spoke 1 .pump_rx) = some s' ∧
      Attended (uart_pair 2375 100 none) reader_line 0 2500 s (.spoke 1 .pump_rx) ∧
      Spaced (pace (uart_pair 2375 100 none) s' 0 2500)
        ((made (uart_pair 2375 100 none) s' 0).map (·.at_)) ∧
      (s'.env 0).delivered.map (·.recv_at) = [2375, 9500] :=
    Reachable.exists_step_of_exec paced_run (initial_stations (uart_pair 2375 100 none) 9625)
      (by decide +kernel)
  exact ⟨s, s', hs, hstep, hrecv,
    paced_sender_never_overruns rfl rfl (by decide) hs hok hstep hspaced⟩

/-- Drives almost a frame time and two margins apart, and a guest that reads
    within a frame time of each frame: the second frame overruns the first. -/
theorem spaced_frames_overrun :
    ∃ s s' : Cluster 2 1 Station UartFrame,
      Reachable (system (uart_pair 2375 100 none))
        (Attended (uart_pair 2375 100 none) reader_line 0 2500) s ∧
      (system (uart_pair 2375 100 none)).step s (.spoke 1 .pump_rx) = some s' ∧
      Attended (uart_pair 2375 100 none) reader_line 0 2500 s (.spoke 1 .pump_rx) ∧
      (made (uart_pair 2375 100 none) s' 0).map (·.at_) = [0, 7124] ∧
      Spaced 2500 ((made (uart_pair 2375 100 none) s' 0).map (·.at_)) ∧
      (s'.env 0).delivered.map (·.recv_at) = [2375, 4750] ∧
      reader_line.ovf (guest s 1) = false ∧ reader_line.ovf (guest s' 1) = true :=
  Reachable.exists_step_of_exec overrun_run (initial_stations (uart_pair 2375 100 none) 7124)
    (by decide +kernel)

end Rl78Sim
