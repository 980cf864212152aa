import Rl78Sim.Cluster.Guests
import Rl78Sim.Cluster.Traffic

/-! # Runs Separated by a Reset

    A board enters a new epoch whenever it handles a reset. A frame should stay
    within its epoch: the board that drove it publishes it before its next
    reset, and no board that has handled more resets than the publisher takes
    it. A reset clears the receive buffers of the board that handles it, but
    neither the out-ports of that board nor what a slower peer still publishes.
-/

namespace Rl78Sim

open Transition

variable {n m : Nat} {E F : Type} [Entity E F]

/-! ### Epochs -/

/-- The history of the resets. `before e` counts the drives on the port of `e`
    made before the last reset of its source, and `rings e` holds, for each
    frame in the ring of `e`, the epoch in which its publisher was. -/
structure Epochs (n m : Nat) where
  resets : Fin n → Nat
  before : Fin m → Nat
  rings : Fin m → List Nat

namespace Epochs

def start : Epochs n m := ⟨fun _ => 0, fun _ => 0, fun _ => []⟩

/-- The last `k` entries of a list. -/
def newest (k : Nat) (xs : List Nat) : List Nat := xs.drop (xs.length - k)

/-- Record a step. A ring loses its oldest frames first. -/
def log (cfg : Config n m) (s : Cluster n m E F) (l : Step n) (s' : Cluster n m E F)
    (h : Epochs n m) : Epochs n m where
  resets i := if ResetAt s l i then h.resets i + 1 else h.resets i
  before e := if ResetAt s l (cfg.edge e).src then (made cfg s e).length else h.before e
  rings e := newest (s'.env e).ring.length
    (h.rings e ++ if PublishedOn cfg s l e then [h.resets (cfg.edge e).src] else [])

theorem newest_subset {k : Nat} {xs : List Nat} {x : Nat} (h : x ∈ newest k xs) : x ∈ xs :=
  List.mem_of_mem_drop h

theorem newest_length {k : Nat} {xs : List Nat} (h : k ≤ xs.length) :
    (newest k xs).length = k := by
  rw [newest, List.length_drop]
  omega

end Epochs

/-- The cluster with the history of its resets. -/
def epoch_system (cfg : Config n m) : System (Cluster n m E F × Epochs n m) (Step n) :=
  (system cfg).logged Epochs.start (Epochs.log cfg)

/-- The drives on the port of `e` since the last reset of its source. -/
def since_reset (cfg : Config n m) (s : Cluster n m E F) (h : Epochs n m) (e : Fin m) :
    List (Drive F) :=
  (made cfg s e).drop (h.before e)

/-- The invariant rule for a cluster with a history. -/
theorem invariant_of_logged [LawfulEntity E] {H : Type} {cfg : Config n m} {start : H}
    {log : Cluster n m E F → Step n → Cluster n m E F → H → H}
    {ok : Guard (Cluster n m E F × H) (Step n)} {Inv : Cluster n m E F → H → Prop}
    (hinit : ∀ s, Initial cfg s → Inv s start)
    (hmoved : ∀ s h l s', Inv s h → ClusterWf s → AllPumpsOwn cfg s → ok (s, h) l →
      Moved cfg s l s' → Inv s' (log s l s' h))
    {s : Cluster n m E F × H} (h : Reachable ((system cfg).logged start log) ok s) :
    Inv s.1 s.2 := by
  have hbase : ∀ s, Reachable ((system cfg).logged start log) ok s →
      ClusterWf s.1 ∧ AllPumpsOwn cfg s.1 := by
    intro s hs
    have hs : Reachable (system cfg) AnyRun s.1 := hs.unlogged fun _ _ _ => trivial
    exact ⟨wf_of_reachable hs, allPumpsOwn_of_reachable hs⟩
  refine @Reachable.invariant _ _ _ _ (fun s => Inv s.1 s.2) ?_ ?_ _ (h.strengthen hbase)
  · intro s hs
    rw [hs.2]
    exact hinit s.1 hs.1
  · intro s l s' hs hok hstep
    obtain ⟨hsys, hlog⟩ := System.logged_step_cases hstep
    rw [hlog]
    exact hmoved s.1 s.2 l s'.1 hs hok.2.1 hok.2.2 hok.1 (step_moved hok.2.1 hsys)

/-! ### Isolation -/

/-- Frames stay within their epoch. A board that is about to publish on `e`
    has made everything it still has to publish there after its last reset,
    and the frame that a board is about to take was published by a board that
    had handled as many resets. -/
structure Isolated (cfg : Config n m) (s : Cluster n m E F) (h : Epochs n m) : Prop where
  published (e : Fin m) (d : Drive F) (rest : List (Fin m × Drive F)) :
    (s.spoke (cfg.edge e).src).pc = .tx ((e, d) :: rest) →
      unsent cfg s e <:+ since_reset cfg s h e
  delivered (e : Fin m) (k : Nat) (rest : List (Fin m × Nat)) :
    (s.spoke (cfg.edge e).dst).pc = .rx ((e, k + 1) :: rest) →
      ∀ epoch, (h.rings e).head? = some epoch → h.resets (cfg.edge e).dst ≤ epoch

/-- A reset finds nothing to publish at the board that handles it, and a frame
    is published only to boards that have handled no more resets than the
    publisher. -/
def EpochGuard (cfg : Config n m) (s : Cluster n m E F × Epochs n m) (l : Step n) : Prop :=
  ∀ e, (cfg.edge e).wired →
    (ResetAt s.1 l (cfg.edge e).src → unsent cfg s.1 e = []) ∧
    (PublishedOn cfg s.1 l e →
      s.2.resets (cfg.edge e).dst ≤ s.2.resets (cfg.edge e).src)

/-- The invariant behind isolation, for one edge. -/
structure EpochEdge (cfg : Config n m) (s : Cluster n m E F) (h : Epochs n m) (e : Fin m) :
    Prop where
  before_le : h.before e ≤ (made cfg s e).length
  unsent_suffix : unsent cfg s e <:+ since_reset cfg s h e
  rings_length : (h.rings e).length = (s.env e).ring.length
  rings_fresh : ∀ epoch ∈ h.rings e, h.resets (cfg.edge e).dst ≤ epoch

/-- The invariant of all edges with a data plane. -/
def EpochInv (cfg : Config n m) (s : Cluster n m E F) (h : Epochs n m) : Prop :=
  ∀ e, (cfg.edge e).wired → EpochEdge cfg s h e

variable {cfg : Config n m} {s s' : Cluster n m E F} {l : Step n} {h : Epochs n m}

theorem EpochInv.initial (hi : Initial cfg s) : EpochInv cfg s Epochs.start := by
  intro e _
  have hunsent : unsent cfg s e = [] := by
    simp [unsent, Node.unsent, (hi.spoke _).pc_eq, (hi.spoke _).ports_eq, NodePc.tx_todo,
      OutPorts.empty]
  refine ⟨Nat.zero_le _, ?_, ?_, by simp [Epochs.start]⟩
  · rw [hunsent]
    exact List.nil_suffix
  · rw [hi.env_eq e]
    rfl

/-! ### One step on one edge -/

/-- The drives since the last reset, after a step. -/
theorem since_reset_log (e : Fin m) : since_reset cfg s' (Epochs.log cfg s l s' h) e =
    (made cfg s' e).drop
      (if ResetAt s l (cfg.edge e).src then (made cfg s e).length else h.before e) := rfl

/-- A step that handles no reset at the receiver, and publishes nothing on the
    edge, leaves the epochs of its ring in order, up to frames that are gone. -/
theorem rings_fresh_keep {e : Fin m} (hpub : ¬ PublishedOn cfg s l e)
    (hreset : ¬ ResetAt s l (cfg.edge e).dst)
    (hfresh : ∀ epoch ∈ h.rings e, h.resets (cfg.edge e).dst ≤ epoch) :
    ∀ epoch ∈ (Epochs.log cfg s l s' h).rings e,
      (Epochs.log cfg s l s' h).resets (cfg.edge e).dst ≤ epoch := by
  intro epoch hmem
  have hold := Epochs.newest_subset hmem
  rw [if_neg hpub, List.append_nil] at hold
  show (if ResetAt s l (cfg.edge e).dst then _ else _) ≤ epoch
  rw [if_neg hreset]
  exact hfresh epoch hold

/-- The epochs keep their number when the ring gains nothing. -/
theorem rings_length_keep {e : Fin m} (hpub : ¬ PublishedOn cfg s l e)
    (hlen : (h.rings e).length = (s.env e).ring.length)
    (hle : (s'.env e).ring.length ≤ (s.env e).ring.length) :
    ((Epochs.log cfg s l s' h).rings e).length = (s'.env e).ring.length := by
  apply Epochs.newest_length
  rw [if_neg hpub, List.append_nil, hlen]
  exact hle

/-- Sending adds at most one frame. -/
theorem Lane.send_length_le (lane : Lane F) (capacity : Nat) (frame : Frame F) :
    (lane.send capacity frame).ring.length ≤ lane.ring.length + 1 := by
  unfold Lane.send
  split
  · simp
  · simp only [List.length_append, List.length_tail, List.length_singleton]
    omega

variable [LawfulEntity E]

theorem EpochEdge.moved {e : Fin m} (hinv : EpochEdge cfg s h e) (hwf : ClusterWf s)
    (hown : AllPumpsOwn cfg s) (hwired : (cfg.edge e).wired) (hok : EpochGuard cfg (s, h) l)
    (hm : Moved cfg s l s') : EpochEdge cfg s' (Epochs.log cfg s l s' h) e := by
  obtain ⟨hbefore, hsuffix, hlen, hfresh⟩ := hinv
  obtain ⟨hempty, hbehind⟩ := hok e hwired
  cases hm.edge hwf hown hwired with
  | grew new henv hunsent hmade hat hreset hpub =>
    have hle : (s'.env e).ring.length ≤ (s.env e).ring.length := by rw [henv]
    refine ⟨?_, ?_, rings_length_keep hpub hlen hle, rings_fresh_keep hpub hreset hfresh⟩
    · show (if ResetAt s l (cfg.edge e).src then _ else _) ≤ _
      rw [hmade, List.length_append]
      split <;> omega
    · rw [since_reset_log, hunsent, hmade]
      by_cases hsrc : ResetAt s l (cfg.edge e).src
      · -- The reset finds nothing to publish: what it drives is all there is.
        simp only [if_pos hsrc, hempty hsrc, List.drop_left, List.nil_append, List.suffix_rfl]
      · rw [if_neg hsrc, List.drop_append_of_le_length hbefore]
        obtain ⟨old, hold⟩ := hsuffix
        exact ⟨old, by rw [← List.append_assoc, hold, since_reset]⟩
  | published d hl hpub hunsent hmade henv =>
    have hno (i : Fin n) : ¬ ResetAt s l i := by
      intro hreset
      rw [hl] at hreset
      cases hreset.1
    refine ⟨?_, ?_, ?_, ?_⟩
    · show (if ResetAt s l (cfg.edge e).src then _ else _) ≤ _
      rw [if_neg (hno _), hmade]
      exact hbefore
    · rw [since_reset_log, if_neg (hno _), hmade]
      rw [hunsent] at hsuffix
      exact (List.suffix_cons _ _).trans hsuffix
    · apply Epochs.newest_length
      rw [if_pos hpub, List.length_append, hlen, henv]
      exact Lane.send_length_le _ _ _
    · intro epoch hmem
      have hold := Epochs.newest_subset hmem
      rw [if_pos hpub] at hold
      show (if ResetAt s l (cfg.edge e).dst then _ else _) ≤ epoch
      rw [if_neg (hno _)]
      rcases List.mem_append.mp hold with hold | hnew
      · exact hfresh epoch hold
      · rw [List.mem_singleton.mp hnew]
        exact hbehind hpub
  | delivered frame lane hl hrecv henv hunsent hmade hentity =>
    have hno (i : Fin n) : ¬ ResetAt s l i := by
      intro hreset
      rw [hl] at hreset
      cases hreset.1
    have hpub : ¬ PublishedOn cfg s l e := by
      intro hpub
      rw [hl] at hpub
      cases hpub.1
    have hring := (Lane.receive_cases hrecv).1
    have hle : (s'.env e).ring.length ≤ (s.env e).ring.length := by
      rw [henv, hring]
      exact Nat.le_succ _
    refine ⟨?_, ?_, rings_length_keep hpub hlen hle, rings_fresh_keep hpub (hno _) hfresh⟩
    · show (if ResetAt s l (cfg.edge e).src then _ else _) ≤ _
      rw [if_neg (hno _), hmade]
      exact hbefore
    · rw [since_reset_log, if_neg (hno _), hmade, hunsent]
      exact hsuffix
  | discarded hreset henv hunsent hmade hentity =>
    have hpub : ¬ PublishedOn cfg s l e := by
      intro hpub
      cases l with
      | spoke => cases hreset.1
      | _ => cases hpub.1
    have hsrc : ¬ ResetAt s l (cfg.edge e).src := by
      intro hsrc
      exact cfg.edge_ne e (Option.some.inj (hsrc.1.symm.trans hreset.1))
    have hring : (s'.env e).ring = [] := by rw [henv]; rfl
    have hgone : (Epochs.log cfg s l s' h).rings e = [] := by
      show Epochs.newest (s'.env e).ring.length _ = []
      rw [hring]
      simp [Epochs.newest]
    refine ⟨?_, ?_, by rw [hgone, hring]; rfl, by rw [hgone]; nofun⟩
    · show (if ResetAt s l (cfg.edge e).src then _ else _) ≤ _
      rw [if_neg hsrc, hmade]
      exact hbefore
    · rw [since_reset_log, if_neg hsrc, hmade, hunsent]
      exact hsuffix

theorem epochInv_of_reachable {s : Cluster n m E F × Epochs n m}
    (h : Reachable (epoch_system cfg) (EpochGuard cfg) s) : EpochInv cfg s.1 s.2 :=
  invariant_of_logged (fun _ => EpochInv.initial)
    (fun _ _ _ _ hinv hwf hown hok hm e hwired =>
      (hinv e hwired).moved hwf hown hwired hok hm) h

/-- Frames stay within their epoch in every run whose resets find nothing to
    publish and whose publishers are not behind their receivers. -/
theorem reset_isolates {s : Cluster n m E F × Epochs n m}
    (h : Reachable (epoch_system cfg) (EpochGuard cfg) s) : Isolated cfg s.1 s.2 := by
  have hinv := epochInv_of_reachable h
  have hbase : Reachable (system cfg) AnyRun s.1 := h.unlogged fun _ _ _ => trivial
  have hown : AllPumpsOwn cfg s.1 := allPumpsOwn_of_reachable hbase
  refine ⟨fun e d rest hpc => ?_, fun e k rest hpc epoch hhead => ?_⟩
  · have hwired := ((hown _).tx (e, d) (by rw [hpc]; exact List.mem_cons_self)).2
    exact (hinv e hwired).unsent_suffix
  · have hwired := ((hown _).rx _ hpc (e, k + 1) List.mem_cons_self).2
    exact (hinv e hwired).rings_fresh epoch (List.mem_of_head? hhead)

/-! ### Runs of two boards -/

instance (s : Cluster n m E F × Epochs n m) (l : Step n) : Decidable (EpochGuard cfg s l) :=
  inferInstanceAs (Decidable (∀ e, (cfg.edge e).wired →
    (ResetAt s.1 l (cfg.edge e).src → unsent cfg s.1 e = []) ∧
    (PublishedOn cfg s.1 l e →
      s.2.resets (cfg.edge e).dst ≤ s.2.resets (cfg.edge e).src)))

/-- The board is about to publish on `e`, and has more to publish there than it
    has driven since its last reset. -/
def stale_frame (cfg : Config n m) (s : Cluster n m E F × Epochs n m) (e : Fin m) : Bool :=
  match (s.1.spoke (cfg.edge e).src).pc with
  | .tx ((e', _) :: _) =>
      e' = e && (since_reset cfg s.1 s.2 e).length < (unsent cfg s.1 e).length
  | _ => false

/-- The board is about to take a frame from `e` that was published before its
    publisher handled a reset that the board has handled. -/
def late_frame (cfg : Config n m) (s : Cluster n m E F × Epochs n m) (e : Fin m) : Bool :=
  match (s.1.spoke (cfg.edge e).dst).pc with
  | .rx ((e', _ + 1) :: _) =>
      e' = e && (s.2.rings e).head?.any fun epoch => epoch < s.2.resets (cfg.edge e).dst
  | _ => false

omit [LawfulEntity E] in
theorem not_isolated_of_stale {s : Cluster n m E F × Epochs n m} {e : Fin m}
    (hstale : stale_frame cfg s e = true) : ¬ Isolated cfg s.1 s.2 := by
  intro hiso
  unfold stale_frame at hstale
  split at hstale
  · rename_i e' d rest hpc
    obtain ⟨he, hlt⟩ := Bool.and_eq_true_iff.mp hstale
    obtain rfl : e' = e := of_decide_eq_true he
    have hle := (hiso.published e' d rest hpc).length_le
    have hlt := of_decide_eq_true hlt
    omega
  · cases hstale

omit [LawfulEntity E] in
theorem not_isolated_of_late {s : Cluster n m E F × Epochs n m} {e : Fin m}
    (hlate : late_frame cfg s e = true) : ¬ Isolated cfg s.1 s.2 := by
  intro hiso
  unfold late_frame at hlate
  split at hlate
  · rename_i e' k rest hpc
    obtain ⟨he, hany⟩ := Bool.and_eq_true_iff.mp hlate
    obtain rfl : e' = e := of_decide_eq_true he
    obtain ⟨epoch, hhead, hlt⟩ := (Option.any_eq_true _ _).mp hany
    have hle := hiso.delivered e' k rest hpc epoch hhead
    have hlt := of_decide_eq_true hlt
    omega
  · cases hlate

/-- Two plants; the first drives a frame at every step of its grid. -/
def reset_pair : Config 2 1 := uart_pair 20000 100 none

def reset_pair_boot : GuestCluster 2 1 × Epochs 2 1 := (plants reset_pair 10000 true, Epochs.start)

theorem initial_reset_pair : (epoch_system reset_pair).init reset_pair_boot :=
  ⟨initial_plants reset_pair 10000 true, rfl⟩

/-- A gdb step leaves a frame on the out-port of board 0; the frame is still
    there after the reset. -/
def stale_run : List (Step 2) :=
  host (.Step (some 0)) :: receive 0 1 ++ host .Reset :: receive 0 3 ++ poll_loop 0

/-- Board 1 handles the reset and starts again while board 0 has not looked at
    its control inbox. -/
def late_run : List (Step 2) :=
  host (.Start none) :: receive 0 1 ++ receive 1 1 ++ host .Reset :: receive 1 3 ++
    poll_loop 0 ++ .spoke 0 .pump_tx :: idle_loop 1

/-- A frame of the new epoch crosses after both boards have handled the reset. -/
def isolated_run : List (Step 2) :=
  host (.Start none) :: receive 0 1 ++ receive 1 1 ++ poll_loop 0 ++
    [.spoke 0 .pump_tx, .spoke 0 .pump_tx] ++ host .Reset :: receive 0 3 ++ receive 1 3 ++
    poll_loop 0 ++ .spoke 0 .pump_tx :: idle_loop 1

theorem reset_isolates_pair :
    ∃ s : GuestCluster 2 1 × Epochs 2 1,
      Reachable (epoch_system reset_pair) (EpochGuard reset_pair) s ∧
      (s.2.resets 1 = 1 ∧ s.2.rings 0 = [1]) ∧ Isolated reset_pair s.1 s.2 := by
  obtain ⟨s, hs, hepochs⟩ : ∃ s : GuestCluster 2 1 × Epochs 2 1,
      Reachable (epoch_system reset_pair) (EpochGuard reset_pair) s ∧
      s.2.resets 1 = 1 ∧ s.2.rings 0 = [1] :=
    Reachable.exists_of_exec isolated_run initial_reset_pair (by decide +kernel)
  exact ⟨s, hs, hepochs, reset_isolates hs⟩

/-- A stale frame is published after the reset, and a late one is taken. -/
theorem reset_leaks_frames :
    (∃ s : GuestCluster 2 1 × Epochs 2 1,
      Reachable (epoch_system reset_pair) (fun s l => AnyRun s.1 l) s ∧
      stale_frame reset_pair s 0 = true ∧ ¬ Isolated reset_pair s.1 s.2) ∧
    ∃ s : GuestCluster 2 1 × Epochs 2 1,
      Reachable (epoch_system reset_pair) (fun s l => AnyRun s.1 l) s ∧
      late_frame reset_pair s 0 = true ∧ ¬ Isolated reset_pair s.1 s.2 := by
  constructor
  · obtain ⟨s, hs, hstale⟩ : ∃ s : GuestCluster 2 1 × Epochs 2 1,
        Reachable (epoch_system reset_pair) (fun s l => AnyRun s.1 l) s ∧
        stale_frame reset_pair s 0 = true :=
      Reachable.exists_of_exec stale_run initial_reset_pair (by decide +kernel)
    exact ⟨s, hs, hstale, not_isolated_of_stale hstale⟩
  · obtain ⟨s, hs, hlate⟩ : ∃ s : GuestCluster 2 1 × Epochs 2 1,
        Reachable (epoch_system reset_pair) (fun s l => AnyRun s.1 l) s ∧
        late_frame reset_pair s 0 = true :=
      Reachable.exists_of_exec late_run initial_reset_pair (by decide +kernel)
    exact ⟨s, hs, hlate, not_isolated_of_late hlate⟩

end Rl78Sim
