import Rl78Sim.Cluster.GuestMoves
import Rl78Sim.Cluster.Isolation
import Rl78Sim.Hw.Analog

/-! # Analog Links Across a Reset

    A plant latches the voltage of its in-port; the source of the link sends a
    sample whenever its out-port is driven. On a reset the source drives its
    voltage again and the plant clears its latch and throws away what is
    queued. The two boards handle the reset at different moments, and the link
    is repaired only if the sample driven by the source in its reset is still
    on its way when the plant resets.
-/

namespace Rl78Sim

open Transition

/-! ### Boards with analog ports -/

/-- A node with an analog port: the minimal board or the minimal plant. -/
abbrev AnalogBoard (C Ev U : Type) := Board (DacBoard C) Ev (FirstOrderLag U) (Signal U)

/-- The voltage that a signal carries. -/
def Signal.volts {U : Type} : Signal U → Option Int
  | .Uart _ => none
  | .Analog uv => some uv

namespace AnalogBoard

variable {C Ev U : Type}

/-- The analog out-port of the node. -/
def out_port : AnalogBoard C Ev U → String
  | .machine _ => DacBoard.dac0
  | .plant _ => FirstOrderLag.vout

/-- The voltage that the plant has latched. -/
def latched : AnalogBoard C Ev U → Int
  | .machine _ => 0
  | .plant p => p.model.u_uv

theorem out_port_congr {b b' : AnalogBoard C Ev U} (h : b'.is_plant = b.is_plant) :
    b'.out_port = b.out_port := by
  cases b <;> cases b' <;> first | rfl | cases h

variable [Cpu C Ev (PadDrive U)] [LagStep]

/-- No call changes what its plant has latched. -/
theorem call_latched {b b' : AnalogBoard C Ev U} (h : Entity.Call b b') :
    b'.latched = b.latched := by
  cases h with
  | poll fuel ctx _ r hpoll =>
    rcases Board.poll_cases hpoll with ⟨m, m', rfl, rfl, -⟩ | ⟨p, p', rfl, rfl, hp⟩
    · rfl
    · have hp : p.poll ctx = (p', r) := Option.some.inj hp
      show p'.model.u_uv = p.model.u_uv
      rcases Plant.poll_cases p ctx with heq | ⟨delta, -, heq⟩ | heq <;> rw [heq] at hp <;>
        cases hp <;> rfl
  | inspect cmd => cases b <;> rfl
  | poll_actions => cases b <;> rfl
  | apply_action req => cases b <;> rfl
  | drain names => cases b <;> rfl

theorem works_latched {b b' : AnalogBoard C Ev U} (h : Entity.Works b b') :
    b'.latched = b.latched :=
  h.keep fun _ _ hcall => call_latched hcall

/-- A plant latches the voltages of its in-port. -/
theorem latched_receive {b : AnalogBoard C Ev U} (hplant : b.is_plant = true) (v : Signal U) :
    latched (Entity.receive b FirstOrderLag.vin v) = v.volts.getD b.latched := by
  cases b with
  | machine m => cases hplant
  | plant p => cases v <;> rfl

/-- What arrives at another port is not latched. -/
theorem latched_receive_other (b : AnalogBoard C Ev U) {port : String}
    (hport : port ≠ FirstOrderLag.vin) (v : Signal U) :
    latched (Entity.receive b port v) = b.latched := by
  cases b with
  | machine m => rfl
  | plant p =>
    cases v with
    | Uart frame => rfl
    | Analog uv =>
      show ((if port = FirstOrderLag.vin then _ else _ : FirstOrderLag U × _)).1.u_uv = _
      rw [if_neg hport]
      rfl

/-- A reset clears the latch of a plant. -/
theorem latched_reset (b : AnalogBoard C Ev U) : latched (Entity.reset b) = 0 := by
  cases b <;> rfl

/-- A reset drives the analog out-port with a voltage. -/
theorem reset_drives (b : AnalogBoard C Ev U) :
    ∃ uv rest, (Entity.ports (Entity.reset b)).driven =
      (Entity.ports b).driven ++ ⟨b.out_port, .Analog uv, Entity.now b⟩ :: rest := by
  cases b with
  | machine m => exact ⟨m.soc.dac.last, _, rfl⟩
  | plant p => exact ⟨0, [], rfl⟩

end AnalogBoard

/-! ### The link -/

section link

variable {n m : Nat} {C Ev U : Type} [Cpu C Ev (PadDrive U)] [LagStep]

/-- A cluster of analog boards. -/
abbrev AnalogCluster (n m : Nat) (C Ev U : Type) := Cluster n m (AnalogBoard C Ev U) (Signal U)

/-- `e` leads from the analog out-port of its source to the in-port of a plant
    at which no other edge ends. -/
structure AnalogEdge (cfg : Config n m) (s : AnalogCluster n m C Ev U) (e : Fin m) : Prop where
  payload_eq : (cfg.edge e).payload = .Analog
  src_port_eq : (cfg.edge e).src_port = (guest s (cfg.edge e).src).out_port
  dst_port_eq : (cfg.edge e).dst_port = FirstOrderLag.vin
  plant : (guest s (cfg.edge e).dst).is_plant = true
  sole (e' : Fin m) : (cfg.edge e').wired → (cfg.edge e').dst = (cfg.edge e).dst →
    (cfg.edge e').dst_port = (cfg.edge e).dst_port → e' = e

/-- The voltages among the drives of a port. -/
def voltages (ds : List (Drive (Signal U))) : List Int := ds.filterMap fun d => d.value.volts

/-- The voltages in the ring of an edge. -/
def in_flight (lane : Lane (Signal U)) : List Int :=
  lane.ring.filterMap fun frame => frame.value.volts

/-- The voltage last driven on the port of `e`, 0 V before the first drive. -/
def last_driven (cfg : Config n m) (s : AnalogCluster n m C Ev U) (e : Fin m) : Int :=
  (voltages (made cfg s e)).getLastD 0

/-- No voltage is pending on the out-port, none is in flight on the edge, and
    both boards have handled the same resets. -/
structure Settled (cfg : Config n m) (s : AnalogCluster n m C Ev U) (h : Epochs n m)
    (e : Fin m) : Prop where
  unsent_eq : voltages (unsent cfg s e) = []
  flight_eq : in_flight (s.env e) = []
  resets_eq : h.resets (cfg.edge e).src = h.resets (cfg.edge e).dst

/-- A settled link agrees with its source. -/
def Agrees (cfg : Config n m) (s : AnalogCluster n m C Ev U × Epochs n m) (e : Fin m) : Prop :=
  Settled cfg s.1 s.2 e → (guest s.1 (cfg.edge e).dst).latched = last_driven cfg s.1 e

/-- The step does not publish into a full ring. -/
def NoOverflow (cfg : Config n m) (e : Fin m) (s : AnalogCluster n m C Ev U × Epochs n m)
    (l : Step n) : Prop :=
  PublishedOn cfg s.1 l e → (s.1.env e).ring.length < (cfg.edge e).capacity

/-- If the step is the plant's reset, and its source has handled the same
    resets, then a voltage is still to be published, or the source stands at
    0 V anyway. -/
def Repaired (cfg : Config n m) (e : Fin m) (s : AnalogCluster n m C Ev U × Epochs n m)
    (l : Step n) : Prop :=
  ResetAt s.1 l (cfg.edge e).dst →
    s.2.resets (cfg.edge e).src = s.2.resets (cfg.edge e).dst + 1 →
    voltages (unsent cfg s.1 e) ≠ [] ∨ last_driven cfg s.1 e = 0

/-- The cluster with the history of its resets, from plants at 0 V. -/
def analog_system (cfg : Config n m) :
    System (AnalogCluster n m C Ev U × Epochs n m) (Step n) :=
  { epoch_system cfg with
    init := fun s => (epoch_system cfg).init s ∧ ∀ i, (guest s.1 i).latched = 0 }

/-- The voltages on their way to the plant, oldest first. -/
def on_its_way (cfg : Config n m) (s : AnalogCluster n m C Ev U) (e : Fin m) : List Int :=
  in_flight (s.env e) ++ voltages (unsent cfg s e)

/-- The invariant behind agreement. What is on its way to the plant ends with
    the voltage last driven; with nothing on its way, and the same resets
    handled, the plant has latched it. -/
structure LinkInv (cfg : Config n m) (s : AnalogCluster n m C Ev U) (h : Epochs n m)
    (e : Fin m) : Prop where
  last_eq : ∀ uv, (on_its_way cfg s e).getLast? = some uv → uv = last_driven cfg s e
  latched_eq : on_its_way cfg s e = [] →
    h.resets (cfg.edge e).src = h.resets (cfg.edge e).dst →
    (guest s (cfg.edge e).dst).latched = last_driven cfg s e

variable {cfg : Config n m} {s s' : AnalogCluster n m C Ev U} {h : Epochs n m} {l : Step n}
  {e : Fin m}

omit [Cpu C Ev (PadDrive U)] [LagStep] in
theorem AnalogEdge.wired (he : AnalogEdge cfg s e) : (cfg.edge e).wired = true := by
  simp [Edge.wired, he.payload_eq]

theorem AnalogEdge.of_moved (he : AnalogEdge cfg s' e) (hwf : ClusterWf s)
    (hown : AllPumpsOwn cfg s) (hm : Moved cfg s l s') : AnalogEdge cfg s e := by
  have hkind (i : Fin n) := (hm.guest hwf hown i).is_plant
  refine ⟨he.payload_eq, ?_, he.dst_port_eq, (hkind _).symm.trans he.plant, he.sole⟩
  rw [← AnalogBoard.out_port_congr (hkind _)]
  exact he.src_port_eq

/-- The latch of the plant changes only by a delivery on its edge or by a reset. -/
theorem latched_keep (he : AnalogEdge cfg s e) (hm : GuestMoved cfg s l s' (cfg.edge e).dst)
    (hreset : ¬ ResetAt s l (cfg.edge e).dst)
    (hring : (s.env e).ring.length ≤ (s'.env e).ring.length) :
    (guest s' (cfg.edge e).dst).latched = (guest s (cfg.edge e).dst).latched := by
  cases hm with
  | works hworks => exact AnalogBoard.works_latched hworks
  | received e' frame lane _ hdst hwired hrecv henv heq =>
    rw [heq]
    by_cases hport : (cfg.edge e').dst_port = FirstOrderLag.vin
    · -- No other edge ends at the port, and a delivery shortens the ring.
      obtain rfl := he.sole e' hwired hdst (hport.trans he.dst_port_eq.symm)
      rw [(Lane.receive_cases hrecv).1, henv, List.length_cons] at hring
      omega
    · exact AnalogBoard.latched_receive_other _ hport _
  | reset hr => exact absurd hr hreset

/-- The source drives a voltage in its reset. -/
theorem reset_voltages (he : AnalogEdge cfg s e) {new : List (Drive (Signal U))}
    (hm : GuestMoved cfg s l s' (cfg.edge e).src) (hreset : ResetAt s l (cfg.edge e).src)
    (hmade : made cfg s' e = made cfg s e ++ new) : voltages new ≠ [] := by
  cases hm with
  | works _ hno => exact absurd hreset hno
  | received _ _ _ hl => rw [hl] at hreset; cases hreset.1
  | reset _ heq =>
    obtain ⟨uv, rest, hdriven⟩ := AnalogBoard.reset_drives (guest s (cfg.edge e).src)
    have hport : (guest s (cfg.edge e).src).out_port = (cfg.edge e).src_port :=
      he.src_port_eq.symm
    have hnew : new = ⟨(cfg.edge e).src_port, .Analog uv, Entity.now (guest s (cfg.edge e).src)⟩ ::
        rest.filter fun d => d.port = (cfg.edge e).src_port := by
      refine List.append_cancel_left (?_ : made cfg s e ++ _ = made cfg s e ++ _)
      rw [← hmade]
      show (Entity.ports (guest s' (cfg.edge e).src)).driven.filter _ = _
      rw [heq, hdriven, List.filter_append, hport, List.filter_cons_of_pos (by simp)]
      rfl
    rw [hnew]
    simp [voltages, Signal.volts]

omit [Cpu C Ev (PadDrive U)] [LagStep] in
theorem voltages_append (ds ds' : List (Drive (Signal U))) :
    voltages (ds ++ ds') = voltages ds ++ voltages ds' := List.filterMap_append

theorem last_driven_of_made (hmade : made cfg s' e = made cfg s e) :
    last_driven cfg s' e = last_driven cfg s e := by
  rw [last_driven, hmade]
  rfl

/-- A step that keeps the voltages on their way, those driven, the latch and
    the count of resets keeps the invariant. -/
theorem LinkInv.of_kept {h' : Epochs n m} (hinv : LinkInv cfg s h e)
    (hway : on_its_way cfg s' e = on_its_way cfg s e)
    (hsame : last_driven cfg s' e = last_driven cfg s e)
    (hkeep : (guest s' (cfg.edge e).dst).latched = (guest s (cfg.edge e).dst).latched)
    (hsrc : h'.resets (cfg.edge e).src = h.resets (cfg.edge e).src)
    (hdst : h'.resets (cfg.edge e).dst = h.resets (cfg.edge e).dst) :
    LinkInv cfg s' h' e := by
  constructor
  · intro uv huv
    rw [hsame]
    exact hinv.last_eq uv (hway ▸ huv)
  · intro hnil heq
    rw [hsrc, hdst] at heq
    rw [hkeep, hsame]
    exact hinv.latched_eq (hway ▸ hnil) heq

theorem LinkInv.initial (hi : Initial cfg s) (hzero : ∀ i, (guest s i).latched = 0) :
    LinkInv cfg s Epochs.start e := by
  have hports : Entity.ports (guest s (cfg.edge e).src) = OutPorts.empty :=
    (hi.spoke (cfg.edge e).src).ports_eq
  have hunsent : unsent cfg s e = [] := by
    simp [unsent, Node.unsent, (hi.spoke _).pc_eq, hports, NodePc.tx_todo, OutPorts.empty]
  have hmade : made cfg s e = [] := by
    simp [made, Node.made, hports, OutPorts.empty]
  constructor
  · intro uv huv
    rw [on_its_way, hunsent, hi.env_eq e] at huv
    cases huv
  · intro _ _
    rw [hzero, last_driven, hmade]
    rfl

/-! ### One step -/

theorem LinkInv.moved (hinv : LinkInv cfg s h e) (he : AnalogEdge cfg s e) (hwf : ClusterWf s)
    (hown : AllPumpsOwn cfg s) (hroom : NoOverflow cfg e (s, h) l)
    (hrep : Repaired cfg e (s, h) l) (hm : Moved cfg s l s') :
    LinkInv cfg s' (Epochs.log cfg s l s' h) e := by
  have hlast := hinv.last_eq
  have hlatched := hinv.latched_eq
  have hdst := hm.guest hwf hown (cfg.edge e).dst
  have hresets (i : Fin n) (hno : ¬ ResetAt s l i) :
      (Epochs.log cfg s l s' h).resets i = h.resets i := if_neg hno
  cases hm.edge hwf hown he.wired with
  | grew new henv hunsent hmade hat hreset hpub =>
    have hkeep := latched_keep he hdst hreset (by rw [henv])
    have hdriven : voltages (made cfg s' e) = voltages (made cfg s e) ++ voltages new := by
      rw [hmade, voltages_append]
    have hway : on_its_way cfg s' e = on_its_way cfg s e ++ voltages new := by
      rw [on_its_way, henv, hunsent, voltages_append, ← List.append_assoc]
      rfl
    by_cases hnew : voltages new = []
    · -- Nothing was driven, so the source has not handled a reset.
      have hsrc : ¬ ResetAt s l (cfg.edge e).src := fun hr =>
        reset_voltages he (hm.guest hwf hown _) hr hmade hnew
      have hsame : last_driven cfg s' e = last_driven cfg s e := by
        rw [last_driven, hdriven, hnew, List.append_nil]
        rfl
      rw [hnew, List.append_nil] at hway
      exact hinv.of_kept hway hsame hkeep (hresets _ hsrc) (hresets _ hreset)
    · constructor
      · intro uv huv
        rw [hway, List.getLast?_append_of_ne_nil _ hnew] at huv
        rw [last_driven, hdriven, List.getLastD_eq_getLast?,
          List.getLast?_append_of_ne_nil _ hnew, huv]
        rfl
      · intro hnil
        rw [hway] at hnil
        exact absurd (List.append_eq_nil_iff.mp hnil).2 hnew
  | published d hl hpub hunsent hmade henv =>
    have hno (i : Fin n) : ¬ ResetAt s l i := by
      intro hreset
      rw [hl] at hreset
      cases hreset.1
    have hsend : (s'.env e).ring = (s.env e).ring ++
        [⟨d.value, d.at_, (s.spoke (cfg.edge e).src).now⟩] := by
      rw [henv, Lane.send, if_pos (hroom hpub)]
    have hkeep := latched_keep he hdst (hno _) (by rw [hsend, List.length_append]; omega)
    -- The voltage moves from the port to the ring.
    have hway : on_its_way cfg s' e = on_its_way cfg s e := by
      rw [on_its_way, on_its_way, in_flight, hsend, hunsent, List.filterMap_append,
        List.append_assoc]
      cases hv : d.value.volts <;> simp [voltages, hv, in_flight]
    exact hinv.of_kept hway (last_driven_of_made hmade) hkeep (hresets _ (hno _))
      (hresets _ (hno _))
  | delivered frame lane hl hrecv henv hunsent hmade hentity =>
    have hno (i : Fin n) : ¬ ResetAt s l i := by
      intro hreset
      rw [hl] at hreset
      cases hreset.1
    have hring := (Lane.receive_cases hrecv).1
    have hway : on_its_way cfg s e = frame.value.volts.toList ++ on_its_way cfg s' e := by
      rw [on_its_way, on_its_way, hunsent, henv, in_flight, hring]
      cases hv : frame.value.volts <;> simp [in_flight, hv]
    have hsame := last_driven_of_made hmade
    constructor
    · intro uv huv
      have hne : on_its_way cfg s' e ≠ [] := by
        intro hnil
        rw [hnil] at huv
        cases huv
      rw [hsame]
      apply hlast uv
      rw [hway, List.getLast?_append_of_ne_nil _ hne]
      exact huv
    · intro hnil heq
      rw [hresets _ (hno _), hresets _ (hno _)] at heq
      rw [hnil, List.append_nil] at hway
      have hlatch : (guest s' (cfg.edge e).dst).latched =
          frame.value.volts.getD (guest s (cfg.edge e).dst).latched := by
        show AnalogBoard.latched (s'.spoke (cfg.edge e).dst).sim.entity = _
        rw [hentity, he.dst_port_eq]
        exact AnalogBoard.latched_receive he.plant frame.value
      rw [hlatch, hsame]
      cases hv : frame.value.volts with
      | none => exact hlatched (by rw [hway, hv]; rfl) heq
      | some uv => exact hlast uv (by rw [hway, hv]; rfl)
  | discarded hreset henv hunsent hmade hentity =>
    have hsrc : ¬ ResetAt s l (cfg.edge e).src := by
      intro hsrc
      exact cfg.edge_ne e (Option.some.inj (hsrc.1.symm.trans hreset.1))
    have hway : on_its_way cfg s' e = voltages (unsent cfg s e) := by
      rw [on_its_way, henv, hunsent]
      rfl
    have hsame := last_driven_of_made hmade
    constructor
    · intro uv huv
      have hne : voltages (unsent cfg s e) ≠ [] := by
        intro hnil
        rw [hway, hnil] at huv
        cases huv
      rw [hsame]
      apply hlast uv
      rw [on_its_way, List.getLast?_append_of_ne_nil _ hne, ← hway]
      exact huv
    · intro hnil heq
      have hdst' : (Epochs.log cfg s l s' h).resets (cfg.edge e).dst =
          h.resets (cfg.edge e).dst + 1 := if_pos hreset
      rw [hresets _ hsrc, hdst'] at heq
      rw [hway] at hnil
      have hlatch : (guest s' (cfg.edge e).dst).latched = 0 := by
        show AnalogBoard.latched (s'.spoke (cfg.edge e).dst).sim.entity = _
        rw [hentity]
        exact AnalogBoard.latched_reset _
      rcases hrep hreset heq with hmore | hzero
      · exact absurd hnil hmore
      · rw [hlatch, hsame]
        exact hzero.symm

/-! ### Runs -/

/-- The runs of the cluster in which `e` agrees with its source. -/
def LinkGuard (cfg : Config n m) (e : Fin m) (s : AnalogCluster n m C Ev U × Epochs n m)
    (l : Step n) : Prop :=
  NoOverflow cfg e s l ∧ Repaired cfg e s l

theorem analog_step_cases {s s' : AnalogCluster n m C Ev U × Epochs n m}
    (hstep : (analog_system cfg).step s l = some s') :
    (system cfg).step s.1 l = some s'.1 ∧ s'.2 = Epochs.log cfg s.1 l s'.1 s.2 := by
  replace hstep : (epoch_system cfg).step s l = some s' := hstep
  exact System.logged_step_cases hstep

theorem analog_reachable {ok : Guard (AnalogCluster n m C Ev U × Epochs n m) (Step n)}
    {s : AnalogCluster n m C Ev U × Epochs n m} (h : Reachable (analog_system cfg) ok s) :
    ClusterWf s.1 ∧ AllPumpsOwn cfg s.1 := by
  have hbase : Reachable (system cfg) AnyRun s.1 := by
    induction h with
    | init hi => exact .init hi.1.1
    | step l _ _ hstep ih => exact .step l ih trivial (analog_step_cases hstep).1
  exact ⟨wf_of_reachable hbase, allPumpsOwn_of_reachable hbase⟩

theorem linkInv_of_reachable {s : AnalogCluster n m C Ev U × Epochs n m}
    (h : Reachable (analog_system cfg) (LinkGuard cfg e) s) :
    AnalogEdge cfg s.1 e → LinkInv cfg s.1 s.2 e := by
  refine @Reachable.invariant _ _ _ _ (fun s => AnalogEdge cfg s.1 e → LinkInv cfg s.1 s.2 e)
    ?_ ?_ _ (h.strengthen fun _ => analog_reachable)
  · intro s hi _
    rw [hi.1.2]
    exact .initial hi.1.1 hi.2
  · intro s l s' hinv hok hstep he
    obtain ⟨hsys, hlog⟩ := analog_step_cases hstep
    obtain ⟨hwf, hown⟩ := hok.2
    have hm := step_moved hwf hsys
    have he' := he.of_moved hwf hown hm
    rw [hlog]
    exact (hinv he').moved he' hwf hown hok.1.1 hok.1.2 hm

theorem LinkInv.agrees {s : AnalogCluster n m C Ev U × Epochs n m}
    (hinv : LinkInv cfg s.1 s.2 e) : Agrees cfg s e := by
  intro hset
  apply hinv.latched_eq _ hset.resets_eq
  rw [on_its_way, hset.flight_eq, hset.unsent_eq]
  rfl

/-- A reset of the plant that nothing repairs leaves a settled link apart. -/
theorem not_agrees_of_not_repaired {s' : AnalogCluster n m C Ev U × Epochs n m}
    {s : AnalogCluster n m C Ev U × Epochs n m} (he : AnalogEdge cfg s.1 e)
    (hwf : ClusterWf s.1) (hown : AllPumpsOwn cfg s.1)
    (hstep : (analog_system cfg).step s l = some s') (hrep : ¬ Repaired cfg e s l) :
    ¬ Agrees cfg s' e := by
  obtain ⟨hsys, hlog⟩ := analog_step_cases hstep
  simp only [Repaired, Classical.not_imp, not_or, not_not] at hrep
  obtain ⟨hreset, hbehind, hnone, hdriven⟩ := hrep
  have hsrc : ¬ ResetAt s.1 l (cfg.edge e).src := by
    intro hsrc
    exact cfg.edge_ne e (Option.some.inj (hsrc.1.symm.trans hreset.1))
  cases (step_moved hwf hsys).edge hwf hown he.wired with
  | grew _ _ _ _ _ hno => exact absurd hreset hno
  | published _ hl => rw [hl] at hreset; cases hreset.1
  | delivered _ _ hl => rw [hl] at hreset; cases hreset.1
  | discarded _ henv hunsent hmade hentity =>
    -- After the reset nothing is on its way and the counts agree, yet the latch is 0.
    intro hagrees
    have hset : Settled cfg s'.1 s'.2 e := by
      refine ⟨by rw [hunsent]; exact hnone, by rw [henv]; rfl, ?_⟩
      rw [hlog]
      show (if ResetAt s.1 l (cfg.edge e).src then _ else _) =
        if ResetAt s.1 l (cfg.edge e).dst then _ else _
      rw [if_neg hsrc, if_pos hreset]
      exact hbehind
    have heq := hagrees hset
    rw [last_driven, hmade] at heq
    apply hdriven
    rw [last_driven, ← heq]
    show AnalogBoard.latched (s'.1.spoke (cfg.edge e).dst).sim.entity = 0
    rw [hentity]
    exact AnalogBoard.latched_reset _

/-- A link agrees with its source as long as every reset of its plant is
    repaired, and a reset that is not repaired parts them. -/
theorem analog_link_agrees {s : AnalogCluster n m C Ev U × Epochs n m}
    (h : Reachable (analog_system cfg) (LinkGuard cfg e) s) (he : AnalogEdge cfg s.1 e) :
    Agrees cfg s e ∧
      ∀ l s', NoOverflow cfg e s l → (analog_system cfg).step s l = some s' →
        (Agrees cfg s' e ↔ Repaired cfg e s l) := by
  refine ⟨(linkInv_of_reachable h he).agrees, fun l s' hroom hstep => ⟨?_, fun hrep => ?_⟩⟩
  · intro hagrees
    by_contra hrep
    obtain ⟨hwf, hown⟩ := analog_reachable h
    exact not_agrees_of_not_repaired he hwf hown hstep hrep hagrees
  · have h' : Reachable (analog_system cfg) (LinkGuard cfg e) s' := .step l h ⟨hroom, hrep⟩ hstep
    obtain ⟨hwf, hown⟩ := analog_reachable h
    have hm := step_moved hwf (analog_step_cases hstep).1
    have he' : AnalogEdge cfg s'.1 e := by
      have hkind (i : Fin n) := (hm.guest hwf hown i).is_plant
      refine ⟨he.payload_eq, ?_, he.dst_port_eq, (hkind _).trans he.plant, he.sole⟩
      rw [AnalogBoard.out_port_congr (hkind _)]
      exact he.src_port_eq
    exact (linkInv_of_reachable h' he').agrees

end link

/-! ### A board and a plant -/

instance {n m : Nat} {C Ev U : Type} (cfg : Config n m) (e : Fin m)
    (s : AnalogCluster n m C Ev U × Epochs n m) (l : Step n) [Cpu C Ev (PadDrive U)] [LagStep] :
    Decidable (LinkGuard cfg e s l) :=
  inferInstanceAs (Decidable
    ((PublishedOn cfg s.1 l e → (s.1.env e).ring.length < (cfg.edge e).capacity) ∧
      (ResetAt s.1 l (cfg.edge e).dst →
        s.2.resets (cfg.edge e).src = s.2.resets (cfg.edge e).dst + 1 →
        voltages (unsent cfg s.1 e) ≠ [] ∨ last_driven cfg s.1 e = 0)))

instance {n m : Nat} {C Ev U : Type} (cfg : Config n m) (e : Fin m)
    (s : AnalogCluster n m C Ev U × Epochs n m) (l : Step n) [Cpu C Ev (PadDrive U)] [LagStep] :
    Decidable (NoOverflow cfg e s l) :=
  inferInstanceAs (Decidable
    (PublishedOn cfg s.1 l e → (s.1.env e).ring.length < (cfg.edge e).capacity))

/-- A microcontroller that sets its pad once, in its first quantum. -/
structure PadScript where
  levels : List DigitalLevel
  insns : Nat

namespace PadScript

/-- An operation that does nothing. -/
def skip {α : Type} (a : α) : ChipOp PadScript Empty (PadDrive Unit) α :=
  fun _ soc events => ⟨soc, events, [], a⟩

instance : Cpu PadScript Empty (PadDrive Unit) where
  instruction_period _ := some 1000
  run_quantum max := fun _ soc events =>
    ⟨⟨[], soc.insns + max⟩, events, soc.levels.map fun level => ("p01", .Pin level),
      ⟨max, none, Nat.le_refl _⟩⟩
  fire ev := ev.elim
  take_trap soc := (soc, none)
  reset := skip ()
  read_reg _ id := .error (.UnknownRegister id)
  write_reg soc id _ := (soc, .error (.UnknownRegister id))
  read_mem addr len := skip (.error (.Unmapped addr len))
  write_mem addr data := skip (.error (.Unmapped addr data.length))
  sync_breakpoints soc _ := soc
  read_gdb_registers _ := .error .Unsupported
  pc soc := soc.insns
  write_gdb_registers soc _ := (soc, .error .Unsupported)
  poll_actions := skip ()
  apply_action _ := skip (some .NotFoundAction)
  drive_in _ _ := skip ()

end PadScript

/-- The step of the lag, exact where the voltages differ by whole 5 mV. -/
local instance : LagStep := ⟨fun u_uv y_uv => y_uv + (u_uv - y_uv) / 5000⟩

/-- The board drives the in-port of the plant. -/
def analog_pair : Config 2 1 :=
  ⟨20000, 100, fun _ => ⟨0, DacBoard.dac0, 1, FirstOrderLag.vin, .Analog, none⟩,
    Nat.two_pos, pair_edge_ne⟩

/-- The pair after its start, at 0 V. -/
def analog_boot : AnalogCluster 2 1 PadScript Empty Unit × Epochs 2 1 :=
  (boot analog_pair fun i =>
    if i = 0 then .machine (Machine.new ⟨⟨[.High], 0⟩, LevelDac.new⟩)
    else .plant (Plant.new FirstOrderLag.attach), Epochs.start)

theorem initial_analog_boot : (analog_system analog_pair).init analog_boot := by
  refine ⟨⟨boot_initial _ _ ?_ ?_, rfl⟩, ?_⟩
  · intro i
    by_cases hi : i = 0
    · simp only [hi, if_true]
      rfl
    · simp only [hi, if_false]
      rfl
  · intro i
    by_cases hi : i = 0
    · simp only [hi, if_true]
      rfl
    · simp only [hi, if_false]
      rfl
  · intro i
    show AnalogBoard.latched (if i = 0 then _ else _ : AnalogBoard PadScript Empty Unit) = 0
    by_cases hi : i = 0
    · simp only [hi, if_true]
      rfl
    · simp only [hi, if_false]
      rfl

/-- The board sets its pad and publishes 5 V; the plant takes the sample. -/
def level_run : List (Step 2) :=
  host (.Start none) :: receive 0 1 ++ receive 1 1 ++ poll_loop 0 ++
    [.spoke 0 .pump_tx, .spoke 0 .pump_tx] ++ idle_loop 1 ++
    [.spoke 1 .pump_rx, .spoke 1 .pump_rx, .spoke 1 .pump_rx, .spoke 1 (.poll 2),
      .spoke 1 .pump_tx]

/-- The board resets and publishes its voltage again before the plant resets. -/
def parted_run : List (Step 2) :=
  level_run ++ host .Reset :: receive 0 3 ++ poll_loop 0 ++
    [.spoke 0 .pump_tx, .spoke 0 .pump_tx] ++ receive 1 3

/-- The plant resets first, and takes the sample of the reset of the board. -/
def repaired_run : List (Step 2) :=
  level_run ++ host .Reset :: receive 1 3 ++ receive 0 3 ++ poll_loop 0 ++
    [.spoke 0 .pump_tx, .spoke 0 .pump_tx] ++ idle_loop 1 ++ [.spoke 1 .pump_rx]

theorem analog_edge_pair {s : AnalogCluster 2 1 PadScript Empty Unit}
    (hboard : (guest s 0).is_plant = false) (hplant : (guest s 1).is_plant = true) :
    AnalogEdge analog_pair s 0 where
  payload_eq := rfl
  src_port_eq := by
    show DacBoard.dac0 = (guest s 0).out_port
    cases hg : guest s 0 with
    | machine m => rfl
    | plant p => rw [hg] at hboard; cases hboard
  dst_port_eq := rfl
  plant := hplant
  sole e' _ _ _ := Subsingleton.elim e' 0

theorem analog_link_agrees_pair :
    ∃ s : AnalogCluster 2 1 PadScript Empty Unit × Epochs 2 1,
      Reachable (analog_system analog_pair) (LinkGuard analog_pair 0) s ∧
      (s.2.resets 1 = 1 ∧ (guest s.1 1).latched = high_uv) ∧
      Agrees analog_pair s 0 ∧
      ∀ l s', NoOverflow analog_pair 0 s l → (analog_system analog_pair).step s l = some s' →
        (Agrees analog_pair s' 0 ↔ Repaired analog_pair 0 s l) := by
  obtain ⟨s, hs, hkinds, hlatch⟩ : ∃ s : AnalogCluster 2 1 PadScript Empty Unit × Epochs 2 1,
      Reachable (analog_system analog_pair) (LinkGuard analog_pair 0) s ∧
      ((guest s.1 0).is_plant = false ∧ (guest s.1 1).is_plant = true) ∧
      s.2.resets 1 = 1 ∧ (guest s.1 1).latched = high_uv :=
    Reachable.exists_of_exec repaired_run initial_analog_boot (by decide +kernel)
  exact ⟨s, hs, hlatch, analog_link_agrees hs (analog_edge_pair hkinds.1 hkinds.2)⟩

/-- The board stands at 5 V and the plant at 0 V, with nothing on its way. -/
theorem reset_parts_link :
    ∃ s : AnalogCluster 2 1 PadScript Empty Unit × Epochs 2 1,
      Reachable (analog_system analog_pair) (NoOverflow analog_pair 0) s ∧
      AnalogEdge analog_pair s.1 0 ∧ ¬ Agrees analog_pair s 0 := by
  obtain ⟨s, hs, hkinds, hsettled, hlatch⟩ :
      ∃ s : AnalogCluster 2 1 PadScript Empty Unit × Epochs 2 1,
      Reachable (analog_system analog_pair) (NoOverflow analog_pair 0) s ∧
      ((guest s.1 0).is_plant = false ∧ (guest s.1 1).is_plant = true) ∧
      (voltages (unsent analog_pair s.1 0) = [] ∧ in_flight (s.1.env 0) = [] ∧
        s.2.resets 0 = s.2.resets 1) ∧
      (guest s.1 1).latched = 0 ∧ last_driven analog_pair s.1 0 = high_uv :=
    Reachable.exists_of_exec parted_run initial_analog_boot (by decide +kernel)
  refine ⟨s, hs, analog_edge_pair hkinds.1 hkinds.2, fun hagrees => ?_⟩
  have heq := hagrees ⟨hsettled.1, hsettled.2.1, hsettled.2.2⟩
  replace heq : (guest s.1 1).latched = last_driven analog_pair s.1 0 := heq
  rw [hlatch.1, hlatch.2] at heq
  exact absurd heq (by decide)

end Rl78Sim
