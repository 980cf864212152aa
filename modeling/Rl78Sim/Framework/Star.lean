import Rl78Sim.Framework.Transition
import Mathlib.Logic.Function.Basic

/-! # Hub and Spokes over FIFO Links

    A hub broadcasts to all spokes; every spoke talks to the hub only. Each of
    the two directions of a link is a reliable FIFO queue whose head is taken
    at any later time. The spokes also share an environment, which the hub
    does not see.

    Most invariants of such a system speak of one link: the hub, one spoke and
    the two queues between them. `LinkInductive` lists what a step has to
    preserve then, and the frame conditions of the other links are settled
    here once.
-/

namespace Transition

namespace Star

variable {ι Hub Spoke Env Down Up HubAct SpokeAct TakeAct : Type*}

/-- The state of the whole system. -/
structure Net (ι Hub Spoke Env Down Up : Type*) where
  hub : Hub
  spoke : ι → Spoke
  /-- Messages on their way from the hub. -/
  down : ι → List Down
  /-- Messages on their way to the hub. -/
  up : ι → List Up
  env : Env

/-- What can happen next. -/
inductive Label (ι HubAct SpokeAct TakeAct : Type*) where
  /-- The hub acts and broadcasts. -/
  | hub (a : HubAct)
  /-- The hub takes the oldest message of spoke `i`. -/
  | deliver (i : ι)
  /-- Spoke `i` acts by itself. -/
  | spoke (i : ι) (a : SpokeAct)
  /-- Spoke `i` takes its oldest message from the hub. -/
  | take (i : ι) (a : TakeAct)

/-- The local steps of a hub and of its spokes. -/
structure Protocol (ι Hub Spoke Env Down Up HubAct SpokeAct TakeAct : Type*) where
  hub_act : HubAct → Hub → Option (Hub × List Down)
  hub_take : ι → Up → Hub → Option Hub
  spoke_act : ι → SpokeAct → Env → Spoke → Option (Env × Spoke × List Up)
  spoke_take : ι → TakeAct → Down → Env → Spoke → Option (Env × Spoke × List Up)

/-- A property of one link: the hub, a spoke and the queues between them. -/
abbrev Link (ι Hub Spoke Down Up : Type*) :=
  ι → Hub → Spoke → List Down → List Up → Prop

/-- The link property `L` holds of every link. -/
def Net.All (L : Link ι Hub Spoke Down Up) (s : Net ι Hub Spoke Env Down Up) : Prop :=
  ∀ i, L i s.hub (s.spoke i) (s.down i) (s.up i)

variable [DecidableEq ι]

/-! ### The system -/

/-- The state after spoke `i` moved: `rest` is what is left of its inbox and
    `out` what it sent. -/
def Net.move (s : Net ι Hub Spoke Env Down Up) (i : ι) (env : Env) (sp : Spoke)
    (rest : List Down) (out : List Up) : Net ι Hub Spoke Env Down Up where
  hub := s.hub
  spoke := Function.update s.spoke i sp
  down := Function.update s.down i rest
  up := Function.update s.up i (s.up i ++ out)
  env := env

namespace Protocol

variable (P : Protocol ι Hub Spoke Env Down Up HubAct SpokeAct TakeAct)

def step (s : Net ι Hub Spoke Env Down Up) :
    Label ι HubAct SpokeAct TakeAct → Option (Net ι Hub Spoke Env Down Up)
  | .hub a =>
      (P.hub_act a s.hub).map fun (hub, out) =>
        { s with hub := hub, down := fun i => s.down i ++ out }
  | .deliver i =>
      match s.up i with
      | [] => none
      | msg :: rest =>
          (P.hub_take i msg s.hub).map fun hub =>
            { s with hub := hub, up := Function.update s.up i rest }
  | .spoke i a =>
      (P.spoke_act i a s.env (s.spoke i)).map fun (env, sp, out) =>
        s.move i env sp (s.down i) out
  | .take i a =>
      match s.down i with
      | [] => none
      | msg :: rest =>
          (P.spoke_take i a msg s.env (s.spoke i)).map fun (env, sp, out) =>
            s.move i env sp rest out

/-- The transition system of the protocol from the given initial states. -/
def system (init : Net ι Hub Spoke Env Down Up → Prop) :
    System (Net ι Hub Spoke Env Down Up) (Label ι HubAct SpokeAct TakeAct) :=
  ⟨init, P.step⟩

variable {P}

/-- All a step can do, guards included. -/
theorem step_cases {s s' : Net ι Hub Spoke Env Down Up}
    {l : Label ι HubAct SpokeAct TakeAct} (h : P.step s l = some s') :
    (∃ a hub out, l = .hub a ∧ P.hub_act a s.hub = some (hub, out) ∧
      s' = { s with hub := hub, down := fun i => s.down i ++ out }) ∨
    (∃ i msg rest hub, l = .deliver i ∧ s.up i = msg :: rest ∧
      P.hub_take i msg s.hub = some hub ∧
      s' = { s with hub := hub, up := Function.update s.up i rest }) ∨
    (∃ i a env sp out, l = .spoke i a ∧
      P.spoke_act i a s.env (s.spoke i) = some (env, sp, out) ∧
      s' = s.move i env sp (s.down i) out) ∨
    (∃ i a msg rest env sp out, l = .take i a ∧ s.down i = msg :: rest ∧
      P.spoke_take i a msg s.env (s.spoke i) = some (env, sp, out) ∧
      s' = s.move i env sp rest out) := by
  cases l with
  | hub a =>
    obtain ⟨⟨hub, out⟩, hact, rfl⟩ := Option.map_eq_some_iff.mp h
    exact .inl ⟨a, hub, out, rfl, hact, rfl⟩
  | deliver i =>
    simp only [step] at h
    split at h
    · cases h
    · rename_i msg rest hup
      obtain ⟨hub, htake, rfl⟩ := Option.map_eq_some_iff.mp h
      exact .inr (.inl ⟨i, msg, rest, hub, rfl, hup, htake, rfl⟩)
  | spoke i a =>
    obtain ⟨⟨env, sp, out⟩, hact, rfl⟩ := Option.map_eq_some_iff.mp h
    exact .inr (.inr (.inl ⟨i, a, env, sp, out, rfl, hact, rfl⟩))
  | take i a =>
    simp only [step] at h
    split at h
    · cases h
    · rename_i msg rest hdown
      obtain ⟨⟨env, sp, out⟩, htake, rfl⟩ := Option.map_eq_some_iff.mp h
      exact .inr (.inr (.inr ⟨i, a, msg, rest, env, sp, out, rfl, hdown, htake, rfl⟩))

end Protocol

/-! ### Moves of one spoke -/

section move

variable (s : Net ι Hub Spoke Env Down Up) (i : ι) (env : Env) (sp : Spoke)
  (rest : List Down) (out : List Up)

@[simp] theorem Net.move_hub : (s.move i env sp rest out).hub = s.hub := rfl

@[simp] theorem Net.move_env : (s.move i env sp rest out).env = env := rfl

@[simp] theorem Net.move_spoke_self : (s.move i env sp rest out).spoke i = sp :=
  Function.update_self _ _ _

@[simp] theorem Net.move_down_self : (s.move i env sp rest out).down i = rest :=
  Function.update_self _ _ _

@[simp] theorem Net.move_up_self : (s.move i env sp rest out).up i = s.up i ++ out :=
  Function.update_self _ _ _

variable {i} {j : ι}

theorem Net.move_spoke_ne (h : j ≠ i) : (s.move i env sp rest out).spoke j = s.spoke j :=
  Function.update_of_ne h _ _

theorem Net.move_down_ne (h : j ≠ i) : (s.move i env sp rest out).down j = s.down j :=
  Function.update_of_ne h _ _

theorem Net.move_up_ne (h : j ≠ i) : (s.move i env sp rest out).up j = s.up j :=
  Function.update_of_ne h _ _

end move

/-! ### The link rule -/

/-- What has to be shown for a link property to be inductive: every kind of
    step keeps it for the link it touches, and the hub's steps for all. -/
structure LinkInductive (P : Protocol ι Hub Spoke Env Down Up HubAct SpokeAct TakeAct)
    (ok : Guard (Net ι Hub Spoke Env Down Up) (Label ι HubAct SpokeAct TakeAct))
    (L : Link ι Hub Spoke Down Up) : Prop where
  hub (s : Net ι Hub Spoke Env Down Up) (a : HubAct) (hub : Hub) (out : List Down) (i : ι) :
    ok s (.hub a) → P.hub_act a s.hub = some (hub, out) →
      L i s.hub (s.spoke i) (s.down i) (s.up i) →
      L i hub (s.spoke i) (s.down i ++ out) (s.up i)
  deliver (s : Net ι Hub Spoke Env Down Up) (i : ι) (msg : Up) (rest : List Up) (hub : Hub) :
    ok s (.deliver i) → s.up i = msg :: rest → P.hub_take i msg s.hub = some hub →
      L i s.hub (s.spoke i) (s.down i) (msg :: rest) →
      L i hub (s.spoke i) (s.down i) rest
  deliver_other (s : Net ι Hub Spoke Env Down Up) (i j : ι) (msg : Up) (rest : List Up)
    (hub : Hub) :
    j ≠ i → ok s (.deliver i) → s.up i = msg :: rest → P.hub_take i msg s.hub = some hub →
      L j s.hub (s.spoke j) (s.down j) (s.up j) →
      L j hub (s.spoke j) (s.down j) (s.up j)
  spoke (s : Net ι Hub Spoke Env Down Up) (i : ι) (a : SpokeAct) (env : Env) (sp : Spoke)
    (out : List Up) :
    ok s (.spoke i a) → P.spoke_act i a s.env (s.spoke i) = some (env, sp, out) →
      L i s.hub (s.spoke i) (s.down i) (s.up i) → L i s.hub sp (s.down i) (s.up i ++ out)
  take (s : Net ι Hub Spoke Env Down Up) (i : ι) (a : TakeAct) (msg : Down)
    (rest : List Down) (env : Env) (sp : Spoke) (out : List Up) :
    ok s (.take i a) → s.down i = msg :: rest →
      P.spoke_take i a msg s.env (s.spoke i) = some (env, sp, out) →
      L i s.hub (s.spoke i) (msg :: rest) (s.up i) → L i s.hub sp rest (s.up i ++ out)

/-- A link property keeps holding of all links when only link `i` changes and
    keeps it. -/
theorem Net.All.move {L : Link ι Hub Spoke Down Up} {s : Net ι Hub Spoke Env Down Up}
    (h : s.All L) {i : ι} {env : Env} {sp : Spoke} {rest : List Down} {out : List Up}
    (hi : L i s.hub sp rest (s.up i ++ out)) : (s.move i env sp rest out).All L := by
  intro j
  by_cases hj : j = i
  · subst hj
    simpa using hi
  · rw [Net.move_spoke_ne _ _ _ _ _ hj, Net.move_down_ne _ _ _ _ _ hj,
      Net.move_up_ne _ _ _ _ _ hj]
    exact h j

theorem LinkInductive.inductive
    {P : Protocol ι Hub Spoke Env Down Up HubAct SpokeAct TakeAct}
    {init : Net ι Hub Spoke Env Down Up → Prop}
    {ok : Guard (Net ι Hub Spoke Env Down Up) (Label ι HubAct SpokeAct TakeAct)}
    {L : Link ι Hub Spoke Down Up} (hL : LinkInductive P ok L) :
    Inductive (P.system init) ok (Net.All L) := by
  intro s l s' hs hok hstep
  rcases P.step_cases hstep with ⟨a, hub, out, rfl, hact, rfl⟩ |
    ⟨i, msg, rest, hub, rfl, hup, htake, rfl⟩ | ⟨i, a, env, sp, out, rfl, hact, rfl⟩ |
    ⟨i, a, msg, rest, env, sp, out, rfl, hdown, htake, rfl⟩
  · exact fun i => hL.hub s a hub out i hok hact (hs i)
  · intro j
    by_cases hj : j = i
    · subst hj
      have hlink := hs j
      rw [hup] at hlink
      simpa using hL.deliver s j msg rest hub hok hup htake hlink
    · simpa [Function.update_of_ne hj] using
        hL.deliver_other s i j msg rest hub hj hok hup htake (hs j)
  · exact hs.move (hL.spoke s i a env sp out hok hact (hs i))
  · have hlink := hs i
    rw [hdown] at hlink
    exact hs.move (hL.take s i a msg rest env sp out hok hdown htake hlink)

end Star

end Transition
