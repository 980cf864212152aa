import Mathlib.Data.Rat.Floor
import Rl78Sim.Framework.Transition
import Rl78Sim.Hw.Analog
import Rl78Sim.Hw.ClockGenerator
import Rl78Sim.Kernel.Action

/-! # The Hold Switch

    A switch of the board is pressed by an action: it drives its pin high, and a
    deadline in virtual time says when it lets go. The node looks at the
    deadlines once in each turn of its loop, before it serves the requests that
    have arrived, and not at all while it is stopped. -/

namespace Rl78Sim

open Transition

/-- `NS_PER_MS`. -/
def ns_per_ms : Nat := ns_per_sec / 1000

/-- `MAX_HOLD_MS`. -/
def max_hold_ms : Nat := u64_max / ns_per_ms

/-- `is_whole`. -/
def is_whole : F64 → Bool
  | .finite q => q.den == 1
  | _ => false

/-- `as u64`. -/
def F64.to_u64 : F64 → Nat
  | .finite q => min q.floor.toNat u64_max
  | .infinite negative => if negative then 0 else u64_max
  | .nan => 0

/-! ### The action -/

/-- `Hold`. `source` is what the port has driven, the last level at the end. -/
structure Hold where
  source : List DigitalLevel
  spec : ActionSpec
  deadline : Option Nat

/-- The parameter of the action. -/
def milliseconds (id_hash : String → Nat) : ParamSpec where
  name := "milliseconds"
  name_hash := id_hash "milliseconds"
  unit := some "ms"
  description := some "押下を維持する仮想時間。整数のミリ秒"
  min := some (.finite 1)
  max := none
  default := none

/-- The description of the action. -/
def hold_spec (id_hash : String → Nat) : ActionSpec where
  id := "hold"
  hash := id_hash "hold"
  description := "指定した仮想時間だけスイッチを押す"
  params := [milliseconds id_hash]

namespace Hold

/-- `Hold::new`. -/
def new (id_hash : String → Nat) : Hold := ⟨[], hold_spec id_hash, none⟩

/-- `Hold::milliseconds_hash`. -/
def milliseconds_hash (h : Hold) : Nat := (h.spec.params.head?.map ParamSpec.name_hash).getD 0

/-- The pin goes high until `deadline`. -/
def pressed (h : Hold) (deadline : Nat) : Hold :=
  { h with deadline := some deadline, source := h.source ++ [.High] }

/-- The pin goes low. -/
def released (h : Hold) : Hold := { h with deadline := none, source := h.source ++ [.Low] }

/-- `Action::execute`. -/
def execute (h : Hold) (now : Nat) (params : Parameters) : Hold × Except ActionFailure Unit :=
  match params.get h.milliseconds_hash with
  | none => (h, .error .BadParam)
  | some ms =>
      if !ms.is_finite || ms.lt (.finite 1) || !is_whole ms then (h, .error .BadParam)
      else if max_hold_ms < ms.to_u64 then (h, .error .BadParam)
      else
        let duration := saturating_mul ms.to_u64 ns_per_ms
        if u64_max < now + duration then (h, .error .BadParam)
        else (h.pressed (now + duration), .ok ())

/-- `Action::poll`. -/
def poll (h : Hold) (now : Nat) : Hold :=
  match h.deadline with
  | none => h
  | some deadline => if deadline ≤ now then h.released else h

/-- `Action::busy`. -/
def busy (h : Hold) (now : Nat) : Bool :=
  match h.deadline with
  | none => false
  | some deadline => now < deadline

/-- `Action::reset_action`. -/
def reset_action (h : Hold) : Hold := h.released

end Hold

/-! ### The device -/

/-- `HoldSwitch`, with its one action and the key of it. -/
structure HoldSwitch where
  name : String
  name_hash : Nat
  action_hash : Nat
  hold : Hold

namespace HoldSwitch

/-- `HoldSwitch::new`. -/
def new (id_hash : String → Nat) (name : String) : Option HoldSwitch :=
  if name.isEmpty then none
  else some ⟨name, id_hash name, (Hold.new id_hash).spec.hash, Hold.new id_hash⟩

/-- `HoldSwitch::poll`. -/
def poll (sw : HoldSwitch) (now : Nat) : HoldSwitch := { sw with hold := sw.hold.poll now }

/-- `HoldSwitch::apply`. -/
def apply (sw : HoldSwitch) (action_hash now : Nat) (raw : List (Nat × F64)) :
    HoldSwitch × Except ActionFailure Unit :=
  if action_hash ≠ sw.action_hash then (sw, .error .NotFoundAction)
  else if sw.hold.busy now then (sw, .error .Busy)
  else
    match prepare_parameters sw.hold.spec raw with
    | .error err => (sw, .error err)
    | .ok params =>
        let (hold, result) := sw.hold.execute now params
        ({ sw with hold := hold }, result)

/-- `Resettable::reset`. -/
def reset (sw : HoldSwitch) : HoldSwitch := { sw with hold := sw.hold.reset_action }

end HoldSwitch

/-- `Device`, a trait: a switch, or a part without actions. -/
inductive BoardDevice where
  | hold_switch (sw : HoldSwitch)
  | part

namespace BoardDevice

def poll (now : Nat) : BoardDevice → BoardDevice
  | hold_switch sw => hold_switch (sw.poll now)
  | part => part

def apply (action_hash now : Nat) (raw : List (Nat × F64)) :
    BoardDevice → BoardDevice × Except ActionFailure Unit
  | hold_switch sw => (hold_switch (sw.apply action_hash now raw).1,
      (sw.apply action_hash now raw).2)
  | part => (part, .error .NotFoundAction)

def reset : BoardDevice → BoardDevice
  | hold_switch sw => hold_switch sw.reset
  | part => part

end BoardDevice

/-! ### The node -/

/-- `ACTION_RECV_CAP`. -/
def action_recv_cap : Nat := 128

/-- `ActionStatus`. -/
inductive ActionStatus where
  | Applied
  | Stopped
  | Busy
  | NotFoundDevice
  | BadParam
  | NotFoundAction
  deriving DecidableEq

/-- `ActionRequest`, with the parameters that `raw_params` reads from it. -/
structure HoldRequest where
  request_id : Nat
  board_hash : Nat
  device_hash : Nat
  action_hash : Nat
  raw_params : List (Nat × F64)

/-- The devices of a machine, by the hashes of their names. -/
abbrev BoardDevices := Nat → Option BoardDevice

/-- `Machine::poll_actions`. -/
def BoardDevices.poll_actions (devices : BoardDevices) (now : Nat) : BoardDevices :=
  fun hash => (devices hash).map (BoardDevice.poll now)

/-- `Machine::apply_action`. -/
def BoardDevices.apply_action (devices : BoardDevices) (now : Nat) (req : HoldRequest) :
    BoardDevices × Except ActionFailure Unit :=
  match devices req.device_hash with
  | none => (devices, .error .NotFoundDevice)
  | some device =>
      let (device, result) := device.apply req.action_hash now req.raw_params
      (Function.update devices req.device_hash (some device), result)

/-- The status that a result is reported with. -/
def ActionStatus.of_result : Except ActionFailure Unit → ActionStatus
  | .ok () => .Applied
  | .error .NotFoundDevice => .NotFoundDevice
  | .error .NotFoundAction => .NotFoundAction
  | .error .Busy => .Busy
  | .error .BadParam => .BadParam

/-- The node, as far as actions go. `replies` is what it has published. -/
structure ActionNode where
  board_hash : Nat
  devices : BoardDevices
  pending : List HoldRequest
  replies : List (Nat × ActionStatus)
  now : Nat

namespace ActionNode

/-- The loop over the queue. -/
def apply_all (devices : BoardDevices) (now : Nat) :
    List HoldRequest → BoardDevices × List (Nat × ActionStatus)
  | [] => (devices, [])
  | req :: rest =>
      let (devices, result) := devices.apply_action now req
      let (devices, replies) := apply_all devices now rest
      (devices, (req.request_id, .of_result result) :: replies)

/-- The queue with the requests of a turn that are for this board. -/
def queue (nd : ActionNode) (received : List HoldRequest) : List HoldRequest :=
  nd.pending ++ (received.take action_recv_cap).filter fun req => req.board_hash == nd.board_hash

/-- `service_actions` at the time `now`, while the node runs or not. -/
def service_actions (nd : ActionNode) (running : Bool) (now : Nat)
    (received : List HoldRequest) : ActionNode :=
  if !running then { nd with pending := nd.queue received, now := now }
  else
    let (devices, replies) := apply_all (nd.devices.poll_actions now) now (nd.queue received)
    { nd with devices := devices, pending := [], replies := nd.replies ++ replies, now := now }

/-- `NodeEffect::Reset`, as far as actions go: the queue is cleared, and
    `Machine::reset` resets the devices. -/
def reset (nd : ActionNode) : ActionNode :=
  { nd with devices := fun hash => (nd.devices hash).map BoardDevice.reset, pending := [] }

/-- The switch registered under a hash. -/
def switch (nd : ActionNode) (hash : Nat) : Option HoldSwitch :=
  match nd.devices hash with
  | some (.hold_switch sw) => some sw
  | _ => none

/-! ### Runs -/

/-- A turn of the loop, or a reset. -/
inductive Act where
  | service (running : Bool) (now : Nat) (received : List HoldRequest)
  | reset

def act (nd : ActionNode) : Act → ActionNode
  | .service running now received => nd.service_actions running now received
  | .reset => nd.reset

/-- Every device that can be registered, before anything has happened. -/
def Init (id_hash : String → Nat) (nd : ActionNode) : Prop :=
  nd.pending = [] ∧ nd.replies = [] ∧ nd.now = 0 ∧
    ∀ hash sw, nd.devices hash = some (.hold_switch sw) →
      ∃ name, HoldSwitch.new id_hash name = some sw ∧ sw.name_hash = hash

/-- All runs of a node. -/
def runs (id_hash : String → Nat) : System ActionNode Act :=
  ⟨Init id_hash, fun nd a => some (nd.act a)⟩

/-- Time does not go back. -/
def NonDecreasing (nd : ActionNode) : Act → Prop
  | .service _ now _ => nd.now ≤ now
  | .reset => True

end ActionNode

/-! ### One request -/

variable {id_hash : String → Nat}

/-- The schema is that of `hold`, and the pin is high while a deadline is recorded. -/
structure Hold.Wf (id_hash : String → Nat) (h : Hold) : Prop where
  spec : h.spec = hold_spec id_hash
  pin : h.source.getLast? = some .High ↔ h.deadline.isSome = true

namespace Hold

variable {h : Hold}

theorem wf_new (id_hash : String → Nat) : (new id_hash).Wf id_hash :=
  ⟨rfl, by simp [new]⟩

theorem Wf.pressed (hwf : h.Wf id_hash) (deadline : Nat) : (h.pressed deadline).Wf id_hash :=
  ⟨hwf.spec, by simp [Hold.pressed]⟩

theorem Wf.released (hwf : h.Wf id_hash) : h.released.Wf id_hash :=
  ⟨hwf.spec, by simp [Hold.released]⟩

theorem Wf.poll (hwf : h.Wf id_hash) (now : Nat) : (h.poll now).Wf id_hash := by
  unfold Hold.poll
  split
  · exact hwf
  · split
    · exact hwf.released
    · exact hwf

/-- A whole number of milliseconds in the range of the action is converted exactly. -/
theorem to_u64_of_whole {ms : F64} (hfinite : ms.is_finite = true)
    (hlow : ms.lt (.finite 1) = false) (hwhole : is_whole ms = true)
    (hmax : ms.to_u64 ≤ max_hold_ms) : ms = .finite (ms.to_u64 : ℚ) ∧ 1 ≤ ms.to_u64 := by
  cases ms with
  | nan => cases hfinite
  | infinite negative => cases hfinite
  | finite q =>
    -- A rational number with the denominator one is its own floor.
    have hden : q.den = 1 := by simpa [is_whole] using hwhole
    have hone : (1 : ℚ) ≤ q := by simpa [F64.lt] using hlow
    have hnum : (q.num : ℚ) = q := Rat.coe_int_num_of_den_eq_one hden
    have hfloor : q.floor = q.num := by
      rw [← hnum]
      exact Rat.floor_intCast q.num
    have hpos : 1 ≤ q.num := by
      rw [← hnum] at hone
      exact_mod_cast hone
    have hto : F64.to_u64 (.finite q) = q.num.toNat := by
      unfold F64.to_u64 at hmax ⊢
      dsimp only at hmax ⊢
      rw [hfloor] at hmax ⊢
      -- Below the largest hold the cast does not saturate.
      unfold max_hold_ms ns_per_ms ns_per_sec u64_max at hmax
      unfold u64_max
      omega
    rw [hto]
    refine ⟨?_, by omega⟩
    rw [show ((q.num.toNat : ℕ) : ℚ) = ((q.num.toNat : ℤ) : ℚ) from (Int.cast_natCast _).symm,
      Int.toNat_of_nonneg (by omega), hnum]

/-- The action fails and changes nothing, or presses for the milliseconds that it was given. -/
theorem execute_cases (hwf : h.Wf id_hash) (now : Nat) (params : Parameters) :
    (∃ err, h.execute now params = (h, .error err)) ∨
    ∃ ms : Nat, h.execute now params = (h.pressed (now + ms * ns_per_ms), .ok ()) ∧ 1 ≤ ms ∧
      params.get (id_hash "milliseconds") = some (.finite ms) := by
  have hhash : h.milliseconds_hash = id_hash "milliseconds" := by
    unfold milliseconds_hash
    rw [hwf.spec]
    rfl
  unfold execute
  rw [hhash]
  cases hget : params.get (id_hash "milliseconds") with
  | none => exact .inl ⟨_, rfl⟩
  | some ms =>
    dsimp only
    split
    · exact .inl ⟨_, rfl⟩
    · rename_i hvalid
      simp only [Bool.or_eq_true, Bool.not_eq_true', not_or, Bool.not_eq_true,
        Bool.not_eq_false] at hvalid
      obtain ⟨⟨hfinite, hlow⟩, hwhole⟩ := hvalid
      split
      · exact .inl ⟨_, rfl⟩
      · rename_i hmax
        have hmax := Nat.le_of_not_lt hmax
        obtain ⟨hms, hone⟩ := to_u64_of_whole hfinite hlow hwhole hmax
        split
        · exact .inl ⟨_, rfl⟩
        · right
          -- The largest hold still fits into 64 bits when it is counted in nanoseconds.
          have hduration : saturating_mul ms.to_u64 ns_per_ms = ms.to_u64 * ns_per_ms := by
            refine Nat.min_eq_left ?_
            unfold max_hold_ms at hmax
            calc ms.to_u64 * ns_per_ms ≤ u64_max / ns_per_ms * ns_per_ms :=
                  Nat.mul_le_mul_right _ hmax
              _ ≤ u64_max := Nat.div_mul_le_self _ _
          refine ⟨ms.to_u64, ?_, hone, congrArg some hms⟩
          rw [hduration]

end Hold

namespace HoldSwitch

variable {sw : HoldSwitch}

/-- The switch until `deadline`. -/
def pressed (sw : HoldSwitch) (deadline : Nat) : HoldSwitch :=
  { sw with hold := sw.hold.pressed deadline }

/-- A request is refused and changes nothing, or it presses the switch, which is free, for the
    milliseconds that it names. -/
theorem apply_cases (hwf : sw.hold.Wf id_hash) (action_hash now : Nat)
    (raw : List (Nat × F64)) :
    (∃ err, sw.apply action_hash now raw = (sw, .error err)) ∨
    ∃ ms : Nat, sw.apply action_hash now raw = (sw.pressed (now + ms * ns_per_ms), .ok ()) ∧
      1 ≤ ms ∧ sw.hold.busy now = false ∧
      raw.lookup (id_hash "milliseconds") = some (.finite ms) := by
  unfold apply
  split
  · exact .inl ⟨_, rfl⟩
  · split
    · exact .inl ⟨_, rfl⟩
    · rename_i hbusy
      cases hprepare : prepare_parameters sw.hold.spec raw with
      | error err => exact .inl ⟨err, rfl⟩
      | ok params =>
        dsimp only
        rcases Hold.execute_cases hwf now params with ⟨err, hexec⟩ | ⟨ms, hexec, hone, hget⟩
        · rw [hexec]
          exact .inl ⟨err, rfl⟩
        · rw [hexec]
          refine .inr ⟨ms, rfl, hone, Bool.not_eq_true _ ▸ hbusy, ?_⟩
          rw [hwf.spec] at hprepare
          obtain ⟨-, hlists⟩ :=
            (prepare_parameters_eq_ok_iff (by simp [hold_spec])).mp hprepare
          -- The schema has one parameter, and that has no default.
          unfold ActionSpec.Lists at hlists
          obtain ⟨values⟩ := params
          cases hlists with
          | @cons _ entry _ rest hentry hrest =>
            cases hrest
            obtain ⟨hash, value⟩ := entry
            obtain ⟨rfl, hvalue⟩ := hentry
            have hvalue' : value = .finite ms := by
              simpa [Parameters.get, milliseconds] using hget
            unfold ParamSpec.given at hvalue
            rw [show (milliseconds id_hash).default = none from rfl, Option.or_none] at hvalue
            rw [← hvalue']
            exact hvalue

end HoldSwitch

namespace Hold

/-- What fails changes nothing. -/
theorem execute_error {h : Hold} {now : Nat} {params : Parameters} {err : ActionFailure}
    (herr : (h.execute now params).2 = .error err) : (h.execute now params).1 = h := by
  unfold execute at herr ⊢
  split
  · rfl
  · dsimp only at herr ⊢
    split
    · rfl
    · split
      · rfl
      · split
        · rfl
        · rename_i hfits
          simp_all

end Hold

namespace HoldSwitch

variable {sw : HoldSwitch} {hash now : Nat}

theorem apply_error {action_hash : Nat} {raw : List (Nat × F64)} {err : ActionFailure}
    (herr : (sw.apply action_hash now raw).2 = .error err) :
    (sw.apply action_hash now raw).1 = sw := by
  unfold apply at herr ⊢
  split
  · rfl
  · split
    · rfl
    · split
      · rfl
      · rename_i haction hbusy _ params hprepare
        rw [if_neg haction, if_neg hbusy, hprepare] at herr
        have hhold := Hold.execute_error herr
        show { sw with hold := (sw.hold.execute now params).1 } = sw
        rw [hhold]

/-! ### The requests of a turn -/

/-- The requests of a turn, as the switch registered under `hash` sees them. -/
def serve (hash now : Nat) (sw : HoldSwitch) (reqs : List HoldRequest) : HoldSwitch :=
  reqs.foldl (fun sw req =>
    if req.device_hash = hash then (sw.apply req.action_hash now req.raw_params).1 else sw) sw

/-- One request of a turn. -/
def serve_one (hash now : Nat) (sw : HoldSwitch) (req : HoldRequest) : HoldSwitch :=
  if req.device_hash = hash then (sw.apply req.action_hash now req.raw_params).1 else sw

theorem serve_cons (req : HoldRequest) (rest : List HoldRequest) :
    sw.serve hash now (req :: rest) = (sw.serve_one hash now req).serve hash now rest := rfl

/-- A request among `reqs` is granted, and names `ms` milliseconds. -/
def Accepts (id_hash : String → Nat) (hash now : Nat) (sw : HoldSwitch)
    (reqs : List HoldRequest) (ms : Nat) : Prop :=
  ∃ before req after, reqs = before ++ req :: after ∧ req.device_hash = hash ∧
    ((sw.serve hash now before).apply req.action_hash now req.raw_params).2 = .ok () ∧
    req.raw_params.lookup (id_hash "milliseconds") = some (.finite ms)

theorem apply_busy (hwf : sw.hold.Wf id_hash) (hbusy : sw.hold.busy now = true)
    (action_hash : Nat) (raw : List (Nat × F64)) :
    ∃ err, sw.apply action_hash now raw = (sw, .error err) := by
  rcases apply_cases hwf action_hash now raw with hrefused | ⟨ms, -, -, hfree, -⟩
  · exact hrefused
  · rw [hbusy] at hfree
    cases hfree

/-- A switch that is pressed refuses all requests. -/
theorem serve_busy (hwf : sw.hold.Wf id_hash) (hbusy : sw.hold.busy now = true)
    (reqs : List HoldRequest) : sw.serve hash now reqs = sw := by
  induction reqs with
  | nil => rfl
  | cons req rest ih =>
    have hstep : sw.serve_one hash now req = sw := by
      unfold serve_one
      split
      · obtain ⟨err, happly⟩ := apply_busy hwf hbusy req.action_hash req.raw_params
        rw [happly]
      · rfl
    rw [serve_cons, hstep, ih]

theorem busy_pressed {ms : Nat} (hms : 1 ≤ ms) :
    (sw.pressed (now + ms * ns_per_ms)).hold.busy now = true := by
  show decide (now < now + ms * ns_per_ms) = true
  have hpos : 0 < ms * ns_per_ms := Nat.mul_pos hms (by decide)
  simpa using hpos

/-- In one turn no request is granted, or one that presses the switch. -/
theorem serve_cases (hwf : sw.hold.Wf id_hash) (hash now : Nat) (reqs : List HoldRequest) :
    sw.serve hash now reqs = sw ∨ ∃ ms, 1 ≤ ms ∧ Accepts id_hash hash now sw reqs ms ∧
      sw.serve hash now reqs = sw.pressed (now + ms * ns_per_ms) := by
  induction reqs with
  | nil => exact .inl rfl
  | cons req rest ih =>
    -- A request that changes nothing leaves the turn to those after it.
    have hskip (hsame : sw.serve_one hash now req = sw) :
        sw.serve hash now (req :: rest) = sw ∨
          ∃ ms, 1 ≤ ms ∧ Accepts id_hash hash now sw (req :: rest) ms ∧
            sw.serve hash now (req :: rest) = sw.pressed (now + ms * ns_per_ms) := by
      rw [serve_cons, hsame]
      rcases ih with hrest | ⟨ms, hone, ⟨before, req', after, rfl, hto, hok, hms⟩, hrest⟩
      · exact .inl hrest
      · refine .inr ⟨ms, hone, ⟨req :: before, req', after, rfl, hto, ?_, hms⟩, hrest⟩
        rw [serve_cons, hsame]
        exact hok
    by_cases hto : req.device_hash = hash
    · rcases apply_cases hwf req.action_hash now req.raw_params with
        ⟨err, happly⟩ | ⟨ms, happly, hone, -, hms⟩
      · apply hskip
        rw [serve_one, if_pos hto, happly]
      · -- Once it has pressed the switch, the others find it busy.
        right
        refine ⟨ms, hone, ⟨[], req, rest, rfl, hto, ?_, hms⟩, ?_⟩
        · show (sw.apply req.action_hash now req.raw_params).2 = _
          rw [happly]
        · rw [serve_cons, serve_one, if_pos hto, happly]
          exact serve_busy (hwf.pressed _) (busy_pressed hone) rest
    · exact hskip (if_neg hto)

/-- A request that is granted finds the switch free, and decides the turn. -/
theorem Accepts.serve (hwf : sw.hold.Wf id_hash) {reqs : List HoldRequest} {ms : Nat}
    (h : Accepts id_hash hash now sw reqs ms) :
    sw.hold.busy now = false ∧ sw.serve hash now reqs = sw.pressed (now + ms * ns_per_ms) := by
  obtain ⟨before, req, after, rfl, hto, hok, hms⟩ := h
  have hsplit : sw.serve hash now (before ++ req :: after) =
      (((sw.serve hash now before).apply req.action_hash now req.raw_params).1).serve hash now
        after := by
    unfold HoldSwitch.serve
    rw [List.foldl_append, List.foldl_cons, if_pos hto]
  -- Before it no request was granted, or the switch would have been busy.
  have hbefore : sw.serve hash now before = sw := by
    rcases serve_cases hwf hash now before with hsame | ⟨ms', hone, -, hpressed⟩
    · exact hsame
    · exfalso
      have hwf' : (sw.pressed (now + ms' * ns_per_ms)).hold.Wf id_hash := hwf.pressed _
      obtain ⟨err, happly⟩ := apply_busy hwf' (busy_pressed hone) req.action_hash req.raw_params
      rw [hpressed, happly] at hok
      cases hok
  rw [hbefore] at hok hsplit
  rcases apply_cases hwf req.action_hash now req.raw_params with
    ⟨err, happly⟩ | ⟨ms', happly, hone, hfree, hms'⟩
  · rw [happly] at hok
    cases hok
  · have heq : ms' = ms := by
      have hvalue := F64.finite.inj (Option.some.inj (hms'.symm.trans hms))
      exact_mod_cast hvalue
    subst heq
    refine ⟨hfree, ?_⟩
    rw [hsplit, happly]
    exact serve_busy (hwf.pressed _) (busy_pressed hone) after

end HoldSwitch

/-! ### Turns of the node -/

namespace ActionNode

variable {nd : ActionNode} {hash : Nat} {sw : HoldSwitch}

theorem apply_action_error {devices : BoardDevices} {now : Nat} {req : HoldRequest}
    {err : ActionFailure} (herr : (devices.apply_action now req).2 = .error err) :
    (devices.apply_action now req).1 = devices := by
  unfold BoardDevices.apply_action at herr ⊢
  cases hdevice : devices req.device_hash with
  | none => rfl
  | some device =>
    rw [hdevice] at herr
    have hsame : (device.apply req.action_hash now req.raw_params).1 = device := by
      cases device with
      | part => rfl
      | hold_switch sw => exact congrArg BoardDevice.hold_switch (HoldSwitch.apply_error herr)
    dsimp only
    rw [hsame, ← hdevice]
    exact Function.update_eq_self _ _

/-- What the switch under `hash` makes of a request to any device. -/
theorem apply_action_switch {devices : BoardDevices} (hsw : devices hash = some (.hold_switch sw))
    (now : Nat) (req : HoldRequest) : (devices.apply_action now req).1 hash =
      some (.hold_switch (sw.serve_one hash now req)) := by
  unfold BoardDevices.apply_action HoldSwitch.serve_one
  by_cases hto : req.device_hash = hash
  · rw [hto, hsw, if_pos rfl]
    exact Function.update_self _ _ _
  · rw [if_neg hto]
    cases devices req.device_hash with
    | none => exact hsw
    | some device => exact (Function.update_of_ne (fun h => hto h.symm) _ _).trans hsw

theorem apply_all_switch {devices : BoardDevices} (hsw : devices hash = some (.hold_switch sw))
    (now : Nat) (reqs : List HoldRequest) :
    (apply_all devices now reqs).1 hash = some (.hold_switch (sw.serve hash now reqs)) := by
  induction reqs generalizing devices sw with
  | nil => exact hsw
  | cons req rest ih => exact ih (apply_action_switch hsw now req)

/-- What the node has under the hash of a switch. -/
theorem devices_of_switch (hsw : nd.switch hash = some sw) :
    nd.devices hash = some (.hold_switch sw) := by
  unfold switch at hsw
  split at hsw
  · rename_i heq
    rw [heq, Option.some.inj hsw]
  · cases hsw

theorem switch_of_devices (hsw : nd.devices hash = some (.hold_switch sw)) :
    nd.switch hash = some sw := by
  unfold switch
  rw [hsw]

theorem switch_service (hsw : nd.switch hash = some sw) (running : Bool) (now : Nat)
    (received : List HoldRequest) :
    (nd.service_actions running now received).switch hash = some
      (if running then (sw.poll now).serve hash now (nd.queue received) else sw) := by
  unfold service_actions
  cases running with
  | false => exact hsw
  | true =>
    have hpoll : nd.devices.poll_actions now hash = some (.hold_switch (sw.poll now)) := by
      unfold BoardDevices.poll_actions
      rw [devices_of_switch hsw]
      rfl
    exact switch_of_devices (apply_all_switch hpoll now (nd.queue received))

theorem switch_reset (hsw : nd.switch hash = some sw) : nd.reset.switch hash = some sw.reset := by
  apply switch_of_devices
  show (nd.devices hash).map BoardDevice.reset = _
  rw [devices_of_switch hsw]
  rfl

/-- A request leaves what is no switch as it is. -/
theorem apply_action_other {devices : BoardDevices}
    (hother : ∀ sw, devices hash ≠ some (.hold_switch sw)) (now : Nat) (req : HoldRequest) :
    (devices.apply_action now req).1 hash = devices hash := by
  unfold BoardDevices.apply_action
  cases hdevice : devices req.device_hash with
  | none => rfl
  | some device =>
    by_cases hto : hash = req.device_hash
    · subst hto
      cases device with
      | hold_switch sw => exact absurd hdevice (hother sw)
      | part =>
        rw [hdevice]
        exact Function.update_self _ _ _
    · exact Function.update_of_ne hto _ _

theorem apply_all_other {devices : BoardDevices}
    (hother : ∀ sw, devices hash ≠ some (.hold_switch sw)) (now : Nat)
    (reqs : List HoldRequest) : (apply_all devices now reqs).1 hash = devices hash := by
  induction reqs generalizing devices with
  | nil => rfl
  | cons req rest ih =>
    have hsame := apply_action_other hother now req
    exact (ih fun sw hsw => hother sw (hsame.symm.trans hsw)).trans hsame

/-- A step turns nothing else into a switch. -/
theorem switch_act {a : Act} {sw' : HoldSwitch} (h : (nd.act a).switch hash = some sw') :
    ∃ sw, nd.switch hash = some sw := by
  by_contra hnone
  have hother : ∀ sw, nd.devices hash ≠ some (.hold_switch sw) :=
    fun sw hsw => hnone ⟨sw, switch_of_devices hsw⟩
  have hafter := devices_of_switch h
  cases a with
  | reset =>
    change (nd.devices hash).map BoardDevice.reset = _ at hafter
    obtain ⟨device, hdevice, hreset⟩ := Option.map_eq_some_iff.mp hafter
    cases device with
    | hold_switch sw => exact hother sw hdevice
    | part => cases hreset
  | service running now received =>
    change (nd.service_actions running now received).devices hash = _ at hafter
    unfold service_actions at hafter
    cases running with
    | false => exact hother _ hafter
    | true =>
      have hpoll : ∀ sw, nd.devices.poll_actions now hash ≠ some (.hold_switch sw) := by
        intro sw hsw
        obtain ⟨device, hdevice, hpolled⟩ := Option.map_eq_some_iff.mp hsw
        cases device with
        | hold_switch sw => exact hother sw hdevice
        | part => cases hpolled
      exact hpoll _ ((apply_all_other hpoll now (nd.queue received)).symm.trans hafter)

/-! ### Runs of the switch -/

variable (id_hash) in
/-- Every switch is well formed. -/
def SwitchesWf (nd : ActionNode) : Prop :=
  ∀ hash sw, nd.switch hash = some sw → sw.hold.Wf id_hash

theorem serve_wf {hash now : Nat} (hwf : sw.hold.Wf id_hash) (reqs : List HoldRequest) :
    (sw.serve hash now reqs).hold.Wf id_hash := by
  rcases HoldSwitch.serve_cases hwf hash now reqs with hsame | ⟨ms, -, -, hpressed⟩
  · rw [hsame]
    exact hwf
  · rw [hpressed]
    exact hwf.pressed _

theorem SwitchesWf.act (h : SwitchesWf id_hash nd) (a : Act) : SwitchesWf id_hash (nd.act a) := by
  intro hash sw' hsw'
  obtain ⟨sw, hsw⟩ := switch_act hsw'
  have hwf := h hash sw hsw
  cases a with
  | reset =>
    obtain rfl := Option.some.inj ((switch_reset hsw).symm.trans hsw')
    exact hwf.released
  | service running now received =>
    have hafter := (switch_service hsw running now received).symm.trans hsw'
    cases running with
    | false =>
      obtain rfl := Option.some.inj hafter
      exact hwf
    | true =>
      obtain rfl := Option.some.inj hafter
      exact serve_wf (hwf.poll now) _

theorem wf_of_reachable (h : Reachable (runs id_hash) NonDecreasing nd) :
    SwitchesWf id_hash nd := by
  refine h.invariant ?_ ?_
  · rintro nd ⟨-, -, -, hdevices⟩ hash sw hsw
    obtain ⟨name, hnew, -⟩ := hdevices hash sw (devices_of_switch hsw)
    unfold HoldSwitch.new at hnew
    split at hnew
    · cases hnew
    · obtain rfl := Option.some.inj hnew
      exact Hold.wf_new id_hash
  · intro nd a nd' hwf _ hstep
    obtain rfl := Option.some.inj hstep
    exact hwf.act a

/-- The action of the switch under a hash. -/
def hold (nd : ActionNode) (hash : Nat) : Option Hold := (nd.switch hash).map HoldSwitch.hold

variable (id_hash) in
/-- In a turn at `now` a request to the switch is granted, and names `ms` milliseconds. -/
def Holds (nd : ActionNode) (now : Nat) (received : List HoldRequest) (hash ms : Nat) : Prop :=
  ∃ before req after, nd.queue received = before ++ req :: after ∧ req.device_hash = hash ∧
    ((apply_all (nd.devices.poll_actions now) now before).1.apply_action now req).2 = .ok () ∧
    req.raw_params.lookup (id_hash "milliseconds") = some (.finite ms)

theorem holds_iff (hsw : nd.switch hash = some sw) (now : Nat) (received : List HoldRequest)
    (ms : Nat) : nd.Holds id_hash now received hash ms ↔
      HoldSwitch.Accepts id_hash hash now (sw.poll now) (nd.queue received) ms := by
  have hpoll : nd.devices.poll_actions now hash = some (.hold_switch (sw.poll now)) := by
    unfold BoardDevices.poll_actions
    rw [devices_of_switch hsw]
    rfl
  have hresult (before : List HoldRequest) (req : HoldRequest) (hto : req.device_hash = hash) :
      ((apply_all (nd.devices.poll_actions now) now before).1.apply_action now req).2 =
        (((sw.poll now).serve hash now before).apply req.action_hash now req.raw_params).2 := by
    unfold BoardDevices.apply_action
    rw [hto, apply_all_switch hpoll now before]
    rfl
  constructor
  · rintro ⟨before, req, after, hqueue, hto, hok, hms⟩
    exact ⟨before, req, after, hqueue, hto, (hresult before req hto).symm.trans hok, hms⟩
  · rintro ⟨before, req, after, hqueue, hto, hok, hms⟩
    exact ⟨before, req, after, hqueue, hto, (hresult before req hto).trans hok, hms⟩

/-- Before the deadline comes: no reset, and no turn of a running node at it or later. -/
def Until (deadline : Nat) (nd : ActionNode) (a : Act) : Prop :=
  NonDecreasing nd a ∧
    match a with
    | .service running now _ => running = true → now < deadline
    | .reset => False

variable (id_hash) in
/-- The switch has driven `driven` and is pressed until `deadline`. It is let go once, by driving
    its pin low and forgetting the deadline: in the first turn of a running node that is not
    before the deadline, in which it may be pressed anew, unless a reset comes first. -/
structure Releases (nd : ActionNode) (hash : Nat) (driven : List DigitalLevel)
    (deadline : Nat) : Prop where
  high : driven.getLast? = some .High
  held (nd' : ActionNode) : Path (runs id_hash) (Until deadline) nd nd' →
    nd'.hold hash = some ⟨driven, hold_spec id_hash, some deadline⟩
  released (nd' : ActionNode) : Path (runs id_hash) (Until deadline) nd nd' →
    ∀ now received, nd'.now ≤ now → deadline ≤ now →
      (nd'.service_actions true now received).hold hash =
        some ⟨driven ++ [.Low], hold_spec id_hash, none⟩ ∨
      ∃ ms, nd'.Holds id_hash now received hash ms ∧
        (nd'.service_actions true now received).hold hash =
          some ⟨driven ++ [.Low] ++ [.High], hold_spec id_hash, some (now + ms * 10 ^ 6)⟩
  reset (nd' : ActionNode) : Path (runs id_hash) (Until deadline) nd nd' →
    nd'.reset.hold hash = some ⟨driven ++ [.Low], hold_spec id_hash, none⟩

theorem hold_eq_some {h : Hold} (hh : nd.hold hash = some h) :
    ∃ sw, nd.switch hash = some sw ∧ sw.hold = h := Option.map_eq_some_iff.mp hh

theorem hold_of_switch (hsw : nd.switch hash = some sw) : nd.hold hash = some sw.hold := by
  unfold hold
  rw [hsw]
  rfl

/-- A turn before the deadline changes nothing. -/
theorem hold_until {h : Hold} (hwf : h.Wf id_hash) {deadline : Nat}
    (hdeadline : h.deadline = some deadline) {a : Act} (hh : nd.hold hash = some h)
    (huntil : Until deadline nd a) : (nd.act a).hold hash = some h := by
  obtain ⟨sw, hsw, rfl⟩ := hold_eq_some hh
  cases a with
  | reset => exact huntil.2.elim
  | service running now received =>
    refine (hold_of_switch (switch_service hsw running now received)).trans ?_
    cases running with
    | false => rfl
    | true =>
      have hbefore : now < deadline := huntil.2 rfl
      have hpoll : sw.poll now = sw := by
        unfold HoldSwitch.poll Hold.poll
        rw [hdeadline]
        dsimp only
        rw [if_neg (Nat.not_le_of_lt hbefore)]
      have hbusy : sw.hold.busy now = true := by
        unfold Hold.busy
        rw [hdeadline]
        simpa using hbefore
      rw [if_pos rfl, hpoll, HoldSwitch.serve_busy hwf hbusy]

/-- A turn of a running node, after which the switch is as the poll left it or pressed. -/
theorem hold_served {h : Hold} (hwf : h.Wf id_hash) (hh : nd.hold hash = some h) (now : Nat)
    (received : List HoldRequest) :
    (nd.service_actions true now received).hold hash = some (h.poll now) ∨
    ∃ ms, nd.Holds id_hash now received hash ms ∧
      (nd.service_actions true now received).hold hash =
        some ((h.poll now).pressed (now + ms * ns_per_ms)) := by
  obtain ⟨sw, hsw, rfl⟩ := hold_eq_some hh
  have hafter := hold_of_switch (switch_service hsw true now received)
  rw [if_pos rfl] at hafter
  have hwf' : (sw.poll now).hold.Wf id_hash := hwf.poll now
  rcases HoldSwitch.serve_cases hwf' hash now (nd.queue received) with
    hsame | ⟨ms, -, haccepts, hpressed⟩
  · rw [hsame] at hafter
    exact .inl hafter
  · rw [hpressed] at hafter
    exact .inr ⟨ms, (holds_iff hsw now received ms).mpr haccepts, hafter⟩

theorem ns_per_ms_eq : ns_per_ms = 10 ^ 6 := by decide

/-- A switch that is pressed is let go in time. -/
theorem releases {h : Hold} (hwf : h.Wf id_hash) {deadline : Nat}
    (hdeadline : h.deadline = some deadline) (hh : nd.hold hash = some h) :
    nd.Releases id_hash hash h.source deadline := by
  obtain ⟨driven, spec, recorded⟩ := h
  obtain rfl : spec = hold_spec id_hash := hwf.spec
  obtain rfl : recorded = some deadline := hdeadline
  have hheld (nd' : ActionNode) (hpath : Path (runs id_hash) (Until deadline) nd nd') :
      nd'.hold hash = some ⟨driven, hold_spec id_hash, some deadline⟩ := by
    induction hpath with
    | refl => exact hh
    | tail a _ hok hstep ih =>
      obtain rfl := Option.some.inj hstep
      exact hold_until hwf rfl ih hok
  refine ⟨hwf.pin.mpr rfl, hheld, ?_, ?_⟩
  · intro nd' hpath now received _ hpast
    -- The poll of the turn lets go before the requests are served.
    have hpoll : (⟨driven, hold_spec id_hash, some deadline⟩ : Hold).poll now =
        ⟨driven ++ [.Low], hold_spec id_hash, none⟩ := by
      unfold Hold.poll
      dsimp only
      rw [if_pos hpast]
      rfl
    have hserved := hold_served hwf (hheld nd' hpath) now received
    rw [hpoll, ns_per_ms_eq] at hserved
    exact hserved
  · intro nd' hpath
    obtain ⟨sw, hsw, hhold⟩ := hold_eq_some (hheld nd' hpath)
    refine (hold_of_switch (switch_reset hsw)).trans ?_
    show some sw.hold.released = _
    rw [hhold]
    rfl

/-- What the poll at `now` drives, when the switch is free afterwards. -/
def lets_go (h : Hold) (now : Nat) : List DigitalLevel :=
  if (h.deadline.any fun deadline => deadline ≤ now) then [.Low] else []

/-- A switch that is free after the poll has recorded no deadline. -/
theorem poll_of_free {h : Hold} (hwf : h.Wf id_hash) {now : Nat}
    (hfree : (h.poll now).busy now = false) :
    h.poll now = ⟨h.source ++ lets_go h now, hold_spec id_hash, none⟩ := by
  obtain ⟨driven, spec, recorded⟩ := h
  obtain rfl : spec = hold_spec id_hash := hwf.spec
  cases recorded with
  | none => simp [Hold.poll, lets_go]
  | some deadline =>
    by_cases hpast : deadline ≤ now
    · simp [Hold.poll, lets_go, hpast, Hold.released]
    · simp [Hold.poll, Hold.busy, hpast] at hfree

/-- The pin is high while a deadline is recorded; a request that fails changes nothing; a hold of
    `ms` milliseconds that is granted at `now` drives the pin high, and low again in the first
    turn from `now + ms * 10 ^ 6` on or in a reset before; no turn drives a switch low that is not
    pressed; and a reset leaves it low, with no deadline and no request. -/
theorem hold_switch_exact (hnd : Reachable (runs id_hash) NonDecreasing nd) {h : Hold}
    (hh : nd.hold hash = some h) :
    (h.source.getLast? = some .High ↔ h.deadline.isSome = true) ∧
    (∀ (devices : BoardDevices) now req err, (devices.apply_action now req).2 = .error err →
      (devices.apply_action now req).1 = devices) ∧
    (∀ now received ms, nd.now ≤ now → nd.Holds id_hash now received hash ms →
      (nd.service_actions true now received).Releases id_hash hash
        (h.source ++ lets_go h now ++ [.High]) (now + ms * 10 ^ 6)) ∧
    (∀ running now received, nd.now ≤ now → h.deadline = none →
      (nd.service_actions running now received).hold hash = some h ∨
      ∃ ms, nd.Holds id_hash now received hash ms ∧
        (nd.service_actions running now received).hold hash =
          some ⟨h.source ++ [.High], hold_spec id_hash, some (now + ms * 10 ^ 6)⟩) ∧
    nd.reset.hold hash = some ⟨h.source ++ [.Low], hold_spec id_hash, none⟩ ∧
      nd.reset.pending = [] := by
  obtain ⟨sw, hsw, rfl⟩ := hold_eq_some hh
  have hwf : sw.hold.Wf id_hash := wf_of_reachable hnd hash sw hsw
  refine ⟨hwf.pin, fun _ _ _ _ => apply_action_error, ?_, ?_, ?_, rfl⟩
  -- The grant makes the turn press the switch, and from there on it is let go in time.
  · intro now received ms _ hholds
    have haccepts := (holds_iff hsw now received ms).mp hholds
    obtain ⟨hfree, hserve⟩ := HoldSwitch.Accepts.serve (hwf.poll now) haccepts
    have hafter := hold_of_switch (switch_service hsw true now received)
    rw [if_pos rfl, hserve] at hafter
    have hreleases := releases ((hwf.poll now).pressed _) rfl hafter
    rw [ns_per_ms_eq] at hreleases
    have hsource : ((sw.hold.poll now).pressed (now + ms * 10 ^ 6)).source =
        sw.hold.source ++ lets_go sw.hold now ++ [.High] := by
      rw [poll_of_free hwf hfree]
      rfl
    rw [← hsource]
    exact hreleases
  · intro running now received _ hnone
    cases running with
    | false => exact .inl (hold_of_switch (switch_service hsw false now received))
    | true =>
      -- Without a deadline the poll drives nothing.
      have hpoll : sw.hold.poll now = sw.hold := by
        unfold Hold.poll
        rw [hnone]
      have hserved := hold_served hwf (hold_of_switch hsw) now received
      rw [hpoll, ns_per_ms_eq] at hserved
      rw [← hwf.spec]
      exact hserved
  · rw [← hwf.spec]
    exact hold_of_switch (switch_reset hsw)

/-- Two milliseconds from the first turn on, after which the pin is low again. -/
theorem hold_switch_exact_two_ms : ∃ nd : ActionNode,
    nd.Holds String.length 5 [⟨7, 0, 3, 4, [(12, .finite 2)]⟩] 3 2 ∧
    (nd.service_actions true 5 [⟨7, 0, 3, 4, [(12, .finite 2)]⟩]).Releases String.length 3
      [.High] 2000005 ∧
    ((nd.service_actions true 5 [⟨7, 0, 3, 4, [(12, .finite 2)]⟩]).service_actions true
      2000005 []).hold 3 = some ⟨[.High, .Low], hold_spec String.length, none⟩ := by
  let devices : BoardDevices := fun hash =>
    if hash = 3 then some (.hold_switch ⟨"sw1", 3, 4, Hold.new String.length⟩) else none
  have hinit : Init String.length ⟨0, devices, [], [], 0⟩ := by
    refine ⟨rfl, rfl, rfl, ?_⟩
    intro hash sw hsw
    unfold devices at hsw
    dsimp only at hsw
    split at hsw
    · rename_i heq
      cases hsw
      exact ⟨"sw1", rfl, heq.symm⟩
    · cases hsw
  have hreach : Reachable (runs String.length) NonDecreasing ⟨0, devices, [], [], 0⟩ :=
    .init hinit
  have hholds : ActionNode.Holds String.length ⟨0, devices, [], [], 0⟩ 5
      [⟨7, 0, 3, 4, [(12, .finite 2)]⟩] 3 2 :=
    ⟨[], ⟨7, 0, 3, 4, [(12, .finite 2)]⟩, [], rfl, rfl, by decide +kernel, rfl⟩
  have hhold : (⟨0, devices, [], [], 0⟩ : ActionNode).hold 3 = some (Hold.new String.length) := rfl
  obtain ⟨-, -, hreleases, -⟩ := hold_switch_exact hreach hhold
  have hreleased := hreleases 5 _ 2 (by decide) hholds
  refine ⟨_, hholds, hreleased, ?_⟩
  rcases hreleased.released _ (.refl _) 2000005 [] (by decide) (by decide) with hlow | ⟨ms, hms, -⟩
  · exact hlow
  · -- No request is left for the second turn.
    obtain ⟨before, req, after, hqueue, -⟩ := hms
    have hsome : before ++ req :: after ≠ [] := by simp
    exact absurd hqueue.symm hsome

end ActionNode

end Rl78Sim
