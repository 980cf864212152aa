import Rl78Sim.Cluster.GuestMoves
import Rl78Sim.Cluster.System
import Rl78Sim.Hw.Sau
import Rl78Sim.Probe.Answers
import Rl78Sim.Probe.Samples

/-! # Wiring Taps

    A probe tap is a sink of a wire of its board. It keeps the latest value that
    its policy accepts; the node takes that value at the end of each iteration in
    which the guest was polled, and pushes it into the log. A gdb step, a reset
    and an iteration that does not poll take nothing. -/

namespace Rl78Sim

open Transition NodeProbes ProbeRecord

/-- `ProbePolicy`. -/
inductive ProbePolicy where
  | OnChange
  | EveryDrive
  | MinInterval (min_ns : Nat)

/-- `ProbeSample`. -/
structure ProbeSample (T : Type) where
  virtual_time_ns : Nat
  value : T
  deriving DecidableEq

/-- `ProbeState`. -/
structure ProbeState (T : Type) where
  policy : ProbePolicy
  last_value : Option T
  last_sent_vt : Option Nat
  pending : Option (ProbeSample T)

namespace ProbeState

variable {T : Type} [DecidableEq T]

/-- The state of `ProbeTap::new`. -/
def new (policy : ProbePolicy) : ProbeState T := ⟨policy, none, none, none⟩

/-- The policy lets the value through. -/
def accepts (s : ProbeState T) (value : T) (vt : Nat) : Bool :=
  match s.policy with
  | .OnChange => s.last_value ≠ some value
  | .EveryDrive => true
  | .MinInterval min_ns =>
    match s.last_sent_vt with
    | none => true
    | some prev => min_ns ≤ vt - prev

/-- `ProbeState::on_drive`. -/
def on_drive (s : ProbeState T) (value : T) (vt : Nat) : ProbeState T :=
  if s.accepts value vt then
    { s with last_value := some value, last_sent_vt := some vt, pending := some ⟨vt, value⟩ }
  else s

/-- `ProbeTap::take_pending`. -/
def take_pending (s : ProbeState T) : ProbeState T × Option (ProbeSample T) :=
  ({ s with pending := none }, s.pending)

/-- The values driven on the wire reach the tap, each at the virtual time of its
    drive. -/
def hear (s : ProbeState T) (drives : List (ProbeSample T)) : ProbeState T :=
  drives.foldl (fun s drive => s.on_drive drive.value drive.virtual_time_ns) s

/-- Under `EveryDrive` the tap holds the last value it has heard. -/
theorem hear_every_drive {s : ProbeState T} (hs : s.policy = .EveryDrive)
    (drives : List (ProbeSample T)) : (s.hear drives).policy = .EveryDrive ∧
      (s.hear drives).pending = drives.getLast?.or s.pending := by
  induction drives generalizing s with
  | nil => exact ⟨hs, rfl⟩
  | cons drive rest ih =>
    have hpolicy : (s.on_drive drive.value drive.virtual_time_ns).policy = .EveryDrive := by
      unfold on_drive
      split <;> exact hs
    have hpending : (s.on_drive drive.value drive.virtual_time_ns).pending = some drive := by
      unfold on_drive accepts
      rw [hs]
      rfl
    obtain ⟨hkeep, hlast⟩ := ih hpolicy
    refine ⟨hkeep, hlast.trans ?_⟩
    rw [hpending]
    cases rest with
    | nil => rfl
    | cons next rest => simp [List.getLast?_cons]

end ProbeState

/-! ### A tap on a UART wire -/

/-- The sample that the tap of a UART wire hands over. Its time is a `u64`. -/
def ProbeSample.to_tap (s : ProbeSample UartFrame) : TapSample where
  virtual_time_ns := min s.virtual_time_ns u64_max
  value := .frame ⟨s.value.data.toNat, s.value.data.isLt⟩
  time_lt := Nat.lt_of_le_of_lt (Nat.min_le_right _ _) (by decide)

/-- A wire of a board that carries UART frames: the port that it leaves the board
    at, and the frames among the values of the ports. -/
structure UartWire (F : Type) where
  port : String
  frame : F → Option UartFrame

/-- The frames driven on the wire, in order. -/
def UartWire.frames {F : Type} (wire : UartWire F) (drives : List (Drive F)) :
    List (ProbeSample UartFrame) :=
  drives.filterMap fun d =>
    if d.port = wire.port then (wire.frame d.value).map fun frame => ⟨d.at_, frame⟩ else none

theorem UartWire.frames_append {F : Type} (wire : UartWire F) (drives drives' : List (Drive F)) :
    wire.frames (drives ++ drives') = wire.frames drives ++ wire.frames drives' :=
  List.filterMap_append

/-- What happened on the wire between two executions of `ingest_and_emit`, and
    whether the log had room for a record at the second. -/
structure Interval where
  frames : List (ProbeSample UartFrame)
  room : Bool

/-! ### The node -/

variable {n m : Nat} {E F : Type} [Entity E F]

/-- A node with its probes and the tap. `since` are the frames driven since the
    last `ingest_and_emit`, and `intervals` what happened before; both are history
    variables. -/
structure TappedNode (n m : Nat) (E F : Type) where
  node : Node m E F
  probes : NodeProbes n
  tap : ProbeState UartFrame
  since : List (ProbeSample UartFrame)
  intervals : List Interval

/-- What `ingest_and_emit` is given besides: the samples of the other taps, the
    bytes that appends write, and whether the coarse interval has passed. -/
structure IngestIo where
  others : Nat → Option TapSample
  written : Nat → Nat
  due : Bool

/-- One turn of the loop of `run_node`. What other boards do to the lanes is left
    open, as is the contents of the control inbox. -/
inductive TapAct (n m : Nat) (F : Type) where
  | take (t : Node.Take) (msg : ControlToNode n) (lanes : Lanes m F)
  | act (l : Node.Act) (lanes : Lanes m F) (io : IngestIo)

/-- The log has room for a record of the probe. -/
def ProbeLog.room (log : ProbeLog) (written : Nat) (p : Nat) : Bool :=
  !(log.at_cap p && (log.truncated || written < spill_rec))

/-- One round of the loop of `ProbePublishers::ingest`. -/
def ingest_slot (pending : Nat → Option TapSample) (written : Nat → Nat) (log : ProbeLog)
    (point : ProbePoint) : ProbeLog :=
  match pending point.probe_id with
  | some sample =>
    if sample.value.kind = point.kind then log.push (written point.probe_id) (point.record sample)
    else log
  | none => log

/-- The log when `ingest` comes to the point. -/
def ingest_before (pending : Nat → Option TapSample) (written : Nat → Nat) (p : Nat)
    (log : ProbeLog) : ProbeLog :=
  (log.catalog.takeWhile fun point => point.probe_id ≠ p).foldl (ingest_slot pending written) log

namespace TappedNode

/-- What the tap hears when the entity of the board has changed. -/
def heard (wire : UartWire F) (e e' : E) : List (ProbeSample UartFrame) :=
  wire.frames ((Entity.ports e').driven.drop (Entity.ports e).driven.length)

/-- The node has made a step. -/
def follow (wire : UartWire F) (s : TappedNode n m E F) (node : Node m E F) :
    TappedNode n m E F :=
  { s with
    node := node
    tap := s.tap.hear (heard wire s.node.sim.entity node.sim.entity)
    since := s.since ++ heard wire s.node.sim.entity node.sim.entity }

/-- The samples that `ingest` finds. -/
def pending_of (point : ProbePoint) (io : IngestIo) (tap : ProbeState UartFrame) (p : Nat) :
    Option TapSample :=
  if p = point.probe_id then tap.take_pending.2.map ProbeSample.to_tap else io.others p

/-- `ingest_and_emit`. -/
def ingest (point : ProbePoint) (io : IngestIo) (s : TappedNode n m E F) : TappedNode n m E F :=
  let pending := pending_of point io s.tap
  let before := ingest_before pending io.written point.probe_id s.probes.log
  { s with
    probes := (s.probes.ingest_and_emit pending io.written io.due).1
    tap := s.tap.take_pending.1
    since := []
    intervals := s.intervals ++
      [⟨s.since, before.room (io.written point.probe_id) point.probe_id⟩] }

/-- The step ends an iteration of the loop that has polled the guest. -/
def ends_iteration (node : Node m E F) : Node.Act → Bool
  | .pump_tx =>
    match node.pc with
    | .tx [] => true
    | _ => false
  | _ => false

def step (cfg : Config n m) (i : Fin n) (wire : UartWire F) (point : ProbePoint)
    (s : TappedNode n m E F) : TapAct n m F → Option (TappedNode n m E F)
  | .take t msg lanes =>
    (s.node.take cfg i t msg lanes).map fun r =>
      { s.follow wire r.2.1 with probes := (s.probes.take_control i msg).1 }
  | .act l lanes io =>
    (s.node.act cfg i lanes l).map fun r =>
      if ends_iteration s.node l then (s.follow wire r.2.1).ingest point io
      else s.follow wire r.2.1

/-- The node at the start of its loop: the entity has been reset, and its ports
    cleared. -/
def boot (cfg : Config n m) (wire : UartWire F) (catalog : List ProbePoint)
    (has_inspect has_actions : Bool) (ports : List String) (e : E) : TappedNode n m E F where
  node := { Node.boot cfg (Entity.drain_pending (Entity.reset e) ports) has_inspect has_actions with
    state := .AwaitingStartup
    headroom_threshold_ns := 0 }
  probes := ⟨ProbeLog.open_ catalog, [], none, [], .AwaitingStartup, [], []⟩
  tap := (ProbeState.new .EveryDrive).hear (heard wire e (Entity.reset e))
  since := heard wire e (Entity.reset e)
  intervals := []

end TappedNode

/-- All runs of a node, from the start of its loop. The probes of the board have
    different ids, and `point` is the probe of the UART wire. -/
def tapped_runs (E : Type) {F : Type} [Entity E F] (cfg : Config n m) (i : Fin n)
    (wire : UartWire F) (point : ProbePoint) :
    System (TappedNode n m E F) (TapAct n m F) where
  init s := ∃ catalog has_inspect has_actions ports e,
    (catalog.map ProbePoint.probe_id).Nodup ∧ point ∈ catalog ∧ point.kind = .Uart ∧
      (Entity.ports e).driven = [] ∧
      s = TappedNode.boot cfg wire catalog has_inspect has_actions ports e
  step s := s.step cfg i wire point

def AnyTurn (_ : TappedNode n m E F) (_ : TapAct n m F) : Prop := True

end Rl78Sim
