import Rl78Sim.Kernel.ListCore

/-! # A Channel of the Timer Array Unit

    One channel in interval mode. The data register and the prescalers enter
    as the interval that they give, in nanoseconds.
-/

namespace Rl78Sim

open Transition

/-- `TauExpire`. -/
structure TauExpire where
  generation : Nat
  at_ : Nat
  deriving DecidableEq

/-- The bus accesses of the channel: its bits in the start and the stop
    register, and the registers behind the interval. -/
inductive TauAccess where
  | start
  | stop
  | set_interval (interval : Nat)
  deriving DecidableEq

/-- `TauUnit`, one channel. `interrupts` counts the drives of `irq_out`. -/
structure TauChannel where
  interval : Nat
  te : Bool
  expire_id : Option Nat
  generation : Nat
  interrupts : Nat
  deriving DecidableEq

namespace TauChannel

/-- `TauUnit::new`, with an interval. -/
def new (interval : Nat) : TauChannel := ⟨interval, false, none, 0, 0⟩

/-- `TauUnit::start_channel`. -/
def start_channel (now next_id : Nat) (c : TauChannel) : TauChannel × List (QueueCall TauExpire) :=
  if c.expire_id.isSome then (c, [])
  else
    let at_ := saturating_add now c.interval
    ({ c with te := true, expire_id := some (next_id + 1) },
      [.schedule at_ ⟨c.generation, at_⟩])

/-- `TauUnit::stop_channel`. -/
def stop_channel (c : TauChannel) : TauChannel × List (QueueCall TauExpire) :=
  let stopped :=
    { c with te := false, generation := (c.generation + 1) % 2 ^ 32, expire_id := none }
  match c.expire_id with
  | some id => (stopped, [.cancel id])
  | none => (stopped, [])

/-- `TauExpire::fire`: the next deadline is the first one after `now` on the
    grid of the interval. -/
def expire (ev : TauExpire) (now next_id : Nat) (c : TauChannel) :
    TauChannel × List (QueueCall TauExpire) :=
  if c.generation ≠ ev.generation ∨ c.te = false then ({ c with expire_id := none }, [])
  else
    let c := { c with interrupts := c.interrupts + 1 }
    if c.interval = 0 then (c, [])
    else
      let next := saturating_add ev.at_ (c.interval * ((now - ev.at_) / c.interval + 1))
      ({ c with expire_id := some (next_id + 1) }, [.schedule next ⟨ev.generation, next⟩])

instance : Devices TauChannel TauAccess TauExpire where
  access
    | .start, now, next_id, c => c.start_channel now next_id
    | .stop, _, _, c => c.stop_channel
    | .set_interval interval, _, _, c => ({ c with interval := interval }, [])
  fire ev now next_id c := c.expire ev now next_id
  reset c := c.stop_channel

end TauChannel

/-! ### A timer that is started in the middle of a quantum -/

/-- A core at 32 MHz that starts its timer with instruction `k`. -/
def timer_core (interval k : Nat) : ListCore TauChannel TauAccess :=
  ⟨31, fun pc => if pc = k then [.start] else [], 0, TauChannel.new interval⟩

/-- Its machine at power-on, with a history. -/
abbrev TimerTraced := Traced (ListCore TauChannel TauAccess) TauExpire Empty

def timer_sim (interval k : Nat) : Simulator TimerTraced :=
  Simulator.new (Traced.new (timer_core interval k))

theorem init_timer_sim (interval k : Nat) :
    (sim_runs power_on_traced).init (timer_sim interval k) :=
  ⟨⟨_, rfl⟩, rfl⟩

/-- Two quanta under a ceiling of 20000. -/
def timer_run : List (SimAct Empty) :=
  [.command .Start, .command (.SetAllowed 20000), .poll 5, .poll 5]

theorem clock_respects_deadlines_timer :
    ∃ t : Simulator TimerTraced, Reachable (sim_runs power_on_traced) NoStep t ∧
      t.entity.log.fired.map (fun f => (f.at_, f.fired_at)) = [(9990, 10000), (19980, 19980)] ∧
      ∀ f ∈ t.entity.log.fired, f.fired_at = f.at_ ∨ f.id ∈ t.entity.log.past ∨
        f.id ∈ t.entity.log.passed_by_clock := by
  obtain ⟨t, ht, hfired⟩ : ∃ t : Simulator TimerTraced,
      Reachable (sim_runs power_on_traced) NoStep t ∧
      t.entity.log.fired.map (fun f => (f.at_, f.fired_at)) = [(9990, 10000), (19980, 19980)] :=
    Reachable.exists_of_exec timer_run (init_timer_sim 9990 0) (by decide +kernel)
  exact ⟨t, ht, hfired, clock_respects_deadlines.2.2 t ht⟩

/-- The last instruction of the quantum ends at 9982 and the event is due at
    9990, but it fires at the end of the quantum. -/
theorem timer_fires_late :
    ∃ t : Simulator TimerTraced, Reachable (sim_runs power_on_traced) NoStep t ∧
      t.entity.log.fired.any (fun f => f.fired_at ≠ f.at_ ∧ f.id ∉ t.entity.log.past ∧
        f.id ∉ t.entity.log.passed_by_insns) = true :=
  Reachable.exists_of_exec timer_run (init_timer_sim 9990 0) (by decide +kernel)

end Rl78Sim
