import Rl78Sim.Framework.Transition
import Rl78Sim.Hw.Analog

/-! # Digital Ports

    A port has a mode register and a level register of eight pins each. The
    level register is one latch for both directions: a guest write changes the
    bits of the output pins, an external level the bit of an input pin. The
    wires of the output pins are driven only where a write changes the latch.
    The registers that neither direction nor level depend on are left out.
-/

namespace Rl78Sim

open Transition

/-- `PORTS`. -/
abbrev gpio_ports : Nat := 16

/-- `PINS_PER_PORT`. -/
abbrev pins_per_port : Nat := 8

/-- `PM13_MODE`. -/
def pm13_mode : BitVec 8 := 0x80#8

/-- `Gpio`. `out` is the last level driven on each output wire. -/
structure Gpio where
  mode : Fin gpio_ports → BitVec 8
  level : Fin gpio_ports → BitVec 8
  out : Fin gpio_ports → Fin pins_per_port → Option DigitalLevel

namespace Gpio

/-- `Gpio::restore_reset`: the wires are not driven. -/
def restore_reset (g : Gpio) : Gpio :=
  { g with
    mode := fun port => if port.val = 13 then pm13_mode else 0xFF#8
    level := fun _ => 0 }

/-- `Gpio::new`. -/
def new : Gpio := restore_reset ⟨fun _ => 0, fun _ => 0, fun _ _ => none⟩

/-- The pin is an output: its mode bit is not `MODE_INPUT`. -/
def is_output (g : Gpio) (port : Fin gpio_ports) (bit : Nat) : Bool := !(g.mode port).getLsbD bit

/-- One bit of a register. -/
def set_bit (word : BitVec 8) (bit : Nat) (high : Bool) : BitVec 8 :=
  (word &&& ~~~(1#8 <<< bit)) ||| ((if high then 1#8 else 0#8) <<< bit)

/-- `Gpio::apply_input`. -/
def apply_input (g : Gpio) (pin : Nat) (level : DigitalLevel) : Gpio :=
  match level with
  | .HiZ => g
  | level =>
      if h : pin / pins_per_port < gpio_ports then
        let port : Fin gpio_ports := ⟨pin / pins_per_port, h⟩
        let bit_index := pin % pins_per_port
        if g.is_output port bit_index then g
        else
          { g with
            level := Function.update g.level port
              (set_bit (g.level port) bit_index (level == .High)) }
      else g

/-- `Gpio::on_pin`. -/
def on_pin (g : Gpio) (pin : Nat) (values : List DigitalLevel) (changed : Nat) : Gpio :=
  match values[changed]? with
  | some level => g.apply_input pin level
  | none => g

/-- `Gpio::publish_level_changes`. -/
def publish_level_changes (g : Gpio) (port : Fin gpio_ports) (old : BitVec 8) : Gpio :=
  let new := g.level port
  let diff := old ^^^ new
  { g with
    out := Function.update g.out port fun bit =>
      if diff.getLsbD bit.val then some (if new.getLsbD bit.val then .High else .Low)
      else g.out port bit }

/-- `Gpio::write_mode`. -/
def write_mode (g : Gpio) (port : Fin gpio_ports) (data : BitVec 8) : Gpio :=
  if port.val = 13 then g
  else
    { g with
      mode := Function.update g.mode port <|
        match port.val with
        | 10 | 15 => data ||| 0x80#8
        | 12 => data ||| 0x18#8
        | _ => data }

/-- The bits of a port without pins are never set. -/
def writable (port : Fin gpio_ports) (data : BitVec 8) : BitVec 8 :=
  match port.val with
  | 10 | 15 => data &&& ~~~0x80#8
  | 13 => data &&& ~~~0x7E#8
  | _ => data

/-- `Gpio::write_level`. -/
def write_level (g : Gpio) (port : Fin gpio_ports) (data : BitVec 8) : Gpio :=
  let data := writable port data
  let old := g.level port
  let mode := g.mode port
  publish_level_changes
    { g with level := Function.update g.level port ((old &&& mode) ||| (~~~mode &&& data)) }
    port old

/-! ### Runs -/

/-- What the guest, the wires and the board do to the ports. -/
inductive Access where
  | write_mode (port : Fin gpio_ports) (data : BitVec 8)
  | write_level (port : Fin gpio_ports) (data : BitVec 8)
  | input (pin : Nat) (values : List DigitalLevel) (changed : Nat)
  | reset

def access (g : Gpio) : Access → Gpio
  | .write_mode port data => g.write_mode port data
  | .write_level port data => g.write_level port data
  | .input pin values changed => g.on_pin pin values changed
  | .reset => g.restore_reset

/-- All sequences of accesses to new ports. The history is the level register
    that the last access wrote. -/
def runs : System (Gpio × Option (Fin gpio_ports)) Access :=
  System.logged ⟨fun g => g = new, fun g a => some (g.access a)⟩ none fun _ a _ _ =>
    match a with
    | .write_level port _ => some port
    | _ => none

def AnyAccess (_ : Gpio × Option (Fin gpio_ports)) (_ : Access) : Prop := True

/-! ### What a wire shows -/

/-- The level on an output wire; an undriven wire counts as low. -/
def wire (g : Gpio) (port : Fin gpio_ports) (bit : Fin pins_per_port) : DigitalLevel :=
  (g.out port bit).getD .Low

/-- The level that a register bit stands for. -/
def level_of (high : Bool) : DigitalLevel := if high then .High else .Low

/-- The wire shows the bit of the level register. -/
def PinShows (g : Gpio) (port : Fin gpio_ports) (bit : Fin pins_per_port) : Prop :=
  g.wire port bit = level_of ((g.level port).getLsbD bit.val)

/-- Every output pin of the port shows its bit. -/
def Shows (g : Gpio) (port : Fin gpio_ports) : Prop :=
  ∀ bit : Fin pins_per_port, g.is_output port bit.val = true → g.PinShows port bit

instance (g : Gpio) (port : Fin gpio_ports) (bit : Fin pins_per_port) :
    Decidable (g.PinShows port bit) :=
  inferInstanceAs (Decidable (_ = _))

instance (g : Gpio) (port : Fin gpio_ports) : Decidable (g.Shows port) :=
  inferInstanceAs (Decidable (∀ bit : Fin pins_per_port,
    g.is_output port bit.val = true → g.PinShows port bit))

/-- The write gives the pin a value that is not the one in its latch. -/
def Flips (g : Gpio) (port : Fin gpio_ports) (data : BitVec 8) (bit : Fin pins_per_port) : Prop :=
  (writable port data).getLsbD bit.val ≠ (g.level port).getLsbD bit.val

instance (g : Gpio) (port : Fin gpio_ports) (data : BitVec 8) (bit : Fin pins_per_port) :
    Decidable (g.Flips port data bit) :=
  inferInstanceAs (Decidable (¬ _ = _))

/-- An output pin whose latch is not what its wire shows gets the other
    value. -/
def FlipsStale (g : Gpio) (port : Fin gpio_ports) (data : BitVec 8) : Prop :=
  ∀ bit : Fin pins_per_port, g.is_output port bit.val = true → ¬ g.PinShows port bit →
    g.Flips port data bit

instance (g : Gpio) (port : Fin gpio_ports) (data : BitVec 8) :
    Decidable (g.FlipsStale port data) :=
  inferInstanceAs (Decidable (∀ bit : Fin pins_per_port, g.is_output port bit.val = true →
    ¬ g.PinShows port bit → g.Flips port data bit))

/-- Every write to a level register flips the stale latches of the port. -/
def WritesFlip (s : Gpio × Option (Fin gpio_ports)) : Access → Prop
  | .write_level port data => s.1.FlipsStale port data
  | _ => True

/-! ### One write -/

theorem level_write (g : Gpio) (port : Fin gpio_ports) (data : BitVec 8)
    {bit : Fin pins_per_port} (hout : g.is_output port bit.val = true) :
    ((g.write_level port data).level port).getLsbD bit.val =
      (writable port data).getLsbD bit.val := by
  have hmode : (g.mode port).getLsbD bit.val = false := by simpa [is_output] using hout
  have hlt : bit.val < 8 := bit.isLt
  unfold write_level publish_level_changes
  simp only [Function.update_self, BitVec.getLsbD_or, BitVec.getLsbD_and, BitVec.getLsbD_not,
    hmode, hlt]
  simp

/-- What `publish_level_changes` does to the wire of one pin. -/
theorem drive_bit (old new : Bool) (last : Option DigitalLevel) :
    (if (old ^^ new) = true then some (if new = true then .High else .Low) else last).getD .Low =
      if new ≠ old then level_of new else last.getD .Low := by
  cases old <;> cases new <;> simp [level_of]

theorem wire_write (g : Gpio) (port : Fin gpio_ports) (data : BitVec 8)
    {bit : Fin pins_per_port} (hout : g.is_output port bit.val = true) :
    (g.write_level port data).wire port bit =
      if g.Flips port data bit then level_of ((writable port data).getLsbD bit.val)
      else g.wire port bit := by
  have hlevel := g.level_write port data hout
  calc (g.write_level port data).wire port bit
      = (if ((g.level port).getLsbD bit.val ^^ (writable port data).getLsbD bit.val) = true then
          some (if (writable port data).getLsbD bit.val = true then .High else .Low)
        else g.out port bit).getD .Low := by
        rw [← hlevel]
        simp only [wire, write_level, publish_level_changes, Function.update_self,
          BitVec.getLsbD_xor]
    _ = _ := by
        rw [drive_bit]
        by_cases hflip : g.Flips port data bit
        · rw [if_pos hflip]
          exact if_pos hflip
        · rw [if_neg hflip]
          exact if_neg hflip

/-- After a write an output pin shows its bit exactly when its wire showed the
    latch, or the write flips the latch. -/
theorem shows_write_iff (g : Gpio) (port : Fin gpio_ports) (data : BitVec 8) :
    (g.write_level port data).Shows port ↔ g.FlipsStale port data := by
  have hpin (bit : Fin pins_per_port) (hout : g.is_output port bit.val = true) :
      (g.write_level port data).PinShows port bit ↔
        (¬ g.PinShows port bit → g.Flips port data bit) := by
    unfold PinShows
    rw [wire_write g port data hout, level_write g port data hout]
    by_cases hflip : g.Flips port data bit
    · simp [hflip]
    · have hsame : (writable port data).getLsbD bit.val = (g.level port).getLsbD bit.val :=
        not_not.mp hflip
      rw [if_neg hflip, hsame]
      constructor
      · intro hshows hstale
        exact absurd hshows hstale
      · intro hnot
        by_contra hstale
        exact hflip (hnot hstale)
  constructor
  · intro hshows bit hout
    exact (hpin bit hout).mp (hshows bit hout)
  · intro hflips bit hout
    exact (hpin bit hout).mpr (hflips bit hout)

/-! ### What makes a latch stale -/

/-- Only an external level and a reset change a latch and leave the wire. -/
theorem shows_access {g : Gpio} {a : Access} (hinput : ∀ pin values changed,
    a ≠ .input pin values changed) (hreset : a ≠ .reset) {port : Fin gpio_ports}
    {bit : Fin pins_per_port} (h : g.PinShows port bit) : (g.access a).PinShows port bit := by
  cases a with
  | write_mode port' data =>
    show (g.write_mode port' data).PinShows port bit
    unfold write_mode
    split <;> exact h
  | write_level port' data =>
    show (g.write_level port' data).PinShows port bit
    by_cases hport : port = port'
    · subst hport
      by_cases hout : g.is_output port bit.val = true
      · unfold PinShows
        rw [wire_write g port data hout, level_write g port data hout]
        split
        · rfl
        · rename_i hsame
          rw [not_not.mp hsame]
          exact h
      · -- An input pin keeps its latch, and is not driven.
        have hmode : (g.mode port).getLsbD bit.val = true := by simpa [is_output] using hout
        have hlt : bit.val < 8 := bit.isLt
        unfold PinShows wire at h ⊢
        simp only [write_level, publish_level_changes, Function.update_self, BitVec.getLsbD_xor,
          BitVec.getLsbD_or, BitVec.getLsbD_and, BitVec.getLsbD_not, hmode, hlt, Bool.and_true,
          Bool.not_true, Bool.and_false, Bool.false_and, Bool.or_false, Bool.xor_self] at h ⊢
        exact h
    · unfold PinShows wire write_level publish_level_changes at *
      simp only [Function.update_of_ne hport]
      exact h
  | input pin values changed => exact absurd rfl (hinput pin values changed)
  | reset => exact absurd rfl hreset

/-! ### The ports over whole runs -/

/-- In every run whose writes flip the stale latches, an output pin shows its
    bit after every write to its level register; a write that does not flip one
    leaves a pin that does not. -/
theorem output_shows_register (port : Fin gpio_ports) :
    (∀ s, Reachable runs WritesFlip s → s.2 = some port → s.1.Shows port) ∧
    ∀ s, Reachable runs AnyAccess s → ∀ data s',
      runs.step s (.write_level port data) = some s' →
      (s'.1.Shows port ↔ s.1.FlipsStale port data) := by
  constructor
  · intro s h hlast
    cases h with
    | init hi =>
      rw [hi.2] at hlast
      cases hlast
    | step a _ hok hstep =>
      obtain ⟨hacc, hlog⟩ := System.logged_step_cases hstep
      rw [hlog] at hlast
      cases a with
      | write_level port' data =>
        obtain rfl : port' = port := Option.some.inj hlast
        rw [← Option.some.inj hacc]
        exact (shows_write_iff _ port' data).mpr hok
      | _ => cases hlast
  · intro s _ data s' hstep
    obtain ⟨hacc, -⟩ := System.logged_step_cases hstep
    rw [← Option.some.inj hacc]
    exact shows_write_iff s.1 port data

/-! ### Two runs of a pin -/

instance (s : Gpio × Option (Fin gpio_ports)) (a : Access) : Decidable (AnyAccess s a) :=
  .isTrue trivial

instance (s : Gpio × Option (Fin gpio_ports)) (a : Access) : Decidable (WritesFlip s a) :=
  match a with
  | .write_level port data => inferInstanceAs (Decidable (s.1.FlipsStale port data))
  | .write_mode _ _ | .input _ _ _ | .reset => .isTrue trivial

/-- Pin 0 latches an external high level, becomes an output, and is written
    high: its wire is never driven. -/
theorem output_stays_low : ∃ s : Gpio × Option (Fin gpio_ports), Reachable runs AnyAccess s ∧
    s.2 = some 0 ∧ s.1.is_output 0 0 = true ∧ (s.1.level 0).getLsbD 0 = true ∧
      s.1.wire 0 0 = .Low :=
  Reachable.exists_of_exec (s := (new, none))
    [.input 0 [.High] 0, .write_mode 0 0xFE, .write_level 0 0x01] ⟨rfl, rfl⟩ (by decide +kernel)

/-- The same pin driven high and low, with an input beside it. -/
theorem output_shows_register_pin : (∃ s : Gpio × Option (Fin gpio_ports),
    Reachable runs WritesFlip s ∧ s.1.wire 0 0 = .Low ∧ (s.1.level 0).getLsbD 1 = true ∧
      s.1.Shows 0) ∧
    ∃ s s' : Gpio × Option (Fin gpio_ports), Reachable runs AnyAccess s ∧
      runs.step s (.write_level 0 0x01) = some s' ∧ ¬ s'.1.Shows 0 := by
  constructor
  · obtain ⟨s, hs, hlast, hwire, hlevel⟩ : ∃ s : Gpio × Option (Fin gpio_ports),
        Reachable runs WritesFlip s ∧ s.2 = some 0 ∧ s.1.wire 0 0 = .Low ∧
          (s.1.level 0).getLsbD 1 = true :=
      Reachable.exists_of_exec (s := (new, none))
        [.write_mode 0 0xFE, .input 1 [.High] 0, .write_level 0 0x01, .write_level 0 0x00]
        ⟨rfl, rfl⟩ (by decide +kernel)
    exact ⟨s, hs, hwire, hlevel, (output_shows_register 0).1 s hs hlast⟩
  · obtain ⟨s, s', hs, hstep, hstale⟩ : ∃ s s' : Gpio × Option (Fin gpio_ports),
        Reachable runs AnyAccess s ∧ runs.step s (.write_level 0 0x01) = some s' ∧
          ¬ s.1.FlipsStale 0 0x01 :=
      Reachable.exists_step_of_exec (s := (new, none)) [.input 0 [.High] 0, .write_mode 0 0xFE]
        ⟨rfl, rfl⟩ (by decide +kernel)
    refine ⟨s, s', hs, hstep, ?_⟩
    intro hshows
    exact hstale (((output_shows_register 0).2 s hs 0x01 s' hstep).mp hshows)

end Gpio

end Rl78Sim
