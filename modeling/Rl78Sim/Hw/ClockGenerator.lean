import Rl78Sim.Kernel.Sim

/-! # The Clock Generator

    The registers of the RL78 clock generator and the clock tree that it
    publishes after every write. The period of `f_clk` is the instruction
    period of the core, so the registers decide whether an instruction fits
    into a quantum of the simulator.
-/

namespace Rl78Sim

/-- `NS_PER_SEC`. -/
def ns_per_sec : Nat := 1000000000

/-- `Hertz`: zero means that the oscillator is stopped. -/
structure Hertz where
  hz : Nat
  deriving DecidableEq

namespace Hertz

def zero : Hertz := ⟨0⟩

/-- `Hertz::from_mhz`. -/
def from_mhz (mhz : Nat) : Hertz := ⟨min (mhz * 1000000) u32_max⟩

/-- `Hertz::cycles_to_tick`. -/
def cycles_to_tick (f : Hertz) (cycles : Nat) : Option Nat :=
  if f.hz = 0 then none else some (saturating_mul cycles ns_per_sec / f.hz)

/-- `Hertz::period`. -/
def period (f : Hertz) : Option Nat := f.cycles_to_tick 1

end Hertz

/-- `ClockTree`. -/
structure ClockTree where
  f_ihp : Hertz
  f_imp : Hertz
  f_mxp : Hertz
  f_clk : Hertz
  f_main : Hertz
  f_il : Hertz
  f_sxp : Hertz
  f_rtcck : Hertz
  deriving DecidableEq

/-! ### Register bits -/

def csc_hiostop : BitVec 8 := 0x01#8
def csc_mioen : BitVec 8 := 0x02#8
def csc_writable : BitVec 8 := 0xC3#8
def ckc_mcm1 : BitVec 8 := 0x01#8
def ckc_mcs1 : BitVec 8 := 0x02#8
def ckc_mcm0 : BitVec 8 := 0x10#8
def ckc_mcs : BitVec 8 := 0x20#8
def ckc_css : BitVec 8 := 0x40#8
def ckc_cls : BitVec 8 := 0x80#8
def ckc_writable : BitVec 8 := ckc_mcm1 ||| ckc_mcm0 ||| ckc_css
def cksel_sellosc : BitVec 8 := 0x01#8
def osmc_wutmmck : BitVec 8 := 0x10#8
def osmc_writable : BitVec 8 := 0x90#8
def wkupmd_bit : BitVec 8 := 0x01#8

/-- `HIGH_OSC_MHZ`. -/
def high_osc_mhz : Bool → Fin 8 → Nat
  | false, i => #v[24, 12, 6, 3, 24, 24, 24, 24][i]
  | true, i => #v[32, 16, 8, 4, 2, 1, 32, 32][i]

/-- `MID_OSC_MHZ`. -/
def mid_osc_mhz (i : Fin 4) : Nat := #v[4, 2, 1, 4][i]

/-- `LOW_OSC`. -/
def low_osc : Hertz := ⟨32768⟩

/-- `ClockGenerator`. -/
structure ClockGenerator where
  cmc : BitVec 8
  csc : BitVec 8
  osts : BitVec 8
  ckc : BitVec 8
  cks0 : BitVec 8
  cks1 : BitVec 8
  osmc : BitVec 8
  cksel : BitVec 8
  hocodiv : BitVec 8
  mocodiv : BitVec 8
  moscdiv : BitVec 8
  hiotrm : BitVec 8
  miotrm : BitVec 8
  liotrm : BitVec 8
  wkupmd : BitVec 8
  frqsel3 : Bool
  cmc_dirty : Bool
  outputs : ClockTree
  option_byte : Option (BitVec 8)

namespace ClockGenerator

/-- `ClockGenerator::new`. -/
def new : ClockGenerator where
  cmc := 0
  csc := 0
  osts := 0
  ckc := 0
  cks0 := 0
  cks1 := 0
  osmc := 0
  cksel := 0
  hocodiv := 0
  mocodiv := 0
  moscdiv := 0
  hiotrm := 0
  miotrm := 0
  liotrm := 0
  wkupmd := 0
  frqsel3 := false
  cmc_dirty := false
  outputs := ⟨.zero, .zero, .zero, .zero, .zero, .zero, .zero, .zero⟩
  option_byte := none

/-- Is one of the bits set? -/
def has (reg bits : BitVec 8) : Bool := reg &&& bits != 0

/-- The outputs that `commit` publishes. -/
def tree (g : ClockGenerator) : ClockTree :=
  let high_osc : Hertz :=
    if has g.csc csc_hiostop then .zero
    else .from_mhz (high_osc_mhz g.frqsel3 (Fin.ofNat 8 g.hocodiv.toNat))
  let mid_osc : Hertz :=
    if has g.csc csc_mioen then .from_mhz (mid_osc_mhz (Fin.ofNat 4 g.mocodiv.toNat))
    else .zero
  let f_sub : Hertz := if has g.cksel cksel_sellosc then low_osc else .zero
  let f_oco := if has g.ckc ckc_mcm1 then mid_osc else high_osc
  let f_main := if has g.ckc ckc_mcm0 then .zero else f_oco
  let f_clk := if has g.ckc ckc_css then f_sub else f_main
  let f_sxp : Hertz := if has g.osmc osmc_wutmmck then low_osc else .zero
  ⟨high_osc, mid_osc, .zero, f_clk, f_main, low_osc, f_sxp, f_sxp⟩

/-- `ClockGenerator::commit`. -/
def commit (g : ClockGenerator) : ClockGenerator := { g with outputs := g.tree }

/-- Set `status` in `ckc` exactly when `select` is. -/
def mirror (ckc select status : BitVec 8) : BitVec 8 :=
  if has ckc select then ckc ||| status else ckc &&& ~~~status

/-- `ClockGenerator::with_status_bits`. -/
def with_status_bits (ckc : BitVec 8) : BitVec 8 :=
  mirror (mirror (mirror ckc ckc_css ckc_cls) ckc_mcm0 ckc_mcs) ckc_mcm1 ckc_mcs1

/-- `ClockGenerator::write_ckc`. -/
def write_ckc (g : ClockGenerator) (value : BitVec 8) : ClockGenerator :=
  { g with ckc := with_status_bits ((g.ckc &&& ~~~ckc_writable) ||| (value &&& ckc_writable)) }

/-- `ClockGenerator::write_sfr`. -/
def write_sfr (g : ClockGenerator) (offset : Nat) (value : BitVec 8) : ClockGenerator :=
  commit <|
    match offset with
    | 0 =>
        if !g.cmc_dirty && g.cmc != value then { g with cmc := value, cmc_dirty := true } else g
    | 1 => { g with csc := value &&& csc_writable }
    | 3 => { g with osts := value &&& 0x07#8 }
    | 4 => g.write_ckc value
    | 5 => { g with cks0 := value }
    | 6 => { g with cks1 := value }
    | 7 => { g with cksel := (value &&& cksel_sellosc) ||| (g.cksel &&& ~~~cksel_sellosc) }
    | _ => g

/-- `ClockGenerator::write_osc_div`. -/
def write_osc_div (g : ClockGenerator) (offset : Nat) (value : BitVec 8) : ClockGenerator :=
  commit <|
    match offset with
    | 0 => { g with mocodiv := value &&& 0x03#8 }
    | 1 => { g with osmc := (value &&& osmc_writable) ||| (g.osmc &&& ~~~osmc_writable) }
    | _ => g

/-- `ClockGenerator::write_hoco`. -/
def write_hoco (g : ClockGenerator) (offset : Nat) (value : BitVec 8) : ClockGenerator :=
  commit <|
    match offset with
    | 0 => { g with hiotrm := value &&& 0x3F#8 }
    | 8 => { g with hocodiv := value &&& 0x07#8 }
    | _ => g

/-- `ClockGenerator::write_trim`. -/
def write_trim (g : ClockGenerator) (offset : Nat) (value : BitVec 8) : ClockGenerator :=
  commit <|
    match offset with
    | 0 => { g with miotrm := value }
    | 1 => { g with liotrm := value }
    | 2 => { g with moscdiv := value &&& 0x07#8 }
    | 3 => { g with wkupmd := (value &&& wkupmd_bit) ||| (g.wkupmd &&& ~~~wkupmd_bit) }
    | _ => g

/-- `Resettable::reset`. -/
def reset (g : ClockGenerator) : ClockGenerator :=
  commit { g with
    cmc := 0x00
    ckc := 0x00
    csc := 0xC0
    osts := 0x07
    cks0 := 0x00
    cks1 := 0x00
    osmc := 0x01
    cksel := 0x00
    hocodiv := (g.option_byte.map fun b => b &&& 0x07#8).getD 0
    mocodiv := 0x00
    moscdiv := 0x00
    hiotrm := 0x20
    miotrm := 0x90
    liotrm := 0x80
    wkupmd := 0x00
    frqsel3 := (g.option_byte.map fun b => has b 0x08#8).getD true
    cmc_dirty := false }

/-- `ClockGenerator::f_clk`. -/
def f_clk (g : ClockGenerator) : Hertz := g.outputs.f_clk

/-- What software and the MCU reset can do to the generator. -/
inductive Access where
  | sfr (offset : Nat) (value : BitVec 8)
  | osc_div (offset : Nat) (value : BitVec 8)
  | hoco (offset : Nat) (value : BitVec 8)
  | trim (offset : Nat) (value : BitVec 8)
  | reset

def access (g : ClockGenerator) : Access → ClockGenerator
  | .sfr offset value => g.write_sfr offset value
  | .osc_div offset value => g.write_osc_div offset value
  | .hoco offset value => g.write_hoco offset value
  | .trim offset value => g.write_trim offset value
  | .reset => g.reset

/-! ### The published clock -/

theorem commit_outputs (g : ClockGenerator) : g.commit.outputs = g.commit.tree := rfl

/-- Every access publishes the tree of the registers it leaves. -/
theorem access_outputs (g : ClockGenerator) (a : Access) :
    (g.access a).outputs = (g.access a).tree := by
  cases a with
  | sfr => exact commit_outputs _
  | osc_div => exact commit_outputs _
  | hoco => exact commit_outputs _
  | trim => exact commit_outputs _
  | reset => exact commit_outputs _

/-- The core runs from the low-speed oscillator. -/
def on_low_osc (g : ClockGenerator) : Bool :=
  has g.ckc ckc_css && has g.cksel cksel_sellosc

theorem high_osc_mhz_pos : ∀ frqsel3 i, 1 ≤ high_osc_mhz frqsel3 i := by decide

theorem mid_osc_mhz_pos : ∀ i, 1 ≤ mid_osc_mhz i := by decide

/-- A clock of whole megahertz has a period of at most a microsecond. -/
theorem period_from_mhz_le {mhz p : Nat} (hmhz : 1 ≤ mhz)
    (h : (Hertz.from_mhz mhz).period = some p) : p ≤ 1000 := by
  have hhz : 1000000 ≤ (Hertz.from_mhz mhz).hz := by
    simp only [Hertz.from_mhz, u32_max]
    omega
  unfold Hertz.period Hertz.cycles_to_tick at h
  rw [if_neg (by omega)] at h
  obtain rfl := Option.some.inj h
  calc saturating_mul 1 ns_per_sec / (Hertz.from_mhz mhz).hz
      ≤ saturating_mul 1 ns_per_sec / 1000000 := Nat.div_le_div_left hhz (by decide)
    _ = 1000 := by decide

theorem high_osc_mhz_le : ∀ frqsel3 i, high_osc_mhz frqsel3 i ≤ 32 := by decide

theorem mid_osc_mhz_le : ∀ i, mid_osc_mhz i ≤ 32 := by decide

/-- The core is clocked with 32 MHz at most. -/
theorem f_clk_le (g : ClockGenerator) : g.tree.f_clk.hz ≤ 32000000 := by
  have hhigh := high_osc_mhz_le g.frqsel3 (Fin.ofNat 8 g.hocodiv.toNat)
  have hmid := mid_osc_mhz_le (Fin.ofNat 4 g.mocodiv.toNat)
  have hmhz {mhz : Nat} (h : mhz ≤ 32) : (Hertz.from_mhz mhz).hz ≤ 32000000 := by
    simp only [Hertz.from_mhz]
    omega
  simp only [tree]
  split
  · split
    · decide
    · decide
  · split
    · decide
    · split
      · split
        · exact hmhz hmid
        · decide
      · split
        · decide
        · exact hmhz hhigh

/-- The instruction period exceeds the simulator's quantum exactly when the core
    runs from the low-speed oscillator. -/
theorem period_exceeds_iff (g : ClockGenerator) :
    (∃ p, g.tree.f_clk.period = some p ∧ default_max_quantum < p) ↔ g.on_low_osc = true := by
  have hzero {p : Nat} (h : Hertz.zero.period = some p) : False := by cases h
  have hhigh {p : Nat} (h : (Hertz.from_mhz
      (high_osc_mhz g.frqsel3 (Fin.ofNat 8 g.hocodiv.toNat))).period = some p) : p ≤ 1000 :=
    period_from_mhz_le (high_osc_mhz_pos _ _) h
  have hmid {p : Nat} (h : (Hertz.from_mhz
      (mid_osc_mhz (Fin.ofNat 4 g.mocodiv.toNat))).period = some p) : p ≤ 1000 :=
    period_from_mhz_le (mid_osc_mhz_pos _) h
  constructor
  · rintro ⟨p, hp, hlong⟩
    unfold default_max_quantum at hlong
    simp only [tree] at hp
    unfold on_low_osc
    split at hp
    · rename_i hcss
      split at hp
      · rename_i hsel
        rw [hcss, hsel]
        rfl
      · exact (hzero hp).elim
    · split at hp
      · exact (hzero hp).elim
      · split at hp
        · split at hp
          · have := hmid hp
            omega
          · exact (hzero hp).elim
        · split at hp
          · exact (hzero hp).elim
          · have := hhigh hp
            omega
  · intro hlow
    simp only [on_low_osc, Bool.and_eq_true] at hlow
    refine ⟨30517, ?_, by decide⟩
    simp only [tree, hlow.1, hlow.2, if_true]
    decide

end ClockGenerator

/-- A running clock that a generator publishes. -/
def Hertz.Runs (f_clk : Hertz) : Prop := f_clk.hz ≠ 0 ∧ ∃ g : ClockGenerator, g.tree.f_clk = f_clk

theorem Hertz.Runs.le {f_clk : Hertz} (h : f_clk.Runs) : f_clk.hz ≤ 32000000 := by
  obtain ⟨-, g, rfl⟩ := h
  exact g.f_clk_le

theorem Hertz.runs_32_mhz : (Hertz.from_mhz 32).Runs := by
  refine ⟨by decide, { ClockGenerator.new with frqsel3 := true }, ?_⟩
  decide

end Rl78Sim
