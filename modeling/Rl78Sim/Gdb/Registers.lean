import Mathlib.Data.List.OfFn
import Mathlib.Logic.Function.Basic
import Mathlib.Tactic.IntervalCases
import Rl78Sim.Kernel.Entity

/-! # The Registers of a Gdb Packet

    A `g` packet holds the general registers of all four banks. The translator
    gives access to the current one only, so a packet that is read has zeroes
    for the others, and of a packet that is written the bank that its own `PSW`
    selects is taken.

    The translator itself is a parameter: a state, a way to read and to write a
    register, and the banks that the general registers stand for. -/

namespace Rl78Sim

/-- `Rl78Reg`. -/
inductive Rl78Reg where
  | X
  | A
  | C
  | B
  | E
  | D
  | L
  | H
  | Pc
  | Sp
  | Es
  | Cs
  | PswCy
  | PswIsp
  | PswRbs
  | PswAc
  | PswZ
  | PswIe
  deriving DecidableEq

namespace Rl78Reg

/-- The place of a general register in its bank. -/
def gpr : Rl78Reg → Option (Fin 8)
  | X => some 0
  | A => some 1
  | C => some 2
  | B => some 3
  | E => some 4
  | D => some 5
  | L => some 6
  | H => some 7
  | _ => none

/-- The bits that a register has in a packet. -/
def width : Rl78Reg → Nat
  | Pc => 32
  | Sp => 16
  | PswIsp | PswRbs => 2
  | PswCy | PswAc | PswZ | PswIe => 1
  | _ => 8

end Rl78Reg

/-- `Rl78Cpu::map_reg_id`. -/
def map_reg_id : Nat → Option Rl78Reg
  | 0 => some .X
  | 1 => some .A
  | 2 => some .C
  | 3 => some .B
  | 4 => some .E
  | 5 => some .D
  | 6 => some .L
  | 7 => some .H
  | 8 => some .Pc
  | 9 => some .Sp
  | 10 => some .Es
  | 11 => some .Cs
  | 12 => some .PswCy
  | 13 => some .PswIsp
  | 14 => some .PswRbs
  | 15 => some .PswAc
  | 16 => some .PswZ
  | 17 => some .PswIe
  | _ => none

/-! ### The layout of a packet -/

/-- `GDB_G_PACKET_LEN`. -/
abbrev gdb_g_packet_len : Nat := 43

/-- A whole packet. -/
abbrev GdbPacket := Fin gdb_g_packet_len → BitVec 8

/-- `tlib`'s registers, in the order of `RegId`. -/
abbrev RegValues := Fin 18 → BitVec 32

def reg_pc : Fin 18 := 8
def reg_sp : Fin 18 := 9
def reg_es : Fin 18 := 10
def reg_cs : Fin 18 := 11
def reg_psw_cy : Fin 18 := 12
def reg_psw_isp : Fin 18 := 13
def reg_psw_rbs : Fin 18 := 14
def reg_psw_ac : Fin 18 := 15
def reg_psw_z : Fin 18 := 16
def reg_psw_ie : Fin 18 := 17

/-- `value != 0`, as a byte. -/
def flag (value : BitVec 32) : BitVec 8 := if value ≠ 0 then 1 else 0

/-- `pack_psw`. -/
def pack_psw (values : RegValues) : BitVec 8 :=
  let cy := flag (values reg_psw_cy)
  let isp := (values reg_psw_isp).setWidth 8 &&& 3#8
  let rbs := (values reg_psw_rbs).setWidth 8 &&& 3#8
  let ac := flag (values reg_psw_ac)
  let z := flag (values reg_psw_z)
  let ie := flag (values reg_psw_ie)
  cy ||| (isp <<< 1) ||| ((rbs &&& 1#8) <<< 3) ||| (ac <<< 4) ||| (((rbs >>> 1) &&& 1#8) <<< 5) |||
    (z <<< 6) ||| (ie <<< 7)

/-- `unpack_rbs`. -/
def unpack_rbs (psw : BitVec 8) : BitVec 8 := ((psw >>> 3) &&& 1#8) ||| ((psw >>> 4) &&& 2#8)

/-- The bank that two bits of a byte select. -/
def bank_of (rbs : BitVec 8) : Fin 4 := Fin.ofNat 4 rbs.toNat

/-- Byte `i` of a word. -/
def byte (value : BitVec 32) (i : Nat) : BitVec 8 := (value >>> (8 * i)).setWidth 8

/-- `pack_gdb_g`. -/
def pack_gdb_g (values : RegValues) : GdbPacket := fun i =>
  let rbs := (values reg_psw_rbs).setWidth 8 &&& 3#8
  if h : i.val < 32 then
    if i.val / 8 = rbs.toNat then (values ⟨i.val % 8, by omega⟩).setWidth 8 else 0
  else
    match i.val with
    | 32 => pack_psw values
    | 33 => (values reg_es).setWidth 8
    | 34 => (values reg_cs).setWidth 8
    | 35 => byte (values reg_pc) 0
    | 36 => byte (values reg_pc) 1
    | 37 => byte (values reg_pc) 2
    | 38 => byte (values reg_pc) 3
    | 39 => byte (values reg_sp) 0
    | 40 => byte (values reg_sp) 1
    | _ => 0

/-- `u32::u32_from_le_bytes`. -/
def u32_from_le_bytes (b0 b1 b2 b3 : BitVec 8) : BitVec 32 :=
  b0.setWidth 32 ||| (b1.setWidth 32 <<< 8) ||| (b2.setWidth 32 <<< 16) ||| (b3.setWidth 32 <<< 24)

/-- The values of a packet of the right length. -/
def GdbPacket.values (bytes : GdbPacket) : RegValues := fun i =>
  let psw := bytes 32
  let bank_base := (bank_of (unpack_rbs psw)).val * 8
  if h : i.val < 8 then
    (bytes ⟨bank_base + i.val, by show _ < 43; omega⟩).setWidth 32
  else
    match i.val with
    | 8 => u32_from_le_bytes (bytes 35) (bytes 36) (bytes 37) (bytes 38)
    | 9 => (bytes 39).setWidth 32 ||| ((bytes 40).setWidth 32 <<< 8)
    | 10 => (bytes 33).setWidth 32
    | 11 => (bytes 34).setWidth 32
    | 12 => (psw &&& 1#8).setWidth 32
    | 13 => ((psw >>> 1) &&& 3#8).setWidth 32
    | 14 => (unpack_rbs psw).setWidth 32
    | 15 => ((psw >>> 4) &&& 1#8).setWidth 32
    | 16 => ((psw >>> 6) &&& 1#8).setWidth 32
    | _ => ((psw >>> 7) &&& 1#8).setWidth 32

/-- `unpack_gdb_g`. -/
def unpack_gdb_g (bytes : List (BitVec 8)) : Option RegValues :=
  if h : bytes.length = gdb_g_packet_len then
    some (GdbPacket.values fun i => bytes.get (i.cast h.symm))
  else none

/-! ### The translator -/

/-- The part of `tlib` that the registers live in. -/
structure Tlib (K : Type) where
  get_register_value_32 : K → Rl78Reg → BitVec 32
  set_register_value_32 : K → Rl78Reg → BitVec 32 → K
  bank : K → Fin 4 → Fin 8 → BitVec 32

namespace Tlib

variable {K : Type} (t : Tlib K)

/-- The bank that `RBS` selects. -/
def rbs (k : K) : Fin 4 := bank_of ((t.get_register_value_32 k .PswRbs).setWidth 8 &&& 3#8)

/-- The general registers are those of the bank that `RBS` selects at the time
    of the access; every other register reads back what was written, as far as it
    has the bits for it, and has nothing to do with the rest. -/
structure Banked : Prop where
  get_gpr (k : K) {r : Rl78Reg} {i : Fin 8} (hr : r.gpr = some i) :
    t.get_register_value_32 k r = t.bank k (t.rbs k) i
  bank_set_gpr (k : K) {r : Rl78Reg} {i : Fin 8} (hr : r.gpr = some i) {v : BitVec 32}
    (hv : v.toNat < 2 ^ r.width) : t.bank (t.set_register_value_32 k r v) =
      Function.update (t.bank k) (t.rbs k) (Function.update (t.bank k (t.rbs k)) i v)
  get_set_gpr (k : K) {r r' : Rl78Reg} {i : Fin 8} (hr : r.gpr = some i) (hr' : r'.gpr = none)
    (v : BitVec 32) :
    t.get_register_value_32 (t.set_register_value_32 k r v) r' = t.get_register_value_32 k r'
  bank_set (k : K) {r : Rl78Reg} (hr : r.gpr = none) (v : BitVec 32) :
    t.bank (t.set_register_value_32 k r v) = t.bank k
  get_set (k : K) {r r' : Rl78Reg} (hr : r.gpr = none) (hr' : r'.gpr = none) {v : BitVec 32}
    (hv : v.toNat < 2 ^ r.width) :
    t.get_register_value_32 (t.set_register_value_32 k r v) r' =
      if r' = r then v else t.get_register_value_32 k r'

/-- One round of the loop of `read_gdb_registers`. -/
def read_one (k : K) (i : Fin 18) : Except SimError (BitVec 32) :=
  match map_reg_id i.val with
  | some reg => .ok (t.get_register_value_32 k reg)
  | none => .error (.UnknownRegister i.val)

/-- `Core::read_gdb_registers`. -/
def read_gdb_registers (k : K) : Except SimError (List (BitVec 8)) := do
  let values ← (List.finRange 18).mapM (t.read_one k)
  return List.ofFn (pack_gdb_g fun i => values.getD i.val 0)

/-- One round of the loop of `write_gdb_registers`. -/
def write_one (values : RegValues) (k : K) (i : Fin 18) : Except SimError K :=
  match map_reg_id i.val with
  | some reg => .ok (t.set_register_value_32 k reg (values i))
  | none => .error (.UnknownRegister i.val)

/-- `Core::write_gdb_registers`. -/
def write_gdb_registers (k : K) (data : List (BitVec 8)) : Except SimError K :=
  match unpack_gdb_g data with
  | none => .error .Unsupported
  | some values => (List.finRange 18).foldlM (t.write_one values) k

end Tlib

/-! ### Fields of a packet -/

theorem byte_u32_from_le_bytes (b0 b1 b2 b3 : BitVec 8) :
    byte (u32_from_le_bytes b0 b1 b2 b3) 0 = b0 ∧ byte (u32_from_le_bytes b0 b1 b2 b3) 1 = b1 ∧
      byte (u32_from_le_bytes b0 b1 b2 b3) 2 = b2 ∧
      byte (u32_from_le_bytes b0 b1 b2 b3) 3 = b3 := by
  unfold byte u32_from_le_bytes
  refine ⟨?_, ?_, ?_, ?_⟩
  all_goals apply BitVec.eq_of_getLsbD_eq; intro i hi
  all_goals simp only [BitVec.getLsbD_setWidth, BitVec.getLsbD_ushiftRight, BitVec.getLsbD_or,
    BitVec.getLsbD_shiftLeft]
  all_goals grind

theorem byte_pair (b0 b1 : BitVec 8) :
    byte (b0.setWidth 32 ||| (b1.setWidth 32 <<< 8)) 0 = b0 ∧
      byte (b0.setWidth 32 ||| (b1.setWidth 32 <<< 8)) 1 = b1 := by
  unfold byte
  refine ⟨?_, ?_⟩
  all_goals apply BitVec.eq_of_getLsbD_eq; intro i hi
  all_goals simp only [BitVec.getLsbD_setWidth, BitVec.getLsbD_ushiftRight, BitVec.getLsbD_or,
    BitVec.getLsbD_shiftLeft]
  all_goals grind

theorem setWidth_setWidth_byte (b : BitVec 8) : (b.setWidth 32).setWidth 8 = b := by
  rw [BitVec.setWidth_setWidth_of_le b (by decide), BitVec.setWidth_eq]

/-- The flags that `unpack_gdb_g` takes from a `PSW` give it back. -/
theorem pack_psw_of_fields {values : RegValues} {psw : BitVec 8}
    (hcy : values reg_psw_cy = (psw &&& 1#8).setWidth 32)
    (hisp : values reg_psw_isp = ((psw >>> 1) &&& 3#8).setWidth 32)
    (hrbs : values reg_psw_rbs = (unpack_rbs psw).setWidth 32)
    (hac : values reg_psw_ac = ((psw >>> 4) &&& 1#8).setWidth 32)
    (hz : values reg_psw_z = ((psw >>> 6) &&& 1#8).setWidth 32)
    (hie : values reg_psw_ie = ((psw >>> 7) &&& 1#8).setWidth 32) : pack_psw values = psw := by
  unfold pack_psw
  rw [hcy, hisp, hrbs, hac, hz, hie]
  clear hcy hisp hrbs hac hz hie
  revert psw
  decide +kernel

theorem unpack_rbs_and (psw : BitVec 8) : unpack_rbs psw &&& 3#8 = unpack_rbs psw := by
  revert psw
  decide +kernel

theorem bank_of_val (psw : BitVec 8) :
    (bank_of (unpack_rbs psw)).val = (unpack_rbs psw).toNat := by
  revert psw
  decide +kernel

/-! ### The registers of the loops -/

/-- The register with an id. -/
def reg (i : Fin 18) : Rl78Reg := (map_reg_id i.val).get (by revert i; decide)

theorem map_reg_id_reg (i : Fin 18) : map_reg_id i.val = some (reg i) :=
  (Option.some_get _).symm

theorem reg_inj : ∀ {i j : Fin 18}, reg i = reg j → i = j := by decide

/-- The first eight registers are the general ones. -/
theorem gpr_reg : ∀ i : Fin 18,
    (reg i).gpr = if h : i.val < 8 then some ⟨i.val, h⟩ else none := by decide

theorem gpr_reg_of_lt {i : Fin 18} (h : i.val < 8) : (reg i).gpr = some ⟨i.val, h⟩ := by
  rw [gpr_reg, dif_pos h]

theorem gpr_reg_of_le {i : Fin 18} (h : 8 ≤ i.val) : (reg i).gpr = none := by
  rw [gpr_reg, dif_neg (Nat.not_lt.mpr h)]

theorem toNat_setWidth_byte (b : BitVec 8) : (b.setWidth 32).toNat < 2 ^ 8 := by
  rw [BitVec.toNat_setWidth_of_le (by decide)]
  exact b.isLt

theorem toNat_setWidth_and (b mask : BitVec 8) : ((b &&& mask).setWidth 32).toNat ≤ mask.toNat := by
  rw [BitVec.toNat_setWidth_of_le (by decide), BitVec.toNat_and]
  exact Nat.and_le_right

/-- Every value of a packet has the bits that its register has. -/
theorem GdbPacket.values_lt (data : GdbPacket) (i : Fin 18) :
    (data.values i).toNat < 2 ^ (reg i).width := by
  have hflag (b : BitVec 8) : ((b &&& 1#8).setWidth 32).toNat < 2 ^ 1 :=
    Nat.lt_of_le_of_lt (toNat_setWidth_and b 1#8) (by decide)
  have hsp : ((data 39).setWidth 32 ||| ((data 40).setWidth 32 <<< 8)).toNat < 2 ^ 16 := by
    have hlow := toNat_setWidth_byte (data 39)
    have hhigh := toNat_setWidth_byte (data 40)
    rw [BitVec.toNat_or, BitVec.toNat_shiftLeft, Nat.shiftLeft_eq]
    exact Nat.or_lt_two_pow (by omega) (by omega)
  -- A general register is one byte of its bank.
  by_cases hi : i.val < 8
  · have hwidth : ∀ i : Fin 18, i.val < 8 → (reg i).width = 8 := by decide
    rw [hwidth i hi]
    unfold GdbPacket.values
    dsimp only
    rw [dif_pos hi]
    exact toNat_setWidth_byte _
  · obtain ⟨n, hn⟩ := i
    have hn' : 8 ≤ n := Nat.le_of_not_lt hi
    -- In the order of the ids: `PC`, `SP`, `ES`, `CS`, then the fields of `PSW`.
    interval_cases n
    · exact BitVec.isLt _
    · exact hsp
    · exact toNat_setWidth_byte _
    · exact toNat_setWidth_byte _
    · exact hflag _
    -- `ISP` and `RBS` have two bits each.
    · exact Nat.lt_of_le_of_lt (toNat_setWidth_and _ 3#8) (show 3 < 2 ^ 2 by decide)
    · show ((unpack_rbs (data 32)).setWidth 32).toNat < 2 ^ 2
      rw [← unpack_rbs_and]
      exact Nat.lt_of_le_of_lt (toNat_setWidth_and _ 3#8) (by decide)
    · exact hflag _
    · exact hflag _
    · exact hflag _

/-! ### What the loops do -/

namespace Tlib

variable {K : Type} {t : Tlib K}

variable (t) in
/-- The registers with the given ids, one after the other. -/
def set_all (values : RegValues) (k : K) (is : List (Fin 18)) : K :=
  is.foldl (fun k i => t.set_register_value_32 k (reg i) (values i)) k

theorem set_all_cons (values : RegValues) (k : K) (i : Fin 18) (is : List (Fin 18)) :
    t.set_all values k (i :: is) =
      t.set_all values (t.set_register_value_32 k (reg i) (values i)) is := rfl

variable (t) in
theorem read_gdb_registers_eq (k : K) : t.read_gdb_registers k =
    .ok (List.ofFn (pack_gdb_g fun i => t.get_register_value_32 k (reg i))) := by
  have hone : t.read_one k = fun i => pure (t.get_register_value_32 k (reg i)) := by
    funext i
    simp only [read_one, map_reg_id_reg]
    rfl
  have hget : (fun i : Fin 18 => ((List.finRange 18).map fun i =>
      t.get_register_value_32 k (reg i)).getD i.val 0) =
        fun i => t.get_register_value_32 k (reg i) := by
    funext i
    simp
  simp only [read_gdb_registers, hone, List.mapM_pure, pure_bind, hget]
  rfl

theorem unpack_ofFn (data : GdbPacket) : unpack_gdb_g (List.ofFn data) = some data.values := by
  unfold unpack_gdb_g
  rw [dif_pos List.length_ofFn]
  refine congrArg (fun bytes => some (GdbPacket.values bytes)) (funext fun i => ?_)
  simp only [List.get_eq_getElem, List.getElem_ofFn]
  rfl

variable (t) in
theorem write_gdb_registers_eq (k : K) (data : GdbPacket) :
    t.write_gdb_registers k (List.ofFn data) =
      .ok (t.set_all data.values k (List.finRange 18)) := by
  have hone : t.write_one data.values =
      fun k i => pure (t.set_register_value_32 k (reg i) (data.values i)) := by
    funext k i
    simp only [write_one, map_reg_id_reg]
    rfl
  simp only [write_gdb_registers, unpack_ofFn, hone, List.foldlM_pure]
  rfl

/-- General registers are written to the bank that `RBS` selects throughout. -/
theorem Banked.set_all_gpr (ht : t.Banked) {values : RegValues}
    (hfits : ∀ i, (values i).toNat < 2 ^ (reg i).width) {is : List (Fin 18)}
    (his : ∀ i ∈ is, i.val < 8) (k : K) :
    (∀ b (j : Fin 8), t.bank (t.set_all values k is) b j =
      if b = t.rbs k ∧ Fin.castLE (by decide) j ∈ is then values (Fin.castLE (by decide) j)
      else t.bank k b j) ∧
    ∀ r, r.gpr = none → t.get_register_value_32 (t.set_all values k is) r =
      t.get_register_value_32 k r := by
  induction is generalizing k with
  | nil =>
    refine ⟨?_, fun _ _ => rfl⟩
    intro b j
    rw [if_neg (by simp)]
    rfl
  | cons i rest ih =>
    have hi : i.val < 8 := his i List.mem_cons_self
    have hgpr := gpr_reg_of_lt hi
    obtain ⟨hbank, hother⟩ := ih (fun c hc => his c (List.mem_cons_of_mem _ hc))
      (t.set_register_value_32 k (reg i) (values i))
    -- The write leaves `RBS` alone, so the next one goes to the same bank.
    have hrbs : t.rbs (t.set_register_value_32 k (reg i) (values i)) = t.rbs k := by
      unfold rbs
      rw [ht.get_set_gpr k hgpr rfl]
    refine ⟨?_, ?_⟩
    · intro b j
      rw [set_all_cons, hbank, hrbs, ht.bank_set_gpr k hgpr (hfits i)]
      by_cases hb : b = t.rbs k
      · subst hb
        by_cases hj : j = ⟨i.val, hi⟩
        · subst hj
          simp
        · have hne : Fin.castLE (by decide) j ≠ i := by
            intro h
            have hval : (Fin.castLE (by decide : 8 ≤ 18) j).val = i.val := congrArg Fin.val h
            exact hj (Fin.ext hval)
          simp [hj, hne]
      · simp [hb]
    · intro r hr
      rw [set_all_cons, hother r hr, ht.get_set_gpr k hgpr hr]

/-- The other registers keep what was written last, and do not touch the banks. -/
theorem Banked.set_all_other (ht : t.Banked) {values : RegValues}
    (hfits : ∀ i, (values i).toNat < 2 ^ (reg i).width) {is : List (Fin 18)}
    (his : ∀ i ∈ is, 8 ≤ i.val) (k : K) :
    t.bank (t.set_all values k is) = t.bank k ∧
    ∀ i : Fin 18, 8 ≤ i.val → t.get_register_value_32 (t.set_all values k is) (reg i) =
      if i ∈ is then values i else t.get_register_value_32 k (reg i) := by
  induction is generalizing k with
  | nil => exact ⟨rfl, fun i _ => by rw [if_neg List.not_mem_nil]; rfl⟩
  | cons c rest ih =>
    have hc := gpr_reg_of_le (his c List.mem_cons_self)
    obtain ⟨hbank, hother⟩ := ih (fun c hc => his c (List.mem_cons_of_mem _ hc))
      (t.set_register_value_32 k (reg c) (values c))
    refine ⟨hbank.trans (ht.bank_set k hc (values c)), ?_⟩
    intro i hi
    rw [set_all_cons, hother i hi, ht.get_set k hc (gpr_reg_of_le hi) (hfits c)]
    -- What is written again later wins.
    by_cases hmem : i ∈ rest
    · simp [hmem]
    · by_cases heq : i = c
      · subst heq
        simp [hmem]
      · rw [if_neg hmem, if_neg fun h => heq (reg_inj h), if_neg (by simp [hmem, heq])]

/-- What a packet that is written leaves: its flags, and its general registers in the
    bank that was current before. -/
theorem Banked.written (ht : t.Banked) (k : K) (data : GdbPacket) :
    (∀ b (j : Fin 8), t.bank (t.set_all data.values k (List.finRange 18)) b j =
      if b = t.rbs k then data.values (Fin.castLE (by decide) j) else t.bank k b j) ∧
    ∀ i : Fin 18, 8 ≤ i.val → t.get_register_value_32
      (t.set_all data.values k (List.finRange 18)) (reg i) = data.values i := by
  have hlow : ∀ i ∈ (List.finRange 18).take 8, i.val < 8 := by decide
  have hhigh : ∀ i ∈ (List.finRange 18).drop 8, 8 ≤ i.val := by decide
  have hmem : ∀ j : Fin 8, Fin.castLE (by decide) j ∈ (List.finRange 18).take 8 := by decide
  have hmem' : ∀ i : Fin 18, 8 ≤ i.val → i ∈ (List.finRange 18).drop 8 := by decide
  have hsplit : t.set_all data.values k (List.finRange 18) =
      t.set_all data.values (t.set_all data.values k ((List.finRange 18).take 8))
        ((List.finRange 18).drop 8) := by
    unfold set_all
    rw [← List.foldl_append, List.take_append_drop]
  obtain ⟨hbank, -⟩ := ht.set_all_gpr data.values_lt hlow k
  obtain ⟨hbank', hother⟩ := ht.set_all_other data.values_lt hhigh
    (t.set_all data.values k ((List.finRange 18).take 8))
  rw [hsplit]
  refine ⟨?_, ?_⟩
  · intro b j
    rw [hbank', hbank]
    simp only [hmem j, and_true]
  · intro i hi
    rw [hother i hi, if_pos (hmem' i hi)]

end Tlib

/-! ### Writing and reading back -/

/-- The bank of a packet's general registers. -/
def GdbPacket.bank (data : GdbPacket) : Fin 4 := bank_of (unpack_rbs (data 32))

/-- A general register of a packet. -/
def GdbPacket.general (data : GdbPacket) (b : Fin 4) (j : Fin 8) : BitVec 8 :=
  data ⟨b.val * 8 + j.val, by show _ < 43; omega⟩

/-- The packet with other general registers for its bank, without the other banks, and without
    `PMC` and `MEM`. -/
def GdbPacket.with_general (data : GdbPacket) (general : Fin 8 → BitVec 8) : GdbPacket := fun i =>
  if i.val < 32 then
    if i.val / 8 = data.bank.val then general (Fin.ofNat 8 i.val) else 0
  else if i.val < 41 then data i
  else 0

/-- The packet without the other banks, and without `PMC` and `MEM`. -/
def GdbPacket.shown (data : GdbPacket) : GdbPacket := data.with_general (data.general data.bank)

theorem GdbPacket.values_general (data : GdbPacket) (j : Fin 8) :
    (data.values (Fin.castLE (by decide) j)).setWidth 8 = data.general data.bank j := by
  unfold GdbPacket.values
  dsimp only
  rw [dif_pos (show (Fin.castLE (by decide : 8 ≤ 18) j).val < 8 from j.isLt),
    setWidth_setWidth_byte]
  rfl

/-- A register file that agrees with a packet outside the general registers is packed into that
    packet. -/
theorem pack_gdb_g_eq {data : GdbPacket} {values : RegValues}
    (hvalues : ∀ i : Fin 18, 8 ≤ i.val → values i = data.values i) :
    pack_gdb_g values =
      data.with_general fun j => (values (Fin.castLE (by decide) j)).setWidth 8 := by
  have hrbs : values reg_psw_rbs = (unpack_rbs (data 32)).setWidth 32 := hvalues 14 (by decide)
  have hbank : ((values reg_psw_rbs).setWidth 8 &&& 3#8).toNat = data.bank.val := by
    rw [hrbs, setWidth_setWidth_byte, unpack_rbs_and]
    exact (bank_of_val _).symm
  have hpc : values reg_pc = u32_from_le_bytes (data 35) (data 36) (data 37) (data 38) :=
    hvalues 8 (by decide)
  have hsp : values reg_sp = (data 39).setWidth 32 ||| ((data 40).setWidth 32 <<< 8) :=
    hvalues 9 (by decide)
  have hes : values reg_es = (data 33).setWidth 32 := hvalues 10 (by decide)
  have hcs : values reg_cs = (data 34).setWidth 32 := hvalues 11 (by decide)
  obtain ⟨hpc0, hpc1, hpc2, hpc3⟩ := byte_u32_from_le_bytes (data 35) (data 36) (data 37) (data 38)
  obtain ⟨hsp0, hsp1⟩ := byte_pair (data 39) (data 40)
  funext i
  unfold pack_gdb_g GdbPacket.with_general
  dsimp only
  by_cases hi : i.val < 32
  · rw [dif_pos hi, if_pos hi, hbank]
    rfl
  · rw [dif_neg hi, if_neg hi]
    obtain ⟨n, hn⟩ := i
    have hn' : 32 ≤ n := Nat.le_of_not_lt hi
    -- Bytes 32 to 42: `PSW`, `ES`, `CS`, four of `PC`, two of `SP`, and two that stay zero.
    interval_cases n
    · exact pack_psw_of_fields (hvalues 12 (by decide)) (hvalues 13 (by decide)) hrbs
        (hvalues 15 (by decide)) (hvalues 16 (by decide)) (hvalues 17 (by decide))
    · exact (congrArg _ hes).trans (setWidth_setWidth_byte _)
    · exact (congrArg _ hcs).trans (setWidth_setWidth_byte _)
    · exact (congrArg (byte · 0) hpc).trans hpc0
    · exact (congrArg (byte · 1) hpc).trans hpc1
    · exact (congrArg (byte · 2) hpc).trans hpc2
    · exact (congrArg (byte · 3) hpc).trans hpc3
    · exact (congrArg (byte · 0) hsp).trans hsp0
    · exact (congrArg (byte · 1) hsp).trans hsp1
    · rfl
    · rfl

namespace Tlib

variable {K : Type} {t : Tlib K}

/-- Written and read back, a packet shows its own general registers when its bank was current,
    and what the bank held before otherwise. -/
theorem Banked.read_after_write (ht : t.Banked) (k : K) (data : GdbPacket) :
    ∃ k', t.write_gdb_registers k (List.ofFn data) = .ok k' ∧
      t.read_gdb_registers k' = .ok (List.ofFn (data.with_general fun j =>
        if t.rbs k = data.bank then data.general data.bank j
        else (t.bank k data.bank j).setWidth 8)) := by
  obtain ⟨hbank, hother⟩ := ht.written k data
  refine ⟨_, t.write_gdb_registers_eq k data, ?_⟩
  generalize t.set_all data.values k (List.finRange 18) = k' at hbank hother ⊢
  -- The packet has brought its own `RBS`, which selects the bank that is read.
  have hrbs : t.rbs k' = data.bank := by
    unfold rbs
    rw [show Rl78Reg.PswRbs = reg 14 from rfl, hother 14 (by decide)]
    show bank_of (((unpack_rbs (data 32)).setWidth 32).setWidth 8 &&& 3#8) = _
    rw [setWidth_setWidth_byte, unpack_rbs_and]
    rfl
  rw [t.read_gdb_registers_eq, pack_gdb_g_eq hother]
  refine congrArg (fun general => Except.ok (List.ofFn (data.with_general general))) ?_
  funext j
  rw [ht.get_gpr k' (gpr_reg_of_lt (i := Fin.castLE (by decide) j) j.isLt), hrbs, hbank]
  by_cases hcurrent : t.rbs k = data.bank
  · rw [if_pos hcurrent, if_pos hcurrent.symm]
    exact data.values_general j
  · rw [if_neg hcurrent, if_neg fun h => hcurrent h.symm]
    rfl

variable (t) in
/-- The packet is written, and read back as it is shown. -/
def Restores (k : K) (data : GdbPacket) : Prop :=
  ∃ k', t.write_gdb_registers k (List.ofFn data) = .ok k' ∧
    t.read_gdb_registers k' = .ok (List.ofFn data.shown)

end Tlib

theorem GdbPacket.with_general_inj {data : GdbPacket} {g g' : Fin 8 → BitVec 8}
    (h : data.with_general g = data.with_general g') : g = g' := by
  funext j
  have hlt : data.bank.val * 8 + j.val < 32 := by omega
  have hbank : (data.bank.val * 8 + j.val) / 8 = data.bank.val := by omega
  have hj : Fin.ofNat 8 (data.bank.val * 8 + j.val) = j := by
    apply Fin.ext
    show (data.bank.val * 8 + j.val) % 8 = j.val
    omega
  have hat := congrFun h ⟨data.bank.val * 8 + j.val, Nat.lt_trans hlt (by decide)⟩
  unfold GdbPacket.with_general at hat
  dsimp only at hat
  rw [if_pos hlt, if_pos hbank, if_pos hlt, if_pos hbank, hj] at hat
  exact hat

namespace Tlib

variable {K : Type} {t : Tlib K}

/-- A packet is read back exactly when its bank is the current one, or holds the packet's
    general registers already: the loop writes them before it writes `RBS`. -/
theorem write_then_read_iff (ht : t.Banked) (k : K) (data : GdbPacket) :
    t.Restores k data ↔ t.rbs k = data.bank ∨
      ∀ j, (t.bank k data.bank j).setWidth 8 = data.general data.bank j := by
  obtain ⟨k', hwrite, hread⟩ := ht.read_after_write k data
  constructor
  · intro ⟨k'', hwrite', hread'⟩
    obtain rfl : k' = k'' := Except.ok.inj (hwrite.symm.trans hwrite')
    have hpacket := List.ofFn_injective (Except.ok.inj (hread.symm.trans hread'))
    have hgeneral := GdbPacket.with_general_inj hpacket
    by_cases hcurrent : t.rbs k = data.bank
    · exact .inl hcurrent
    · refine .inr fun j => ?_
      have hj := congrFun hgeneral j
      rw [if_neg hcurrent] at hj
      exact hj
  · intro h
    refine ⟨k', hwrite, hread.trans ?_⟩
    unfold GdbPacket.shown
    congr 3
    funext j
    by_cases hcurrent : t.rbs k = data.bank
    · rw [if_pos hcurrent]
    · rw [if_neg hcurrent]
      exact h.resolve_left hcurrent j

end Tlib

/-! ### A register file -/

/-- A register file with four banks. -/
structure RegisterFile where
  bank : Fin 4 → Fin 8 → BitVec 32
  other : Rl78Reg → BitVec 32

namespace RegisterFile

/-- The bank that is current. -/
def rbs (k : RegisterFile) : Fin 4 := bank_of ((k.other .PswRbs).setWidth 8 &&& 3#8)

def get (k : RegisterFile) (r : Rl78Reg) : BitVec 32 :=
  match r.gpr with
  | some i => k.bank k.rbs i
  | none => k.other r

def set (k : RegisterFile) (r : Rl78Reg) (v : BitVec 32) : RegisterFile :=
  match r.gpr with
  | some i =>
      { k with
        bank := Function.update k.bank k.rbs (Function.update (k.bank k.rbs) i v) }
  | none => { k with other := Function.update k.other r v }

def tlib : Tlib RegisterFile := ⟨get, set, bank⟩

theorem banked : tlib.Banked where
  get_gpr k r i hr := by
    show k.get r = _
    unfold get
    rw [hr]
    rfl
  bank_set_gpr k r i hr v hv := by
    show (k.set r v).bank = _
    unfold set
    rw [hr]
    rfl
  get_set_gpr k r r' i hr hr' v := by
    show (k.set r v).get r' = k.get r'
    unfold get set
    rw [hr, hr']
  bank_set k r hr v := by
    show (k.set r v).bank = k.bank
    unfold set
    rw [hr]
  get_set k r r' hr hr' v hv := by
    show (k.set r v).get r' = if r' = r then v else k.get r'
    unfold get set
    rw [hr, hr']
    exact Function.update_apply k.other r v r'

/-- All registers zero. -/
def zero : RegisterFile := ⟨fun _ _ => 0, fun _ => 0⟩

end RegisterFile

/-- A packet of bank 0, `X` is 0x11. -/
def packet_in_bank_0 : GdbPacket := fun i => if i = 0 then 0x11 else 0

/-- A packet that selects bank 1, whose `X` is 0x11. -/
def packet_in_bank_1 : GdbPacket := fun i => if i = 8 then 0x11 else if i = 32 then 0x08 else 0

/-- A packet for the current bank is read back. -/
theorem write_then_read_current :
    RegisterFile.tlib.Restores RegisterFile.zero packet_in_bank_0 :=
  (Tlib.write_then_read_iff RegisterFile.banked RegisterFile.zero packet_in_bank_0).mpr
    (.inl (by decide))

/-- `X` goes to bank 0, and bank 1 is read. -/
theorem packet_changes_rbs : ¬ ∀ (K : Type) (t : Tlib K), t.Banked →
    ∀ (k : K) (data : GdbPacket), t.Restores k data := by
  intro h
  obtain ⟨k', hwrite, hread⟩ :=
    h RegisterFile RegisterFile.tlib RegisterFile.banked RegisterFile.zero packet_in_bank_1
  have hresult : (RegisterFile.tlib.write_gdb_registers RegisterFile.zero
      (List.ofFn packet_in_bank_1)).bind (RegisterFile.tlib.read_gdb_registers ·) =
        .ok (List.ofFn packet_in_bank_1.shown) := by
    rw [hwrite]
    exact hread
  revert hresult
  decide

end Rl78Sim
