import Mathlib.Tactic.IntervalCases
import Rl78Sim.Hw.Irq

/-! # Words and Bytes of the Interrupt Registers

    A guest may access a register of the interrupt controller as a word, or as
    two bytes. The two paths differ: a word is deposited at once and the pending
    request recomputed once, bytes are deposited one after the other, each with
    a recomputation. What they leave is the same, in either order of the bytes.
    Writing back what was read leaves the controller as it is. -/

namespace Rl78Sim

open Transition

namespace IrqController

/-! ### Reads -/

/-- `IrqController::pack_lines`. -/
def pack_lines (value : BitVec 64) (group : IrqGroup) : BitVec 16 :=
  (value >>> group.first_line).setWidth 16

/-- `IrqController::pack_priority`: up to the last implemented line. -/
def pack_priority (c : IrqController) (group : IrqGroup) (high : Bool) : BitVec 16 :=
  Bits.gather 16 (fun i => decide (group.first_line + i < irq_num) &&
    (c.priority (Fin.ofNat 64 (group.first_line + i))).getLsbD (if high then 1 else 0))
    (List.range 16)

/-- `IrqController::read_if_mk`. -/
def read_if_mk (c : IrqController) (reg : IfMkReg) : BitVec 16 :=
  match reg with
  | .If g => pack_lines c.flag g
  | .Mk g => pack_lines c.mask g
  | .PrLow g => c.pack_priority g false
  | .PrHigh g => c.pack_priority g true

/-- The low and the high byte of a word. -/
def byte_of (word : BitVec 16) (high : Bool) : BitVec 8 :=
  if high then (word >>> 8).setWidth 8 else word.setWidth 8

/-- `IrqBankMmio::read`. -/
def read (c : IrqController) (window offset len : Nat) : Except BusError (List (BitVec 8)) :=
  match len with
  | 1 =>
      match IfMkReg.at_ window (offset / 2 * 2) with
      | none => .error (oob offset 1)
      | some reg => .ok [byte_of (c.read_if_mk reg) (offset % 2 != 0)]
  | 2 =>
      match IfMkReg.at_ window offset with
      | none => .error (oob offset 2)
      | some reg => .ok [byte_of (c.read_if_mk reg) false, byte_of (c.read_if_mk reg) true]
  | len => .error (oob offset len)

theorem byte_append (word : BitVec 16) : byte_of word true ++ byte_of word false = word := by
  apply BitVec.eq_of_getLsbD_eq
  intro i hi
  rw [BitVec.getLsbD_append]
  by_cases hlow : i < 8
  · simp [byte_of, hlow]
  · simp [byte_of, hlow, show i - 8 < 8 by omega, show 8 + (i - 8) = i by omega]

/-! ### Recomputing -/

/-- The pending request and the line depend on the registers alone. -/
theorem recompute_congr {c c' : IrqController} (hflag : c.flag = c'.flag) (hmask : c.mask = c'.mask)
    (hpriority : c.priority = c'.priority) (hbound : c.bound = c'.bound)
    (hdriven : c.bound = false → c.driven = c'.driven) : c.recompute = c'.recompute := by
  obtain ⟨flag, mask, priority, pending, bound, driven⟩ := c
  obtain ⟨flag', mask', priority', pending', bound', driven'⟩ := c'
  simp only at hflag hmask hpriority hbound hdriven
  subst hflag hmask hpriority hbound
  unfold recompute drive_cpu
  cases bound with
  | true => rfl
  | false => rw [hdriven rfl]

/-- A line that is not bound is not driven. -/
theorem recompute_free (c : IrqController) (hfree : c.recompute.bound = false) :
    c.recompute.driven = c.driven := by
  rw [c.recompute_registers.2.2.2] at hfree
  unfold recompute drive_cpu
  dsimp only
  rw [if_neg (by rw [hfree]; decide)]

/-- What is pending, and what was driven, is what `recompute` finds. -/
def Settled (c : IrqController) : Prop := c.recompute = c

theorem settled_recompute (c : IrqController) : c.recompute.Settled := by
  obtain ⟨hflag, hmask, hpriority, hbound⟩ := c.recompute_registers
  exact recompute_congr hflag hmask hpriority hbound c.recompute_free

theorem Settled.bind {c : IrqController} (h : c.Settled) (bound : Bool)
    (hdriven : bound = true → driven' = tlib_irq c.pending) :
    ({ c with bound := bound, driven := driven' } : IrqController).Settled := by
  have hpending : (List.range priority_levels).findSome?
      (request_at (c.flag &&& ~~~c.mask) c.priority) = c.pending := by
    rw [← recompute_pending, h]
  unfold Settled recompute drive_cpu
  dsimp only
  rw [hpending]
  cases bound with
  | true => rw [if_pos rfl, hdriven rfl]
  | false => rfl

theorem Settled.write {c : IrqController} (h : c.Settled) (window offset : Nat)
    (buf : List (BitVec 8)) : (c.write window offset buf).1.Settled := by
  unfold IrqController.write
  split
  · split
    · exact h
    · rename_i reg _
      cases reg <;> exact settled_recompute _
  · split
    · exact h
    · rename_i reg _
      cases reg <;> exact settled_recompute _
  · exact h

theorem Settled.access {c : IrqController} (h : c.Settled) (a : Access) :
    (c.access a).Settled := by
  cases a with
  | bind => exact h.bind true fun _ => rfl
  | unbind =>
    show c.unbind_cpu_line.Settled
    unfold unbind_cpu_line
    split
    · exact h.bind false nofun
    · exact h
  | raise irq => exact settled_recompute _
  | ack irq => exact settled_recompute _
  | tlib_ack index =>
    show (c.on_tlib_ack index).Settled
    unfold on_tlib_ack
    split
    · split
      · exact settled_recompute _
      · exact h
    · exact h
  | write window offset buf => exact h.write window offset buf
  | reset => exact settled_recompute _

theorem settled_new : new.Settled := by
  have hpending : (List.range priority_levels).findSome?
      (request_at (new.flag &&& ~~~new.mask) new.priority) = none := by decide +kernel
  unfold Settled recompute drive_cpu
  dsimp only
  rw [hpending]
  rfl

theorem settled_of_reachable {c : IrqController} (h : Reachable runs AnyAccess c) :
    c.Settled := by
  refine h.invariant ?_ ?_
  · rintro c rfl
    exact settled_new
  · intro c a c' hc _ hstep
    rw [← Option.some.inj hstep]
    exact hc.access a

/-! ### Fields -/

/-- A field of two parts is the deposit of one part and then of the other. -/
theorem deposit_parts {dst word low high : BitVec 64} {shift : Nat} (width : Nat)
    (hwidth : 2 * width < 64)
    (hlow : ∀ i < width, word.getLsbD i = low.getLsbD i)
    (hhigh : ∀ i < width, word.getLsbD (width + i) = high.getLsbD i) :
    Bits.deposit dst word shift (2 * width) =
      Bits.deposit (Bits.deposit dst low shift width) high (shift + width) width := by
  apply BitVec.eq_of_getLsbD_eq
  intro i hi
  rw [Bits.getLsbD_deposit hwidth hi, Bits.getLsbD_deposit (by omega) hi,
    Bits.getLsbD_deposit (by omega) hi]
  by_cases hbefore : i < shift
  · rw [if_neg (by omega), if_neg (by omega), if_neg (by omega)]
  · by_cases hfirst : i < shift + width
    · rw [if_pos (by omega), if_neg (by omega), if_pos (by omega), hlow _ (by omega)]
    · by_cases hsecond : i < shift + width + width
      · have hi' : i - shift = width + (i - (shift + width)) := by omega
        rw [if_pos (by omega), if_pos (by omega), hi', hhigh _ (by omega)]
      · rw [if_neg (by omega), if_neg (by omega), if_neg (by omega)]

/-- Deposits of fields that do not overlap commute. -/
theorem deposit_comm {dst low high : BitVec 64} {shift width : Nat} (hwidth : width < 64) :
    Bits.deposit (Bits.deposit dst low shift width) high (shift + width) width =
      Bits.deposit (Bits.deposit dst high (shift + width) width) low shift width := by
  apply BitVec.eq_of_getLsbD_eq
  intro i hi
  simp only [Bits.getLsbD_deposit hwidth hi]
  by_cases hlow : shift ≤ i ∧ i < shift + width
  · rw [if_neg (by omega), if_pos hlow, if_pos hlow]
  · rw [if_neg hlow, if_neg hlow]

theorem getLsbD_word (low high : BitVec 8) (i : Nat) :
    (high ++ low).getLsbD i = if i < 8 then low.getLsbD i else high.getLsbD (i - 8) := by
  rw [BitVec.getLsbD_append]

/-- The deposit of a word is that of its bytes. -/
theorem deposit_word (dst : BitVec 64) (g : IrqGroup) (low high : BitVec 8) :
    deposit_lines dst g 16 0 (high ++ low) =
      deposit_lines (deposit_lines dst g 8 0 (low.setWidth 16)) g 8 8 (high.setWidth 16) := by
  refine deposit_parts 8 (by decide) ?_ ?_
  · intro i hi
    simp only [BitVec.getLsbD_setWidth, getLsbD_word, if_pos hi]
    simp [show i < 64 by omega, show i < 16 by omega]
  · intro i hi
    simp only [BitVec.getLsbD_setWidth, getLsbD_word, if_neg (show ¬ 8 + i < 8 by omega)]
    simp [show 8 + i < 64 by omega, show i < 64 by omega, show i < 16 by omega]

theorem deposit_bytes_comm (dst : BitVec 64) (g : IrqGroup) (low high : BitVec 16) :
    deposit_lines (deposit_lines dst g 8 0 low) g 8 8 high =
      deposit_lines (deposit_lines dst g 8 8 high) g 8 0 low :=
  deposit_comm (by decide)

/-- The priorities after `unpack_priority`. -/
def unpacked (priority : Fin 64 → BitVec 8) (group : IrqGroup) (high : Bool) (value : BitVec 16)
    (bit width : Nat) : Fin 64 → BitVec 8 := fun line =>
  if group.first_line + bit ≤ line.val ∧ line.val < group.first_line + min (bit + width) 16 ∧
      line.val < irq_num then
    set_priority_bit (priority line) high (value.getLsbD (line.val - group.first_line - bit))
  else priority line

/-- The priorities of a word are those of its bytes. -/
theorem unpacked_word (priority : Fin 64 → BitVec 8) (g : IrqGroup) (upper : Bool)
    (low high : BitVec 8) : unpacked priority g upper (high ++ low) 0 16 =
      unpacked (unpacked priority g upper (low.setWidth 16) 0 8) g upper
        (high.setWidth 16) 8 8 := by
  funext line
  unfold unpacked
  by_cases himpl : line.val < irq_num
  · by_cases hlow : g.first_line ≤ line.val ∧ line.val < g.first_line + 8
    · rw [if_pos (by omega), if_neg (by omega), if_pos (by omega), getLsbD_word, if_pos (by omega)]
      congr 1
    · by_cases hhigh : g.first_line + 8 ≤ line.val ∧ line.val < g.first_line + 16
      · rw [if_pos (by omega), if_pos (by omega), if_neg (by omega), getLsbD_word,
          if_neg (by omega)]
        congr 1
      · rw [if_neg (by omega), if_neg (by omega), if_neg (by omega)]
  · rw [if_neg (by omega), if_neg (by omega), if_neg (by omega)]

theorem unpacked_comm (priority : Fin 64 → BitVec 8) (g : IrqGroup) (upper : Bool)
    (low high : BitVec 16) : unpacked (unpacked priority g upper low 0 8) g upper high 8 8 =
      unpacked (unpacked priority g upper high 8 8) g upper low 0 8 := by
  funext line
  unfold unpacked
  by_cases hlow : g.first_line ≤ line.val ∧ line.val < g.first_line + 8
  · rw [if_neg (by omega)]
    by_cases himpl : line.val < irq_num
    · rw [if_pos (by omega), if_pos (by omega), if_neg (by omega)]
    · rw [if_neg (by omega), if_neg (by omega), if_neg (by omega)]
  · rw [if_neg (show ¬ (g.first_line + 0 ≤ line.val ∧ line.val < g.first_line + min (0 + 8) 16 ∧
      line.val < irq_num) by omega), if_neg (show ¬ (g.first_line + 0 ≤ line.val ∧
        line.val < g.first_line + min (0 + 8) 16 ∧ line.val < irq_num) by omega)]

/-! ### A word and its bytes -/

/-- The registers with new contents, and what is recomputed from them. -/
def latch (c : IrqController) (flag mask : BitVec 64) (priority : Fin 64 → BitVec 8) :
    IrqController :=
  recompute { c with flag := flag, mask := mask, priority := priority }

theorem latch_registers (c : IrqController) (flag mask : BitVec 64)
    (priority : Fin 64 → BitVec 8) : (c.latch flag mask priority).flag = flag ∧
      (c.latch flag mask priority).mask = mask ∧
      (c.latch flag mask priority).priority = priority := by
  obtain ⟨hflag, hmask, hpriority, -⟩ := recompute_registers
    { c with flag := flag, mask := mask, priority := priority }
  exact ⟨hflag, hmask, hpriority⟩

/-- A recomputation between two changes of the registers leaves no trace. -/
theorem latch_latch (c : IrqController) (flag flag' mask mask' : BitVec 64)
    (priority priority' : Fin 64 → BitVec 8) :
    (c.latch flag mask priority).latch flag' mask' priority' = c.latch flag' mask' priority' := by
  have hbound : (c.latch flag mask priority).bound = c.bound := (recompute_registers _).2.2.2
  refine recompute_congr rfl rfl rfl hbound ?_
  intro hfree
  exact recompute_free _ hfree

/-- `IF` after a write of a field. -/
def flag_with (reg : IfMkReg) (bit width : Nat) (field : BitVec 16) (flag : BitVec 64) :
    BitVec 64 :=
  match reg with
  | .If g => deposit_lines flag g width bit field
  | _ => flag

/-- `MK` after a write of a field. -/
def mask_with (reg : IfMkReg) (bit width : Nat) (field : BitVec 16) (mask : BitVec 64) :
    BitVec 64 :=
  match reg with
  | .Mk g => deposit_lines mask g width bit field
  | _ => mask

/-- The priorities after a write of a field. -/
def priority_with (reg : IfMkReg) (bit width : Nat) (field : BitVec 16)
    (priority : Fin 64 → BitVec 8) : Fin 64 → BitVec 8 :=
  match reg with
  | .PrLow g => unpacked priority g false field bit width
  | .PrHigh g => unpacked priority g true field bit width
  | _ => priority

theorem write_word_latch (c : IrqController) (reg : IfMkReg) (value : BitVec 16) :
    c.write_if_mk_word reg value = c.latch (flag_with reg 0 16 value c.flag)
      (mask_with reg 0 16 value c.mask) (priority_with reg 0 16 value c.priority) := by
  cases reg with
  | If g => rfl
  | Mk g => rfl
  | PrLow g => rfl
  | PrHigh g => rfl

theorem write_byte_latch (c : IrqController) (reg : IfMkReg) (high : Bool) (value : BitVec 8) :
    c.write_if_mk_byte reg high value =
      c.latch (flag_with reg (if high then 8 else 0) 8 (value.setWidth 16) c.flag)
        (mask_with reg (if high then 8 else 0) 8 (value.setWidth 16) c.mask)
        (priority_with reg (if high then 8 else 0) 8 (value.setWidth 16) c.priority) := by
  cases reg with
  | If g => rfl
  | Mk g => rfl
  | PrLow g => rfl
  | PrHigh g => rfl

/-- Two bytes, one after the other. -/
theorem write_bytes_latch (c : IrqController) (reg : IfMkReg) (high high' : Bool)
    (value value' : BitVec 8) :
    (c.write_if_mk_byte reg high value).write_if_mk_byte reg high' value' =
      c.latch
        (flag_with reg (if high' then 8 else 0) 8 (value'.setWidth 16)
          (flag_with reg (if high then 8 else 0) 8 (value.setWidth 16) c.flag))
        (mask_with reg (if high' then 8 else 0) 8 (value'.setWidth 16)
          (mask_with reg (if high then 8 else 0) 8 (value.setWidth 16) c.mask))
        (priority_with reg (if high' then 8 else 0) 8 (value'.setWidth 16)
          (priority_with reg (if high then 8 else 0) 8 (value.setWidth 16) c.priority)) := by
  rw [write_byte_latch, write_byte_latch]
  obtain ⟨hflag, hmask, hpriority⟩ := c.latch_registers
    (flag_with reg (if high then 8 else 0) 8 (value.setWidth 16) c.flag)
    (mask_with reg (if high then 8 else 0) 8 (value.setWidth 16) c.mask)
    (priority_with reg (if high then 8 else 0) 8 (value.setWidth 16) c.priority)
  rw [hflag, hmask, hpriority, latch_latch]

/-- A word leaves what its low and then its high byte leave. -/
theorem write_word_eq (c : IrqController) (reg : IfMkReg) (low high : BitVec 8) :
    c.write_if_mk_word reg (high ++ low) =
      (c.write_if_mk_byte reg false low).write_if_mk_byte reg true high := by
  rw [write_word_latch, write_bytes_latch]
  cases reg with
  | If g => exact congrArg (c.latch · _ _) (deposit_word c.flag g low high)
  | Mk g => exact congrArg (c.latch _ · _) (deposit_word c.mask g low high)
  | PrLow g => exact congrArg (c.latch _ _) (unpacked_word c.priority g false low high)
  | PrHigh g => exact congrArg (c.latch _ _) (unpacked_word c.priority g true low high)

/-- The bytes may be written in either order. -/
theorem write_byte_comm (c : IrqController) (reg : IfMkReg) (low high : BitVec 8) :
    (c.write_if_mk_byte reg false low).write_if_mk_byte reg true high =
      (c.write_if_mk_byte reg true high).write_if_mk_byte reg false low := by
  rw [write_bytes_latch, write_bytes_latch]
  cases reg with
  | If g => exact congrArg (c.latch · _ _) (deposit_bytes_comm c.flag g _ _)
  | Mk g => exact congrArg (c.latch _ · _) (deposit_bytes_comm c.mask g _ _)
  | PrLow g => exact congrArg (c.latch _ _) (unpacked_comm c.priority g false _ _)
  | PrHigh g => exact congrArg (c.latch _ _) (unpacked_comm c.priority g true _ _)

/-! ### Writing back -/

theorem getLsbD_pack_lines (value : BitVec 64) (g : IrqGroup) {i : Nat} (hi : i < 16) :
    (pack_lines value g).getLsbD i = value.getLsbD (g.first_line + i) := by
  simp [pack_lines, hi]

/-- A field that holds what it is to hold. -/
theorem deposit_same {dst field : BitVec 64} {shift width : Nat} (hwidth : width < 64)
    (hsame : ∀ i < width, field.getLsbD i = dst.getLsbD (shift + i)) :
    Bits.deposit dst field shift width = dst := by
  apply BitVec.eq_of_getLsbD_eq
  intro i hi
  rw [Bits.getLsbD_deposit hwidth hi]
  by_cases hin : shift ≤ i ∧ i < shift + width
  · rw [if_pos hin, hsame (i - shift) (by omega), show shift + (i - shift) = i by omega]
  · rw [if_neg hin]

/-- The bits from `bit` on of a word that was read. -/
def field_of (word : BitVec 16) (bit width : Nat) (field : BitVec 16) : Prop :=
  ∀ i < width, field.getLsbD i = word.getLsbD (bit + i)

theorem field_of_word (word : BitVec 16) : field_of word 0 16 word := by
  intro i _
  rw [Nat.zero_add]

theorem field_of_byte (word : BitVec 16) (high : Bool) :
    field_of word (if high then 8 else 0) 8 ((byte_of word high).setWidth 16) := by
  intro i hi
  cases high with
  | true => simp [byte_of, hi, show i < 16 by omega]
  | false => simp [byte_of, hi, show i < 16 by omega]

theorem deposit_read {dst : BitVec 64} {g : IrqGroup} {bit width : Nat} {field : BitVec 16}
    (hin : bit + width ≤ 16) (hfield : field_of (pack_lines dst g) bit width field) :
    deposit_lines dst g width bit field = dst := by
  refine deposit_same (by omega) ?_
  intro i hi
  rw [BitVec.getLsbD_setWidth, hfield i hi, getLsbD_pack_lines dst g (by omega),
    Nat.add_assoc, decide_eq_true (show i < 64 by omega), Bool.true_and]

theorem getLsbD_pack_priority (c : IrqController) (g : IrqGroup) (high : Bool) {i : Nat}
    (hi : i < 16) (himpl : g.first_line + i < irq_num) :
    (c.pack_priority g high).getLsbD i =
      (c.priority (Fin.ofNat 64 (g.first_line + i))).getLsbD (if high then 1 else 0) := by
  unfold pack_priority
  rw [Bits.getLsbD_gather _ _ hi]
  simp [hi, himpl]

theorem set_priority_bit_same : ∀ (slot : BitVec 8) (high : Bool),
    set_priority_bit slot high (slot.getLsbD (if high then 1 else 0)) = slot := by
  decide +kernel

theorem unpacked_read {c : IrqController} {g : IrqGroup} {high : Bool} {bit width : Nat}
    {field : BitVec 16} (hin : bit + width ≤ 16)
    (hfield : field_of (c.pack_priority g high) bit width field) :
    unpacked c.priority g high field bit width = c.priority := by
  funext line
  unfold unpacked
  split
  · rename_i hline
    obtain ⟨hfrom, hto, himpl⟩ := hline
    have hsum : bit + (line.val - g.first_line - bit) = line.val - g.first_line := by omega
    have hat : g.first_line + (line.val - g.first_line) = line.val := by omega
    have hslot : Fin.ofNat 64 line.val = line := Fin.ext (Nat.mod_eq_of_lt line.isLt)
    rw [hfield _ (by omega), hsum, getLsbD_pack_priority c g high (by omega) (by omega), hat, hslot]
    exact set_priority_bit_same _ _
  · rfl

/-- A register that is written what it holds changes nothing. -/
theorem Settled.latch_read {c : IrqController} (h : c.Settled) (reg : IfMkReg) {bit width : Nat}
    {field : BitVec 16} (hin : bit + width ≤ 16)
    (hfield : field_of (c.read_if_mk reg) bit width field) :
    c.latch (flag_with reg bit width field c.flag) (mask_with reg bit width field c.mask)
      (priority_with reg bit width field c.priority) = c := by
  have hsame : c.latch c.flag c.mask c.priority = c := h
  cases reg with
  | If g => exact (congrArg (c.latch · _ _) (deposit_read hin hfield)).trans hsame
  | Mk g => exact (congrArg (c.latch _ · _) (deposit_read hin hfield)).trans hsame
  | PrLow g => exact (congrArg (c.latch _ _) (unpacked_read hin hfield)).trans hsame
  | PrHigh g => exact (congrArg (c.latch _ _) (unpacked_read hin hfield)).trans hsame

/-! ### The windows -/

/-- Every even offset of a window is a register. -/
theorem at_isSome {window offset : Nat} (hwindow : window < 2) (heven : offset % 2 = 0)
    (hoffset : offset < 0x10) : ∃ reg, IfMkReg.at_ window offset = some reg := by
  unfold IfMkReg.at_
  rw [if_neg (by omega)]
  dsimp only
  rw [dif_pos (by omega)]
  have hslot : offset / 2 / 2 < 4 := by omega
  generalize offset / 2 / 2 = kind at hslot
  interval_cases kind
  · exact ⟨_, rfl⟩
  · exact ⟨_, rfl⟩
  · exact ⟨_, rfl⟩
  · exact ⟨_, rfl⟩

/-- What a register's accesses are to a guest. -/
structure Splits (c : IrqController) (window offset : Nat) : Prop where
  /-- A word is its two bytes, the low one first. -/
  write (low high : BitVec 8) : c.write window offset [low, high] =
    (((c.write window offset [low]).1.write window (offset + 1) [high]).1, .ok ())
  /-- Or the high one first. -/
  write_rev (low high : BitVec 8) : c.write window offset [low, high] =
    (((c.write window (offset + 1) [high]).1.write window offset [low]).1, .ok ())
  bytes (low high : BitVec 8) : (c.write window offset [low]).2 = .ok () ∧
    (c.write window (offset + 1) [high]).2 = .ok ()
  read : ∃ low high, c.read window offset 2 = .ok [low, high] ∧
    c.read window offset 1 = .ok [low] ∧ c.read window (offset + 1) 1 = .ok [high]

/-- What was read is written back, as a word or as a byte, and nothing changes. -/
structure Restores (c : IrqController) (window offset : Nat) : Prop where
  word (buf : List (BitVec 8)) : c.read window offset 2 = .ok buf →
    c.write window offset buf = (c, .ok ())
  low (buf : List (BitVec 8)) : c.read window offset 1 = .ok buf →
    c.write window offset buf = (c, .ok ())
  high (buf : List (BitVec 8)) : c.read window (offset + 1) 1 = .ok buf →
    c.write window (offset + 1) buf = (c, .ok ())

/-- The accesses to a register of a window. -/
theorem accesses_eq {window offset : Nat} {reg : IfMkReg} (heven : offset % 2 = 0)
    (hreg : IfMkReg.at_ window offset = some reg) (c : IrqController) :
    (∀ low high, c.write window offset [low, high] =
      (c.write_if_mk_word reg (high ++ low), .ok ())) ∧
    (∀ low, c.write window offset [low] = (c.write_if_mk_byte reg false low, .ok ())) ∧
    (∀ high, c.write window (offset + 1) [high] = (c.write_if_mk_byte reg true high, .ok ())) ∧
    c.read window offset 2 =
      .ok [byte_of (c.read_if_mk reg) false, byte_of (c.read_if_mk reg) true] ∧
    c.read window offset 1 = .ok [byte_of (c.read_if_mk reg) false] ∧
    c.read window (offset + 1) 1 = .ok [byte_of (c.read_if_mk reg) true] := by
  have hlow : offset / 2 * 2 = offset := by omega
  have hhigh : (offset + 1) / 2 * 2 = offset := by omega
  have hodd : (offset + 1) % 2 = 1 := by omega
  refine ⟨fun _ _ => ?_, fun _ => ?_, fun _ => ?_, ?_, ?_, ?_⟩
  · simp only [write, hreg]
  · simp only [write, hlow, hreg, heven]
    rfl
  · simp only [write, hhigh, hreg, hodd]
    rfl
  · simp only [read, hreg]
  · simp only [read, hlow, hreg, heven]
    rfl
  · simp only [read, hhigh, hreg, hodd]
    rfl

theorem splits (c : IrqController) {window offset : Nat} (hwindow : window < 2)
    (heven : offset % 2 = 0) (hoffset : offset < 0x10) : c.Splits window offset := by
  obtain ⟨reg, hreg⟩ := at_isSome hwindow heven hoffset
  obtain ⟨hword, hlow, hhigh, hread, hread_low, hread_high⟩ := accesses_eq heven hreg c
  refine ⟨?_, ?_, ?_, ⟨_, _, hread, hread_low, hread_high⟩⟩
  · intro low high
    rw [hword, hlow, (accesses_eq heven hreg _).2.2.1, write_word_eq]
  · intro low high
    rw [hword, hhigh, (accesses_eq heven hreg _).2.1, write_word_eq, write_byte_comm]
  · intro low high
    rw [hlow, hhigh]
    exact ⟨rfl, rfl⟩

theorem Settled.restores {c : IrqController} (h : c.Settled) {window offset : Nat}
    (hwindow : window < 2) (heven : offset % 2 = 0) (hoffset : offset < 0x10) :
    c.Restores window offset := by
  obtain ⟨reg, hreg⟩ := at_isSome hwindow heven hoffset
  obtain ⟨hword, hlow, hhigh, hread, hread_low, hread_high⟩ := accesses_eq heven hreg c
  refine ⟨?_, ?_, ?_⟩
  · intro buf hbuf
    obtain rfl := Except.ok.inj (hread.symm.trans hbuf)
    rw [hword, byte_append, write_word_latch, h.latch_read reg (by decide) (field_of_word _)]
  · intro buf hbuf
    obtain rfl := Except.ok.inj (hread_low.symm.trans hbuf)
    rw [hlow, write_byte_latch, h.latch_read reg (by decide) (field_of_byte _ false)]
  · intro buf hbuf
    obtain rfl := Except.ok.inj (hread_high.symm.trans hbuf)
    rw [hhigh, write_byte_latch, h.latch_read reg (by decide) (field_of_byte _ true)]

/-- In every state a word is its two bytes; in every state that accesses lead to, what is read
    can be written back. -/
theorem word_is_two_bytes (c : IrqController) {window offset : Nat} (hwindow : window < 2)
    (heven : offset % 2 = 0) (hoffset : offset < 0x10) :
    c.Splits window offset ∧
      (Reachable runs AnyAccess c → c.Restores window offset) := by
  refine ⟨c.splits hwindow heven hoffset, ?_⟩
  intro hc
  exact (settled_of_reachable hc).restores hwindow heven hoffset

/-- The last `PR` register of the second window, of which eleven lines are implemented. -/
theorem word_is_two_bytes_pr13 : new.Splits 1 0xE ∧ new.Restores 1 0xE := by
  have hnew : Reachable runs AnyAccess new := .init rfl
  obtain ⟨hsplits, hrestores⟩ := word_is_two_bytes new (show 1 < 2 by decide)
    (show 0xE % 2 = 0 by decide) (by decide)
  exact ⟨hsplits, hrestores hnew⟩

end IrqController

end Rl78Sim
