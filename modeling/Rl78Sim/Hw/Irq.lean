import Rl78Sim.Framework.Bits
import Rl78Sim.Framework.Transition
import Rl78Sim.Kernel.Entity

/-! # The Interrupt Controller

    `IrqController` latches requests in `flag`, masks them, and gives every
    line one of four priorities. Whenever one of these changes it recomputes
    the pending request and drives it to the CPU line, if one is bound. The
    edge registers decide nothing here and are left out.
-/

namespace Rl78Sim

open Transition

/-- `IrqId::NUM`. -/
def irq_num : Nat := 59

/-- `IrqId::PRIORITY_LEVELS`. -/
def priority_levels : Nat := 4

/-- `IrqId`: the index of an implemented line. -/
abbrev IrqId := Fin irq_num

/-- `IrqId::INTST0`. -/
def IrqId.INTST0 : IrqId := ⟨13, by decide⟩

/-- `IrqId::INTTM00`. -/
def IrqId.INTTM00 : IrqId := ⟨14, by decide⟩

/-- `IrqId::from_index`. -/
def IrqId.from_index (index : Nat) : Option IrqId :=
  if h : index < irq_num then some ⟨index, h⟩ else none

/-- `IrqRequest`. -/
structure IrqRequest where
  index : IrqId
  priority : BitVec 8
  deriving DecidableEq

/-- `IrqGroup`: sixteen consecutive lines. -/
abbrev IrqGroup := Fin 4

/-- `IrqGroup::first_line`. -/
def IrqGroup.first_line (group : IrqGroup) : Nat := group.val * 16

/-- `IfMkReg`. -/
inductive IfMkReg where
  | If (group : IrqGroup)
  | Mk (group : IrqGroup)
  | PrLow (group : IrqGroup)
  | PrHigh (group : IrqGroup)
  deriving DecidableEq

/-- `IfMkReg::at`. -/
def IfMkReg.at_ (window offset : Nat) : Option IfMkReg :=
  if offset % 2 ≠ 0 ∨ 0x10 ≤ offset then none
  else
    let slot := offset / 2
    if h : window * 2 + slot % 2 < 4 then
      let group : IrqGroup := ⟨window * 2 + slot % 2, h⟩
      match slot / 2 with
      | 0 => some (.If group)
      | 1 => some (.Mk group)
      | 2 => some (.PrLow group)
      | 3 => some (.PrHigh group)
      | _ => none
    else none

/-- `IrqController`, with the CPU line that it drives: whether one is bound,
    and the arguments of the last `tlib_set_rl78_irq`. -/
structure IrqController where
  flag : BitVec 64
  mask : BitVec 64
  priority : Fin 64 → BitVec 8
  pending : Option IrqRequest
  bound : Bool
  driven : Nat × Nat × Nat

namespace IrqController

/-- `IrqController::new`, not bound to a CPU yet. -/
def new : IrqController := ⟨0, 0, fun _ => 0, none, false, (0, 0, 0)⟩

/-- `apply_tlib_irq`: index, priority and enable. -/
def tlib_irq : Option IrqRequest → Nat × Nat × Nat
  | some req => (req.index.val, req.priority.toNat, 1)
  | none => (0, 0, 0)

/-- `drive_cpu`. -/
def drive_cpu (c : IrqController) : IrqController :=
  if c.bound then { c with driven := tlib_irq c.pending } else c

/-- The implemented lines of one priority, as a word. -/
def group_of (priority : Fin 64 → BitVec 8) (level : Nat) : BitVec 64 :=
  Bits.gather 64 (fun i => priority (Fin.ofNat 64 i) == BitVec.ofNat 8 level) (List.range irq_num)

theorem getLsbD_group_of (priority : Fin 64 → BitVec 8) (level : Nat) {i : Nat} (hi : i < 64) :
    (group_of priority level).getLsbD i =
      (decide (i < irq_num) && (priority ⟨i, hi⟩ == BitVec.ofNat 8 level)) := by
  rw [group_of, Bits.getLsbD_gather _ _ hi]
  simp only [List.mem_range, Fin.ofNat, Nat.mod_eq_of_lt hi]

theorem ctz_lt {unmasked : BitVec 64} {priority : Fin 64 → BitVec 8} {level : Nat}
    (hhits : unmasked &&& group_of priority level ≠ 0#64) :
    (unmasked &&& group_of priority level).ctz.toNat < irq_num := by
  have hbit := BitVec.getLsbD_true_ctz_of_ne_zero hhits
  generalize (unmasked &&& group_of priority level).ctz.toNat = i at hbit ⊢
  have hlt : i < 64 := by
    by_contra hge
    rw [BitVec.getLsbD_of_ge _ _ (Nat.le_of_not_lt hge)] at hbit
    cases hbit
  rw [BitVec.getLsbD_and, getLsbD_group_of _ _ hlt] at hbit
  simp only [Bool.and_eq_true, decide_eq_true_eq] at hbit
  exact hbit.2.1

/-- The request of one priority: the first line that is hit. -/
def request_at (unmasked : BitVec 64) (priority : Fin 64 → BitVec 8) (level : Nat) :
    Option IrqRequest :=
  let hits := unmasked &&& group_of priority level
  if h : hits ≠ 0#64 then some ⟨⟨hits.ctz.toNat, ctz_lt h⟩, BitVec.ofNat 8 level⟩ else none

/-- `IrqController::recompute`. -/
def recompute (c : IrqController) : IrqController :=
  let unmasked := c.flag &&& ~~~c.mask
  drive_cpu { c with
    pending := (List.range priority_levels).findSome? (request_at unmasked c.priority) }

/-- `IrqController::raise`. -/
def raise (c : IrqController) (irq : IrqId) : IrqController :=
  recompute { c with flag := c.flag ||| (1#64 <<< irq.val) }

/-- `IrqController::ack`. -/
def ack (c : IrqController) (irq : IrqId) : IrqController :=
  recompute { c with flag := c.flag &&& ~~~(1#64 <<< irq.val) }

/-- `IrqController::deposit_lines`. -/
def deposit_lines (dst : BitVec 64) (group : IrqGroup) (width bit : Nat) (field : BitVec 16) :
    BitVec 64 :=
  Bits.deposit dst (field.setWidth 64) (group.first_line + bit) width

/-- One priority bit of a line. -/
def set_priority_bit (slot : BitVec 8) (high field_bit : Bool) : BitVec 8 :=
  if high then (slot &&& ~~~2#8) ||| (if field_bit then 2#8 else 0#8)
  else (slot &&& ~~~1#8) ||| (if field_bit then 1#8 else 0#8)

/-- `IrqController::unpack_priority`: bit `i` of the group is written for `i`
    from `bit` on, up to the last implemented line. -/
def unpack_priority (c : IrqController) (group : IrqGroup) (high : Bool) (value : BitVec 16)
    (bit width : Nat) : IrqController :=
  let stop := min (bit + width) 16
  recompute { c with
    priority := fun line =>
      if group.first_line + bit ≤ line.val ∧ line.val < group.first_line + stop ∧
          line.val < irq_num then
        set_priority_bit (c.priority line) high
          (value.getLsbD (line.val - group.first_line - bit))
      else c.priority line }

/-- `IrqController::write_if_mk_word`. -/
def write_if_mk_word (c : IrqController) (reg : IfMkReg) (value : BitVec 16) : IrqController :=
  match reg with
  | .If g => recompute { c with flag := deposit_lines c.flag g 16 0 value }
  | .Mk g => recompute { c with mask := deposit_lines c.mask g 16 0 value }
  | .PrLow g => c.unpack_priority g false value 0 16
  | .PrHigh g => c.unpack_priority g true value 0 16

/-- `IrqController::write_if_mk_byte`. -/
def write_if_mk_byte (c : IrqController) (reg : IfMkReg) (high : Bool) (value : BitVec 8) :
    IrqController :=
  let bit := if high then 8 else 0
  match reg with
  | .If g => recompute { c with flag := deposit_lines c.flag g 8 bit (value.setWidth 16) }
  | .Mk g => recompute { c with mask := deposit_lines c.mask g 8 bit (value.setWidth 16) }
  | .PrLow g => c.unpack_priority g false (value.setWidth 16) bit 8
  | .PrHigh g => c.unpack_priority g true (value.setWidth 16) bit 8

/-- `Resettable::reset`. -/
def reset (c : IrqController) : IrqController :=
  recompute { c with flag := 0, mask := BitVec.allOnes 64, priority := fun _ => 3#8 }

/-- `bind_cpu_line`. -/
def bind_cpu_line (c : IrqController) : IrqController :=
  { c with bound := true, driven := tlib_irq c.pending }

/-- `unbind_cpu_line`. -/
def unbind_cpu_line (c : IrqController) : IrqController :=
  if c.bound then { c with bound := false, driven := tlib_irq none } else c

/-- `on_tlib_ack`: the index is taken as a `u8`. -/
def on_tlib_ack (c : IrqController) (index : Nat) : IrqController :=
  if c.bound then
    match IrqId.from_index (index % 256) with
    | some id => c.ack id
    | none => c
  else c

/-- `oob`. -/
def oob (offset len : Nat) : BusError := .OutOfRange offset offset len

/-- `IrqBankMmio::write`. -/
def write (c : IrqController) (window offset : Nat) (buf : List (BitVec 8)) :
    IrqController × Except BusError Unit :=
  match buf with
  | [value] =>
      match IfMkReg.at_ window (offset / 2 * 2) with
      | none => (c, .error (oob offset 1))
      | some reg => (c.write_if_mk_byte reg (offset % 2 != 0) value, .ok ())
  | [low, high] =>
      match IfMkReg.at_ window offset with
      | none => (c, .error (oob offset 2))
      | some reg => (c.write_if_mk_word reg (high ++ low), .ok ())
  | _ => (c, .error (oob offset buf.length))

/-! ### Which request is pending -/

/-- An implemented line with its flag set and its mask clear. -/
def Requests (c : IrqController) (line : IrqId) : Prop :=
  c.flag.getLsbD line.val = true ∧ c.mask.getLsbD line.val = false

/-- The priority number of an implemented line. -/
def level (c : IrqController) (line : IrqId) : Nat :=
  (c.priority ⟨line.val, Nat.lt_trans line.isLt (by decide)⟩).toNat

/-- `req` is the request of smallest priority number and, among equals, of
    smallest index. -/
structure First (c : IrqController) (req : IrqRequest) : Prop where
  requests : c.Requests req.index
  priority_eq : req.priority.toNat = c.level req.index
  least (line : IrqId) : c.Requests line →
    c.level req.index < c.level line ∨ c.level req.index = c.level line ∧ req.index ≤ line

theorem getLsbD_unmasked (c : IrqController) {i : Nat} (hi : i < 64) :
    (c.flag &&& ~~~c.mask).getLsbD i = true ↔
      c.flag.getLsbD i = true ∧ c.mask.getLsbD i = false := by
  simp [hi]

theorem getLsbD_hits (c : IrqController) {level : Nat} (hlevel : level < priority_levels)
    (line : IrqId) :
    (c.flag &&& ~~~c.mask &&& group_of c.priority level).getLsbD line.val = true ↔
      c.Requests line ∧ c.level line = level := by
  have hlt : line.val < 64 := Nat.lt_trans line.isLt (by decide)
  have hsmall : level % 2 ^ 8 = level := Nat.mod_eq_of_lt (Nat.lt_trans hlevel (by decide))
  rw [BitVec.getLsbD_and, getLsbD_group_of _ _ hlt, Bool.and_eq_true, getLsbD_unmasked c hlt]
  simp only [line.isLt, decide_true, Bool.true_and, beq_iff_eq, Requests, IrqController.level,
    BitVec.toNat_eq, BitVec.toNat_ofNat, hsmall]

/-- The request of a priority is that of its first line, if one requests. -/
theorem request_at_cases (c : IrqController) {level : Nat} (hlevel : level < priority_levels) :
    (request_at (c.flag &&& ~~~c.mask) c.priority level = none ∧
      ∀ line, c.Requests line → c.level line ≠ level) ∨
    ∃ req, request_at (c.flag &&& ~~~c.mask) c.priority level = some req ∧
      req.priority.toNat = level ∧ c.Requests req.index ∧ c.level req.index = level ∧
      ∀ line, c.Requests line → c.level line = level → req.index ≤ line := by
  unfold request_at
  dsimp only
  by_cases hhits : c.flag &&& ~~~c.mask &&& group_of c.priority level ≠ 0#64
  · right
    have hfirst := (c.getLsbD_hits hlevel ⟨_, ctz_lt hhits⟩).mp
      (BitVec.getLsbD_true_ctz_of_ne_zero hhits)
    refine ⟨_, dif_pos hhits, ?_, hfirst.1, hfirst.2, ?_⟩
    · exact Nat.mod_eq_of_lt (Nat.lt_trans hlevel (by decide))
    · intro line hline heq
      by_contra hbefore
      have hclear := BitVec.getLsbD_false_of_lt_ctz (Nat.lt_of_not_le hbefore)
      rw [(c.getLsbD_hits hlevel line).mpr ⟨hline, heq⟩] at hclear
      cases hclear
  · left
    refine ⟨dif_neg hhits, ?_⟩
    intro line hline heq
    have hbit := (c.getLsbD_hits hlevel line).mpr ⟨hline, heq⟩
    rw [not_not.mp hhits] at hbit
    simp at hbit

theorem findSome?_range {α : Type} (f : Nat → Option α) (n : Nat) :
    ((List.range n).findSome? f = none ∧ ∀ k < n, f k = none) ∨
    ∃ k < n, (List.range n).findSome? f = f k ∧ (f k).isSome = true ∧ ∀ j < k, f j = none := by
  induction n with
  | zero => exact .inl ⟨rfl, nofun⟩
  | succ n ih =>
    rw [List.range_succ, List.findSome?_append]
    rcases ih with ⟨hnone, hall⟩ | ⟨k, hk, heq, hsome, hbefore⟩
    · rw [hnone, Option.none_or]
      cases hlast : f n with
      | none =>
        left
        refine ⟨by simp [hlast], ?_⟩
        intro k hk
        rcases Nat.lt_succ_iff_lt_or_eq.mp hk with hk | rfl
        · exact hall k hk
        · exact hlast
      | some b =>
        right
        exact ⟨n, Nat.lt_succ_self n, by simp [hlast], by simp [hlast], hall⟩
    · right
      obtain ⟨b, hb⟩ := Option.isSome_iff_exists.mp hsome
      exact ⟨k, Nat.lt_succ_of_lt hk, by rw [heq, hb, Option.some_or], hsome, hbefore⟩

/-- `pending` is what `recompute` makes of the registers: no line requests, or
    it is the first request. -/
def Pending (c : IrqController) : Prop :=
  (c.pending = none ∧ ∀ line, ¬ c.Requests line) ∨ ∃ req, c.pending = some req ∧ c.First req

/-- The priorities are two-bit numbers. -/
def Levels (c : IrqController) : Prop := ∀ line, c.level line < priority_levels

/-- The CPU was last told the pending request. -/
def Driven (c : IrqController) : Prop := c.bound = true → c.driven = tlib_irq c.pending

/-- `recompute` changes neither the registers nor the binding. -/
theorem recompute_registers (c : IrqController) : c.recompute.flag = c.flag ∧
    c.recompute.mask = c.mask ∧ c.recompute.priority = c.priority ∧
    c.recompute.bound = c.bound := by
  unfold recompute drive_cpu
  dsimp only
  split <;> exact ⟨rfl, rfl, rfl, rfl⟩

theorem recompute_pending (c : IrqController) : c.recompute.pending =
    (List.range priority_levels).findSome? (request_at (c.flag &&& ~~~c.mask) c.priority) := by
  unfold recompute drive_cpu
  dsimp only
  split <;> rfl

theorem recompute_driven (c : IrqController) : c.recompute.Driven := by
  unfold Driven recompute drive_cpu
  dsimp only
  split
  · intro _
    rfl
  · rename_i hfree
    intro hbound
    exact absurd hbound hfree

theorem pending_recompute (c : IrqController) (hlevels : c.Levels) : c.recompute.Pending := by
  obtain ⟨hflag, hmask, hpriority, -⟩ := c.recompute_registers
  have hrequests (line : IrqId) : c.recompute.Requests line ↔ c.Requests line := by
    simp only [Requests, hflag, hmask]
  have hlevel (line : IrqId) : c.recompute.level line = c.level line := by
    simp only [level, hpriority]
  unfold Pending
  rw [recompute_pending]
  rcases findSome?_range (request_at (c.flag &&& ~~~c.mask) c.priority) priority_levels with
    ⟨hnone, hall⟩ | ⟨k, hk, heq, hsome, hbefore⟩
  · left
    refine ⟨hnone, ?_⟩
    intro line hline
    have hnotat := hall _ (hlevels line)
    rcases c.request_at_cases (hlevels line) with ⟨-, hother⟩ | ⟨req, hreq, -⟩
    · exact hother line ((hrequests line).mp hline) rfl
    · rw [hnotat] at hreq
      cases hreq
  · right
    rcases c.request_at_cases hk with ⟨hnone, -⟩ | ⟨req, hreq, hprio, hline, hat, hleast⟩
    · rw [hnone] at hsome
      cases hsome
    · refine ⟨req, by rw [heq, hreq], ⟨(hrequests _).mpr hline, ?_, ?_⟩⟩
      · rw [hlevel, hat, hprio]
      · intro line hother
        rw [hrequests] at hother
        rw [hlevel, hlevel, hat]
        -- No line requests with a smaller priority number.
        have hge : ¬ c.level line < k := by
          intro hlt
          rcases c.request_at_cases (hlevels line) with ⟨-, hnot⟩ | ⟨req', hreq', -⟩
          · exact hnot line hother rfl
          · rw [hbefore _ hlt] at hreq'
            cases hreq'
        rcases Nat.lt_or_eq_of_le (Nat.le_of_not_lt hge) with hlt | heq
        · exact .inl hlt
        · exact .inr ⟨heq, hleast line hother heq.symm⟩

/-! ### What an access keeps -/

theorem set_priority_bit_lt : ∀ (slot : BitVec 8) (high field_bit : Bool),
    slot.toNat < priority_levels →
      (set_priority_bit slot high field_bit).toNat < priority_levels := by
  decide +kernel

theorem levels_unpack_priority {c : IrqController} (h : c.Levels) (group : IrqGroup) (high : Bool)
    (value : BitVec 16) (bit width : Nat) :
    (c.unpack_priority group high value bit width).Levels := by
  intro line
  unfold level unpack_priority
  rw [(recompute_registers _).2.2.1]
  dsimp only
  split
  · exact set_priority_bit_lt _ _ _ (h line)
  · exact h line

theorem Levels.of_priority {c c' : IrqController} (h : c.Levels)
    (heq : c'.priority = c.priority) : c'.Levels := by
  intro line
  rw [level, heq]
  exact h line

/-- The controller is consistent: what is pending, what was driven, and the
    range of the priorities. -/
structure Wf (c : IrqController) : Prop where
  levels : c.Levels
  pending : c.Pending
  driven : c.Driven

/-- Only the registers and `pending` matter for what is pending. -/
theorem Pending.of_bound {c : IrqController} (h : c.Pending) (bound : Bool)
    (driven : Nat × Nat × Nat) :
    ({ c with bound := bound, driven := driven } : IrqController).Pending := by
  rcases h with ⟨hnone, hall⟩ | ⟨req, hsome, hfirst⟩
  · exact .inl ⟨hnone, hall⟩
  · exact .inr ⟨req, hsome, hfirst.requests, hfirst.priority_eq, hfirst.least⟩

theorem wf_recompute {c : IrqController} (hlevels : c.Levels) : c.recompute.Wf :=
  ⟨hlevels.of_priority c.recompute_registers.2.2.1, c.pending_recompute hlevels,
    c.recompute_driven⟩

theorem wf_new : new.Wf where
  levels line := by
    show (0#8).toNat < priority_levels
    decide
  pending := by
    left
    refine ⟨rfl, ?_⟩
    intro line hline
    have hflag : (0#64).getLsbD line.val = true := hline.1
    simp at hflag
  driven hbound := by cases hbound

theorem Wf.unpack_priority {c : IrqController} (h : c.Wf) (group : IrqGroup) (high : Bool)
    (value : BitVec 16) (bit width : Nat) : (c.unpack_priority group high value bit width).Wf := by
  have hlevels := levels_unpack_priority h.levels group high value bit width
  exact wf_recompute (hlevels.of_priority (recompute_registers _).2.2.1.symm)

theorem Wf.write_if_mk_word {c : IrqController} (h : c.Wf) (reg : IfMkReg) (value : BitVec 16) :
    (c.write_if_mk_word reg value).Wf := by
  cases reg with
  | If g => exact wf_recompute (h.levels.of_priority rfl)
  | Mk g => exact wf_recompute (h.levels.of_priority rfl)
  | PrLow g => exact h.unpack_priority g false value 0 16
  | PrHigh g => exact h.unpack_priority g true value 0 16

theorem Wf.write_if_mk_byte {c : IrqController} (h : c.Wf) (reg : IfMkReg) (high : Bool)
    (value : BitVec 8) : (c.write_if_mk_byte reg high value).Wf := by
  cases reg with
  | If g => exact wf_recompute (h.levels.of_priority rfl)
  | Mk g => exact wf_recompute (h.levels.of_priority rfl)
  | PrLow g => exact h.unpack_priority g false _ _ 8
  | PrHigh g => exact h.unpack_priority g true _ _ 8

theorem Wf.write {c : IrqController} (h : c.Wf) (window offset : Nat) (buf : List (BitVec 8)) :
    (c.write window offset buf).1.Wf := by
  unfold IrqController.write
  split
  · split
    · exact h
    · exact h.write_if_mk_byte _ _ _
  · split
    · exact h
    · exact h.write_if_mk_word _ _
  · exact h

/-! ### Runs -/

/-- What devices, the CPU and the guest do to the controller. -/
inductive Access where
  | bind
  | unbind
  | raise (irq : IrqId)
  | ack (irq : IrqId)
  | tlib_ack (index : Nat)
  | write (window offset : Nat) (buf : List (BitVec 8))
  | reset

def access (c : IrqController) : Access → IrqController
  | .bind => c.bind_cpu_line
  | .unbind => c.unbind_cpu_line
  | .raise irq => c.raise irq
  | .ack irq => c.ack irq
  | .tlib_ack index => c.on_tlib_ack index
  | .write window offset buf => (c.write window offset buf).1
  | .reset => c.reset

/-- All sequences of accesses to a new controller. -/
def runs : System IrqController Access :=
  ⟨fun c => c = new, fun c a => some (c.access a)⟩

def AnyAccess (_ : IrqController) (_ : Access) : Prop := True

instance (c : IrqController) (a : Access) : Decidable (AnyAccess c a) := .isTrue trivial

theorem Wf.access {c : IrqController} (h : c.Wf) (a : Access) : (c.access a).Wf := by
  cases a with
  | bind =>
    refine ⟨h.levels, h.pending.of_bound _ _, ?_⟩
    intro _
    rfl
  | unbind =>
    show (c.unbind_cpu_line).Wf
    unfold unbind_cpu_line
    split
    · exact ⟨h.levels, h.pending.of_bound _ _, nofun⟩
    · exact h
  | raise irq => exact wf_recompute (h.levels.of_priority rfl)
  | ack irq => exact wf_recompute (h.levels.of_priority rfl)
  | tlib_ack index =>
    show (c.on_tlib_ack index).Wf
    unfold on_tlib_ack
    split
    · split
      · exact wf_recompute (h.levels.of_priority rfl)
      · exact h
    · exact h
  | write window offset buf => exact h.write window offset buf
  | reset =>
    apply wf_recompute
    intro line
    show (3#8).toNat < priority_levels
    decide

theorem wf_of_reachable {c : IrqController} (h : Reachable runs AnyAccess c) : c.Wf := by
  refine h.invariant ?_ ?_
  · rintro c rfl
    exact wf_new
  · intro c a c' hc _ hstep
    rw [← Option.some.inj hstep]
    exact hc.access a

/-! ### Which accesses clear a flag -/

/-- The lines whose IF bits a write covers. -/
def WritesIf (window offset : Nat) (buf : List (BitVec 8)) (line : IrqId) : Prop :=
  match buf with
  | [_] => ∃ g, IfMkReg.at_ window (offset / 2 * 2) = some (.If g) ∧
      g.first_line + (if offset % 2 != 0 then 8 else 0) ≤ line.val ∧
      line.val < g.first_line + (if offset % 2 != 0 then 8 else 0) + 8
  | [_, _] => ∃ g, IfMkReg.at_ window offset = some (.If g) ∧
      g.first_line ≤ line.val ∧ line.val < g.first_line + 16
  | _ => False

/-- The access may clear the flag of the line. -/
def Clears : Access → IrqId → Prop
  | .ack irq, line => irq = line
  | .tlib_ack index, line => index % 256 = line.val
  | .write window offset buf, line => WritesIf window offset buf line
  | .reset, _ => True
  | _, _ => False

theorem getLsbD_ack {c : IrqController} {irq line : IrqId} (hne : irq ≠ line)
    (hflag : c.flag.getLsbD line.val = true) : (c.ack irq).flag.getLsbD line.val = true := by
  have hlt : line.val < 64 := Nat.lt_trans line.isLt (by decide)
  unfold ack
  rw [(recompute_registers _).1]
  dsimp only
  rw [BitVec.getLsbD_and, BitVec.getLsbD_not, Bits.getLsbD_one_shiftLeft hlt, hflag]
  simp [hlt, Fin.val_ne_of_ne hne.symm]

theorem getLsbD_deposit_lines {dst : BitVec 64} {g : IrqGroup} {width bit : Nat}
    {field : BitVec 16} {line : IrqId} (hwidth : width < 64)
    (hout : ¬ (g.first_line + bit ≤ line.val ∧ line.val < g.first_line + bit + width)) :
    (deposit_lines dst g width bit field).getLsbD line.val = dst.getLsbD line.val := by
  rw [deposit_lines, Bits.getLsbD_deposit hwidth (Nat.lt_trans line.isLt (by decide)), if_neg hout]

/-- Of the registers, only those of IF hold flags. -/
theorem flag_write_if_mk_byte {c : IrqController} {reg : IfMkReg} {high : Bool}
    {value : BitVec 8} {line : IrqId}
    (hother : ∀ g, reg = .If g → ¬ (g.first_line + (if high then 8 else 0) ≤ line.val ∧
      line.val < g.first_line + (if high then 8 else 0) + 8)) :
    (c.write_if_mk_byte reg high value).flag.getLsbD line.val = c.flag.getLsbD line.val := by
  cases reg with
  | If g =>
    show (recompute _).flag.getLsbD _ = _
    rw [(recompute_registers _).1]
    exact getLsbD_deposit_lines (by decide) (hother g rfl)
  | Mk g | PrLow g | PrHigh g =>
    exact congrArg (fun word => word.getLsbD line.val) (recompute_registers _).1

theorem flag_write_if_mk_word {c : IrqController} {reg : IfMkReg} {value : BitVec 16}
    {line : IrqId}
    (hother : ∀ g, reg = .If g → ¬ (g.first_line ≤ line.val ∧ line.val < g.first_line + 16)) :
    (c.write_if_mk_word reg value).flag.getLsbD line.val = c.flag.getLsbD line.val := by
  cases reg with
  | If g =>
    show (recompute _).flag.getLsbD _ = _
    rw [(recompute_registers _).1]
    exact getLsbD_deposit_lines (by decide) (hother g rfl)
  | Mk g | PrLow g | PrHigh g =>
    exact congrArg (fun word => word.getLsbD line.val) (recompute_registers _).1

/-- A register write that is not to the IF bit of the line leaves its flag. -/
theorem flag_write {c : IrqController} {window offset : Nat} {buf : List (BitVec 8)}
    {line : IrqId} (hother : ¬ WritesIf window offset buf line) :
    (c.write window offset buf).1.flag.getLsbD line.val = c.flag.getLsbD line.val := by
  unfold IrqController.write
  split
  · rename_i value
    split
    · rfl
    · rename_i reg hreg
      apply flag_write_if_mk_byte
      intro g hg hin
      exact hother ⟨g, hg ▸ hreg, hin⟩
  · rename_i low high
    split
    · rfl
    · rename_i reg hreg
      apply flag_write_if_mk_word
      intro g hg hin
      exact hother ⟨g, hg ▸ hreg, hin⟩
  · rfl

theorem clears_of_cleared {c : IrqController} {a : Access} {line : IrqId}
    (hset : c.flag.getLsbD line.val = true)
    (hclear : (c.access a).flag.getLsbD line.val = false) : Clears a line := by
  have hkept {flag : BitVec 64} (hflag : (c.access a).flag = flag)
      (hbit : flag.getLsbD line.val = true) : False := by
    rw [hflag, hbit] at hclear
    cases hclear
  cases a with
  | bind => exact (hkept rfl hset).elim
  | unbind =>
    have hflag : c.unbind_cpu_line.flag = c.flag := by
      unfold unbind_cpu_line
      split <;> rfl
    exact (hkept hflag hset).elim
  | raise irq =>
    refine (hkept (recompute_registers _).1 ?_).elim
    rw [BitVec.getLsbD_or, hset, Bool.true_or]
  | ack irq =>
    by_contra hne
    exact hkept rfl (getLsbD_ack hne hset)
  | tlib_ack index =>
    by_contra hne
    refine hkept rfl ?_
    show (c.on_tlib_ack index).flag.getLsbD line.val = true
    unfold on_tlib_ack
    split
    · split
      · rename_i id hid
        apply getLsbD_ack ?_ hset
        -- The line acknowledged is the index as a `u8`.
        rintro rfl
        unfold IrqId.from_index at hid
        split at hid
        · exact hne (congrArg Fin.val (Option.some.inj hid))
        · cases hid
      · exact hset
    · exact hset
  | write window offset buf =>
    by_contra hother
    exact hkept rfl ((flag_write hother).trans hset)
  | reset => trivial

/-! ### The interrupt line -/

/-- The pending request is the first one, the CPU was told so, and a flag is
    cleared only by an acknowledge, a write to its IF bit, or a reset. -/
structure ArgMin (c : IrqController) : Prop where
  none_iff : c.pending = none ↔ ∀ line, ¬ c.Requests line
  first (req : IrqRequest) : c.pending = some req → c.First req
  driven : c.bound = true → c.driven = tlib_irq c.pending
  cleared (a : Access) (line : IrqId) : c.flag.getLsbD line.val = true →
    (c.access a).flag.getLsbD line.val = false → Clears a line

/-- After every sequence of accesses the interrupt line is the arg-min. -/
theorem irq_line_argmin {c : IrqController} (h : Reachable runs AnyAccess c) : c.ArgMin := by
  have hwf := wf_of_reachable h
  refine ⟨?_, ?_, hwf.driven, fun _ _ => clears_of_cleared⟩
  · rcases hwf.pending with ⟨hnone, hall⟩ | ⟨req, hsome, hfirst⟩
    · exact ⟨fun _ => hall, fun _ => hnone⟩
    · constructor
      · intro hnone
        rw [hnone] at hsome
        cases hsome
      · intro hall
        exact absurd hfirst.requests (hall req.index)
  · intro req hreq
    rcases hwf.pending with ⟨hnone, -⟩ | ⟨req', hsome, hfirst⟩
    · rw [hnone] at hreq
      cases hreq
    · obtain rfl : req' = req := Option.some.inj (hsome.symm.trans hreq)
      exact hfirst

/-- Two unmasked requests of which the later line has the smaller priority
    number. -/
theorem irq_line_argmin_two_lines : ∃ c : IrqController, Reachable runs AnyAccess c ∧
    c.driven = (14, 2, 1) ∧ c.ArgMin := by
  obtain ⟨c, hc, hdriven⟩ : ∃ c : IrqController, Reachable runs AnyAccess c ∧
      c.driven = (14, 2, 1) :=
    Reachable.exists_of_exec (s := new)
      [.bind, .reset, .write 0 4 [0, 0], .raise .INTST0, .raise .INTTM00, .write 0 9 [0xBF]] rfl
      (by decide +kernel)
  exact ⟨c, hc, hdriven, irq_line_argmin hc⟩

end IrqController

end Rl78Sim
