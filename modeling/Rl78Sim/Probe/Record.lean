import Mathlib.Data.List.Basic
import Mathlib.Data.Nat.Basic
import Mathlib.Tactic.Ring
import Rl78Sim.Framework.Fins

/-! # Probe Records

    The samples of a probe log, virtual-time windows, and the bytes of a
    record in the spill file.
-/

namespace Rl78Sim

/-- `ProbeKind`. -/
inductive ProbeKind where
  | Digital
  | Uart
  | Analog
  deriving DecidableEq

namespace ProbeKind

/-- The wire byte of a kind. -/
def to_wire : ProbeKind → UInt8
  | .Digital => 1
  | .Uart => 2
  | .Analog => 3

/-- `ProbeKind::from_wire`. -/
def from_wire (kind : UInt8) : Option ProbeKind :=
  if kind = 1 then some .Digital
  else if kind = 2 then some .Uart
  else if kind = 3 then some .Analog
  else none

theorem from_wire_to_wire (kind : ProbeKind) : from_wire kind.to_wire = some kind := by
  cases kind <;> rfl

end ProbeKind

/-! ### Fields of a record -/

theorem one_lt_u64 : 1 < 256 ^ 8 := by decide

theorem mod_lt_u64 (n : Nat) : n % 256 ^ 8 < 256 ^ 8 := Nat.mod_lt _ (by decide)

theorem mod_lt_u16 (n : Nat) : n % 256 ^ 2 < 256 ^ 2 := Nat.mod_lt _ (by decide)

/-- `ProbeRecord`: two `u64` fields and a `u16` value. -/
@[ext]
structure ProbeRecord where
  probe_id : Nat
  virtual_time_ns : Nat
  kind : ProbeKind
  value : Nat
  probe_lt : probe_id < 256 ^ 8
  time_lt : virtual_time_ns < 256 ^ 8
  value_lt : value < 256 ^ 2
  deriving DecidableEq

/-- `ProbeRange`: a virtual-time window, open where a bound is absent. -/
structure ProbeRange where
  from_ns : Option Nat
  to_ns : Option Nat
  deriving DecidableEq

/-- `ProbeRange::contains`. -/
def ProbeRange.contains (range : ProbeRange) (virtual_time_ns : Nat) : Bool :=
  if range.from_ns.any fun from_ns => virtual_time_ns < from_ns then false
  else if range.to_ns.any fun to_ns => to_ns < virtual_time_ns then false
  else true

/-! ### Little-endian numbers -/

/-- `to_le_bytes` of a number of `w` bytes. -/
def to_le_bytes : Nat → Nat → List UInt8
  | 0, _ => []
  | w + 1, x => UInt8.ofNat x :: to_le_bytes w (x / 256)

/-- `from_le_bytes`. -/
def from_le_bytes : List UInt8 → Nat
  | [] => 0
  | b :: bs => b.toNat + 256 * from_le_bytes bs

@[simp] theorem length_to_le_bytes (w x : Nat) : (to_le_bytes w x).length = w := by
  induction w generalizing x with
  | zero => rfl
  | succ w ih => exact congrArg (· + 1) (ih _)

theorem from_le_bytes_lt (bs : List UInt8) : from_le_bytes bs < 256 ^ bs.length := by
  induction bs with
  | nil => exact Nat.one_pos
  | cons b bs ih =>
    have hb : b.toNat < 256 := UInt8.toNat_lt b
    rw [from_le_bytes, List.length_cons, Nat.pow_succ]
    omega

theorem from_le_bytes_take_lt (w : Nat) (bs : List UInt8) :
    from_le_bytes (bs.take w) < 256 ^ w := by
  have hlen : (bs.take w).length ≤ w := by
    rw [List.length_take]
    exact Nat.min_le_left _ _
  exact Nat.lt_of_lt_of_le (from_le_bytes_lt _) (Nat.pow_le_pow_right (by omega) hlen)

/-- A number that fits survives the bytes. -/
theorem from_le_bytes_to_le_bytes (w : Nat) {x : Nat} (h : x < 256 ^ w) :
    from_le_bytes (to_le_bytes w x) = x := by
  induction w generalizing x with
  | zero =>
    rw [Nat.pow_zero] at h
    show 0 = x
    omega
  | succ w ih =>
    have hrest : x / 256 < 256 ^ w := by
      apply Nat.div_lt_of_lt_mul
      rw [Nat.mul_comm, ← Nat.pow_succ]
      exact h
    show (UInt8.ofNat x).toNat + 256 * from_le_bytes (to_le_bytes w (x / 256)) = x
    rw [ih hrest, UInt8.toNat_ofNat']
    omega

/-! ### The spill file -/

/-- `SPILL_REC`. -/
def spill_rec : Nat := 8 + 8 + 1 + 2

namespace ProbeRecord

/-- The bytes that `append_spill` writes. -/
def encode (record : ProbeRecord) : List UInt8 :=
  to_le_bytes 8 record.virtual_time_ns ++
    (to_le_bytes 8 record.probe_id ++ (record.kind.to_wire :: to_le_bytes 2 record.value))

/-- One turn of the loop of `read_spill`. -/
def decode (buf : List UInt8) : ProbeRecord where
  virtual_time_ns := from_le_bytes (buf.take 8)
  probe_id := from_le_bytes ((buf.drop 8).take 8)
  kind := (ProbeKind.from_wire (buf.getD 16 0)).getD .Digital
  value := from_le_bytes ((buf.drop 17).take 2)
  probe_lt := from_le_bytes_take_lt 8 _
  time_lt := from_le_bytes_take_lt 8 _
  value_lt := from_le_bytes_take_lt 2 _

theorem length_encode (record : ProbeRecord) : record.encode.length = spill_rec := by
  simp [encode, spill_rec]

/-- A record survives the spill file. -/
theorem decode_encode (record : ProbeRecord) (rest : List UInt8) :
    decode (record.encode ++ rest) = record := by
  have htime : (record.encode ++ rest).take 8 = to_le_bytes 8 record.virtual_time_ns := by
    rw [encode, List.append_assoc]
    exact List.take_left' (length_to_le_bytes _ _)
  have hprobe : ((record.encode ++ rest).drop 8).take 8 = to_le_bytes 8 record.probe_id := by
    rw [encode, List.append_assoc, List.drop_left' (length_to_le_bytes _ _), List.append_assoc]
    exact List.take_left' (length_to_le_bytes _ _)
  have htail : (record.encode ++ rest).drop 16 =
      record.kind.to_wire :: (to_le_bytes 2 record.value ++ rest) := by
    have hlen : (to_le_bytes 8 record.virtual_time_ns ++
        to_le_bytes 8 record.probe_id).length = 16 := by simp
    rw [encode, ← List.append_assoc, List.append_assoc, List.drop_left' hlen]
    rfl
  have hkind : (record.encode ++ rest).getD 16 0 = record.kind.to_wire := by
    have hhead : ((record.encode ++ rest).drop 16)[0]? = (record.encode ++ rest)[16]? :=
      List.getElem?_drop
    rw [List.getD_eq_getElem?_getD, ← hhead, htail]
    rfl
  have hvalue : ((record.encode ++ rest).drop 17).take 2 = to_le_bytes 2 record.value := by
    rw [show (17 : Nat) = 16 + 1 from rfl, ← List.drop_drop, htail]
    exact List.take_left' (length_to_le_bytes _ _)
  -- Each field is read back from its own bytes.
  apply ProbeRecord.ext
  · show from_le_bytes (((record.encode ++ rest).drop 8).take 8) = _
    rw [hprobe]
    exact from_le_bytes_to_le_bytes 8 record.probe_lt
  · show from_le_bytes ((record.encode ++ rest).take 8) = _
    rw [htime]
    exact from_le_bytes_to_le_bytes 8 record.time_lt
  · show (ProbeKind.from_wire ((record.encode ++ rest).getD 16 0)).getD .Digital = _
    rw [hkind, ProbeKind.from_wire_to_wire]
    rfl
  · show from_le_bytes (((record.encode ++ rest).drop 17).take 2) = _
    rw [hvalue]
    exact from_le_bytes_to_le_bytes 2 record.value_lt

end ProbeRecord

/-- The loop of `read_spill`, over `k` whole records. -/
def read_records : Nat → List UInt8 → List ProbeRecord
  | 0, _ => []
  | k + 1, buf => ProbeRecord.decode buf :: read_records k (buf.drop spill_rec)

/-- `read_spill` on the contents of the file, up to `file_len`. -/
def read_spill (file : List UInt8) (file_len : Nat) : List ProbeRecord :=
  read_records ((file.take file_len).length / spill_rec) (file.take file_len)

/-- Whole records are read back, and what is left of a failed append behind
    them is not. -/
theorem read_spill_append (records : List ProbeRecord) {part : List UInt8}
    (hpart : part.length < spill_rec) :
    read_spill (records.flatMap ProbeRecord.encode ++ part)
      (records.flatMap ProbeRecord.encode ++ part).length = records := by
  have hloop (part : List UInt8) :
      read_records records.length (records.flatMap ProbeRecord.encode ++ part) = records := by
    induction records with
    | nil => rfl
    | cons record records ih =>
      rw [List.length_cons, read_records, List.flatMap_cons, List.append_assoc,
        ProbeRecord.decode_encode, List.drop_left' (ProbeRecord.length_encode record), ih]
  have hlen : (records.flatMap ProbeRecord.encode).length = records.length * spill_rec := by
    rw [List.length_flatMap]
    simp [ProbeRecord.length_encode]
  have hcount : (records.flatMap ProbeRecord.encode ++ part).length / spill_rec =
      records.length := by
    rw [List.length_append, hlen]
    unfold spill_rec at hpart ⊢
    omega
  rw [read_spill, List.take_length, hcount, hloop]

end Rl78Sim
