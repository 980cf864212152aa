import Rl78Sim.Cluster.StatusWire
import Rl78Sim.Framework.Utf8

/-! # Text Fields of a Fixed Size

    A text on a bus goes into a buffer of a fixed size, with the number of bytes
    that it takes there. The host status and the log record each have a helper
    that cuts a text to what fits and one that reads it back; a cut never parts a
    character, so both read the longest prefix that fits.
-/

namespace Rl78Sim

open Utf8

/-! ## The helpers of the log record -/

/-- `&text[..n]`; `none` is the panic in the middle of a character. -/
def str_to (text : String) (n : Nat) : Option String :=
  if String.Pos.Raw.isValid text ⟨n⟩ then String.fromUTF8? (text.toByteArray.extract 0 n) else none

/-- `fit_text`. -/
def fit_text (text : String) (max : Nat) : Option String :=
  if text.utf8ByteSize ≤ max then some text else str_to text (fit_from text max)

/-- `LogLevel`. -/
inductive LogLevel where
  | Error
  | Warn
  | Info
  | Debug
  | Trace
  deriving DecidableEq

/-- `LogOrigin`. -/
inductive LogOrigin where
  | Arbiter
  | Node
  deriving DecidableEq

/-- `LOG_TEXT_CAP`. -/
def LOG_TEXT_CAP : Nat := 4096

/-- `ClusterLog`, for a capacity of the text; on the bus it is `LOG_TEXT_CAP`. -/
structure ClusterLog (cap : Nat) where
  board_hash : HashedId
  level : LogLevel
  origin : LogOrigin
  text_len : UInt16
  text_buf : Vector UInt8 cap

namespace ClusterLog

variable {cap : Nat}

/-- `ClusterLog::record`; `none` is a panic of a slice. -/
def record (level : LogLevel) (origin : LogOrigin) (board_hash : HashedId) (text : String) :
    Option (ClusterLog cap) := do
  let fitted ← fit_text text cap
  let len := fitted.utf8ByteSize
  if len ≤ cap then
    return {
      board_hash :=
        match origin with
        | .Arbiter => 0
        | .Node => board_hash
      level := level
      origin := origin
      text_len := UInt16.ofNat len
      text_buf := Vector.ofFn fun i => if i < len then fitted.toByteArray.data.getD i 0 else 0 }
  else none

/-- `ClusterLog::text`. -/
def text (log : ClusterLog cap) : String :=
  let n := min log.text_len.toNat cap
  (String.fromUTF8? ⟨log.text_buf.toArray.extract 0 n⟩).getD ""

end ClusterLog

/-! ## Where a text is cut -/

theorem fit_from_eq (text : String) (n : Nat) :
    fit_from text n = floor_char_boundary (as_bytes text) n := by
  induction n with
  | zero => rfl
  | succ n ih =>
    unfold fit_from floor_char_boundary
    rw [isValid_eq_boundary, ih]

/-- What `fit_len` measures is the longest prefix that fits. -/
theorem fit_len_longest (text : String) (cap : Nat) : ∃ fitted, LongestPrefix text cap fitted ∧
    fit_len text cap = fitted.utf8ByteSize ∧
    as_bytes fitted = (as_bytes text).take fitted.utf8ByteSize ∧
    str_to text (fit_len text cap) = some fitted := by
  obtain ⟨fitted, hlongest, hbytes⟩ := longest_prefix text cap
  obtain ⟨hbound, hle, -⟩ :=
    floor_char_boundary_spec (as_bytes text) (min (as_bytes text).length cap)
  have hfit : fit_len text cap =
      floor_char_boundary (as_bytes text) (min (as_bytes text).length cap) := by
    rw [fit_len, fit_from_eq, utf8ByteSize_eq]
  have hlen : fit_len text cap = fitted.utf8ByteSize := by
    rw [utf8ByteSize_eq, hbytes, List.length_take, hfit]
    exact (Nat.min_eq_left (Nat.le_trans hle (Nat.min_le_left _ _))).symm
  rw [← hfit] at hbytes hbound
  refine ⟨fitted, hlongest, hlen, by rw [← hlen, hbytes], ?_⟩
  unfold str_to
  rw [if_pos ((isValid_eq_boundary _ _).trans hbound)]
  apply fromUTF8_bytes
  apply ByteArray.ext
  apply Array.ext'
  rw [← as_bytes_eq, hbytes, as_bytes_eq, ByteArray.data_extract, Array.toList_extract]
  rfl

/-- Both helpers cut a text at the same place. -/
theorem fit_text_eq (text : String) (max : Nat) :
    fit_text text max = str_to text (fit_len text max) := by
  unfold fit_text
  by_cases hfits : text.utf8ByteSize ≤ max
  · obtain ⟨fitted, hlongest, -, -, hstr⟩ := fit_len_longest text max
    rw [utf8ByteSize_eq] at hfits
    rw [if_pos (by rwa [utf8ByteSize_eq]), hstr, hlongest.eq_self hfits]
  · rw [if_neg hfits, fit_len, Nat.min_eq_right (Nat.le_of_not_le hfits)]

/-! ## A text in a field -/

/-- The bytes of a text at the start of a field. -/
theorem field_bytes {cap n : Nat} {text fitted : String} (hn : n ≤ cap)
    (hlen : fitted.utf8ByteSize = n) (hbytes : as_bytes fitted = (as_bytes text).take n) :
    ByteArray.mk ((Vector.ofFn fun i : Fin cap =>
      if i < n then text.toByteArray.data.getD i 0 else 0).toArray.extract 0 n) =
      fitted.toByteArray := by
  have hsize : fitted.toByteArray.data.size = n := hlen
  have hget : ∀ i < n, fitted.toByteArray.data.getD i 0 = text.toByteArray.data.getD i 0 := by
    intro i hi
    have hat := congrArg (fun bytes : List UInt8 => bytes.getD i 0) hbytes
    simpa [as_bytes_eq, List.getD_eq_getElem?_getD, hi] using hat
  apply ByteArray.ext
  apply Array.ext
  · simp [hsize, hn]
  · intro i hi hi'
    have hin : i < n := hsize ▸ hi'
    have hread := hget i hin
    rw [Array.getD_eq_getD_getElem?, Array.getElem?_eq_getElem hi', Option.getD_some] at hread
    rw [hread]
    simp [hin]

section Fields

variable {cap : Nat} {text fitted : String}

/-- What `pack_into` leaves in the field. -/
theorem pack_into_field (hlongest : LongestPrefix text cap fitted) (hcap : cap ≤ 65535)
    (hlen : fit_len text cap = fitted.utf8ByteSize)
    (hbytes : as_bytes fitted = (as_bytes text).take fitted.utf8ByteSize) :
    (pack_into text cap).2 = fitted.utf8ByteSize ∧
    ByteArray.mk ((pack_into text cap).1.toArray.extract 0 fitted.utf8ByteSize) =
      fitted.toByteArray := by
  have hfits : fitted.utf8ByteSize ≤ cap := hlongest.size_le
  have hsmall : fitted.utf8ByteSize < 2 ^ 16 :=
    Nat.lt_of_le_of_lt (Nat.le_trans hfits hcap) (by decide)
  unfold pack_into u16_or_max
  dsimp only
  rw [hlen, if_pos hsmall]
  exact ⟨rfl, field_bytes hfits rfl hbytes⟩

/-- What `record` leaves in the field. -/
theorem record_field (hlongest : LongestPrefix text cap fitted) (hcap : cap ≤ 65535)
    (hstr : str_to text (fit_len text cap) = some fitted) (level : LogLevel) (origin : LogOrigin)
    (board_hash : HashedId) : ∃ log : ClusterLog cap,
      ClusterLog.record level origin board_hash text = some log ∧
      log.text_len.toNat = fitted.utf8ByteSize ∧
      ByteArray.mk (log.text_buf.toArray.extract 0 fitted.utf8ByteSize) = fitted.toByteArray := by
  have hfits : fitted.utf8ByteSize ≤ cap := hlongest.size_le
  have hsmall : fitted.utf8ByteSize < 2 ^ 16 :=
    Nat.lt_of_le_of_lt (Nat.le_trans hfits hcap) (by decide)
  have hwhole : as_bytes fitted = (as_bytes fitted).take fitted.utf8ByteSize := by
    rw [utf8ByteSize_eq, List.take_length]
  have hbytes := field_bytes hfits rfl hwhole
  unfold ClusterLog.record
  rw [fit_text_eq, hstr]
  dsimp only [Option.bind_eq_bind, Option.bind_some]
  rw [if_pos hfits]
  exact ⟨_, rfl, UInt16.toNat_ofNat_of_lt' hsmall, hbytes⟩

end Fields

/-- A text packed into a field of any capacity is read back as its longest prefix
    that fits and ends on a character boundary, by either pair of helpers. Nothing
    is cut out of range, and the strict reader accepts what has been packed. -/
theorem text_fields {cap : Nat} (hcap : cap ≤ 65535) (text : String) :
    ∃ fitted, LongestPrefix text cap fitted ∧ (text.utf8ByteSize ≤ cap → fitted = text) ∧
      String.Pos.Raw.isValid text ⟨fitted.utf8ByteSize⟩ = true ∧
      (pack_into text cap).2 = fitted.utf8ByteSize ∧
      String.fromUTF8? ⟨(pack_into text cap).1.toArray.extract 0 (pack_into text cap).2⟩ =
        some fitted ∧
      unpack (pack_into text cap).1 (pack_into text cap).2 = fitted ∧
      ∀ level origin board_hash, ∃ log : ClusterLog cap,
        ClusterLog.record level origin board_hash text = some log ∧
        String.fromUTF8? ⟨log.text_buf.toArray.extract 0 log.text_len.toNat⟩ = some fitted ∧
        log.text = fitted := by
  obtain ⟨fitted, hlongest, hlen, hbytes, hstr⟩ := fit_len_longest text cap
  have hfits : fitted.utf8ByteSize ≤ cap := hlongest.size_le
  obtain ⟨hpacked, hfield⟩ := pack_into_field hlongest hcap hlen hbytes
  refine ⟨fitted, hlongest, ?_, ?_, hpacked, ?_, ?_, ?_⟩
  · intro htext
    rw [utf8ByteSize_eq] at htext
    exact hlongest.eq_self htext
  · rw [isValid_eq_boundary, utf8ByteSize_eq]
    exact (is_char_boundary_iff text.toList _).mpr ⟨fitted.toList, hlongest.front, rfl⟩
  · rw [hpacked]
    exact fromUTF8_bytes hfield
  · rw [hpacked]
    apply unpack_of_bytes
    rw [Nat.min_eq_left hfits]
    exact hfield
  · intro level origin board_hash
    obtain ⟨log, hlog, htext_len, htext_buf⟩ :=
      record_field hlongest hcap hstr level origin board_hash
    refine ⟨log, hlog, ?_, ?_⟩
    · rw [htext_len]
      exact fromUTF8_bytes htext_buf
    · unfold ClusterLog.text
      rw [htext_len, Nat.min_eq_left hfits]
      exact congrArg (Option.getD · "") (fromUTF8_bytes htext_buf)

/-- A character of three bytes at the end of four bytes, and in a field of the bus. -/
theorem text_fields_four : 4 ≤ 65535 ∧ LOG_TEXT_CAP ≤ 65535 ∧
    (∃ fitted, LongestPrefix "ab\u3042" 4 fitted ∧
      unpack (pack_into "ab\u3042" 4).1 (pack_into "ab\u3042" 4).2 = fitted) ∧
    ∃ log : ClusterLog LOG_TEXT_CAP,
      ClusterLog.record .Info .Node 7 "ab\u3042" = some log ∧ log.text = "ab\u3042" := by
  refine ⟨by decide, by decide, ?_, ?_⟩
  · obtain ⟨fitted, hlongest, -, -, -, -, hunpack, -⟩ :=
      text_fields (by decide : 4 ≤ 65535) "ab\u3042"
    exact ⟨fitted, hlongest, hunpack⟩
  · obtain ⟨fitted, -, hfits, -, -, -, -, hlog⟩ :=
      text_fields (by decide : LOG_TEXT_CAP ≤ 65535) "ab\u3042"
    obtain ⟨log, hrecord, -, htext⟩ := hlog .Info .Node 7
    rw [hfits (by decide +kernel)] at htext
    exact ⟨log, hrecord, htext⟩

/-- The character is left out. -/
example : (ClusterLog.record .Info .Node 7 "ab\u3042" : Option (ClusterLog 4)).map
    ClusterLog.text = some "ab" := by
  decide +kernel

end Rl78Sim
