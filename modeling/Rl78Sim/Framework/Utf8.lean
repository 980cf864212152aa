import Mathlib.Data.List.Basic

/-! # UTF-8

    Texts and their bytes: where a character begins among the bytes, the longest
    prefix of a text that fits into a number of bytes, and the two ways to read
    bytes as a text. A strict reader refuses bytes that are not a text; a lossy
    one puts U+FFFD in place of every ill-formed sequence.
-/

namespace Utf8

/-- The bytes of characters. -/
def encode (chars : List Char) : List UInt8 := chars.flatMap String.utf8EncodeChar

/-- The bytes of a text. -/
def as_bytes (text : String) : List UInt8 := encode text.toList

/-- A byte that is no continuation of a character. -/
def is_utf8_char_boundary (byte : UInt8) : Bool := byte < 0x80 ∨ 0xC0 ≤ byte

/-- No character lies across the place `i`. -/
def is_char_boundary (bytes : List UInt8) (i : Nat) : Bool :=
  if i = 0 then true
  else
    match bytes[i]? with
    | none => i = bytes.length
    | some byte => is_utf8_char_boundary byte

/-- The last boundary that is not behind the place. -/
def floor_char_boundary (bytes : List UInt8) : Nat → Nat
  | 0 => 0
  | i + 1 => if is_char_boundary bytes (i + 1) then i + 1 else floor_char_boundary bytes i

/-- The strict reader. -/
def from_utf8 (bytes : List UInt8) : Option String := String.fromUTF8? bytes.toByteArray

/-- The character that the bytes begin with. -/
def first? (bytes : List UInt8) : Option Char := bytes.toByteArray.utf8DecodeChar? 0

/-- The second byte may follow the first of a character of three or four bytes. -/
def may_follow (first second : UInt8) : Bool :=
  if first = 0xE0 then 0xA0 ≤ second ∧ second ≤ 0xBF
  else if first = 0xED then 0x80 ≤ second ∧ second ≤ 0x9F
  else if first = 0xF0 then 0x90 ≤ second ∧ second ≤ 0xBF
  else if first = 0xF4 then 0x80 ≤ second ∧ second ≤ 0x8F
  else 0x80 ≤ second ∧ second ≤ 0xBF

/-- How many bytes one U+FFFD stands for: as many as a character could begin
    with, and one if none could. -/
def ill_formed_len (bytes : List UInt8) : Nat :=
  let first := bytes.getD 0 0
  if 0xE0 ≤ first ∧ first ≤ 0xF4 ∧ may_follow first (bytes.getD 1 0) then
    if 0xF0 ≤ first ∧ 0x80 ≤ bytes.getD 2 0 ∧ bytes.getD 2 0 ≤ 0xBF then 3 else 2
  else 1

/-- The characters of the lossy reader; the first bytes were read already. -/
def lossy : Nat → List UInt8 → List Char
  | _, [] => []
  | skip + 1, _ :: rest => lossy skip rest
  | 0, byte :: rest =>
    match first? (byte :: rest) with
    | some c => c :: lossy (c.utf8Size - 1) rest
    | none => '\uFFFD' :: lossy (ill_formed_len (byte :: rest) - 1) rest

/-- The lossy reader. -/
def from_utf8_lossy (bytes : List UInt8) : String := String.ofList (lossy 0 bytes)

example : from_utf8_lossy [0x61, 0xFF, 0x62] = "a\uFFFDb" := by decide +kernel

/-! ## The bytes of a character -/

theorem encode_nil : encode [] = [] := rfl

theorem encode_cons (c : Char) (chars : List Char) :
    encode (c :: chars) = String.utf8EncodeChar c ++ encode chars := rfl

theorem encode_append (first rest : List Char) :
    encode (first ++ rest) = encode first ++ encode rest :=
  List.flatMap_append

/-- The bytes of a text are those of its byte array. -/
theorem toByteArray_as_bytes (text : String) : (as_bytes text).toByteArray = text.toUTF8 := by
  rw [String.toUTF8_eq_toByteArray]
  conv_rhs => rw [← String.ofList_toList (s := text)]
  rw [String.toByteArray_ofList]
  rfl

theorem as_bytes_eq (text : String) : as_bytes text = text.toByteArray.data.toList := by
  rw [← String.toUTF8_eq_toByteArray, ← toByteArray_as_bytes, List.toList_data_toByteArray]

theorem utf8ByteSize_eq (text : String) : text.utf8ByteSize = (as_bytes text).length := by
  rw [as_bytes_eq, Array.length_toList]
  rfl

/-- An ASCII text has one byte a character. -/
theorem encode_ascii {chars : List Char} (h : ∀ c ∈ chars, c.toNat < 0x80) :
    encode chars = chars.map Char.toUInt8 := by
  induction chars with
  | nil => rfl
  | cons c chars ih =>
    have hsize : c.utf8Size = 1 := by
      rw [Char.utf8Size_eq_one_iff, UInt32.le_iff_toNat_le]
      exact Nat.le_of_lt_succ (h c List.mem_cons_self)
    rw [encode_cons, String.utf8EncodeChar_eq_singleton hsize,
      ih fun c' hc' => h c' (List.mem_cons_of_mem _ hc')]
    rfl

theorem continuation_not_boundary (byte : UInt8) :
    is_utf8_char_boundary (byte &&& 63 ||| 128) = false := by
  obtain ⟨bits⟩ := byte
  revert bits
  decide +kernel

theorem first_is_boundary (byte : UInt8) : is_utf8_char_boundary (byte &&& 31 ||| 192) = true ∧
    is_utf8_char_boundary (byte &&& 15 ||| 224) = true ∧
    is_utf8_char_boundary (byte &&& 7 ||| 240) = true := by
  obtain ⟨bits⟩ := byte
  revert bits
  decide +kernel

/-- A character has a first byte and continuations. -/
theorem encodeChar_shape (c : Char) : ∃ byte rest, String.utf8EncodeChar c = byte :: rest ∧
    is_utf8_char_boundary byte = true ∧ ∀ b ∈ rest, is_utf8_char_boundary b = false := by
  rcases c.utf8Size_eq with hsize | hsize | hsize | hsize
  · refine ⟨_, _, String.utf8EncodeChar_eq_singleton hsize, ?_, by simp⟩
    have hle := Char.utf8Size_eq_one_iff.mp hsize
    rw [UInt32.le_iff_toNat_le] at hle
    have hlt : c.val.toUInt8 < 0x80 := by
      rw [UInt8.lt_iff_toNat_lt, UInt32.toNat_toUInt8]
      exact Nat.lt_of_le_of_lt (Nat.mod_le _ _) (Nat.lt_succ_of_le hle)
    exact decide_eq_true (Or.inl hlt)
  · refine ⟨_, _, String.utf8EncodeChar_eq_cons_cons hsize, (first_is_boundary _).1, ?_⟩
    simp only [List.forall_mem_cons]
    exact ⟨continuation_not_boundary _, by simp⟩
  · refine ⟨_, _, String.utf8EncodeChar_eq_cons_cons_cons hsize, (first_is_boundary _).2.1, ?_⟩
    simp only [List.forall_mem_cons]
    exact ⟨continuation_not_boundary _, continuation_not_boundary _, by simp⟩
  · refine ⟨_, _, String.utf8EncodeChar_eq_cons_cons_cons_cons hsize,
      (first_is_boundary _).2.2, ?_⟩
    simp only [List.forall_mem_cons]
    exact ⟨continuation_not_boundary _, continuation_not_boundary _,
      continuation_not_boundary _, by simp⟩

/-! ## Boundaries -/

/-- A text begins at a boundary. -/
theorem boundary_at_start (first : List UInt8) (chars : List Char) (hpos : first ≠ []) :
    is_char_boundary (first ++ encode chars) first.length = true := by
  have hlength : first.length ≠ 0 := by simpa using hpos
  unfold is_char_boundary
  rw [if_neg hlength]
  cases chars with
  | nil => simp [encode_nil]
  | cons c chars =>
    obtain ⟨byte, rest, hbytes, hbyte, -⟩ := encodeChar_shape c
    rw [encode_cons, hbytes]
    simpa using hbyte

/-- The boundaries behind the first character are those of the other ones. -/
theorem is_char_boundary_behind (c : Char) (chars : List Char) (i : Nat) :
    is_char_boundary (encode (c :: chars)) ((String.utf8EncodeChar c).length + i) =
      is_char_boundary (encode chars) i := by
  rw [encode_cons]
  cases i with
  | zero => exact boundary_at_start _ _ String.utf8EncodeChar_ne_nil
  | succ i =>
    unfold is_char_boundary
    rw [if_neg (by omega), if_neg (by omega), List.getElem?_append_right (by omega),
      Nat.add_sub_cancel_left, List.length_append]
    simp

/-- No boundary lies inside a character. -/
theorem not_boundary_inside (c : Char) (chars : List Char) {i : Nat} (hi : i ≠ 0)
    (hlt : i < (String.utf8EncodeChar c).length) :
    is_char_boundary (encode (c :: chars)) i = false := by
  obtain ⟨byte, rest, hbytes, -, hrest⟩ := encodeChar_shape c
  obtain ⟨j, rfl⟩ := Nat.exists_eq_succ_of_ne_zero hi
  rw [hbytes, List.length_cons] at hlt
  have hj : j < rest.length := by omega
  unfold is_char_boundary
  rw [if_neg hi, encode_cons, hbytes, List.cons_append, Nat.succ_eq_add_one,
    List.getElem?_cons_succ, List.getElem?_append_left hj, List.getElem?_eq_getElem hj]
  exact hrest _ (List.getElem_mem hj)

/-- The boundaries are where a prefix of the text ends. -/
theorem is_char_boundary_iff (chars : List Char) : ∀ i, is_char_boundary (encode chars) i = true ↔
    ∃ front, front <+: chars ∧ (encode front).length = i := by
  induction chars with
  | nil =>
    intro i
    constructor
    · intro h
      refine ⟨[], List.prefix_refl [], ?_⟩
      by_contra hi
      have hpos : i ≠ 0 := fun h0 => hi h0.symm
      unfold is_char_boundary at h
      rw [if_neg hpos] at h
      exact hi (of_decide_eq_true h).symm
    · rintro ⟨front, hfront, rfl⟩
      rw [List.prefix_nil.mp hfront]
      rfl
  | cons c chars ih =>
    intro i
    constructor
    · intro h
      by_cases hi : i = 0
      · exact ⟨[], List.nil_prefix, hi.symm⟩
      · by_cases hlt : i < (String.utf8EncodeChar c).length
        · rw [not_boundary_inside c chars hi hlt] at h
          cases h
        · -- the place is a boundary of the text behind `c`
          obtain ⟨j, rfl⟩ := Nat.exists_eq_add_of_le (Nat.le_of_not_lt hlt)
          rw [is_char_boundary_behind] at h
          obtain ⟨front, hfront, hlength⟩ := (ih j).mp h
          refine ⟨c :: front, (List.prefix_cons_inj c).mpr hfront, ?_⟩
          rw [encode_cons, List.length_append, hlength]
    · rintro ⟨front, hfront, rfl⟩
      rcases List.prefix_cons_iff.mp hfront with rfl | ⟨front', rfl, hfront'⟩
      · rfl
      · rw [encode_cons c front', List.length_append, is_char_boundary_behind]
        exact (ih _).mpr ⟨front', hfront', rfl⟩

/-- A position is valid where no character is parted. -/
theorem isValid_eq_boundary (text : String) (n : Nat) :
    String.Pos.Raw.isValid text ⟨n⟩ = is_char_boundary (as_bytes text) n := by
  rw [Bool.eq_iff_iff, String.Pos.Raw.isValid_eq_true_iff,
    String.Pos.Raw.isValid_iff_exists_append, as_bytes, is_char_boundary_iff]
  constructor
  · rintro ⟨front, back, rfl, hn⟩
    refine ⟨front.toList, ⟨back.toList, String.toList_append.symm⟩, ?_⟩
    exact (utf8ByteSize_eq front).symm.trans (congrArg String.Pos.Raw.byteIdx hn).symm
  · rintro ⟨front, ⟨back, hback⟩, rfl⟩
    refine ⟨String.ofList front, String.ofList back, ?_, ?_⟩
    · rw [← String.ofList_append, hback, String.ofList_toList]
    · apply String.Pos.Raw.ext
      show (encode front).length = (String.ofList front).utf8ByteSize
      rw [utf8ByteSize_eq, as_bytes, String.toList_ofList]

theorem floor_char_boundary_spec (bytes : List UInt8) (i : Nat) :
    is_char_boundary bytes (floor_char_boundary bytes i) = true ∧
      floor_char_boundary bytes i ≤ i ∧
      ∀ j ≤ i, is_char_boundary bytes j = true → j ≤ floor_char_boundary bytes i := by
  induction i with
  | zero => exact ⟨rfl, Nat.le_refl 0, fun j hj _ => hj⟩
  | succ i ih =>
    unfold floor_char_boundary
    by_cases h : is_char_boundary bytes (i + 1) = true
    · rw [if_pos h]
      exact ⟨h, Nat.le_refl _, fun j hj _ => hj⟩
    · rw [if_neg h]
      obtain ⟨hbound, hle, hlast⟩ := ih
      refine ⟨hbound, by omega, ?_⟩
      intro j hj hjbound
      by_cases hlast' : j = i + 1
      · rw [hlast'] at hjbound
        exact absurd hjbound h
      · exact hlast j (by omega) hjbound

/-! ## The longest prefix that fits -/

/-- The longest prefix of the text whose bytes fit into the capacity. -/
structure LongestPrefix (text : String) (cap : Nat) (fitted : String) : Prop where
  front : fitted.toList <+: text.toList
  fits : (as_bytes fitted).length ≤ cap
  longest (other : String) : other.toList <+: text.toList → (as_bytes other).length ≤ cap →
    (as_bytes other).length ≤ (as_bytes fitted).length

/-- The text up to the last boundary inside the capacity. -/
theorem longest_prefix (text : String) (cap : Nat) : ∃ fitted, LongestPrefix text cap fitted ∧
    as_bytes fitted = (as_bytes text).take
      (floor_char_boundary (as_bytes text) (min (as_bytes text).length cap)) := by
  obtain ⟨hbound, hle, hlast⟩ :=
    floor_char_boundary_spec (as_bytes text) (min (as_bytes text).length cap)
  obtain ⟨front, hfront, hlength⟩ := (is_char_boundary_iff text.toList _).mp hbound
  obtain ⟨back, hback⟩ := hfront
  have hbytes : as_bytes (String.ofList front) = encode front := by
    unfold as_bytes
    rw [String.toList_ofList]
  refine ⟨String.ofList front, ⟨?_, ?_, ?_⟩, ?_⟩
  · rw [String.toList_ofList]
    exact ⟨back, hback⟩
  · rw [hbytes, hlength]
    omega
  · intro other hother hfits
    have hother_bound : is_char_boundary (as_bytes text) (as_bytes other).length = true :=
      (is_char_boundary_iff text.toList _).mpr ⟨other.toList, hother, rfl⟩
    have hother_le : (as_bytes other).length ≤ (as_bytes text).length := by
      obtain ⟨others, hothers⟩ := hother
      unfold as_bytes
      rw [← hothers, encode_append, List.length_append]
      omega
    rw [hbytes, hlength]
    exact hlast _ (by omega) hother_bound
  · rw [hbytes, ← hlength]
    unfold as_bytes
    rw [← hback, encode_append, List.take_left']
    rfl

theorem LongestPrefix.size_le {text fitted : String} {cap : Nat}
    (h : LongestPrefix text cap fitted) : fitted.utf8ByteSize ≤ cap := by
  rw [utf8ByteSize_eq]
  exact h.fits

/-- A text that fits is its own longest prefix. -/
theorem LongestPrefix.eq_self {text fitted : String} {cap : Nat}
    (h : LongestPrefix text cap fitted) (hfits : (as_bytes text).length ≤ cap) : fitted = text := by
  have hlongest := h.longest text (List.prefix_refl _) hfits
  obtain ⟨back, hback⟩ := h.front
  have hempty : encode back = [] := by
    unfold as_bytes at hlongest
    rw [← hback, encode_append, List.length_append] at hlongest
    exact List.length_eq_zero_iff.mp (by omega)
  cases back with
  | nil =>
    rw [List.append_nil] at hback
    exact String.toList_inj.mp hback
  | cons c back =>
    rw [encode_cons] at hempty
    exact absurd (List.append_eq_nil_iff.mp hempty).1 String.utf8EncodeChar_ne_nil

/-! ## Readers -/

theorem from_utf8_as_bytes (text : String) : from_utf8 (as_bytes text) = some text := by
  unfold from_utf8 String.fromUTF8?
  rw [toByteArray_as_bytes, String.toUTF8_eq_toByteArray, dif_pos text.isValidUTF8]
  exact congrArg some (String.toByteArray_inj.mp rfl)

theorem fromUTF8_bytes {bytes : ByteArray} {text : String} (h : bytes = text.toByteArray) :
    String.fromUTF8? bytes = some text := by
  rw [h, ← String.toUTF8_eq_toByteArray, ← toByteArray_as_bytes]
  exact from_utf8_as_bytes text

/-- Texts with the same bytes are the same. -/
theorem as_bytes_inj {text text' : String} (h : as_bytes text = as_bytes text') : text = text' := by
  have hread := from_utf8_as_bytes text
  rw [h, from_utf8_as_bytes] at hread
  exact (Option.some.inj hread).symm

theorem first?_encode_cons (c : Char) (chars : List Char) (bytes : List UInt8) :
    first? (encode (c :: chars) ++ bytes) = some c := by
  unfold first?
  rw [encode_cons, List.append_assoc, List.toByteArray_append]
  exact ByteArray.utf8DecodeChar?_utf8EncodeChar_append

/-- Bytes that were read already are passed over. -/
theorem lossy_skip (skipped bytes : List UInt8) :
    lossy skipped.length (skipped ++ bytes) = lossy 0 bytes := by
  induction skipped with
  | nil => rfl
  | cons byte skipped ih => exact ih

/-- The lossy reader reads a text as it is. -/
theorem from_utf8_lossy_as_bytes (text : String) : from_utf8_lossy (as_bytes text) = text := by
  have hall (chars : List Char) : lossy 0 (encode chars) = chars := by
    induction chars with
    | nil => rfl
    | cons c chars ih =>
      have hfirst := first?_encode_cons c chars []
      rw [List.append_nil] at hfirst
      obtain ⟨byte, rest, hbytes, -⟩ := encodeChar_shape c
      have hsize : c.utf8Size - 1 = rest.length := by
        rw [← String.length_utf8EncodeChar, hbytes]
        rfl
      rw [encode_cons, hbytes, List.cons_append] at hfirst ⊢
      unfold lossy
      rw [hfirst]
      show c :: lossy (c.utf8Size - 1) (rest ++ encode chars) = _
      rw [hsize, lossy_skip, ih]
  unfold from_utf8_lossy as_bytes
  rw [hall, String.ofList_toList]

end Utf8
