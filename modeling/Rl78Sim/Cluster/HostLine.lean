import Mathlib.Data.List.Induction
import Rl78Sim.Framework.FlatJson
import Rl78Sim.Framework.Utf8

/-! # Host Command Lines

    The commands that the server writes to the arbiter, one JSON object a line,
    and the hex form of the ids in them. The JSON reader is a library: a
    parameter that reads at least the flat objects, which is what the lines are.
-/

namespace Rl78Sim.HostLine

open FlatJson Utf8

/-! ## Ids in hex -/

/-- The last `width` hex digits of a number. -/
def hex_digits : Nat → Nat → List Char
  | 0, _ => []
  | width + 1, v => hex_digits width (v / 16) ++ [(v % 16).digitChar]

/-- `u64::to_hex`. -/
def to_hex (v : UInt64) : String := String.ofList (hex_digits 16 v.toNat)

/-- `to_digit`, of a byte and the radix 16. -/
def to_digit (byte : UInt8) : Option Nat :=
  if 0x30 ≤ byte ∧ byte ≤ 0x39 then some (byte.toNat - 0x30)
  else if 0x61 ≤ byte ∧ byte ≤ 0x66 then some (byte.toNat - 0x57)
  else if 0x41 ≤ byte ∧ byte ≤ 0x46 then some (byte.toNat - 0x37)
  else none

/-- The loop of `u64::from_str_radix`. -/
def from_digits : List UInt8 → Nat → Option Nat
  | [], v => some v
  | byte :: bytes, v =>
    match to_digit byte with
    | none => none
    | some digit =>
      if v * 16 + digit < 2 ^ 64 then from_digits bytes (v * 16 + digit) else none

/-- `u64::from_str_radix`, of the radix 16. -/
def from_str_radix (bytes : List UInt8) : Option UInt64 :=
  match bytes with
  | [] => none
  | [0x2B] | [0x2D] => none
  | 0x2B :: bytes => (from_digits bytes 0).map UInt64.ofNat
  | bytes => (from_digits bytes 0).map UInt64.ofNat

/-- A digit, or a small letter up to `f`. -/
def is_lower_hex (byte : UInt8) : Bool :=
  (0x30 ≤ byte ∧ byte ≤ 0x39) ∨ (0x61 ≤ byte ∧ byte ≤ 0x66)

/-- `u64::from_hex`. -/
def from_hex (text : String) : Option UInt64 :=
  if (as_bytes text).length ≠ 16 ∨ ¬ (as_bytes text).all is_lower_hex then none
  else from_str_radix (as_bytes text)

/-! ## Lines -/

/-- `HostCommand`. -/
inductive HostCommand where
  | Start (until_ns : Option UInt64)
  | Stop
  | Reset
  | Shutdown
  | Step (board_hash : UInt64)
  deriving DecidableEq

/-- `CmdLine`. -/
structure CmdLine where
  cmd : String
  until_ns : Option UInt64
  board_hash : Option UInt64
  deriving DecidableEq

/-- An `Option<u64>`. -/
def read_u64 : Json → Option (Option UInt64)
  | .null => some none
  | .nat n => if n < 2 ^ 64 then some (some (UInt64.ofNat n)) else none
  | _ => none

/-- An `Option<HashedId<u64>>`. -/
def read_hash : Json → Option (Option UInt64)
  | .null => some none
  | .str s => (from_hex s).map some
  | _ => none

/-- A string. -/
def read_str : Json → Option String
  | .str s => some s
  | _ => none

/-- The fields of `CmdLine` that were read so far. -/
structure Fields where
  cmd : Option String
  until_ns : Option (Option UInt64)
  board_hash : Option (Option UInt64)

/-- One member of an object: a field must not come twice, and others are
    ignored. -/
def Fields.read (fields : Fields) : String × Json → Option Fields
  | (key, v) =>
    if key = "cmd" then
      if fields.cmd.isSome then none
      else (read_str v).map fun cmd => { fields with cmd := some cmd }
    else if key = "until_ns" then
      if fields.until_ns.isSome then none
      else (read_u64 v).map fun until_ns => { fields with until_ns := some until_ns }
    else if key = "board_hash" then
      if fields.board_hash.isSome then none
      else (read_hash v).map fun board_hash => { fields with board_hash := some board_hash }
    else some fields

/-- `CmdLine::deserialize`: from an object, or from an array with the fields in
    order. The last two may be left out. -/
def CmdLine.deserialize : Json → Option CmdLine
  | .obj members =>
    (members.foldlM Fields.read ⟨none, none, none⟩).bind fun fields =>
      fields.cmd.map fun cmd =>
        ⟨cmd, fields.until_ns.getD none, fields.board_hash.getD none⟩
  | .arr [cmd] => (read_str cmd).map fun cmd => ⟨cmd, none, none⟩
  | .arr [cmd, until_ns] => do return ⟨← read_str cmd, ← read_u64 until_ns, none⟩
  | .arr [cmd, until_ns, board_hash] => do
    return ⟨← read_str cmd, ← read_u64 until_ns, ← read_hash board_hash⟩
  | _ => none

/-- `char::is_whitespace`. -/
def is_whitespace (c : Char) : Bool :=
  c.toNat ∈ [0x20, 0x85, 0xA0, 0x1680, 0x2028, 0x2029, 0x202F, 0x205F, 0x3000] ∨
    (0x09 ≤ c.toNat ∧ c.toNat ≤ 0x0D) ∨ (0x2000 ≤ c.toNat ∧ c.toNat ≤ 0x200A)

/-- `str::trim`. -/
def trim (text : String) : String :=
  String.ofList ((text.toList.dropWhile is_whitespace).reverse.dropWhile is_whitespace).reverse

namespace HostCommand

/-- What `parse` makes of a line that is a `CmdLine`. -/
def of_line (parsed : CmdLine) : Option HostCommand :=
  if parsed.cmd = "start" then some (.Start parsed.until_ns)
  else if parsed.cmd = "stop" then some .Stop
  else if parsed.cmd = "reset" then some .Reset
  else if parsed.cmd = "shutdown" then some .Shutdown
  else if parsed.cmd = "step" then parsed.board_hash.map .Step
  else none

/-- What `parse` makes of a bare word. -/
def of_word (line : String) : Option HostCommand :=
  if line = "start" then some (.Start none)
  else if line = "stop" then some .Stop
  else if line = "reset" then some .Reset
  else if line = "shutdown" then some .Shutdown
  else none

/-- `HostCommand::parse`, over the JSON reader. -/
def parse (from_str : String → Option Json) (line : String) : Option HostCommand :=
  let line := trim line
  if line.isEmpty then none
  else
    match (from_str line).bind CmdLine.deserialize with
    | some parsed => of_line parsed
    | none => of_word line

/-- `HostCommand::to_line`. -/
def to_line : HostCommand → String
  | .Start (some until_ns) =>
    "\x7b\"cmd\":\"start\",\"until_ns\":" ++ toString until_ns.toNat ++ "\x7d\n"
  | .Start none => "\x7b\"cmd\":\"start\"\x7d\n"
  | .Stop => "\x7b\"cmd\":\"stop\"\x7d\n"
  | .Reset => "\x7b\"cmd\":\"reset\"\x7d\n"
  | .Shutdown => "\x7b\"cmd\":\"shutdown\"\x7d\n"
  | .Step board_hash =>
    "\x7b\"cmd\":\"step\",\"board_hash\":\"" ++ to_hex board_hash ++ "\"\x7d\n"

end HostCommand

/-- What is relied on of the JSON reader: it reads the compact text of an object
    whose members are scalars with nothing to escape. -/
structure ReadsJson (from_str : String → Option Json) : Prop where
  object (members : List (String × Json)) : (∀ m ∈ members, Plain m.1 ∧ m.2.Simple) →
    from_str (String.ofList (object_text members)) = some (.obj members)

/-! ## The hex form -/

/-- A hex digit as a byte. -/
theorem digitChar_byte : ∀ d < 16, d.digitChar.toNat < 0x80 ∧ plain d.digitChar = true ∧
    is_lower_hex d.digitChar.toUInt8 = true ∧ to_digit d.digitChar.toUInt8 = some d := by
  decide

theorem lower_hex_digit {byte : UInt8} (h : is_lower_hex byte = true) :
    ∃ d < 16, byte = d.digitChar.toUInt8 := by
  obtain ⟨bits⟩ := byte
  revert bits
  decide +kernel

/-- Every digit of a number is a hex digit. -/
theorem hex_digits_digitChar (width : Nat) : ∀ v, ∀ c ∈ hex_digits width v,
    ∃ d < 16, c = d.digitChar := by
  induction width with
  | zero =>
    intro v c hc
    cases hc
  | succ width ih =>
    intro v c hc
    rcases List.mem_append.mp hc with hc | hc
    · exact ih _ c hc
    · exact ⟨v % 16, Nat.mod_lt _ (by decide), List.mem_singleton.mp hc⟩

theorem length_hex_digits (width : Nat) : ∀ v, (hex_digits width v).length = width := by
  induction width with
  | zero =>
    intro v
    rfl
  | succ width ih =>
    intro v
    rw [hex_digits, List.length_append, ih]
    rfl

/-- The bytes of an id. -/
theorem as_bytes_to_hex (v : UInt64) :
    as_bytes (to_hex v) = (hex_digits 16 v.toNat).map Char.toUInt8 := by
  unfold as_bytes to_hex
  rw [String.toList_ofList]
  apply encode_ascii
  intro c hc
  obtain ⟨d, hd, rfl⟩ := hex_digits_digitChar 16 _ c hc
  exact (digitChar_byte d hd).1

theorem from_digits_append (first rest : List UInt8) : ∀ v,
    from_digits (first ++ rest) v = (from_digits first v).bind (from_digits rest) := by
  induction first with
  | nil =>
    intro v
    rfl
  | cons byte first ih =>
    intro v
    rw [List.cons_append, from_digits, from_digits]
    cases to_digit byte with
    | none => rfl
    | some digit =>
      by_cases hfits : v * 16 + digit < 2 ^ 64
      · simp only [if_pos hfits]
        exact ih _
      · simp only [if_neg hfits]
        rfl

/-- One more digit. -/
theorem from_digits_concat {bytes : List UInt8} {v d : Nat} (h : from_digits bytes 0 = some v)
    (hd : d < 16) (hfits : v * 16 + d < 2 ^ 64) :
    from_digits (bytes ++ [d.digitChar.toUInt8]) 0 = some (v * 16 + d) := by
  rw [from_digits_append, h, Option.bind_some, from_digits, (digitChar_byte d hd).2.2.2]
  simp only [if_pos hfits]
  rfl

/-- The digits of a number give it back. -/
theorem from_digits_hex (width : Nat) (hwidth : width ≤ 16) : ∀ v < 16 ^ width,
    from_digits ((hex_digits width v).map Char.toUInt8) 0 = some v := by
  induction width with
  | zero =>
    intro v hv
    have hzero : v = 0 := by simpa using hv
    rw [hzero]
    rfl
  | succ width ih =>
    intro v hv
    have hpow : (16 : Nat) ^ (width + 1) ≤ 16 ^ 16 := Nat.pow_le_pow_right (by decide) hwidth
    rw [Nat.pow_succ] at hv hpow
    have hrest := ih (by omega) (v / 16) (by omega)
    have hv' : v / 16 * 16 + v % 16 = v := Nat.div_add_mod' v 16
    rw [hex_digits, List.map_append, List.map_singleton,
      from_digits_concat hrest (Nat.mod_lt _ (by decide)) (by omega), hv']

/-- Digits of the lower case are those of a number. -/
theorem hex_digits_of_bytes (bytes : List UInt8) : (∀ b ∈ bytes, is_lower_hex b = true) →
    bytes.length ≤ 16 → ∃ v < 16 ^ bytes.length, from_digits bytes 0 = some v ∧
      bytes = (hex_digits bytes.length v).map Char.toUInt8 := by
  induction bytes using List.reverseRecOn with
  | nil =>
    intro _ _
    exact ⟨0, by decide, rfl, rfl⟩
  | append_singleton bytes byte ih =>
    intro hlower hlength
    rw [List.length_append, List.length_singleton] at hlength ⊢
    obtain ⟨v, hv, hread, hbytes⟩ :=
      ih (fun b hb => hlower b (List.mem_append_left _ hb)) (by omega)
    obtain ⟨d, hd, rfl⟩ := lower_hex_digit (hlower byte (by simp))
    have hpow : (16 : Nat) ^ (bytes.length + 1) ≤ 16 ^ 16 :=
      Nat.pow_le_pow_right (by decide) hlength
    rw [Nat.pow_succ] at hpow ⊢
    refine ⟨v * 16 + d, by omega, from_digits_concat hread hd (by omega), ?_⟩
    have hdiv : (v * 16 + d) / 16 = v := by omega
    have hmod : (v * 16 + d) % 16 = d := by omega
    rw [hex_digits, hdiv, hmod, List.map_append, List.map_singleton, ← hbytes]

/-- Sixteen digits of the lower case have no sign. -/
theorem from_str_radix_lower {bytes : List UInt8} (hlower : ∀ b ∈ bytes, is_lower_hex b = true)
    (hlength : bytes.length = 16) :
    from_str_radix bytes = (from_digits bytes 0).map UInt64.ofNat := by
  unfold from_str_radix
  split
  · cases hlength
  · cases hlength
  · cases hlength
  · exact absurd (hlower _ List.mem_cons_self) (by decide)
  · rfl

/-- A text is read as an id exactly if it is the hex form of the id. -/
theorem from_hex_eq_some {s : String} {v : UInt64} : from_hex s = some v ↔ s = to_hex v := by
  unfold from_hex
  constructor
  · intro h
    split at h
    · cases h
    · rename_i hform
      obtain ⟨hlength, hall⟩ := not_or.mp hform
      have hlength : (as_bytes s).length = 16 := not_not.mp hlength
      have hlower := List.all_eq_true.mp (not_not.mp hall)
      -- sixteen lower-case digits are those of the number that they read as
      obtain ⟨n, hn, hread, hbytes⟩ := hex_digits_of_bytes _ hlower (Nat.le_of_eq hlength)
      rw [from_str_radix_lower hlower hlength, hread] at h
      have hv : UInt64.ofNat n = v := Option.some.inj h
      have hnat : v.toNat = n := by
        rw [← hv, UInt64.toNat_ofNat']
        apply Nat.mod_eq_of_lt
        rwa [hlength] at hn
      apply as_bytes_inj
      rw [as_bytes_to_hex, hnat, hbytes, hlength]
  · rintro rfl
    have hlength : (as_bytes (to_hex v)).length = 16 := by
      rw [as_bytes_to_hex, List.length_map, length_hex_digits]
    have hlower : ∀ b ∈ as_bytes (to_hex v), is_lower_hex b = true := by
      rw [as_bytes_to_hex]
      intro b hb
      obtain ⟨c, hc, rfl⟩ := List.mem_map.mp hb
      obtain ⟨d, hd, rfl⟩ := hex_digits_digitChar 16 _ c hc
      exact (digitChar_byte d hd).2.2.1
    have hread : from_digits (as_bytes (to_hex v)) 0 = some v.toNat := by
      rw [as_bytes_to_hex]
      exact from_digits_hex 16 (Nat.le_refl _) _ v.toNat_lt
    rw [if_neg (by simp [hlength, List.all_eq_true.mpr hlower]),
      from_str_radix_lower hlower hlength, hread, Option.map_some, UInt64.ofNat_toNat]

/-! ## The lines -/

namespace HostCommand

/-- The members of the object of a line. -/
def members : HostCommand → List (String × Json)
  | .Start (some until_ns) => [("cmd", .str "start"), ("until_ns", .nat until_ns.toNat)]
  | .Start none => [("cmd", .str "start")]
  | .Stop => [("cmd", .str "stop")]
  | .Reset => [("cmd", .str "reset")]
  | .Shutdown => [("cmd", .str "shutdown")]
  | .Step board_hash => [("cmd", .str "step"), ("board_hash", .str (to_hex board_hash))]

theorem plain_to_hex (v : UInt64) : Plain (to_hex v) := by
  intro c hc
  unfold to_hex at hc
  rw [String.toList_ofList] at hc
  obtain ⟨d, hd, rfl⟩ := hex_digits_digitChar 16 _ c hc
  exact (digitChar_byte d hd).2.1

theorem members_simple (c : HostCommand) : ∀ m ∈ c.members, Plain m.1 ∧ m.2.Simple := by
  have hplain : Plain "cmd" ∧ Plain "until_ns" ∧ Plain "board_hash" ∧ Plain "start" ∧
      Plain "stop" ∧ Plain "reset" ∧ Plain "shutdown" ∧ Plain "step" := by decide
  obtain ⟨hcmd, huntil, hhash, hstart, hstop, hreset, hshutdown, hstep⟩ := hplain
  cases c with
  | Start until_ns =>
    cases until_ns with
    | none => simp [members, hcmd, Json.Simple, hstart]
    | some until_ns =>
      simp only [members, List.forall_mem_cons]
      exact ⟨⟨hcmd, hstart⟩, ⟨huntil, until_ns.toNat_lt⟩, by simp⟩
  | Stop => simp [members, hcmd, Json.Simple, hstop]
  | Reset => simp [members, hcmd, Json.Simple, hreset]
  | Shutdown => simp [members, hcmd, Json.Simple, hshutdown]
  | Step board_hash =>
    simp only [members, List.forall_mem_cons]
    exact ⟨⟨hcmd, hstep⟩, ⟨hhash, plain_to_hex board_hash⟩, by simp⟩

/-- A line is the text of its object, and a newline. -/
theorem to_line_text (c : HostCommand) :
    c.to_line = String.ofList (object_text c.members ++ ['\n']) := by
  apply String.toList_inj.mp
  rw [String.toList_ofList]
  cases c with
  | Start until_ns =>
    cases until_ns with
    | none => decide +kernel
    | some until_ns =>
      show ("\x7b\"cmd\":\"start\",\"until_ns\":" ++ toString until_ns.toNat ++ "\x7d\n").toList = _
      rw [String.toList_append, String.toList_append, Nat.toString_eq_ofList_toDigits,
        String.toList_ofList]
      simp only [members, object_text, member_text, rest_text, scalar_text, string_text]
      generalize Nat.toDigits 10 until_ns.toNat = digits
      simp
  | Stop => decide +kernel
  | Reset => decide +kernel
  | Shutdown => decide +kernel
  | Step board_hash =>
    show ("\x7b\"cmd\":\"step\",\"board_hash\":\"" ++ to_hex board_hash ++ "\"\x7d\n").toList = _
    rw [String.toList_append, String.toList_append]
    simp only [members, object_text, member_text, rest_text, scalar_text, string_text]
    generalize (to_hex board_hash).toList = digits
    simp

/-- Nothing but the newline is trimmed. -/
theorem trim_line (members : List (String × Json)) :
    trim (String.ofList (object_text members ++ ['\n'])) = String.ofList (object_text members) := by
  obtain ⟨body, hbody⟩ := object_text_braces members
  have hopen : is_whitespace '{' = false := by decide
  have hclose : is_whitespace '}' = false := by decide
  have hnewline : is_whitespace '\n' = true := by decide
  unfold trim
  rw [String.toList_ofList, hbody, List.cons_append, List.cons_append, List.dropWhile_cons,
    if_neg (by simp [hopen])]
  congr 1
  simp [hclose, hnewline]

/-- The fields of a line. -/
theorem deserialize_members (c : HostCommand) :
    (CmdLine.deserialize (.obj c.members)).bind of_line = some c := by
  cases c with
  | Start until_ns =>
    cases until_ns with
    | none => rfl
    | some until_ns =>
      have hread : read_u64 (.nat until_ns.toNat) = some (some until_ns) := by
        show (if until_ns.toNat < 2 ^ 64 then some (some (UInt64.ofNat until_ns.toNat)) else none) =
          some (some until_ns)
        rw [if_pos until_ns.toNat_lt, UInt64.ofNat_toNat]
      simp [CmdLine.deserialize, members, Fields.read, read_str, hread, of_line]
  | Stop => rfl
  | Reset => rfl
  | Shutdown => rfl
  | Step board_hash =>
    have hread : read_hash (.str (to_hex board_hash)) = some (some board_hash) := by
      show (from_hex (to_hex board_hash)).map some = _
      rw [from_hex_eq_some.mpr rfl]
      rfl
    simp [CmdLine.deserialize, members, Fields.read, read_str, hread, of_line]

/-- The arbiter reads the command that the server wrote. -/
theorem parse_to_line {from_str : String → Option Json} (h : ReadsJson from_str)
    (c : HostCommand) : parse from_str c.to_line = some c := by
  obtain ⟨body, hbody⟩ := object_text_braces c.members
  have hread := h.object c.members c.members_simple
  have hcommand := deserialize_members c
  unfold parse
  rw [to_line_text, trim_line]
  dsimp only
  have hnonempty : ¬ (String.ofList (object_text c.members)).isEmpty = true := by
    rw [hbody]
    simp
  rw [if_neg hnonempty, hread, Option.bind_some]
  cases hparsed : CmdLine.deserialize (.obj c.members) with
  | none =>
    rw [hparsed] at hcommand
    cases hcommand
  | some parsed =>
    rw [hparsed] at hcommand
    exact hcommand

end HostCommand

/-- Every command is read back from its line, no two commands share a line, and
    the hex form of an id is the only text that is read as the id. -/
theorem host_line_codec {from_str : String → Option Json} (h : ReadsJson from_str) :
    (∀ c, HostCommand.parse from_str c.to_line = some c) ∧
      (∀ c c' : HostCommand, c.to_line = c'.to_line → c = c') ∧
      ∀ s v, from_hex s = some v ↔ s = to_hex v := by
  refine ⟨HostCommand.parse_to_line h, ?_, fun s v => from_hex_eq_some⟩
  intro c c' hline
  have hparse := HostCommand.parse_to_line h c
  rw [hline, HostCommand.parse_to_line h c'] at hparse
  exact (Option.some.inj hparse).symm

theorem read_object_reads : ReadsJson read_object := ⟨fun _ hsimple => read_object_text hsimple⟩

theorem host_line_codec_flat : (∀ c, HostCommand.parse read_object c.to_line = some c) ∧
    (∀ c c' : HostCommand, c.to_line = c'.to_line → c = c') ∧
    ∀ s v, from_hex s = some v ↔ s = to_hex v :=
  host_line_codec read_object_reads

example : from_hex "+00000000000001f" = none ∧ from_hex "000000000000001F" = none ∧
    from_hex "000000000000001f" = some 31 := by decide +kernel

end Rl78Sim.HostLine
