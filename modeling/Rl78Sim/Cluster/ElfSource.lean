import Rl78Sim.Framework.Base64

/-! # Firmware Sources

    What an `elf` string of a topology names: inline Base64, an HTTP or a file URL,
    or a path. The first scheme of the string decides. The URL parser and the Base64
    engine are libraries and are parameters; a string is looked at by its characters,
    since every byte that a check tells apart is a character of its own. -/

namespace Rl78Sim

namespace ElfSource

/-- `MAX_FIRMWARE_BYTES`. -/
def max_firmware_bytes : Nat := 32 * 1024 * 1024

/-- `ElfSourceError`: its messages, each with what it is about. -/
inductive ElfSourceError where
  | LocalSource
  | UnsupportedScheme (scheme : String)
  | EmptyPath
  | InvalidFileUrl (err : String)
  | NotLocal
  | InvalidHttpUrl (err : String)
  | NotHttp (scheme : String)
  | MissingHost
  | OutsideAlphabet
  | EmptyPayload
  | TooLarge (label : String) (limit : Nat)
  | InvalidBase64 (err : String)
  | EmptyFirmware
  deriving DecidableEq

namespace ElfSourceError

/-- The text of the error. -/
def message : ElfSourceError → String
  | LocalSource => "elf must be http(s):// or base64: (embed local files on the client)"
  | UnsupportedScheme scheme => "unsupported elf URL scheme '" ++ scheme ++
      "' (use a filesystem path, file://, http(s)://, or base64:)"
  | EmptyPath => "elf path must not be empty"
  | InvalidFileUrl err => "invalid file elf URL: " ++ err
  | NotLocal => "elf file URL is not a local path"
  | InvalidHttpUrl err => "invalid http elf URL: " ++ err
  | NotHttp scheme => "unsupported elf URL scheme '" ++ scheme ++ "'"
  | MissingHost => "http elf URL is missing a host"
  | OutsideAlphabet => "elf base64 payload contains a character outside standard base64"
  | EmptyPayload => "elf base64 payload must not be empty"
  | TooLarge label limit => "firmware from " ++ label ++ " exceeds " ++ toString limit ++ " bytes"
  | InvalidBase64 err => "invalid base64 elf: " ++ err
  | EmptyFirmware => "elf base64 payload decoded to empty firmware"

end ElfSourceError

/-- `Kind`. -/
inductive Kind where
  | Path (path : String)
  | File (spec : String)
  | Http (spec : String)
  | Base64 (payload : List Char)
  deriving DecidableEq

/-- The `url` crate: what is asked of a parsed URL. -/
structure UrlParser where
  Url : Type
  parse : String → Except String Url
  scheme : Url → String
  has_host : Url → Bool
  to_file_path : Url → Option String

/-! ### Which source -/

/-- `str::split_once` at a character. -/
def split_once (at_ : Char) : List Char → Option (List Char × List Char)
  | [] => none
  | c :: rest =>
      if c = at_ then some ([], rest)
      else (split_once at_ rest).map fun (before, rest) => (c :: before, rest)

/-- The characters of a scheme. -/
def is_scheme_char (c : Char) : Bool := c.isAlphanum || c == '+' || c == '-' || c == '.'

/-- `scheme_name`. -/
def scheme_name (spec : List Char) : Option (List Char) :=
  match split_once ':' spec with
  | none => none
  | some (scheme, rest) =>
      if scheme.isEmpty || !"//".toList.isPrefixOf rest then none
      else if scheme.all is_scheme_char then some scheme else none

/-- `eq_ignore_ascii_case`. -/
def eq_ignore_ascii_case (a b : List Char) : Bool := a.map Char.toLower == b.map Char.toLower

/-- `classify`. -/
def classify (spec : String) : Except ElfSourceError Kind :=
  match spec.toList.dropPrefix? "base64:".toList with
  | some payload => .ok (.Base64 payload)
  | none =>
      match scheme_name spec.toList with
      | none => .ok (.Path spec)
      | some scheme =>
          if eq_ignore_ascii_case scheme "http".toList ||
              eq_ignore_ascii_case scheme "https".toList then .ok (.Http spec)
          else if eq_ignore_ascii_case scheme "file".toList then .ok (.File spec)
          else .error (.UnsupportedScheme (String.ofList scheme))

/-! ### Base64 -/

/-- `is_ascii_whitespace`. -/
def is_ascii_whitespace (c : Char) : Bool :=
  c == ' ' || c == '\t' || c == '\n' || c == '\x0c' || c == '\r'

/-- `is_base64_byte`. -/
def is_base64_byte (c : Char) : Bool := c.isAlphanum || c == '+' || c == '/' || c == '='

/-- `max_encoded_len`. -/
def max_encoded_len (limit : Nat) : Nat := (limit + 2) / 3 * 4

/-- The loop of `decode_base64`: the payload without whitespace. -/
def strip : List Char → Except ElfSourceError (List Char)
  | [] => .ok []
  | c :: rest =>
      if is_ascii_whitespace c then strip rest
      else if !is_base64_byte c then .error .OutsideAlphabet
      else do return c :: (← strip rest)

section libraries

-- `Url`, and `STANDARD.decode`.
variable (url : UrlParser) (standard_decode : List Char → Except String (List UInt8))

/-- `decode_base64`. -/
def decode_base64 (payload : List Char) (limit : Nat) : Except ElfSourceError (List UInt8) := do
  let stripped ← strip payload
  if stripped.isEmpty then throw .EmptyPayload
  if max_encoded_len limit < stripped.length then throw (.TooLarge "base64" limit)
  let bytes ← (standard_decode stripped).mapError .InvalidBase64
  if bytes.isEmpty then throw .EmptyFirmware
  if limit < bytes.length then throw (.TooLarge "base64" limit)
  return bytes

/-! ### Checks -/

/-- `parse_http_url`. -/
def parse_http_url (spec : String) : Except ElfSourceError url.Url := do
  let u ← (url.parse spec).mapError .InvalidHttpUrl
  if url.scheme u ≠ "http" ∧ url.scheme u ≠ "https" then throw (.NotHttp (url.scheme u))
  if !url.has_host u then throw .MissingHost
  return u

/-- `file_url_path`. -/
def file_url_path (spec : String) : Except ElfSourceError String := do
  let u ← (url.parse spec).mapError .InvalidFileUrl
  match url.to_file_path u with
  | some path => return path
  | none => throw .NotLocal

/-- `check_spec`. -/
def check_spec (spec : String) : Except ElfSourceError Unit := do
  match ← classify spec with
  | .Path path => if path.isEmpty then throw .EmptyPath
  | .File spec =>
      let _ ← file_url_path url spec
  | .Http spec =>
      let _ ← parse_http_url url spec
  | .Base64 payload =>
      let _ ← decode_base64 standard_decode payload max_firmware_bytes

/-- `check_http_create_spec`. -/
def check_http_create_spec (spec : String) : Except ElfSourceError Unit := do
  match ← classify spec with
  | .Http _ | .Base64 _ => check_spec url standard_decode spec
  | .Path _ | .File _ => throw .LocalSource

end libraries

/-! ### What is recognised -/

/-- A string that begins with `base64:` is inline Base64, and no other one is. -/
theorem classify_base64_iff {spec : String} {payload : List Char} :
    classify spec = .ok (.Base64 payload) ↔ spec.toList = "base64:".toList ++ payload := by
  unfold classify
  cases hdrop : spec.toList.dropPrefix? "base64:".toList with
  | some payload' =>
    obtain ⟨lead, heq, hlead⟩ := List.dropPrefix?_eq_some_iff.mp hdrop
    rw [eq_of_beq hlead] at heq
    rw [heq, List.append_right_inj]
    constructor
    · intro h
      cases h
      rfl
    · intro h
      rw [h]
  | none =>
    -- Without that beginning every branch names another kind.
    constructor
    · intro h
      dsimp only at h
      split at h
      · cases h
      · split at h
        · cases h
        · split at h <;> cases h
    · intro h
      have hsome : spec.toList.dropPrefix? "base64:".toList = some payload :=
        List.dropPrefix?_eq_some_iff.mpr ⟨_, h, beq_self_eq_true _⟩
      rw [hdrop] at hsome
      cases hsome

theorem split_once_append {at_ : Char} {before rest : List Char} (h : at_ ∉ before) :
    split_once at_ (before ++ at_ :: rest) = some (before, rest) := by
  induction before with
  | nil => simp [split_once]
  | cons c before ih =>
    have hc : c ≠ at_ := fun heq => h (heq ▸ List.mem_cons_self)
    have hbefore : at_ ∉ before := fun hmem => h (List.mem_cons_of_mem _ hmem)
    rw [List.cons_append, split_once, if_neg hc, ih hbefore]
    rfl

/-- The scheme of `scheme://...`. -/
theorem scheme_name_append {scheme rest : List Char} (hne : scheme ≠ [])
    (hchars : ∀ c ∈ scheme, is_scheme_char c = true) :
    scheme_name (scheme ++ "://".toList ++ rest) = some scheme := by
  -- A colon is no character of a scheme, so the first colon of the string ends it.
  have hcolon : ':' ∉ scheme := fun h => absurd (hchars _ h) (by decide)
  have hsplit : split_once ':' (scheme ++ "://".toList ++ rest) =
      some (scheme, "//".toList ++ rest) := by
    rw [List.append_assoc]
    exact split_once_append hcolon
  unfold scheme_name
  rw [hsplit]
  have hall : scheme.all is_scheme_char = true := List.all_eq_true.mpr hchars
  simp [hne, hall]

/-- A string with an HTTP scheme in any case names an HTTP URL. -/
theorem classify_http {spec : String} {scheme rest : List Char}
    (hspec : spec.toList = scheme ++ "://".toList ++ rest)
    (hchars : ∀ c ∈ scheme, is_scheme_char c = true)
    (hhttp : scheme.map Char.toLower = "http".toList ∨ scheme.map Char.toLower = "https".toList) :
    classify spec = .ok (.Http spec) := by
  have hne : scheme ≠ [] := by
    rintro rfl
    rcases hhttp with h | h <;> cases h
  have hnot : spec.toList.dropPrefix? "base64:".toList = none := by
    cases hdrop : spec.toList.dropPrefix? "base64:".toList with
    | none => rfl
    | some payload =>
      -- The first character would be a `b`, and not an `h` in either case.
      obtain ⟨lead, heq, hlead⟩ := List.dropPrefix?_eq_some_iff.mp hdrop
      rw [eq_of_beq hlead, hspec] at heq
      cases scheme with
      | nil => exact absurd rfl hne
      | cons c scheme =>
        obtain rfl : c = 'b' := (List.cons.inj heq).1
        rcases hhttp with h | h
        · exact absurd (List.cons.inj h).1 (by decide)
        · exact absurd (List.cons.inj h).1 (by decide)
  have hsame : eq_ignore_ascii_case scheme "http".toList ||
      eq_ignore_ascii_case scheme "https".toList := by
    unfold eq_ignore_ascii_case
    rcases hhttp with h | h
    · rw [h]
      rfl
    · rw [h]
      rfl
  unfold classify
  rw [hnot, hspec, scheme_name_append hne hchars]
  dsimp only
  rw [if_pos hsame]

/-! ### What is decoded -/

/-- An encoding has no character that the check minds. -/
theorem strip_of_base64 {text : List Char}
    (h : ∀ c ∈ text, is_ascii_whitespace c = false ∧ is_base64_byte c = true) :
    strip text = .ok text := by
  induction text with
  | nil => rfl
  | cons c rest ih =>
    obtain ⟨hspace, hbyte⟩ := h c List.mem_cons_self
    unfold strip
    rw [if_neg (by rw [hspace]; decide), if_neg (by rw [hbyte]; decide),
      ih fun d hd => h d (List.mem_cons_of_mem _ hd)]
    rfl

theorem base64_byte_of_mem {data : List UInt8} {c : Char} (h : c ∈ Base64.encode data) :
    is_ascii_whitespace c = false ∧ is_base64_byte c = true := by
  rcases Base64.mem_encode h with rfl | ⟨n, hn, rfl⟩
  · decide
  · have hall : ∀ n : Fin 64, is_ascii_whitespace (Base64.digit n) = false ∧
        is_base64_byte (Base64.digit n) = true := by decide
    exact hall ⟨n, hn⟩

/-- The encoding of an image within the limit is decoded to the image. -/
theorem decode_base64_encode {standard_decode : List Char → Except String (List UInt8)}
    (hdecode : ∀ data, standard_decode (Base64.encode data) = .ok data) {data : List UInt8}
    {limit : Nat} (hpos : 1 ≤ data.length) (hlimit : data.length ≤ limit) :
    decode_base64 standard_decode (Base64.encode data) limit = .ok data := by
  have hstrip : strip (Base64.encode data) = .ok (Base64.encode data) :=
    strip_of_base64 fun c hc => base64_byte_of_mem hc
  have hlen := Base64.length_encode data
  have hempty : (Base64.encode data).isEmpty = false := by
    rw [List.isEmpty_eq_false_iff, ← List.length_pos_iff]
    omega
  -- The length limit on the text is that on the image, in groups of three bytes.
  have hfits : ¬ max_encoded_len limit < (Base64.encode data).length := by
    unfold max_encoded_len
    omega
  have hdata : data.isEmpty = false := by
    rw [List.isEmpty_eq_false_iff, ← List.length_pos_iff]
    omega
  have hshort : ¬ limit < data.length := by omega
  unfold decode_base64
  rw [hstrip]
  simp only [bind, Except.bind, pure, Except.pure, hempty, hfits, hdecode, Except.mapError, hdata,
    hshort, if_false, Bool.false_eq_true]

end ElfSource

end Rl78Sim
