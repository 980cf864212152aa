import Rl78Sim.Cluster.ElfSource
import Rl78Sim.Cluster.Topology

/-! # Embedded Firmware

    The client reads the local files of a topology and puts their bytes in the place
    of their names, before it sends the topology to a server that takes only URLs and
    inline bytes. It tells the kinds of source apart by its own rules, which are those
    of the server but for two: the case of `base64:`, and the empty string. -/

namespace Rl78Sim.EmbedElfs

open ElfSource Fallible

/-! ### The kinds of the client -/

/-- What `_elf_kind` returns. -/
inductive ElfKind where
  | base64
  | http
  | file
  | path
  deriving DecidableEq

/-- The lower case of a character. Beside `A` to `Z` there are two whose lower case has a
    letter of ASCII in it, the dotted `I` and the Kelvin sign. What becomes of the others is
    not ASCII, and nothing here tells it apart. -/
def lower_char (c : Char) : List Char :=
  if c.isUpper then [c.toLower]
  else if c = '\u0130' then ['i', '\u0307']
  else if c = '\u212a' then ['k']
  else [c]

/-- `str.lower`. -/
def lower (text : List Char) : List Char := text.flatMap lower_char

/-- `str.startswith`. -/
def starts_with (text : List Char) (lead : String) : Bool := lead.toList.isPrefixOf text

/-- `_elf_kind`. -/
def elf_kind (elf : String) : ElfKind :=
  let lower := lower elf.toList
  if starts_with lower "base64:" then .base64
  else if starts_with lower "http://" || starts_with lower "https://" then .http
  else if starts_with lower "file://" then .file
  else .path

section client

-- Paths, how they are made of a name and of a `file://` URL, and the files.
variable {Path : Type} (path_of path_of_url : String → Path)
  (read_bytes : Path → Option (List UInt8))

/-- `_local_elf_path`. -/
def local_elf_path (elf : String) : Path :=
  if elf_kind elf = .file then path_of_url elf else path_of elf

/-- A round of `embed_local_elfs`: the `elf` of a board. The client exits with 1 if the file
    cannot be read. -/
def embed_elf (elf : Option String) : Except Nat (Option String) :=
  match elf with
  | none => .ok none
  | some elf =>
      if elf.isEmpty then .ok (some elf)
      else
        match elf_kind elf with
        | .base64 | .http => .ok (some elf)
        | .file | .path =>
            match read_bytes (local_elf_path path_of path_of_url elf) with
            | none => .error 1
            | some data => .ok (some ("base64:" ++ String.ofList (Base64.encode data)))

/-- `embed_local_elfs`. -/
def embed_local_elfs (topo : LogicalTopology) : Except Nat LogicalTopology := do
  let boards ← topo.boards.mapM fun board => do
    let elf ← embed_elf path_of path_of_url read_bytes board.elf
    return { board with elf }
  return { topo with boards }

end client

/-! ### Case -/

theorem isUpper_iff {c : Char} : c.isUpper = true ↔ c.val ≥ 'A'.val ∧ c.val ≤ 'Z'.val :=
  decide_eq_true_iff

theorem toLower_of_not_isUpper {c : Char} (h : ¬ c.isUpper = true) : c.toLower = c := by
  unfold Char.toLower
  exact dif_neg fun hupper => h (isUpper_iff.mpr hupper)

/-- The lower case of a capital letter is a small letter. -/
theorem isLower_toLower {c : Char} (h : c.isUpper = true) : c.toLower.isLower = true := by
  have hrange := isUpper_iff.mp h
  have hval : c.toLower.val = c.val + ('a'.val - 'A'.val) := by
    unfold Char.toLower
    rw [dif_pos hrange]
  have hlow : 65 ≤ c.val.toNat := UInt32.le_iff_toNat_le.mp hrange.1
  have hhigh : c.val.toNat ≤ 90 := UInt32.le_iff_toNat_le.mp hrange.2
  have hnat : c.toLower.val.toNat = c.val.toNat + 32 := by
    have hshift : ('a'.val - 'A'.val).toNat = 32 := rfl
    rw [hval, UInt32.toNat_add, hshift]
    omega
  have ha : 'a'.val.toNat = 97 := rfl
  have hz : 'z'.val.toNat = 122 := rfl
  unfold Char.isLower
  simp only [Bool.and_eq_true, decide_eq_true_eq, ge_iff_le, UInt32.le_iff_toNat_le]
  omega

/-- What is no small letter is the lower case of itself only. -/
theorem eq_of_toLower {c d : Char} (h : c.toLower = d) (hd : d.isLower = false) : c = d := by
  by_cases hupper : c.isUpper = true
  · have hlower := isLower_toLower hupper
    rw [h, hd] at hlower
    cases hlower
  · rw [toLower_of_not_isUpper hupper] at h
    exact h

theorem isAlphanum_of_toLower {c : Char} (h : c.toLower.isAlphanum = true) :
    c.isAlphanum = true := by
  by_cases hupper : c.isUpper = true
  · show ((c.isUpper || c.isLower) || c.isDigit) = true
    rw [hupper, Bool.true_or, Bool.true_or]
  · rwa [toLower_of_not_isUpper hupper] at h

/-- A text whose lower case begins with some characters begins with them in some case. -/
theorem lower_starts {lead text : List Char} (hlead : ∀ c ∈ lead, c ≠ 'i' ∧ c ≠ 'k')
    (h : lead <+: lower text) : ∃ t rest, text = t ++ rest ∧ t.map Char.toLower = lead := by
  induction lead generalizing text with
  | nil => exact ⟨[], text, rfl, rfl⟩
  | cons x lead ih =>
    obtain ⟨hi, hk⟩ := hlead x List.mem_cons_self
    cases text with
    | nil => exact absurd h (by simp [lower])
    | cons c text =>
      have hsplit : lower (c :: text) = lower_char c ++ lower text := rfl
      rw [hsplit] at h
      -- The two characters outside ASCII have an `i` or a `k` in their lower case.
      have hone : lower_char c = [c.toLower] := by
        unfold lower_char at h ⊢
        by_cases hupper : c.isUpper = true
        · rw [if_pos hupper]
        · rw [if_neg hupper] at h ⊢
          by_cases hdotted : c = '\u0130'
          · rw [if_pos hdotted] at h
            exact absurd (List.cons_prefix_cons.mp h).1 hi
          · rw [if_neg hdotted] at h ⊢
            by_cases hkelvin : c = '\u212a'
            · rw [if_pos hkelvin] at h
              exact absurd (List.cons_prefix_cons.mp h).1 hk
            · rw [if_neg hkelvin, toLower_of_not_isUpper hupper]
      rw [hone] at h
      obtain ⟨hx, hrest⟩ := List.cons_prefix_cons.mp h
      obtain ⟨t, rest, rfl, rfl⟩ := ih (fun d hd => hlead d (List.mem_cons_of_mem _ hd)) hrest
      exact ⟨c :: t, rest, rfl, by rw [hx, List.map_cons]⟩

/-! ### The two classifiers -/

/-- A text with an HTTP scheme, in any case. -/
def HasHttpScheme (elf : String) : Prop :=
  ∃ scheme rest, elf.toList = scheme ++ "://".toList ++ rest ∧
    (∀ c ∈ scheme, is_scheme_char c = true) ∧
    (scheme.map Char.toLower = "http".toList ∨ scheme.map Char.toLower = "https".toList)

theorem has_http_scheme {elf : String} {name : String}
    (hname : name = "http" ∨ name = "https")
    (h : starts_with (lower elf.toList) (name ++ "://") = true) : HasHttpScheme elf := by
  have hlead : ∀ c ∈ (name ++ "://").toList, c ≠ 'i' ∧ c ≠ 'k' := by
    rcases hname with rfl | rfl <;> simp
  have hletters : name.toList.all Char.isAlphanum = true := by
    rcases hname with rfl | rfl <;> rfl
  obtain ⟨t, rest, htext, ht⟩ := lower_starts hlead (List.isPrefixOf_iff_prefix.mp h)
  rw [String.toList_append] at ht
  obtain ⟨scheme, slashes, rfl, hscheme, hslashes⟩ := List.map_eq_append_iff.mp ht
  -- A colon and a slash have one case.
  have hsame : slashes = "://".toList := by
    rw [← hslashes]
    have hid : ∀ c ∈ slashes, c.toLower = c := by
      intro c hc
      have hmem : c.toLower ∈ "://".toList := hslashes ▸ List.mem_map_of_mem hc
      have hsmall : "://".toList.all (fun d => !d.isLower) = true := rfl
      have hlower := List.all_eq_true.mp hsmall _ hmem
      exact (eq_of_toLower rfl (by simpa using hlower)).symm
    exact ((List.map_congr_left hid).trans (List.map_id slashes)).symm
  refine ⟨scheme, rest, by rw [htext, hsame], ?_, ?_⟩
  · intro c hc
    have hmem : c.toLower ∈ name.toList := hscheme ▸ List.mem_map_of_mem hc
    have halnum := isAlphanum_of_toLower (List.all_eq_true.mp hletters _ hmem)
    simp [is_scheme_char, halnum]
  · rcases hname with rfl | rfl
    · exact Or.inl hscheme
    · exact Or.inr hscheme

/-- What is HTTP to the client has an HTTP scheme. -/
theorem has_http_scheme_of_kind {elf : String} (h : elf_kind elf = .http) : HasHttpScheme elf := by
  unfold elf_kind at h
  dsimp only at h
  split at h
  · cases h
  · split at h
    · next hhttp =>
      rcases Bool.or_eq_true _ _ |>.mp hhttp with hhttp | hhttps
      · exact has_http_scheme (Or.inl rfl) hhttp
      · exact has_http_scheme (Or.inr rfl) hhttps
    · split at h <;> cases h

theorem HasHttpScheme.classify {elf : String} (h : HasHttpScheme elf) :
    classify elf = .ok (.Http elf) := by
  obtain ⟨scheme, rest, hspec, hchars, hhttp⟩ := h
  exact classify_http hspec hchars hhttp

/-- What begins with `base64:` is Base64 to the client. -/
theorem elf_kind_of_base64 {elf : String} (h : "base64:".toList <+: elf.toList) :
    elf_kind elf = .base64 := by
  obtain ⟨payload, hpayload⟩ := h
  have hlower : starts_with (lower elf.toList) "base64:" = true := by
    rw [← hpayload]
    exact List.isPrefixOf_iff_prefix.mpr ⟨lower payload, rfl⟩
  unfold elf_kind
  dsimp only
  rw [if_pos hlower]

/-! ### Agreement -/

/-- The scheme of a URL is what stands before `://`, in lower case. -/
def LowersScheme (url : UrlParser) : Prop :=
  ∀ spec u scheme rest, url.parse spec = .ok u → spec.toList = scheme ++ "://".toList ++ rest →
    (∀ c ∈ scheme, is_scheme_char c = true) → url.scheme u = String.ofList (scheme.map Char.toLower)

section agreement

variable {Path : Type} {path_of path_of_url : String → Path}
  {read_bytes : Path → Option (List UInt8)} {url : UrlParser}
  {standard_decode : List Char → Except String (List UInt8)}

/-- The error is about the content of a source and not about its kind. -/
def OfContent (err : ElfSourceError) : Prop :=
  err ≠ .LocalSource ∧ (∀ scheme, err ≠ .UnsupportedScheme scheme) ∧
    ∀ scheme, err ≠ .NotHttp scheme

/-- The server takes what has become of a string as the client does: for Base64 or HTTP, and
    never for a local file or an unknown scheme. The bytes of a file of an allowed size are what
    it decodes. -/
structure Agrees (path_of path_of_url : String → Path) (read_bytes : Path → Option (List UInt8))
    (url : UrlParser) (standard_decode : List Char → Except String (List UInt8))
    (elf elf' : String) : Prop where
  kind : (elf_kind elf' = .base64 ∧ ∃ payload, classify elf' = .ok (.Base64 payload)) ∨
    (elf_kind elf' = .http ∧ classify elf' = .ok (.Http elf'))
  accepted : ∀ err, check_http_create_spec url standard_decode elf' = .error err → OfContent err
  bytes : elf_kind elf = .file ∨ elf_kind elf = .path → elf ≠ "" →
    ∀ data, read_bytes (local_elf_path path_of path_of_url elf) = some data →
      1 ≤ data.length → data.length ≤ max_firmware_bytes →
        ∃ payload, classify elf' = .ok (.Base64 payload) ∧
          decode_base64 standard_decode payload max_firmware_bytes = .ok data

/-- The boards agree, in their order; one without a source stays without one. -/
def BoardsAgree (path_of path_of_url : String → Path) (read_bytes : Path → Option (List UInt8))
    (url : UrlParser) (standard_decode : List Char → Except String (List UInt8))
    (topo topo' : LogicalTopology) : Prop :=
  List.Forall₂ (fun board board' : BoardSpec => (board.elf = none → board'.elf = none) ∧
    ∀ elf, board.elf = some elf → ∃ elf', board'.elf = some elf' ∧
      Agrees path_of path_of_url read_bytes url standard_decode elf elf') topo.boards topo'.boards

/-- A string that both take alike: it is not empty, and `base64:` is in lower case. -/
def Portable (elf : String) : Prop :=
  elf ≠ "" ∧ (elf_kind elf = .base64 → "base64:".toList <+: elf.toList)

/-- A complaint about the payload. -/
theorem strip_error {payload : List Char} {err : ElfSourceError}
    (h : strip payload = .error err) : err = .OutsideAlphabet := by
  induction payload with
  | nil => cases h
  | cons c rest ih =>
    unfold strip at h
    split at h
    · exact ih h
    · split at h
      · cases h
        rfl
      · cases hrest : strip rest with
        | ok stripped =>
          rw [hrest] at h
          cases h
        | error err' =>
          rw [hrest] at h
          cases h
          exact ih hrest

theorem decode_base64_error {payload : List Char} {limit : Nat} {err : ElfSourceError}
    (h : decode_base64 standard_decode payload limit = .error err) : OfContent err := by
  unfold decode_base64 at h
  -- Each check of the payload has an error of its own.
  cases hstrip : strip payload with
  | error err' =>
    rw [hstrip] at h
    cases h
    rw [strip_error hstrip]
    exact ⟨nofun, nofun, nofun⟩
  | ok stripped =>
    rw [hstrip] at h
    simp only [bind, Except.bind, pure, Except.pure, throw, throwThe, MonadExceptOf.throw] at h
    split at h
    · cases h
      exact ⟨nofun, nofun, nofun⟩
    · split at h
      · cases h
        exact ⟨nofun, nofun, nofun⟩
      · cases hbytes : standard_decode stripped with
        | error text =>
          rw [hbytes] at h
          cases h
          exact ⟨nofun, nofun, nofun⟩
        | ok bytes =>
          rw [hbytes] at h
          simp only [Except.mapError] at h
          split at h
          · cases h
            exact ⟨nofun, nofun, nofun⟩
          · split at h
            · cases h
              exact ⟨nofun, nofun, nofun⟩
            · cases h

theorem accepted_of_base64 {elf : String} {payload : List Char}
    (h : classify elf = .ok (.Base64 payload)) {err : ElfSourceError}
    (herr : check_http_create_spec url standard_decode elf = .error err) : OfContent err := by
  unfold check_http_create_spec check_spec at herr
  rw [h] at herr
  simp only [bind, Except.bind] at herr
  cases hdecode : decode_base64 standard_decode payload max_firmware_bytes with
  | ok bytes =>
    rw [hdecode] at herr
    cases herr
  | error err' =>
    rw [hdecode] at herr
    cases herr
    exact decode_base64_error hdecode

theorem accepted_of_http (hurl : LowersScheme url) {elf : String} (h : HasHttpScheme elf)
    {err : ElfSourceError} (herr : check_http_create_spec url standard_decode elf = .error err) :
    OfContent err := by
  have hclassify := h.classify
  obtain ⟨scheme, rest, hspec, hchars, hhttp⟩ := h
  unfold check_http_create_spec check_spec at herr
  rw [hclassify] at herr
  simp only [bind, Except.bind, parse_http_url] at herr
  cases hparse : url.parse elf with
  | error text =>
    rw [hparse] at herr
    cases herr
    exact ⟨nofun, nofun, nofun⟩
  | ok u =>
    rw [hparse] at herr
    -- The parser gives the scheme in lower case, so it is one of the two.
    have hscheme : url.scheme u = "http" ∨ url.scheme u = "https" := by
      rw [hurl elf u scheme rest hparse hspec hchars]
      rcases hhttp with h | h
      · rw [h]
        exact Or.inl rfl
      · rw [h]
        exact Or.inr rfl
    have hknown : ¬ (url.scheme u ≠ "http" ∧ url.scheme u ≠ "https") := by
      rintro ⟨hhttp, hhttps⟩
      exact hscheme.elim hhttp hhttps
    simp only [Except.mapError, pure, Except.pure, throw, throwThe, MonadExceptOf.throw] at herr
    rw [if_neg hknown] at herr
    cases hhost : url.has_host u with
    | false =>
      rw [hhost] at herr
      cases herr
      exact ⟨nofun, nofun, nofun⟩
    | true =>
      rw [hhost] at herr
      cases herr

/-! ### What the client leaves -/

theorem not_local {elf : String} (h : elf_kind elf = .base64 ∨ elf_kind elf = .http) :
    ¬ (elf_kind elf = .file ∨ elf_kind elf = .path) := by
  rcases h with h | h <;> simp [h]

/-- A string that is left in place. -/
theorem embed_elf_kept {elf : String}
    (h : elf = "" ∨ elf_kind elf = .base64 ∨ elf_kind elf = .http) :
    embed_elf path_of path_of_url read_bytes (some elf) = .ok (some elf) := by
  unfold embed_elf
  dsimp only
  by_cases hempty : elf.isEmpty = true
  · rw [if_pos hempty]
  · rw [if_neg hempty]
    have hne : elf ≠ "" := fun heq => hempty (by rw [heq]; rfl)
    rcases h with h | h | h
    · exact absurd h hne
    · rw [h]
    · rw [h]

/-- A local file that is embedded. -/
theorem embed_elf_local {elf : String} {elf' : Option String} (hne : elf ≠ "")
    (hlocal : elf_kind elf = .file ∨ elf_kind elf = .path)
    (h : embed_elf path_of path_of_url read_bytes (some elf) = .ok elf') :
    ∃ data, read_bytes (local_elf_path path_of path_of_url elf) = some data ∧
      elf' = some ("base64:" ++ String.ofList (Base64.encode data)) := by
  unfold embed_elf at h
  dsimp only at h
  rw [if_neg (by simpa using hne)] at h
  cases hread : read_bytes (local_elf_path path_of path_of_url elf) with
  | none =>
    rw [hread] at h
    rcases hlocal with hkind | hkind
    · rw [hkind] at h
      cases h
    · rw [hkind] at h
      cases h
  | some data =>
    rw [hread] at h
    refine ⟨data, rfl, ?_⟩
    rcases hlocal with hkind | hkind
    · rw [hkind] at h
      exact (Except.ok.inj h).symm
    · rw [hkind] at h
      exact (Except.ok.inj h).symm

/-- A board with a source keeps one. -/
theorem embed_elf_some {elf : String} {elf' : Option String}
    (h : embed_elf path_of path_of_url read_bytes (some elf) = .ok elf') :
    ∃ text, elf' = some text := by
  unfold embed_elf at h
  dsimp only at h
  split at h
  · exact ⟨elf, (Except.ok.inj h).symm⟩
  · split at h
    · exact ⟨elf, (Except.ok.inj h).symm⟩
    · exact ⟨elf, (Except.ok.inj h).symm⟩
    · split at h
      · cases h
      · exact ⟨_, (Except.ok.inj h).symm⟩
    · split at h
      · cases h
      · exact ⟨_, (Except.ok.inj h).symm⟩

/-- What becomes of a string is agreed on exactly if the string is portable. -/
theorem agrees_iff (hurl : LowersScheme url)
    (hdecode : ∀ data, standard_decode (Base64.encode data) = .ok data) {elf elf' : String}
    (h : embed_elf path_of path_of_url read_bytes (some elf) = .ok (some elf')) :
    Agrees path_of path_of_url read_bytes url standard_decode elf elf' ↔ Portable elf := by
  by_cases hempty : elf = ""
  · subst hempty
    rw [embed_elf_kept (Or.inl rfl)] at h
    cases h
    -- The empty string is a path to the client, and it is left in place.
    refine ⟨fun hagrees => ?_, fun hportable => absurd rfl hportable.1⟩
    rcases hagrees.kind with ⟨hkind, -⟩ | ⟨hkind, -⟩
    · exact absurd hkind (by decide)
    · exact absurd hkind (by decide)
  · cases hkind : elf_kind elf with
    | base64 =>
      rw [embed_elf_kept (Or.inr (Or.inl hkind))] at h
      cases h
      constructor
      · intro hagrees
        refine ⟨hempty, fun _ => ?_⟩
        -- The server has to take it for Base64 as well, and does so in lower case only.
        rcases hagrees.kind with ⟨-, payload, hclassify⟩ | ⟨hkind', -⟩
        · exact ⟨payload, (classify_base64_iff.mp hclassify).symm⟩
        · rw [hkind] at hkind'
          cases hkind'
      · rintro ⟨-, hlower⟩
        obtain ⟨payload, hpayload⟩ := hlower hkind
        have hclassify := classify_base64_iff.mpr hpayload.symm
        refine ⟨Or.inl ⟨hkind, payload, hclassify⟩, fun _ => accepted_of_base64 hclassify, ?_⟩
        intro hlocal
        exact absurd hlocal (not_local (Or.inl hkind))
    | http =>
      rw [embed_elf_kept (Or.inr (Or.inr hkind))] at h
      cases h
      have hscheme := has_http_scheme_of_kind hkind
      refine ⟨fun _ => ⟨hempty, fun hkind' => ?_⟩, fun _ => ?_⟩
      · rw [hkind] at hkind'
        cases hkind'
      · refine ⟨Or.inr ⟨hkind, hscheme.classify⟩, fun _ => accepted_of_http hurl hscheme, ?_⟩
        intro hlocal
        exact absurd hlocal (not_local (Or.inr hkind))
    | file | path =>
      have hlocal : elf_kind elf = .file ∨ elf_kind elf = .path := by simp [hkind]
      -- The bytes of the file replace its name.
      obtain ⟨data, hread, hdata⟩ := embed_elf_local hempty hlocal h
      obtain rfl := Option.some.inj hdata
      have htext : ("base64:" ++ String.ofList (Base64.encode data)).toList =
          "base64:".toList ++ Base64.encode data := by simp
      have hclassify := classify_base64_iff.mpr htext
      refine ⟨fun _ => ⟨hempty, fun hkind' => ?_⟩, fun _ => ?_⟩
      · rw [hkind] at hkind'
        cases hkind'
      · refine ⟨Or.inl ⟨elf_kind_of_base64 ⟨_, htext.symm⟩, _, hclassify⟩,
          fun _ => accepted_of_base64 hclassify, ?_⟩
        intro _ _ data' hread' hpos hlimit
        obtain rfl := Option.some.inj (hread.symm.trans hread')
        exact ⟨_, hclassify, decode_base64_encode hdecode hpos hlimit⟩

/-- After the client has embedded the local files of a topology, client and server agree on
    every source exactly if every source was portable. -/
theorem embedded_agrees_iff (hurl : LowersScheme url)
    (hdecode : ∀ data, standard_decode (Base64.encode data) = .ok data)
    {topo topo' : LogicalTopology}
    (h : embed_local_elfs path_of path_of_url read_bytes topo = .ok topo') :
    BoardsAgree path_of path_of_url read_bytes url standard_decode topo topo' ↔
      ∀ board ∈ topo.boards, ∀ elf, board.elf = some elf → Portable elf := by
  obtain ⟨boards, hboards, h⟩ := bind_ok h
  cases h
  -- Both sides are about one board at a time.
  refine forall₂_iff_forall (mapM_ok hboards) ?_
  intro board board' hboard
  obtain ⟨elf, helf, hboard⟩ := bind_ok hboard
  cases hboard
  cases hsource : board.elf with
  | none =>
    rw [hsource] at helf
    cases helf
    exact ⟨fun _ => nofun, fun _ => ⟨fun _ => rfl, nofun⟩⟩
  | some source =>
    rw [hsource] at helf
    obtain ⟨elf', rfl⟩ := embed_elf_some helf
    have hiff := agrees_iff hurl hdecode helf
    constructor
    · rintro ⟨-, hagrees⟩ source' hsource'
      obtain rfl := Option.some.inj hsource'
      obtain ⟨text, htext, hagrees⟩ := hagrees _ rfl
      cases htext
      exact hiff.mp hagrees
    · intro hportable
      refine ⟨nofun, ?_⟩
      intro source' hsource'
      obtain rfl := Option.some.inj hsource'
      exact ⟨elf', rfl, hiff.mpr (hportable _ rfl)⟩

end agreement

/-! ### Two topologies -/

/-- A parser that knows schemes and hosts, for what follows. -/
def plain_url : UrlParser where
  Url := String
  parse := .ok
  scheme spec := String.ofList (((split_once ':' spec.toList).map Prod.fst).getD [] |>.map
    Char.toLower)
  has_host _ := true
  to_file_path _ := none

theorem lowersScheme_plain_url : LowersScheme plain_url := by
  intro spec u scheme rest hparse hspec hchars
  cases hparse
  have hcolon : ':' ∉ scheme := fun h => absurd (hchars _ h) (by decide)
  have hsplit : split_once ':' spec.toList = some (scheme, "//".toList ++ rest) := by
    rw [hspec, List.append_assoc]
    exact split_once_append hcolon
  show String.ofList _ = _
  rw [hsplit]
  rfl

/-- A strict decoder. -/
def strict_decode (text : List Char) : Except String (List UInt8) :=
  match Base64.decode text with
  | some data => .ok data
  | none => .error "Invalid padding"

theorem strict_decode_encode (data : List UInt8) :
    strict_decode (Base64.encode data) = .ok data := by
  unfold strict_decode
  rw [Base64.decode_encode]

/-- The only file there is. -/
def one_file (path : String) : Option (List UInt8) :=
  if path = "a.elf" then some [65, 66, 67] else none

/-- Boards with the given sources. -/
def boards_with (elfs : List String) : LogicalTopology where
  boards := elfs.map fun elf => { id := elf, kind := "rl78", elf := some elf, endpoints := [] }
  edges := []
  margin_ns := 0
  headroom_threshold_ns := 0
  ready_timeout_ms := 0

/-- What three sources become. -/
def boards_after : LogicalTopology :=
  let before := boards_with ["a.elf", "HTTP://h/f", "base64:AQI="]
  { before with
    boards := before.boards.map fun board =>
      if board.id = "a.elf" then { board with elf := some "base64:QUJD" } else board }

/-- A file, a URL in capitals and inline bytes: all three are agreed on. -/
theorem embedded_agrees_iff_portable :
    ∃ topo', embed_local_elfs id id one_file (boards_with ["a.elf", "HTTP://h/f", "base64:AQI="]) =
        .ok topo' ∧ topo'.boards.map BoardSpec.elf =
          [some "base64:QUJD", some "HTTP://h/f", some "base64:AQI="] ∧
      BoardsAgree id id one_file plain_url strict_decode
        (boards_with ["a.elf", "HTTP://h/f", "base64:AQI="]) topo' := by
  refine ⟨boards_after, rfl, rfl, ?_⟩
  refine (embedded_agrees_iff lowersScheme_plain_url strict_decode_encode rfl).mpr ?_
  intro board hboard elf helf
  obtain ⟨source, hsource, rfl⟩ := List.mem_map.mp hboard
  obtain rfl := Option.some.inj helf
  rcases List.mem_cons.mp hsource with rfl | hsource
  · exact ⟨by decide, fun h => absurd h (by decide)⟩
  rcases List.mem_cons.mp hsource with rfl | hsource
  · exact ⟨by decide, fun h => absurd h (by decide)⟩
  · obtain rfl := List.mem_singleton.mp hsource
    exact ⟨by decide, fun _ => by decide⟩

/-- `BASE64:` is inline Base64 to the client, and a path to the server. -/
theorem capital_base64_rejected :
    ∃ topo', embed_local_elfs id id one_file (boards_with ["BASE64:AQI="]) = .ok topo' ∧
      topo'.boards.map BoardSpec.elf = [some "BASE64:AQI="] ∧
      classify "BASE64:AQI=" = .ok (.Path "BASE64:AQI=") ∧
      check_http_create_spec plain_url strict_decode "BASE64:AQI=" = .error .LocalSource ∧
      ¬ BoardsAgree id id one_file plain_url strict_decode (boards_with ["BASE64:AQI="]) topo' := by
  have hclassify : classify "BASE64:AQI=" = .ok (.Path "BASE64:AQI=") := by decide
  refine ⟨boards_with ["BASE64:AQI="], rfl, rfl, hclassify, rfl, ?_⟩
  intro hagree
  obtain ⟨-, hagrees⟩ := (List.forall₂_cons.mp hagree).1
  obtain ⟨elf', helf', hagrees⟩ := hagrees _ rfl
  cases helf'
  rcases hagrees.kind with ⟨-, payload, hkind⟩ | ⟨-, hkind⟩
  · rw [hclassify] at hkind
    cases hkind
  · rw [hclassify] at hkind
    cases hkind

end Rl78Sim.EmbedElfs
