import Rl78Sim.Cluster.StatusWire
import Rl78Sim.Kernel.Action

/-! # The Action Catalog on the Wire

    A node advertises each of its actions in a sample of fixed size: every text in
    a buffer with its length beside it, the parameters in an array of slots, and a
    bit for each bound that is there. `ActionAdvertise.new` packs a row of the
    catalog, and `AdvertisedAction.new` makes the public row of a sample again. -/

namespace Rl78Sim.ActionWire

/-! ### The sample -/

/-- `NAME_CAP`. -/
def name_cap : Nat := 64

/-- `ACTION_DESC_CAP`. -/
def action_desc_cap : Nat := 128

/-- `UNIT_CAP`. -/
def unit_cap : Nat := 16

/-- `PARAM_DESC_CAP`. -/
def param_desc_cap : Nat := 64

/-- `FLAG_MIN`. -/
def flag_min : UInt8 := 1

/-- `FLAG_MAX`. -/
def flag_max : UInt8 := 2

/-- `FLAG_DEFAULT`. -/
def flag_default : UInt8 := 4

/-- `ActionCatalogEntry`. -/
structure ActionCatalogEntry where
  device : String
  device_hash : Nat
  action : String
  action_hash : Nat
  description : String
  params : List ParamSpec
  deriving DecidableEq

/-- `ActionParam`. -/
structure ActionParam where
  name : Vector UInt8 name_cap
  name_len : UInt8
  name_hash : Nat
  unit : Vector UInt8 unit_cap
  unit_len : UInt8
  description : Vector UInt8 param_desc_cap
  description_len : UInt8
  flags : UInt8
  min : F64
  max : F64
  default_value : F64

/-- `ActionParam::default`. -/
def ActionParam.default : ActionParam where
  name := Vector.replicate name_cap 0
  name_len := 0
  name_hash := 0
  unit := Vector.replicate unit_cap 0
  unit_len := 0
  description := Vector.replicate param_desc_cap 0
  description_len := 0
  flags := 0
  min := .finite 0
  max := .finite 0
  default_value := .finite 0

/-- `ActionAdvertise`. -/
structure ActionAdvertise where
  from_ : Nat
  device : Vector UInt8 name_cap
  device_len : UInt8
  device_hash : Nat
  action : Vector UInt8 name_cap
  action_len : UInt8
  action_hash : Nat
  description : Vector UInt8 action_desc_cap
  description_len : UInt16
  param_count : UInt8
  params : Vector ActionParam max_action_params

/-- `ActionAdvertise::default`. -/
def ActionAdvertise.default : ActionAdvertise where
  from_ := 0
  device := Vector.replicate name_cap 0
  device_len := 0
  device_hash := 0
  action := Vector.replicate name_cap 0
  action_len := 0
  action_hash := 0
  description := Vector.replicate action_desc_cap 0
  description_len := 0
  param_count := 0
  params := Vector.replicate max_action_params .default

/-- `ActionPackError`. -/
inductive ActionPackError where
  | TooLong (field : String)
  | HashMismatch (field : String)
  | TooManyParams
  deriving DecidableEq

/-! ### Packing -/

variable {cap : Nat}

/-- `pack_str`: the buffer with the text at its start, and the length of the text. -/
def pack_str (text : String) (buf : Vector UInt8 cap) (field : String) :
    Except ActionPackError (UInt8 × Vector UInt8 cap) :=
  if cap < text.utf8ByteSize then .error (.TooLong field)
  else if 2 ^ 8 ≤ text.utf8ByteSize then .error (.TooLong field)
  else .ok (.ofNat text.utf8ByteSize, .ofFn fun i => text.toByteArray.data.getD i buf[i])

/-- A text that may be absent leaves its buffer and length as they are then. -/
def pack_optional (text : Option String) (len : UInt8) (buf : Vector UInt8 cap) (field : String) :
    Except ActionPackError (UInt8 × Vector UInt8 cap) :=
  match text with
  | some text => pack_str text buf field
  | none => .ok (len, buf)

/-- A number that may be absent: its bit is set, and it is stored, if it is there. -/
def pack_number (number : Option F64) (bit flags : UInt8) (slot : F64) : UInt8 × F64 :=
  match number with
  | some number => (flags ||| bit, number)
  | none => (flags, slot)

section packing

-- `xxh3_64` over the bytes of a name.
variable (id_hash : String → Nat)

/-- `ActionParam::new`. -/
def ActionParam.new (param : ParamSpec) : Except ActionPackError ActionParam :=
  if param.name_hash ≠ id_hash param.name then .error (.HashMismatch "parameter")
  else do
    let packed := { ActionParam.default with name_hash := param.name_hash, flags := 0 }
    let (name_len, name) ← pack_str param.name packed.name "parameter"
    let (unit_len, unit) ← pack_optional param.unit packed.unit_len packed.unit "unit"
    let (description_len, description) ← pack_optional param.description packed.description_len
      packed.description "parameter description"
    let (flags, min) := pack_number param.min flag_min packed.flags packed.min
    let (flags, max) := pack_number param.max flag_max flags packed.max
    let (flags, default_value) := pack_number param.default flag_default flags packed.default_value
    return { packed with
      name, name_len, unit, unit_len, description, description_len, flags, min, max, default_value }

/-- The loop of `ActionAdvertise::new`, from a slot on. -/
def pack_params : List ParamSpec → Nat → Vector ActionParam max_action_params →
    Except ActionPackError (Vector ActionParam max_action_params)
  | [], _, slots => .ok slots
  | param :: params, index, slots => do
      let packed ← ActionParam.new id_hash param
      pack_params params (index + 1) (slots.setIfInBounds index packed)

/-- `ActionAdvertise::new`. -/
def ActionAdvertise.new (from_ : Nat) (entry : ActionCatalogEntry) :
    Except ActionPackError ActionAdvertise :=
  if entry.device_hash ≠ id_hash entry.device then .error (.HashMismatch "device")
  else if entry.action_hash ≠ id_hash entry.action then .error (.HashMismatch "action")
  else if max_action_params < entry.params.length then .error .TooManyParams
  else do
    let sample := { ActionAdvertise.default with
      from_
      device_hash := entry.device_hash
      action_hash := entry.action_hash
      param_count := if entry.params.length < 2 ^ 8 then .ofNat entry.params.length else 255 }
    let (device_len, device) ← pack_str entry.device sample.device "device"
    let (action_len, action) ← pack_str entry.action sample.action "action"
    let (description_len, description) ←
      pack_str entry.description sample.description "description"
    let params ← pack_params id_hash entry.params 0 sample.params
    return { sample with
      device, device_len, action, action_len, description
      description_len := description_len.toUInt16
      params }

end packing

/-! ### Unpacking -/

/-- `AdvertisedActionParam`. -/
structure AdvertisedActionParam where
  name : Nat
  name_label : String
  unit : Option String
  description : Option String
  min : Option F64
  max : Option F64
  default : Option F64
  deriving DecidableEq

/-- `AdvertisedAction`. -/
structure AdvertisedAction where
  board_id : Nat
  board_label : String
  device : Nat
  device_label : String
  action : Nat
  action_label : String
  description : String
  params : List AdvertisedActionParam
  deriving DecidableEq

/-- `flag_f64`. -/
def flag_f64 (flags bit : UInt8) (value : F64) : Option F64 :=
  if flags &&& bit = 0 then none else some value

/-- `optional_text`. -/
def optional_text (buf : Vector UInt8 cap) (len : UInt8) : Option String :=
  if len = 0 then none else some (unpack buf len.toNat)

section unpacking

variable (id_hash : String → Nat)

/-- `AdvertisedActionParam::new`. -/
def AdvertisedActionParam.new (param : ActionParam) :
    Except ActionPackError AdvertisedActionParam :=
  let name := unpack param.name param.name_len.toNat
  if param.name_hash ≠ id_hash name then .error (.HashMismatch "parameter")
  else .ok
    { name := param.name_hash
      name_label := name
      unit := optional_text param.unit param.unit_len
      description := optional_text param.description param.description_len
      min := flag_f64 param.flags flag_min param.min
      max := flag_f64 param.flags flag_max param.max
      default := flag_f64 param.flags flag_default param.default_value }

/-- `AdvertisedAction::new`. -/
def AdvertisedAction.new (board_hash : Nat) (board_label : String) (sample : ActionAdvertise) :
    Except ActionPackError AdvertisedAction :=
  let device := unpack sample.device sample.device_len.toNat
  let action := unpack sample.action sample.action_len.toNat
  if sample.device_hash ≠ id_hash device then .error (.HashMismatch "device")
  else if sample.action_hash ≠ id_hash action then .error (.HashMismatch "action")
  else do
    let n := min sample.param_count.toNat max_action_params
    let params ← (sample.params.toList.take n).mapM (AdvertisedActionParam.new id_hash)
    return {
      board_id := board_hash
      board_label
      device := sample.device_hash
      device_label := device
      action := sample.action_hash
      action_label := action
      description := unpack sample.description sample.description_len.toNat
      params }

end unpacking

/-! ### What a catalog row says -/

/-- The texts of a parameter fit their buffers. -/
structure ParamFits (param : ParamSpec) : Prop where
  name : param.name.utf8ByteSize ≤ name_cap
  unit : ∀ text, param.unit = some text → text.utf8ByteSize ≤ unit_cap
  description : ∀ text, param.description = some text → text.utf8ByteSize ≤ param_desc_cap

/-- Every text of a row, and its list of parameters, is within its capacity. -/
structure ActionCatalogEntry.Fits (entry : ActionCatalogEntry) : Prop where
  device : entry.device.utf8ByteSize ≤ name_cap
  action : entry.action.utf8ByteSize ≤ name_cap
  description : entry.description.utf8ByteSize ≤ action_desc_cap
  few : entry.params.length ≤ max_action_params
  params : ∀ param ∈ entry.params, ParamFits param

/-- The hashes of a row are those of its names. -/
structure ActionCatalogEntry.Hashed (id_hash : String → Nat) (entry : ActionCatalogEntry) :
    Prop where
  device : entry.device_hash = id_hash entry.device
  action : entry.action_hash = id_hash entry.action
  params : ∀ param ∈ entry.params, param.name_hash = id_hash param.name

/-- What the public row says of a parameter: an empty text is an absent one. -/
def shown_param (param : ParamSpec) : AdvertisedActionParam where
  name := param.name_hash
  name_label := param.name
  unit := param.unit.filter fun text => text ≠ ""
  description := param.description.filter fun text => text ≠ ""
  min := param.min
  max := param.max
  default := param.default

/-- The public row of a catalog row. -/
def ActionCatalogEntry.shown (entry : ActionCatalogEntry) (board_hash : Nat)
    (board_label : String) : AdvertisedAction where
  board_id := board_hash
  board_label := board_label
  device := entry.device_hash
  device_label := entry.device
  action := entry.action_hash
  action_label := entry.action
  description := entry.description
  params := entry.params.map shown_param

/-! ### Texts and numbers -/

/-- What is packed for a text can be read again, and its length is the text's. -/
def Holds (text : String) (packed : UInt8 × Vector UInt8 cap) : Prop :=
  packed.1.toNat = text.utf8ByteSize ∧ unpack packed.2 packed.1.toNat = text

/-- A text within the capacity is packed. -/
theorem pack_str_of_le {text : String} (hcap : cap < 2 ^ 8) (h : text.utf8ByteSize ≤ cap)
    (buf : Vector UInt8 cap) (field : String) :
    ∃ packed, pack_str text buf field = .ok packed ∧ Holds text packed := by
  have hlen : (UInt8.ofNat text.utf8ByteSize).toNat = text.utf8ByteSize :=
    UInt8.toNat_ofNat_of_lt' (Nat.lt_of_le_of_lt h hcap)
  unfold pack_str
  rw [if_neg (by omega), if_neg (by omega)]
  refine ⟨_, rfl, hlen, ?_⟩
  dsimp only
  rw [hlen]
  have hbytes : ByteArray.mk ((Vector.ofFn fun i : Fin cap =>
      text.toByteArray.data.getD i buf[i]).toArray.extract 0 (min text.utf8ByteSize cap)) =
        text.toByteArray := by
    have hdata : text.toByteArray.data.size = text.utf8ByteSize := rfl
    apply ByteArray.ext
    apply Array.ext
    · simp [hdata, h]
    · intro i hi hi'
      simp [Array.getElem?_eq_getElem hi']
  exact unpack_of_bytes hbytes

/-- A text over the capacity is refused. -/
theorem pack_str_of_lt {text : String} (h : cap < text.utf8ByteSize) (buf : Vector UInt8 cap)
    (field : String) : pack_str text buf field = .error (.TooLong field) := if_pos h

/-- What was packed is a text within the capacity. -/
theorem pack_str_ok {text : String} (hcap : cap < 2 ^ 8) {buf : Vector UInt8 cap} {field : String}
    {packed : UInt8 × Vector UInt8 cap} (h : pack_str text buf field = .ok packed) :
    text.utf8ByteSize ≤ cap ∧ Holds text packed := by
  by_cases hlen : text.utf8ByteSize ≤ cap
  · obtain ⟨packed', hpacked, hholds⟩ := pack_str_of_le hcap hlen buf field
    obtain rfl := Except.ok.inj (h.symm.trans hpacked)
    exact ⟨hlen, hholds⟩
  · rw [pack_str_of_lt (Nat.lt_of_not_le hlen)] at h
    cases h

/-- A text that may be absent is packed if it is within the capacity. -/
theorem pack_optional_ok {text : Option String} (hcap : cap < 2 ^ 8) {field : String}
    {packed : UInt8 × Vector UInt8 cap}
    (h : pack_optional text 0 (Vector.replicate cap 0) field = .ok packed) :
    (∀ t, text = some t → t.utf8ByteSize ≤ cap) ∧
      optional_text packed.2 packed.1 = text.filter fun t => t ≠ "" := by
  cases text with
  | none =>
    obtain rfl := Except.ok.inj h
    exact ⟨nofun, rfl⟩
  | some t =>
    obtain ⟨hlen, hsize, hread⟩ := pack_str_ok hcap h
    refine ⟨fun t' ht' => Option.some.inj ht' ▸ hlen, ?_⟩
    unfold optional_text
    have hzero : packed.1 = 0 ↔ t = "" := by
      rw [← UInt8.toNat_inj, hsize]
      exact String.utf8ByteSize_eq_zero_iff
    by_cases hempty : t = ""
    · rw [if_pos (hzero.mpr hempty)]
      simp [Option.filter, hempty]
    · rw [if_neg (mt hzero.mp hempty), hread]
      simp [Option.filter, hempty]

theorem pack_optional_of_le {text : Option String} (hcap : cap < 2 ^ 8)
    (h : ∀ t, text = some t → t.utf8ByteSize ≤ cap) (len : UInt8) (buf : Vector UInt8 cap)
    (field : String) : ∃ packed, pack_optional text len buf field = .ok packed := by
  cases text with
  | none => exact ⟨_, rfl⟩
  | some t =>
    obtain ⟨packed, hpacked, -⟩ := pack_str_of_le hcap (h t rfl) buf field
    exact ⟨packed, hpacked⟩

/-- Each number is read back through its own bit, and no other. -/
theorem flag_f64_pack_number (min max default : Option F64) (a b c : F64) :
    let (flags, min') := pack_number min flag_min 0 a
    let (flags, max') := pack_number max flag_max flags b
    let (flags, default') := pack_number default flag_default flags c
    flag_f64 flags flag_min min' = min ∧ flag_f64 flags flag_max max' = max ∧
      flag_f64 flags flag_default default' = default := by
  cases min <;> cases max <;> cases default <;> exact ⟨rfl, rfl, rfl⟩

/-! ### Parameters -/

section parameters

variable {id_hash : String → Nat}

/-- A parameter that is packed fits, and its slot says what the parameter says. -/
theorem ActionParam.new_ok {param : ParamSpec} {slot : ActionParam}
    (h : ActionParam.new id_hash param = .ok slot) : param.name_hash = id_hash param.name ∧
      ParamFits param ∧ AdvertisedActionParam.new id_hash slot = .ok (shown_param param) := by
  unfold ActionParam.new at h
  by_cases hhash : param.name_hash = id_hash param.name
  · rw [if_neg (not_not.mpr hhash)] at h
    obtain ⟨⟨name_len, name⟩, hname, h⟩ := Fallible.bind_ok h
    obtain ⟨⟨unit_len, unit⟩, hunit, h⟩ := Fallible.bind_ok h
    obtain ⟨⟨description_len, description⟩, hdescription, h⟩ := Fallible.bind_ok h
    obtain rfl := Except.ok.inj h
    obtain ⟨hname, -, hname_read⟩ := pack_str_ok (by decide) hname
    obtain ⟨hunit, hunit_read⟩ := pack_optional_ok (by decide) hunit
    obtain ⟨hdescription, hdescription_read⟩ := pack_optional_ok (by decide) hdescription
    refine ⟨hhash, ⟨hname, hunit, hdescription⟩, ?_⟩
    obtain ⟨hmin, hmax, hdefault⟩ := flag_f64_pack_number param.min param.max param.default
      (.finite 0) (.finite 0) (.finite 0)
    dsimp only at hname_read hunit_read hdescription_read
    unfold AdvertisedActionParam.new
    dsimp only
    rw [hname_read, if_neg (not_not.mpr hhash), hunit_read, hdescription_read]
    refine congrArg Except.ok ?_
    unfold shown_param
    congr 1
  · rw [if_pos hhash] at h
    cases h

theorem ActionParam.new_of_fits {param : ParamSpec} (hhash : param.name_hash = id_hash param.name)
    (hfits : ParamFits param) : ∃ slot, ActionParam.new id_hash param = .ok slot := by
  unfold ActionParam.new
  rw [if_neg (not_not.mpr hhash)]
  obtain ⟨name, hname, -⟩ := pack_str_of_le (by decide) hfits.name ActionParam.default.name
    "parameter"
  obtain ⟨unit, hunit⟩ := pack_optional_of_le (by decide) hfits.unit
    ActionParam.default.unit_len ActionParam.default.unit "unit"
  obtain ⟨description, hdescription⟩ := pack_optional_of_le (by decide) hfits.description
    ActionParam.default.description_len ActionParam.default.description "parameter description"
  dsimp only
  rw [hname, hunit, hdescription]
  exact ⟨_, rfl⟩

/-- The slots from `index` on are those of the parameters, in order. -/
theorem pack_params_ok {params : List ParamSpec} {index : Nat}
    {slots slots' : Vector ActionParam max_action_params}
    (hroom : index + params.length ≤ max_action_params)
    (h : pack_params id_hash params index slots = .ok slots') :
    ∃ packed, List.Forall₂ (fun param slot => ActionParam.new id_hash param = .ok slot)
        params packed ∧
      slots'.toList.take (index + params.length) = slots.toList.take index ++ packed := by
  induction params generalizing index slots with
  | nil =>
    obtain rfl := Except.ok.inj h
    exact ⟨[], .nil, by simp⟩
  | cons param params ih =>
    obtain ⟨slot, hslot, h⟩ := Fallible.bind_ok h
    rw [List.length_cons] at hroom
    obtain ⟨packed, hpacked, htake⟩ := ih (by omega) h
    refine ⟨slot :: packed, .cons hslot hpacked, ?_⟩
    -- Later slots are written behind this one and leave it alone.
    have hset : (slots.setIfInBounds index slot).toList.take (index + 1) =
        slots.toList.take index ++ [slot] := by
      have hindex : index < slots.toList.length := by
        rw [Vector.length_toList]
        omega
      rw [Vector.toList_setIfInBounds, List.take_add_one, List.take_set_of_le (Nat.le_refl index),
        List.getElem?_set_self hindex]
      rfl
    rw [List.length_cons, Nat.add_comm params.length, ← Nat.add_assoc, htake, hset,
      List.append_assoc]
    rfl

theorem pack_params_of_fits {params : List ParamSpec}
    (hhash : ∀ param ∈ params, param.name_hash = id_hash param.name)
    (hfits : ∀ param ∈ params, ParamFits param) (index : Nat)
    (slots : Vector ActionParam max_action_params) :
    ∃ slots', pack_params id_hash params index slots = .ok slots' := by
  induction params generalizing index slots with
  | nil => exact ⟨slots, rfl⟩
  | cons param params ih =>
    obtain ⟨slot, hslot⟩ := ActionParam.new_of_fits (hhash param List.mem_cons_self)
      (hfits param List.mem_cons_self)
    unfold pack_params
    rw [hslot]
    exact ih (fun p hp => hhash p (List.mem_cons_of_mem _ hp))
      (fun p hp => hfits p (List.mem_cons_of_mem _ hp)) _ _

/-- The packed parameters are read as what their specifications say. -/
theorem mapM_new {params : List ParamSpec} {packed : List ActionParam}
    (h : List.Forall₂ (fun param slot => ActionParam.new id_hash param = .ok slot) params packed) :
    packed.mapM (AdvertisedActionParam.new id_hash) = .ok (params.map shown_param) := by
  induction h with
  | nil => rfl
  | cons hslot _ ih =>
    rw [List.mapM_cons, (ActionParam.new_ok hslot).2.2, ih]
    rfl

end parameters

/-! ### The round trip -/

variable {id_hash : String → Nat}

/-- A sample that was packed comes from a row that fits, and is read as that row. -/
theorem ActionAdvertise.new_ok {from_ : Nat} {entry : ActionCatalogEntry}
    {sample : ActionAdvertise} (h : ActionAdvertise.new id_hash from_ entry = .ok sample)
    (board_hash : Nat) (board_label : String) : entry.Hashed id_hash ∧ entry.Fits ∧
      AdvertisedAction.new id_hash board_hash board_label sample =
        .ok (entry.shown board_hash board_label) := by
  unfold ActionAdvertise.new at h
  split at h
  · cases h
  split at h
  · cases h
  split at h
  · cases h
  next hdevice_hash haction_hash hfew =>
    rw [not_not] at hdevice_hash haction_hash
    rw [Nat.not_lt] at hfew
    obtain ⟨⟨device_len, device⟩, hdevice, h⟩ := Fallible.bind_ok h
    obtain ⟨⟨action_len, action⟩, haction, h⟩ := Fallible.bind_ok h
    obtain ⟨⟨description_len, description⟩, hdescription, h⟩ := Fallible.bind_ok h
    obtain ⟨params, hparams, h⟩ := Fallible.bind_ok h
    obtain rfl := Except.ok.inj h
    obtain ⟨hdevice, -, hdevice_read⟩ := pack_str_ok (by decide) hdevice
    obtain ⟨haction, -, haction_read⟩ := pack_str_ok (by decide) haction
    obtain ⟨hdescription, -, hdescription_read⟩ := pack_str_ok (by decide) hdescription
    obtain ⟨packed, hpacked, htake⟩ := pack_params_ok (by omega) hparams
    -- That a parameter was packed says that its hash is right and that it fits.
    have hslots (param) (hparam : param ∈ entry.params) : param.name_hash = id_hash param.name ∧
        ParamFits param := by
      obtain ⟨slot, -, hslot⟩ := Fallible.forall₂_exists_right hpacked hparam
      exact ⟨(ActionParam.new_ok hslot).1, (ActionParam.new_ok hslot).2.1⟩
    refine ⟨⟨hdevice_hash, haction_hash, fun param hparam => (hslots param hparam).1⟩,
      ⟨hdevice, haction, hdescription, hfew, fun param hparam => (hslots param hparam).2⟩, ?_⟩
    -- All slots that were filled are read, and no other.
    have hcount : (if entry.params.length < 2 ^ 8 then UInt8.ofNat entry.params.length
        else 255).toNat = entry.params.length := by
      have hlt : entry.params.length < 2 ^ 8 := by
        unfold max_action_params at hfew
        omega
      rw [if_pos hlt]
      exact UInt8.toNat_ofNat_of_lt' hlt
    dsimp only at hdevice_read haction_read hdescription_read
    unfold AdvertisedAction.new
    dsimp only
    rw [hdevice_read, haction_read, if_neg (not_not.mpr hdevice_hash),
      if_neg (not_not.mpr haction_hash), hcount, Nat.min_eq_left hfew]
    rw [Nat.zero_add] at htake
    rw [htake, List.take_zero, List.nil_append, mapM_new hpacked]
    have hdescription_len : description_len.toUInt16.toNat = description_len.toNat := by simp
    rw [hdescription_len, hdescription_read]
    rfl

/-- A row that fits, and whose hashes are those of its names, is packed. -/
theorem ActionAdvertise.new_of_fits {entry : ActionCatalogEntry} (hhash : entry.Hashed id_hash)
    (hfits : entry.Fits) (from_ : Nat) :
    ∃ sample, ActionAdvertise.new id_hash from_ entry = .ok sample := by
  obtain ⟨device, hdevice, -⟩ := pack_str_of_le (by decide) hfits.device
    ActionAdvertise.default.device "device"
  obtain ⟨action, haction, -⟩ := pack_str_of_le (by decide) hfits.action
    ActionAdvertise.default.action "action"
  obtain ⟨description, hdescription, -⟩ := pack_str_of_le (by decide) hfits.description
    ActionAdvertise.default.description "description"
  obtain ⟨params, hparams⟩ := pack_params_of_fits hhash.params hfits.params 0
    ActionAdvertise.default.params
  unfold ActionAdvertise.new
  rw [if_neg (not_not.mpr hhash.device), if_neg (not_not.mpr hhash.action),
    if_neg (Nat.not_lt.mpr hfits.few)]
  dsimp only
  rw [hdevice, haction, hdescription]
  dsimp only [Bind.bind, Except.bind]
  rw [hparams]
  exact ⟨_, rfl⟩

/-- A row is packed exactly when its hashes are right and everything in it is within its
    capacity, and what is packed is read as the row again. -/
theorem catalog_round_trip (id_hash : String → Nat) (from_ board_hash : Nat)
    (board_label : String) (entry : ActionCatalogEntry) :
    ((∃ sample, ActionAdvertise.new id_hash from_ entry = .ok sample) ↔
      entry.Hashed id_hash ∧ entry.Fits) ∧
    ∀ sample, ActionAdvertise.new id_hash from_ entry = .ok sample →
      AdvertisedAction.new id_hash board_hash board_label sample =
        .ok (entry.shown board_hash board_label) := by
  refine ⟨⟨?_, ?_⟩, ?_⟩
  · rintro ⟨sample, h⟩
    obtain ⟨hhash, hfits, -⟩ := ActionAdvertise.new_ok h board_hash board_label
    exact ⟨hhash, hfits⟩
  · rintro ⟨hhash, hfits⟩
    exact ActionAdvertise.new_of_fits hhash hfits from_
  · intro sample h
    exact (ActionAdvertise.new_ok h board_hash board_label).2.2

/-- The action of a switch, with one parameter; names have their lengths as hashes. -/
def hold : ActionCatalogEntry where
  device := "sw1"
  device_hash := 3
  action := "hold"
  action_hash := 4
  description := "指定した仮想時間だけスイッチを押す"
  params := [⟨"milliseconds", 12, some "ms", some "", some (.finite 1), none, none⟩]

/-- The round trip of the action; its parameter's description is empty, and then absent. -/
theorem catalog_round_trip_hold : (hold.shown 9 "board-a").params =
      [⟨12, "milliseconds", some "ms", none, some (.finite 1), none, none⟩] ∧
    ∃ sample, ActionAdvertise.new String.length 9 hold = .ok sample ∧
      AdvertisedAction.new String.length 9 "board-a" sample = .ok (hold.shown 9 "board-a") := by
  refine ⟨by decide, ?_⟩
  have hhash : hold.Hashed String.length := ⟨by decide, by decide, by decide⟩
  have hfits : hold.Fits := by
    refine ⟨by decide, by decide, by decide, by decide, ?_⟩
    intro param hparam
    obtain rfl := List.mem_singleton.mp hparam
    refine ⟨by decide, ?_, ?_⟩
    · rintro _ ⟨⟩
      decide
    · rintro _ ⟨⟩
      decide
  obtain ⟨hpacks, hround⟩ := catalog_round_trip String.length 9 9 "board-a" hold
  obtain ⟨sample, hsample⟩ := hpacks.mpr ⟨hhash, hfits⟩
  exact ⟨sample, hsample, hround sample hsample⟩

end Rl78Sim.ActionWire
