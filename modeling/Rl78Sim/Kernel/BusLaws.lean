import Rl78Sim.Kernel.MapLaws

/-! # Laws of the Bus

    A bus that the builder returned finds a device for every access that lies
    inside a window, and finds the same one whatever accesses came before: an
    access changes the device that it is for, and of its bytes only those in
    its range.
-/

namespace Rl78Sim

open Windows Fallible

variable {D : Type}

/-! ## Chains of aliases -/

/-- The chain of a region ends `offset` bytes into the device at
    `device_base`. -/
inductive Leads (regions : List (MappedRegion D)) : MappedRegion D → Nat → Nat → Prop where
  | device (r : MappedRegion D) (d : Device D) : r.backing = .Device d →
      Leads regions r r.base 0
  | link (r next : MappedRegion D) (target_base target_offset device_base offset : Nat) :
      r.backing = .Alias target_base target_offset →
      (regions.find? fun r => r.base = target_base) = some next →
      Leads regions next device_base offset →
      Leads regions r device_base (target_offset + offset)

namespace Leads

variable {regions : List (MappedRegion D)} {r : MappedRegion D}

/-- A chain has one end. -/
theorem unique {device_base offset : Nat} (h : Leads regions r device_base offset) :
    ∀ {device_base' offset' : Nat}, Leads regions r device_base' offset' →
      device_base = device_base' ∧ offset = offset' := by
  induction h with
  | device r d hd =>
    intro device_base' offset' h'
    cases h' with
    | device _ d' hd' => exact ⟨rfl, rfl⟩
    | link _ _ _ _ _ _ ha =>
      rw [hd] at ha
      cases ha
  | link r next target_base target_offset device_base offset ha hnext _ ih =>
    intro device_base' offset' h'
    cases h' with
    | device _ d' hd' =>
      rw [ha] at hd'
      cases hd'
    | link _ next' _ _ _ offset' ha' hnext' hrest' =>
      rw [ha] at ha'
      cases ha'
      rw [hnext] at hnext'
      cases hnext'
      obtain ⟨hbase, hoffset⟩ := ih hrest'
      exact ⟨hbase, by rw [hoffset]⟩

/-- A chain of at least one alias ends at the device that its base finds. -/
theorem found {device_base offset : Nat} (h : Leads regions r device_base offset) :
    (∃ d, r.backing = .Device d ∧ r.base = device_base) ∨
      ∃ R d, (regions.find? fun r => r.base = device_base) = some R ∧ R.backing = .Device d := by
  induction h with
  | device r d hd => exact Or.inl ⟨d, hd, rfl⟩
  | link r next target_base target_offset device_base offset _ hnext _ ih =>
    rcases ih with ⟨d, hd, hbase⟩ | hfound
    · have hnext_base : next.base = target_base := by simpa using List.find?_some hnext
      rw [← hbase, hnext_base]
      exact Or.inr ⟨next, d, hnext, hd⟩
    · exact Or.inr hfound

end Leads

theorem saturating_add_assoc (a b c : Nat) :
    saturating_add (saturating_add a b) c = saturating_add a (b + c) := by
  unfold saturating_add
  omega

/-- The walk along a chain adds up its offsets. -/
theorem resolve_alias_chain_ok {regions : List (MappedRegion D)} {device_base offset : Nat}
    (path : List Nat) (r : MappedRegion D) (hmem : r ∈ regions) (accum : Nat)
    (haccum : accum ≤ u64_max)
    (h : resolve_alias_chain regions path r hmem accum = .ok (device_base, offset)) :
    ∃ n, Leads regions r device_base n ∧ offset = saturating_add accum n := by
  rw [resolve_alias_chain] at h
  split at h
  · rename_i d hd
    cases h
    exact ⟨0, Leads.device r d hd, by unfold saturating_add; omega⟩
  · rename_i target_base target_offset ha
    split at h
    · cases h
    · rename_i hseen
      have := unseen_concat_lt hmem hseen
      simp only at h
      split at h
      · cases h
      · rename_i next hnext
        obtain ⟨n, hleads, hoffset⟩ := resolve_alias_chain_ok _ next _ _
          (saturating_add_le_max _ _) h
        refine ⟨target_offset + n, Leads.link r next _ _ _ _ ha hnext hleads, ?_⟩
        rw [hoffset, saturating_add_assoc]
termination_by (unseen regions path).length

/-- A region and what flattening makes of it. -/
structure Flattened (regions : List (MappedRegion D)) (r r' : MappedRegion D) : Prop where
  base : r'.base = r.base
  size : r'.size = r.size
  device (d : Device D) : r.backing = .Device d → r'.backing = .Device d
  target (target_base target_offset : Nat) : r.backing = .Alias target_base target_offset →
    ∃ device_base n R d, Leads regions r device_base n ∧
      r'.backing = .Alias device_base (saturating_add 0 n) ∧
      (regions.find? fun r => r.base = device_base) = some R ∧ R.backing = .Device d ∧
      saturating_add (saturating_add 0 n) r.size ≤ R.size

theorem flatten_region_ok {regions : List (MappedRegion D)} {r r' : MappedRegion D}
    {hmem : r ∈ regions} (h : flatten_region regions r hmem = .ok r') :
    Flattened regions r r' := by
  unfold flatten_region at h
  split at h
  · rename_i d hd
    cases h
    refine ⟨rfl, rfl, fun _ h => h, ?_⟩
    intro target_base target_offset ha
    rw [hd] at ha
    cases ha
  · rename_i target_base target_offset ha
    split at h
    · cases h
    · rename_i device_base offset hchain
      split at h
      · cases h
      · rename_i R hfind
        split at h
        · cases h
        · rename_i hroom
          cases h
          -- The chain ends at a device; flattening keeps its base and the sum of the offsets.
          obtain ⟨n, hleads, hoffset⟩ :=
            resolve_alias_chain_ok [] r hmem 0 (Nat.zero_le _) hchain
          refine ⟨rfl, rfl, ?_, ?_⟩
          · intro d hd
            rw [ha] at hd
            cases hd
          · intro tb off _
            obtain ⟨d, hd, -⟩ | ⟨R', d, hfind', hd⟩ := hleads.found
            · rw [ha] at hd
              cases hd
            · rw [hfind] at hfind'
              cases hfind'
              subst hoffset
              exact ⟨device_base, n, R, d, hleads, rfl, hfind, hd, Nat.le_of_not_lt hroom⟩

theorem flatten_aliases_ok {regions regions' : List (MappedRegion D)}
    (h : flatten_aliases regions = .ok regions') :
    List.Forall₂ (Flattened regions) regions regions' := by
  have hall := (mapM_ok h).imp fun _ _ hstep => flatten_region_ok hstep
  have hmap := (List.forall₂_map_left_iff (f := Subtype.val)).mpr hall
  rwa [List.attach_map_subtype_val] at hmap

/-! ## The bus -/

theorem device_mut_eq_some {bus : MemoryBus D} {i : Nat} {d : Device D} :
    bus.device_mut i = some d ↔ ∃ r, bus.regions[i]? = some r ∧ r.backing = .Device d := by
  unfold MemoryBus.device_mut
  split
  · rename_i d' hi
    simp [hi]
  · rename_i hi
    constructor
    · intro h
      cases h
    · rintro ⟨r, hr, hd⟩
      obtain ⟨base, size, backing⟩ := r
      subst hd
      exact absurd hr (hi base size d)

theorem find_base_congr {regions regions' : List (MappedRegion D)}
    (h : regions'.map (·.base) = regions.map (·.base)) (base : Nat) :
    find_base regions' base = find_base regions base := by
  have hmap (rs : List (MappedRegion D)) :
      find_base rs base = (rs.map (·.base)).findIdx? fun b => b = base := by
    unfold find_base
    rw [List.findIdx?_map]
    rfl
  rw [hmap, hmap, h]

theorem find_region_congr {regions regions' : List (MappedRegion D)}
    (h : regions'.map (·.window) = regions.map (·.window)) (addr : Nat) :
    find_region regions' addr = find_region regions addr := by
  have hmap (rs : List (MappedRegion D)) :
      find_region rs addr = (rs.map (·.window)).findIdx? fun w => w.Holds addr := by
    unfold find_region
    rw [List.findIdx?_map]
    rfl
  rw [hmap, hmap, h]

/-- The regions that a bus was built from. -/
theorem MemoryMapBuilder.build_ok {b : MemoryMapBuilder D} {bus : MemoryBus D}
    (h : b.build = .ok bus) :
    List.Forall₂ (Flattened b.regions) b.regions bus.regions ∧ bus.unmapped_log = [] := by
  unfold MemoryMapBuilder.build at h
  split at h
  · cases h
  · rename_i regions hflat
    cases h
    exact ⟨flatten_aliases_ok hflat, rfl⟩

theorem Flattened.window {regions : List (MappedRegion D)} {r r' : MappedRegion D}
    (h : Flattened regions r r') : r'.window = r.window := by
  unfold MappedRegion.window
  rw [h.base, h.size]

/-- A device that is put back leaves the bus as it was. -/
theorem put_device_self {bus : MemoryBus D} {k : Nat} {d : Device D}
    (h : bus.device_mut k = some d) : bus.put_device k d = bus := by
  obtain ⟨r, hr, hbacking⟩ := device_mut_eq_some.mp h
  have hregions :
      bus.regions.modify k (fun r => { r with backing := .Device d }) = bus.regions := by
    refine List.ext_getElem? fun i => ?_
    rw [List.getElem?_modify]
    by_cases hik : k = i
    · subst hik
      rw [hr]
      simp [← hbacking]
    · simp [hik]
  unfold MemoryBus.put_device
  rw [hregions]

/-- The length of the buffer behind the host pointer. -/
def Device.host_len (d : Device D) : Option Nat := d.host_ptr.map List.length

namespace MemoryBus

variable {bus bus' : MemoryBus D}

/-- An access inside the window of a device reaches the device. -/
theorem resolve_device (h : Separate bus.regions) {i : Nat} {r : MappedRegion D} {d : Device D}
    {addr len : Nat} (hi : bus.regions[i]? = some r) (hd : r.backing = .Device d)
    (hr : r.window.Holds addr) (hlen : saturating_add (addr - r.base) len ≤ r.size) :
    bus.resolve addr len = .ok (i, addr - r.base) := by
  unfold resolve
  simp only [h.find_region hi hr, hi, if_neg (Nat.not_lt.mpr hlen), hd]

/-- An access inside an alias window reaches the device of its target. -/
theorem resolve_alias (h : Separate bus.regions) {i j target_base target_offset : Nat}
    {r : MappedRegion D} {addr len : Nat} (hi : bus.regions[i]? = some r)
    (ha : r.backing = .Alias target_base target_offset)
    (hj : find_base bus.regions target_base = some j) (hr : r.window.Holds addr)
    (hlen : saturating_add (addr - r.base) len ≤ r.size) :
    bus.resolve addr len = .ok (j, saturating_add target_offset (addr - r.base)) := by
  unfold resolve
  simp only [h.find_region hi hr, hi, if_neg (Nat.not_lt.mpr hlen), ha, hj]

/-- No region holds the address. -/
theorem resolve_none {addr len : Nat} (h : ∀ r ∈ bus.regions, ¬ r.window.Holds addr) :
    bus.resolve addr len = .error (.Unmapped addr len) := by
  have hnone : find_region bus.regions addr = none := by
    unfold find_region
    rw [List.findIdx?_eq_none_iff]
    simpa using h
  unfold resolve
  rw [hnone]

/-- No region holds the last address. -/
theorem resolve_end (bus : MemoryBus D) (len : Nat) :
    bus.resolve u64_max len = .error (.Unmapped u64_max len) := by
  apply resolve_none
  intro r _ hr
  rw [holds_iff] at hr
  omega

/-- Where an access that resolves lies. -/
theorem resolve_ok {addr len k off : Nat} (h : bus.resolve addr len = .ok (k, off)) :
    ∃ i r, bus.regions[i]? = some r ∧ r.window.Holds addr ∧
      saturating_add (addr - r.base) len ≤ r.size ∧
      ((∃ d, r.backing = .Device d ∧ k = i ∧ off = addr - r.base) ∨
        ∃ target_base target_offset, r.backing = .Alias target_base target_offset ∧
          find_base bus.regions target_base = some k ∧
          off = saturating_add target_offset (addr - r.base)) := by
  unfold resolve at h
  split at h
  · cases h
  · rename_i i hfind
    split at h
    · cases h
    · rename_i r hi
      -- The window found holds the address.
      obtain ⟨r', hi', hholds⟩ := findIdx?_spec hfind
      rw [hi] at hi'
      cases hi'
      split at h
      · cases h
      · rename_i hlen
        have hr : r.window.Holds addr := by simpa using hholds
        refine ⟨i, r, hi, hr, Nat.le_of_not_lt hlen, ?_⟩
        split at h
        · rename_i d hd
          cases h
          exact Or.inl ⟨d, hd, rfl, rfl⟩
        · rename_i target_base target_offset ha
          split at h
          · cases h
          · rename_i j hj
            cases h
            exact Or.inr ⟨target_base, target_offset, ha, hj, rfl⟩

/-! ### Accesses leave the layout alone -/

theorem map_modify_eq {α β : Type} {l : List α} {i : Nat} {f : α → α} {g : α → β}
    (h : ∀ a, g (f a) = g a) : (l.modify i f).map g = l.map g := by
  apply List.ext_getElem?
  intro j
  rw [List.getElem?_map, List.getElem?_map, List.getElem?_modify]
  cases l[j]? with
  | none => rfl
  | some a =>
    by_cases hij : i = j
    · simp [hij, h]
    · simp [hij]

theorem put_device_same {k : Nat} {d d' : Device D} (hd : bus.device_mut k = some d) :
    (bus.put_device k d').device_mut k = some d' := by
  obtain ⟨r, hr, -⟩ := device_mut_eq_some.mp hd
  rw [device_mut_eq_some]
  exact ⟨{ r with backing := .Device d' }, by simp [put_device, hr], rfl⟩

theorem put_device_regions_ne {k i : Nat} {d' : Device D} (hne : i ≠ k) :
    (bus.put_device k d').regions[i]? = bus.regions[i]? := by
  simp [put_device, Ne.symm hne]

theorem put_device_ne {k i : Nat} {d' : Device D} (hne : i ≠ k) :
    (bus.put_device k d').device_mut i = bus.device_mut i := by
  unfold device_mut
  rw [put_device_regions_ne hne]

/-- Another device in its place changes nothing about where accesses lie. -/
theorem put_device_resolve {k : Nat} {d d' : Device D} (hd : bus.device_mut k = some d)
    (addr len : Nat) : (bus.put_device k d').resolve addr len = bus.resolve addr len := by
  obtain ⟨r, hr, hbacking⟩ := device_mut_eq_some.mp hd
  have hregion : find_region (bus.put_device k d').regions addr = find_region bus.regions addr :=
    find_region_congr (by unfold put_device; exact map_modify_eq fun _ => rfl) addr
  have hbase (base : Nat) :
      find_base (bus.put_device k d').regions base = find_base bus.regions base :=
    find_base_congr (by unfold put_device; exact map_modify_eq fun _ => rfl) base
  unfold resolve
  simp only [hregion, hbase]
  cases find_region bus.regions addr with
  | none => rfl
  | some i =>
    by_cases hi : i = k
    · subst hi
      have hr' : (bus.put_device i d').regions[i]? = some { r with backing := .Device d' } := by
        simp [put_device, hr]
      simp only [hr', hr, hbacking]
    · simp only [put_device_regions_ne hi]

/-- A later bus: windows and accesses lie where they did, and host buffers have
    the lengths that they had. -/
structure Evolved (bus bus' : MemoryBus D) : Prop where
  windows : bus'.regions.map (·.window) = bus.regions.map (·.window)
  resolve (addr len : Nat) : bus'.resolve addr len = bus.resolve addr len
  device (i : Nat) :
    (bus'.device_mut i).map Device.host_len = (bus.device_mut i).map Device.host_len

theorem Evolved.refl (bus : MemoryBus D) : Evolved bus bus :=
  ⟨rfl, fun _ _ => rfl, fun _ => rfl⟩

theorem Evolved.trans {bus₁ bus₂ bus₃ : MemoryBus D} (h : Evolved bus₁ bus₂)
    (h' : Evolved bus₂ bus₃) : Evolved bus₁ bus₃ :=
  ⟨h'.windows.trans h.windows, fun addr len => (h'.resolve addr len).trans (h.resolve addr len),
    fun i => (h'.device i).trans (h.device i)⟩

/-- A bus with the same regions. -/
theorem Evolved.of_regions (h : bus'.regions = bus.regions) : Evolved bus bus' := by
  refine ⟨by rw [h], ?_, ?_⟩
  · intro addr len
    unfold MemoryBus.resolve
    rw [h]
  · intro i
    unfold device_mut
    rw [h]

/-- An address resolves to one region at most. -/
def OneRegion (bus : MemoryBus D) : Prop :=
  ∀ (addr i j : Nat) (r s : MappedRegion D), bus.regions[i]? = some r → bus.regions[j]? = some s →
    r.window.Holds addr → s.window.Holds addr → i = j

theorem Evolved.oneRegion (he : Evolved bus bus') (h : Separate bus.regions) : bus'.OneRegion := by
  intro addr i j r s hi hj hr hs
  have hseparate : Separate bus'.regions := by
    unfold Separate
    rw [he.windows]
    exact h
  exact hseparate.eq_of_holds hi hj hr hs

/-- Every access that resolves finds a device. -/
def Serves (bus : MemoryBus D) : Prop :=
  ∀ addr len k off, bus.resolve addr len = .ok (k, off) → ∃ d, bus.device_mut k = some d

theorem Serves.evolved (h : bus.Serves) (he : Evolved bus bus') : bus'.Serves := by
  intro addr len k off hok
  rw [he.resolve] at hok
  obtain ⟨d, hd⟩ := h addr len k off hok
  have hdevice := he.device k
  rw [hd] at hdevice
  obtain ⟨d', hd', -⟩ := Option.map_eq_some_iff.mp hdevice
  exact ⟨d', hd'⟩

end MemoryBus

section Bus

variable [MemoryMapped D]

/-- What every bus from a builder satisfies. -/
structure MemoryBus.Wf (bus : MemoryBus D) : Prop where
  separate : Separate bus.regions
  target : ∀ r ∈ bus.regions, ∀ target_base target_offset,
    r.backing = .Alias target_base target_offset →
      ∃ j R d, find_base bus.regions target_base = some j ∧ bus.regions[j]? = some R ∧
        R.backing = .Device d ∧ saturating_add target_offset r.size ≤ R.size
  backed : ∀ r ∈ bus.regions, ∀ d, r.backing = .Device d → r.size = d.len

theorem Built.wf {b : MemoryMapBuilder D} {bus : MemoryBus D} (hbuilt : Built b.regions)
    (h : b.build = .ok bus) : bus.Wf := by
  obtain ⟨hall, -⟩ := MemoryMapBuilder.build_ok h
  have hwindows : bus.regions.map (·.window) = b.regions.map (·.window) :=
    forall₂_map_eq hall fun _ _ hr => hr.window
  have hbases : bus.regions.map (·.base) = b.regions.map (·.base) :=
    forall₂_map_eq hall fun _ _ hr => hr.base
  refine ⟨?_, ?_, ?_⟩
  · unfold Separate
    rw [hwindows]
    exact hbuilt.separate
  -- The target is looked up by its base, and flattening moves no base.
  · intro r' hr' target_base target_offset ha
    obtain ⟨r, hr, hflat⟩ := forall₂_exists_left hall hr'
    cases hbacking : r.backing with
    | Device d =>
      rw [hflat.device d hbacking] at ha
      cases ha
    | Alias tb off =>
      obtain ⟨device_base, n, R, d, -, hbacking', hfind, hd, hroom⟩ := hflat.target tb off hbacking
      rw [hbacking'] at ha
      cases ha
      obtain ⟨j, hj, hR⟩ := findIdx?_of_find? hfind
      obtain ⟨R', hR', hflat'⟩ := forall₂_getElem? hall hR
      refine ⟨j, R', d, ?_, hR', hflat'.device d hd, by rwa [hflat.size, hflat'.size]⟩
      rw [find_base_congr hbases]
      exact hj
  · intro r' hr' d hd
    obtain ⟨r, hr, hflat⟩ := forall₂_exists_left hall hr'
    cases hbacking : r.backing with
    | Device d' =>
      rw [hflat.device d' hbacking] at hd
      cases hd
      rw [hflat.size]
      exact hbuilt.backed r hr d hbacking
    | Alias tb off =>
      obtain ⟨device_base, n, R, d', -, hbacking', -⟩ := hflat.target tb off hbacking
      rw [hbacking'] at hd
      cases hd

namespace MemoryBus

variable {bus : MemoryBus D}

/-- An access that resolves finds a device. -/
theorem Wf.device_of_resolve (h : bus.Wf) {addr len k off : Nat}
    (hok : bus.resolve addr len = .ok (k, off)) : ∃ d, bus.device_mut k = some d := by
  obtain ⟨i, r, hi, -, -, ⟨d, hd, rfl, -⟩ | ⟨target_base, target_offset, ha, hj, -⟩⟩ :=
    resolve_ok hok
  · exact ⟨d, device_mut_eq_some.mpr ⟨r, hi, hd⟩⟩
  · obtain ⟨j, R, d, hj', hR, hd, -⟩ :=
      h.target r (List.mem_of_getElem? hi) target_base target_offset ha
    rw [hj] at hj'
    cases hj'
    exact ⟨d, device_mut_eq_some.mpr ⟨R, hR, hd⟩⟩

/-- An access inside a window resolves. -/
theorem Wf.resolve_inside (h : bus.Wf) {i : Nat} {r : MappedRegion D} {addr len : Nat}
    (hi : bus.regions[i]? = some r) (hr : r.window.Holds addr)
    (hlen : saturating_add (addr - r.base) len ≤ r.size) :
    ∃ k off, bus.resolve addr len = .ok (k, off) := by
  cases hbacking : r.backing with
  | Device d => exact ⟨_, _, resolve_device h.separate hi hbacking hr hlen⟩
  | Alias target_base target_offset =>
    obtain ⟨j, _, _, hj, -⟩ :=
      h.target r (List.mem_of_getElem? hi) target_base target_offset hbacking
    exact ⟨_, _, resolve_alias h.separate hi hbacking hj hr hlen⟩

/-! ## Accesses -/

end MemoryBus

/-- As many bytes as before, and the same ones outside a range. -/
def SameOutside (bytes bytes' : List UInt8) (offset len : Nat) : Prop :=
  bytes'.length = bytes.length ∧ ∀ k, k < offset ∨ offset + len ≤ k → bytes'[k]? = bytes[k]?

theorem SameOutside.refl (bytes : List UInt8) (offset len : Nat) :
    SameOutside bytes bytes offset len :=
  ⟨rfl, fun _ _ => rfl⟩

theorem sameOutside_overwrite {data buf : List UInt8} {offset : Nat}
    (h : offset + buf.length ≤ data.length) :
    SameOutside data (overwrite data offset buf) offset buf.length := by
  refine ⟨length_overwrite h, ?_⟩
  intro k hk
  unfold overwrite
  have htake : (data.take offset).length = offset := by simp; omega
  rcases hk with hk | hk
  · rw [List.append_assoc, List.getElem?_append_left (by omega), List.getElem?_take_of_lt hk]
  · rw [List.getElem?_append_right (by simp; omega), List.getElem?_drop]
    congr 1
    simp
    omega

theorem sameOutside_copied_into {data : Bytes} {offset : Nat} {buf : List UInt8} :
    SameOutside data.data (copied_into data offset buf).2.data offset buf.length := by
  unfold copied_into copy_into
  by_cases h : offset + buf.length ≤ u64_max ∧ offset + buf.length ≤ data.data.length
  · simp only [dif_pos h]
    exact sameOutside_overwrite h.2
  · simp only [dif_neg h]
    exact SameOutside.refl _ _ _

namespace Device

variable {d : Device D} {op : Op} {offset : Nat} {buf : List UInt8}

theorem serve_host_none (h : d.host_ptr = none) : (d.serve op offset buf).2.2.host_ptr = none := by
  cases d with
  | Ram data => cases h
  | Rom data => cases h
  | Mmio device => cases op <;> rfl

theorem serve_host_some {bytes : List UInt8} (h : d.host_ptr = some bytes) (op : Op)
    (offset : Nat) (buf : List UInt8) :
    ∃ bytes', (d.serve op offset buf).2.2.host_ptr = some bytes' ∧
      SameOutside bytes bytes' offset buf.length := by
  cases d with
  | Ram data =>
    cases h
    cases op with
    | read => exact ⟨_, rfl, SameOutside.refl _ _ _⟩
    | write => exact ⟨_, rfl, sameOutside_copied_into⟩
    | load => exact ⟨_, rfl, SameOutside.refl _ _ _⟩
  | Rom data =>
    cases h
    cases op with
    | read => exact ⟨_, rfl, SameOutside.refl _ _ _⟩
    | write => exact ⟨_, rfl, SameOutside.refl _ _ _⟩
    | load => exact ⟨_, rfl, sameOutside_copied_into⟩
  | Mmio device => cases h

theorem serve_host_len : (d.serve op offset buf).2.2.host_len = d.host_len := by
  unfold host_len
  cases hhost : d.host_ptr with
  | none => rw [serve_host_none hhost]
  | some bytes =>
    obtain ⟨bytes', hbytes', hlen, -⟩ := serve_host_some hhost op offset buf
    rw [hbytes', Option.map_some, Option.map_some, hlen]

end Device

namespace MemoryBus

variable {bus bus' : MemoryBus D}

/-- What an access does: it is refused, or it is served by the device that it
    resolves to. -/
theorem access_cases {op : Op} {addr : Nat} {buf : List UInt8} {served : Served D}
    (h : bus.access op addr buf = some served) :
    ((∃ err, bus.resolve addr buf.length = .error err) ∧ served.bus.regions = bus.regions) ∨
      ∃ k off d, bus.resolve addr buf.length = .ok (k, off) ∧ bus.device_mut k = some d ∧
        served = ⟨rewrite_result (d.serve op off buf).1 addr, (d.serve op off buf).2.1,
          bus.put_device k (d.serve op off buf).2.2⟩ := by
  unfold access at h
  split at h
  · rename_i hres
    cases h
    exact Or.inl ⟨⟨_, hres⟩, rfl⟩
  · rename_i err hres
    cases h
    exact Or.inl ⟨⟨_, hres⟩, rfl⟩
  · rename_i k off hres
    obtain ⟨d, hd, hserved⟩ := Option.map_eq_some_iff.mp h
    exact Or.inr ⟨k, off, d, hres, hd, hserved.symm⟩

theorem access_evolved {op : Op} {addr : Nat} {buf : List UInt8} {served : Served D}
    (h : bus.access op addr buf = some served) : Evolved bus served.bus := by
  obtain ⟨-, hregions⟩ | ⟨k, off, d, -, hd, rfl⟩ := access_cases h
  · exact Evolved.of_regions hregions
  · refine ⟨map_modify_eq fun _ => rfl, put_device_resolve hd, ?_⟩
    intro i
    by_cases hi : i = k
    · subst hi
      rw [put_device_same hd, hd, Option.map_some, Option.map_some, Device.serve_host_len]
    · rw [put_device_ne hi]

theorem Wf.serves (h : bus.Wf) : bus.Serves := fun _ _ _ _ hok => h.device_of_resolve hok

/-- No access panics. -/
theorem Serves.access (h : bus.Serves) (op : Op) (addr : Nat) (buf : List UInt8) :
    ∃ served, bus.access op addr buf = some served := by
  unfold MemoryBus.access
  split
  · exact ⟨_, rfl⟩
  · exact ⟨_, rfl⟩
  · rename_i k off hres
    obtain ⟨d, hd⟩ := h _ _ _ _ hres
    rw [hd]
    exact ⟨_, rfl⟩

/-- One call on a bus. -/
theorem Serves.call (h : bus.Serves) (c : BusCall) :
    ∃ bus', bus.call c = some bus' ∧ Evolved bus bus' := by
  have hop (op : Op) (addr : Nat) (buf : List UInt8) :
      ∃ bus', (bus.access op addr buf).map (·.bus) = some bus' ∧ Evolved bus bus' := by
    obtain ⟨served, hserved⟩ := h.access op addr buf
    exact ⟨served.bus, by rw [hserved]; rfl, access_evolved hserved⟩
  cases c with
  | read addr buf => exact hop .read addr buf
  | write addr buf => exact hop .write addr buf
  | load addr buf => exact hop .load addr buf
  | take_unmapped_log => exact ⟨_, rfl, Evolved.of_regions rfl⟩
  | take_trap => exact ⟨_, rfl, Evolved.of_regions rfl⟩

/-- Any sequence of calls on a bus. -/
theorem Serves.after (calls : List BusCall) : ∀ {bus : MemoryBus D}, bus.Serves →
    ∃ bus', bus.after calls = some bus' ∧ Evolved bus bus' := by
  induction calls with
  | nil =>
    intro bus _
    exact ⟨bus, rfl, Evolved.refl bus⟩
  | cons c calls ih =>
    intro bus h
    obtain ⟨bus₁, hcall, hfirst⟩ := h.call c
    obtain ⟨bus₂, hafter, hrest⟩ := ih (h.evolved hfirst)
    refine ⟨bus₂, ?_, hfirst.trans hrest⟩
    unfold MemoryBus.after at hafter ⊢
    rw [List.foldlM_cons, hcall]
    exact hafter

end MemoryBus

end Bus

end Rl78Sim
