import Rl78Sim.Kernel.BusLaws

/-! # Host Windows

    What the bus tells of its memory: for every region the host pointer of the
    device behind it, if the device has one. A host pointer is a place in the
    buffer of a device.
-/

namespace Rl78Sim

open Windows Fallible

variable {D : Type}

/-- A `*mut u8` into the buffer of the device of a region. -/
structure HostPtr where
  device : Nat
  offset : Nat
  deriving DecidableEq

/-- `add`. -/
def HostPtr.add (p : HostPtr) (n : Nat) : HostPtr := ⟨p.device, p.offset + n⟩

/-- The host pointer that `for_each_region` reports for region `i`. -/
def MemoryBus.region_host (bus : MemoryBus D) (i : Nat) (r : MappedRegion D) :
    Option (Option HostPtr) :=
  match r.backing with
  | .Device _ => (bus.device_mut i).map fun d => d.host_ptr.map fun _ => ⟨i, 0⟩
  | .Alias target_base target_offset =>
    (find_base bus.regions target_base).bind fun target =>
      (bus.device_mut target).map fun d =>
        d.host_ptr.map fun _ => (HostPtr.mk target 0).add target_offset

/-- `for_each_region`: what it reports, in order. -/
def MemoryBus.for_each_region (bus : MemoryBus D) : Option (List (Nat × Nat × Option HostPtr)) :=
  bus.regions.zipIdx.mapM fun (r, i) => (bus.region_host i r).map fun host => (r.base, r.size, host)

/-- The device of the region, behind an alias or not, has no host pointer. -/
def MemoryBus.IsMmio (bus : MemoryBus D) (r : MappedRegion D) : Prop :=
  (∃ d, r.backing = .Device d ∧ d.host_ptr = none) ∨
    ∃ target_base target_offset j d, r.backing = .Alias target_base target_offset ∧
      find_base bus.regions target_base = some j ∧ bus.device_mut j = some d ∧ d.host_ptr = none

theorem one_byte_inside {r : MappedRegion D} {addr : Nat} (hr : r.window.Holds addr) :
    saturating_add (addr - r.base) 1 ≤ r.size := by
  rw [holds_iff] at hr
  exact (saturating_add_le _ _).trans (by omega)

section Lies

variable {bus : MemoryBus D}

/-- What binding finds: every region, with the host pointer of its device. -/
structure Visits (bus : MemoryBus D) (visited : List (Nat × Nat × Option HostPtr)) : Prop where
  windows : visited.map (fun v => guest_window v.1 v.2.1) = bus.regions.map MappedRegion.window
  mem (base size : Nat) (host : Option HostPtr) : (base, size, host) ∈ visited ↔
    ∃ i r, bus.regions[i]? = some r ∧ r.base = base ∧ r.size = size ∧
      bus.region_host i r = some host

theorem mapM_eq_some {α β : Type} {f : α → Option β} {g : α → β} {l : List α}
    (h : ∀ a ∈ l, f a = some (g a)) : l.mapM f = some (l.map g) := by
  induction l with
  | nil => rfl
  | cons a l ih =>
    rw [List.mapM_cons, h a List.mem_cons_self, ih fun a' ha' => h a' (List.mem_cons_of_mem _ ha')]
    rfl

variable [MemoryMapped D]

theorem Device.len_of_host_ptr {d : Device D} {bytes : List UInt8} (h : d.host_ptr = some bytes) :
    d.len = bytes.length ∧ bytes.length ≤ isize_max := by
  cases d with
  | Ram data =>
    cases h
    exact ⟨rfl, data.fits⟩
  | Rom data =>
    cases h
    exact ⟨rfl, data.fits⟩
  | Mmio device => cases h

/-- Where the window of a region lies: `off` bytes into the device `k`, and
    inside its buffer if it has one. -/
structure Lies (bus : MemoryBus D) (i : Nat) (r : MappedRegion D) (k off : Nat) (d : Device D) :
    Prop where
  device : bus.device_mut k = some d
  host : bus.region_host i r = some (d.host_ptr.map fun _ => ⟨k, off⟩)
  resolve (addr : Nat) : r.window.Holds addr →
    bus.resolve addr 1 = .ok (k, saturating_add off (addr - r.base))
  inside (bytes : List UInt8) : d.host_ptr = some bytes →
    off + r.size ≤ bytes.length ∧ bytes.length ≤ isize_max
  mmio : d.host_ptr = none ↔ bus.IsMmio r

theorem MemoryBus.Wf.lies (h : bus.Wf) {i : Nat} {r : MappedRegion D}
    (hi : bus.regions[i]? = some r) : ∃ k off d, Lies bus i r k off d := by
  have hmem : r ∈ bus.regions := List.mem_of_getElem? hi
  cases hbacking : r.backing with
  | Device d =>
    have hd : bus.device_mut i = some d := device_mut_eq_some.mpr ⟨r, hi, hbacking⟩
    refine ⟨i, 0, d, hd, ?_, ?_, ?_, ?_⟩
    · unfold MemoryBus.region_host
      rw [hbacking]
      show (bus.device_mut i).map _ = _
      rw [hd]
      rfl
    · intro addr hr
      rw [MemoryBus.resolve_device h.separate hi hbacking hr (one_byte_inside hr)]
      rw [holds_iff] at hr
      unfold saturating_add
      congr 2
      omega
    · intro bytes hbytes
      obtain ⟨hlen, hmax⟩ := Device.len_of_host_ptr hbytes
      have hsize : r.size = d.len := h.backed r hmem d hbacking
      omega
    · constructor
      · intro hnone
        exact Or.inl ⟨d, hbacking, hnone⟩
      · rintro (⟨d', hd', hnone⟩ | ⟨_, _, _, _, ha, -⟩)
        · rw [hbacking] at hd'
          cases hd'
          exact hnone
        · rw [hbacking] at ha
          cases ha
  | Alias target_base target_offset =>
    obtain ⟨j, R, d, hj, hR, hdevice, hroom⟩ := h.target r hmem _ _ hbacking
    have hd : bus.device_mut j = some d := device_mut_eq_some.mpr ⟨R, hR, hdevice⟩
    refine ⟨j, target_offset, d, hd, ?_, ?_, ?_, ?_⟩
    · unfold MemoryBus.region_host
      rw [hbacking]
      show (find_base bus.regions target_base).bind _ = _
      rw [hj, Option.bind_some, hd, Option.map_some]
      simp [HostPtr.add]
    · intro addr hr
      exact MemoryBus.resolve_alias h.separate hi hbacking hj hr (one_byte_inside hr)
    · intro bytes hbytes
      obtain ⟨hlen, hmax⟩ := Device.len_of_host_ptr hbytes
      have hsize : R.size = d.len := h.backed R (List.mem_of_getElem? hR) d hdevice
      -- the device is shorter than the cap of the sum
      unfold saturating_add u64_max at hroom
      unfold isize_max at hmax ⊢
      omega
    · constructor
      · intro hnone
        exact Or.inr ⟨target_base, target_offset, j, d, hbacking, hj, hd, hnone⟩
      · rintro (⟨d', hd', -⟩ | ⟨tb, off, j', d', ha, hj', hd', hnone⟩)
        · rw [hbacking] at hd'
          cases hd'
        · rw [hbacking] at ha
          cases ha
          rw [hj] at hj'
          cases hj'
          rw [hd] at hd'
          cases hd'
          exact hnone

/-- A bus in use: the windows are separate, and each of them lies in a device. -/
structure MemoryBus.Mapped (bus : MemoryBus D) : Prop where
  separate : Separate bus.regions
  serves : bus.Serves
  lies (i : Nat) (r : MappedRegion D) : bus.regions[i]? = some r → ∃ k off d, Lies bus i r k off d

theorem MemoryBus.Wf.mapped (h : bus.Wf) : bus.Mapped :=
  ⟨h.separate, h.serves, fun _ _ hi => h.lies hi⟩

omit [MemoryMapped D] in
theorem MemoryBus.Mapped.visits (h : bus.Mapped) :
    ∃ visited, bus.for_each_region = some visited ∧ Visits bus visited := by
  have hhost (p : MappedRegion D × Nat) (hp : p ∈ bus.regions.zipIdx) :
      ∃ host, bus.region_host p.2 p.1 = some host := by
    obtain ⟨k, off, d, hlies⟩ := h.lies _ _ (List.mem_zipIdx_iff_getElem?.mp hp)
    exact ⟨_, hlies.host⟩
  refine ⟨bus.regions.zipIdx.map fun p =>
    (p.1.base, p.1.size, (bus.region_host p.2 p.1).getD none), ?_, ?_, ?_⟩
  · unfold for_each_region
    apply mapM_eq_some
    intro p hp
    obtain ⟨host, hhost⟩ := hhost p hp
    simp [hhost]
  · rw [List.map_map]
    have hfst : bus.regions = bus.regions.zipIdx.map Prod.fst := by simp
    conv_rhs => rw [hfst, List.map_map]
    rfl
  · intro base size host
    constructor
    · intro hmem
      obtain ⟨p, hp, heq⟩ := List.mem_map.mp hmem
      obtain ⟨host', hhost⟩ := hhost p hp
      rw [hhost] at heq
      cases heq
      exact ⟨p.2, p.1, List.mem_zipIdx_iff_getElem?.mp hp, rfl, rfl, hhost⟩
    · rintro ⟨i, r, hi, rfl, rfl, hr⟩
      refine List.mem_map.mpr ⟨(r, i), List.mem_zipIdx_iff_getElem?.mpr hi, ?_⟩
      simp [hr]

theorem MemoryBus.Wf.visits (h : bus.Wf) :
    ∃ visited, bus.for_each_region = some visited ∧ Visits bus visited :=
  h.mapped.visits

/-- A read from a host buffer: the bytes are copied, and nothing changes. -/
theorem read_host {bus : MemoryBus D} {addr k off : Nat} {d : Device D} {bytes buf : List UInt8}
    (hok : bus.resolve addr buf.length = .ok (k, off)) (hd : bus.device_mut k = some d)
    (hhost : d.host_ptr = some bytes) (hin : off + buf.length ≤ bytes.length) :
    bus.read addr buf = some ⟨.ok (), (bytes.drop off).take buf.length, bus⟩ := by
  obtain ⟨-, hmax⟩ := Device.len_of_host_ptr hhost
  have hcopy (data : Bytes) (hdata : data.data = bytes) :
      copied_from data off buf = (.ok (), (bytes.drop off).take buf.length) := by
    subst hdata
    unfold copied_from copy_from
    have hroom : off + buf.length ≤ u64_max ∧ off + buf.length ≤ data.data.length := by
      unfold u64_max
      unfold isize_max at hmax
      omega
    rw [if_pos hroom]
  have hserve : d.serve .read off buf = (.ok (), (bytes.drop off).take buf.length, d) := by
    cases d with
    | Ram data =>
      show ((copied_from data off buf).1, (copied_from data off buf).2, Device.Ram data) = _
      rw [hcopy data (Option.some.inj hhost)]
    | Rom data =>
      show ((copied_from data off buf).1, (copied_from data off buf).2, Device.Rom data) = _
      rw [hcopy data (Option.some.inj hhost)]
    | Mmio device => cases hhost
  unfold MemoryBus.read MemoryBus.access
  rw [hok]
  show (bus.device_mut k).map _ = _
  rw [hd, Option.map_some, hserve]
  simp only [put_device_self hd]
  rfl

/-- A read of one byte from a host buffer. -/
theorem read_one_byte {bus : MemoryBus D} {addr k off : Nat} {d : Device D} {bytes : List UInt8}
    (hok : bus.resolve addr 1 = .ok (k, off)) (hd : bus.device_mut k = some d)
    (hhost : d.host_ptr = some bytes) (hin : off < bytes.length) (old : UInt8) :
    ∃ served, bus.read addr [old] = some served ∧ served.result = .ok () ∧
      served.buf = [bytes[off]] := by
  have hread : bus.read addr [old] = _ := read_host hok hd hhost hin
  refine ⟨_, hread, rfl, ?_⟩
  rw [List.length_singleton, List.drop_eq_getElem_cons hin]
  rfl

end Lies

/-! ## A bus in use -/

/-- The target of an alias. -/
def RegionBacking.link : RegionBacking D → Option (Nat × Nat)
  | .Device _ => none
  | .Alias target_base target_offset => some (target_base, target_offset)

namespace MemoryBus

variable {bus bus' : MemoryBus D}

/-- The regions without their devices. -/
def layout (bus : MemoryBus D) : List (Nat × Nat × Option (Nat × Nat)) :=
  bus.regions.map fun r => (r.base, r.size, r.backing.link)

theorem put_device_layout {k : Nat} {d d' : Device D} (hd : bus.device_mut k = some d) :
    (bus.put_device k d').layout = bus.layout := by
  obtain ⟨r, hr, hbacking⟩ := device_mut_eq_some.mp hd
  apply List.ext_getElem?
  intro i
  unfold layout
  rw [List.getElem?_map, List.getElem?_map]
  by_cases hi : i = k
  · subst hi
    have hput : (bus.put_device i d').regions[i]? = some { r with backing := .Device d' } := by
      simp [put_device, hr]
    rw [hput, hr, Option.map_some, Option.map_some, hbacking]
    rfl
  · rw [put_device_regions_ne hi]

/-- The host pointer of a region depends on the layout and on which devices have
    a buffer. -/
theorem region_host_congr {i : Nat} {r r' : MappedRegion D} (he : Evolved bus bus')
    (hlayout : bus'.layout = bus.layout) (hlink : r'.backing.link = r.backing.link) :
    bus'.region_host i r' = bus.region_host i r := by
  have hhost (k n : Nat) :
      (bus'.device_mut k).map (fun d => d.host_ptr.map fun _ => HostPtr.mk k n) =
        (bus.device_mut k).map fun d => d.host_ptr.map fun _ => HostPtr.mk k n := by
    -- whether a device has host memory does not change, though its bytes may
    have hdevice := he.device k
    have hmap (b : MemoryBus D) :
        (b.device_mut k).map (fun d => d.host_ptr.map fun _ => HostPtr.mk k n) =
          ((b.device_mut k).map Device.host_len).map fun len => len.map fun _ => ⟨k, n⟩ := by
      rw [Option.map_map]
      congr 1
      funext d
      unfold Device.host_len
      rw [Function.comp_apply, Option.map_map]
      rfl
    rw [hmap, hmap, hdevice]
  have hbases : bus'.regions.map (·.base) = bus.regions.map (·.base) := by
    have hfst := congrArg (List.map Prod.fst) hlayout
    unfold layout at hfst
    rwa [List.map_map, List.map_map] at hfst
  unfold region_host
  cases hr : r.backing with
  | Device d =>
    cases hr' : r'.backing with
    | Device d' => exact hhost i 0
    | Alias _ _ =>
      rw [hr, hr'] at hlink
      cases hlink
  | Alias target_base target_offset =>
    cases hr' : r'.backing with
    | Device _ =>
      rw [hr, hr'] at hlink
      cases hlink
    | Alias _ _ =>
      rw [hr, hr'] at hlink
      cases hlink
      show (find_base bus'.regions target_base).bind _ = (find_base bus.regions target_base).bind _
      rw [find_base_congr hbases]
      congr 1
      funext k
      exact hhost k _

theorem region_host_eq_none {i : Nat} {r : MappedRegion D} (hi : bus.regions[i]? = some r)
    (hserved : ∃ host, bus.region_host i r = some host) :
    bus.region_host i r = some none ↔ bus.IsMmio r := by
  unfold region_host IsMmio at *
  cases hr : r.backing with
  | Device d =>
    have hd : bus.device_mut i = some d := device_mut_eq_some.mpr ⟨r, hi, hr⟩
    simp [hd]
  | Alias target_base target_offset =>
    simp only [hr] at hserved ⊢
    cases hj : find_base bus.regions target_base with
    | none => simp [hj] at hserved
    | some j =>
      cases hd : bus.device_mut j with
      | none => simp [hj, hd] at hserved
      | some d => simp [hj, hd]

/-- A later bus with the same layout is in use as the one before was. -/
theorem Mapped.evolved (h : bus.Mapped) (he : Evolved bus bus')
    (hlayout : bus'.layout = bus.layout) : bus'.Mapped := by
  refine ⟨?_, h.serves.evolved he, ?_⟩
  · unfold Separate
    rw [he.windows]
    exact h.separate
  · intro i r' hi'
    -- the region as it was
    have hsame := congrArg (fun l => l[i]?) hlayout
    unfold layout at hsame
    simp only [List.getElem?_map, hi', Option.map_some] at hsame
    obtain ⟨r, hi, hparts⟩ := Option.map_eq_some_iff.mp hsame.symm
    obtain ⟨hbase, hrest⟩ := Prod.mk.inj hparts
    obtain ⟨hsize, hlink⟩ := Prod.mk.inj hrest
    obtain ⟨k, off, d, hlies⟩ := h.lies i r hi
    have hdevice := he.device k
    rw [hlies.device, Option.map_some] at hdevice
    obtain ⟨d', hd', hlen⟩ := Option.map_eq_some_iff.mp hdevice
    have hhost := region_host_congr (i := i) he hlayout hlink.symm
    have hptr : (d'.host_ptr.map fun _ => HostPtr.mk k off) =
        d.host_ptr.map fun _ => HostPtr.mk k off := by
      have hmap := congrArg (Option.map fun _ => HostPtr.mk k off) hlen
      unfold Device.host_len at hmap
      rw [Option.map_map, Option.map_map] at hmap
      exact hmap
    rw [hlies.host, ← hptr] at hhost
    refine ⟨k, off, d', hd', hhost, ?_, ?_, ?_⟩
    · intro addr hr
      rw [he.resolve, ← hbase]
      apply hlies.resolve
      unfold MappedRegion.window at hr ⊢
      rwa [hbase, hsize]
    · intro bytes' hbytes'
      unfold Device.host_len at hlen
      rw [hbytes', Option.map_some] at hlen
      obtain ⟨bytes, hbytes, hlength⟩ := Option.map_eq_some_iff.mp hlen.symm
      rw [← hsize, ← hlength]
      exact hlies.inside bytes hbytes
    · rw [← region_host_eq_none hi' ⟨_, hhost⟩, hhost]
      simp

/-- A shorter access at an address finds what a longer one does. -/
theorem resolve_shorter {addr len len' k off : Nat} (h : bus.resolve addr len = .ok (k, off))
    (hle : len' ≤ len) : bus.resolve addr len' = .ok (k, off) := by
  unfold resolve at h ⊢
  split at h
  · cases h
  · split at h
    · cases h
    · rename_i index _ region hregion
      split at h
      · cases h
      · rename_i hroom
        have hroom' : ¬ region.size < saturating_add (addr - region.base) len' := by
          unfold saturating_add at hroom ⊢
          omega
        simp only [if_neg hroom']
        split at h
        · exact h
        · split at h
          · cases h
          · exact h

/-- The bytes of an access that reaches a memory, one by one. -/
theorem Mapped.resolve_byte (h : bus.Mapped) {addr len k off : Nat} {d : Device D}
    {bytes : List UInt8} (hok : bus.resolve addr len = .ok (k, off))
    (hd : bus.device_mut k = some d) (hhost : d.host_ptr = some bytes)
    (hend : addr + len ≤ u64_max) (hpos : 0 < len) :
    off + len ≤ bytes.length ∧ bytes.length ≤ isize_max ∧
      ∀ j < len, bus.resolve (addr + j) 1 = .ok (k, off + j) := by
  obtain ⟨i, r, hi, hr, hlen, -⟩ := resolve_ok hok
  obtain ⟨k', off', d', hlies⟩ := h.lies i r hi
  -- The access lies where its first byte lies.
  have hfirst := resolve_shorter hok (Nat.succ_le_of_lt hpos)
  rw [hlies.resolve addr hr] at hfirst
  obtain ⟨rfl, hoff⟩ := Prod.mk.inj (Except.ok.inj hfirst)
  have hsame := hlies.device
  rw [hd] at hsame
  cases hsame
  obtain ⟨hroom, hmax⟩ := hlies.inside bytes hhost
  rw [holds_iff] at hr
  unfold isize_max at hmax ⊢
  -- A memory ends far below the limit, so no sum saturates.
  have hsize : addr - r.base + len ≤ r.size := by
    unfold saturating_add u64_max at hlen
    omega
  have hexact : off = off' + (addr - r.base) := by
    rw [← hoff]
    unfold saturating_add u64_max
    omega
  refine ⟨by omega, hmax, ?_⟩
  intro j hj
  have hheld : r.window.Holds (addr + j) := by
    rw [holds_iff]
    omega
  rw [hlies.resolve _ hheld]
  congr 2
  unfold saturating_add u64_max
  omega

/-- A longer access inside the window lies where its first byte does. -/
theorem Mapped.resolve_inside (h : bus.Mapped) {i k off addr len : Nat} {r : MappedRegion D}
    {d : Device D} (hi : bus.regions[i]? = some r) (hlies : Lies bus i r k off d)
    (hr : r.window.Holds addr) (hlen : saturating_add (addr - r.base) len ≤ r.size) :
    bus.resolve addr len = .ok (k, saturating_add off (addr - r.base)) := by
  obtain ⟨i', r', hi', hr', -, hplace⟩ := resolve_ok (hlies.resolve addr hr)
  have hsame : i' = i := h.separate.eq_of_holds hi' hi hr' hr
  subst hsame
  rw [hi] at hi'
  cases hi'
  rcases hplace with ⟨d', hd', hk, hoff⟩ | ⟨target_base, target_offset, ha, hj, hoff⟩
  · rw [hk, hoff]
    exact resolve_device h.separate hi hd' hr hlen
  · rw [hoff]
    exact resolve_alias h.separate hi ha hj hr hlen

variable [MemoryMapped D]

theorem access_layout {op : Op} {addr : Nat} {buf : List UInt8} {served : Served D}
    (h : bus.access op addr buf = some served) : served.bus.layout = bus.layout := by
  obtain ⟨-, hregions⟩ | ⟨k, off, d, -, hd, rfl⟩ := access_cases h
  · unfold layout
    rw [hregions]
  · exact put_device_layout hd

theorem call_layout {c : BusCall} (h : bus.call c = some bus') : bus'.layout = bus.layout := by
  have hop {op : Op} {addr : Nat} {buf : List UInt8}
      (h : (bus.access op addr buf).map (·.bus) = some bus') : bus'.layout = bus.layout := by
    obtain ⟨served, hserved, rfl⟩ := Option.map_eq_some_iff.mp h
    exact access_layout hserved
  cases c with
  | read addr buf => exact hop h
  | write addr buf => exact hop h
  | load addr buf => exact hop h
  | take_unmapped_log =>
    cases h
    rfl
  | take_trap =>
    cases h
    rfl

theorem Mapped.access (h : bus.Mapped) {op : Op} {addr : Nat} {buf : List UInt8}
    {served : Served D} (hserved : bus.access op addr buf = some served) : served.bus.Mapped :=
  h.evolved (access_evolved hserved) (access_layout hserved)

/-- Any sequence of calls on a bus in use. -/
theorem Mapped.after (history : List BusCall) : ∀ {bus bus' : MemoryBus D}, bus.Mapped →
    bus.after history = some bus' → bus'.Mapped := by
  induction history with
  | nil =>
    intro bus bus' h hafter
    cases hafter
    exact h
  | cons c history ih =>
    intro bus bus' h hafter
    obtain ⟨bus₁, hcall, he⟩ := h.serves.call c
    unfold MemoryBus.after at hafter
    rw [List.foldlM_cons, hcall] at hafter
    exact ih (h.evolved he (call_layout hcall)) hafter

end MemoryBus

end Rl78Sim
