import Rl78Sim.Kernel.BusLaws

/-! # Alias Windows

    An access through an alias and the access at its absolute target meet the
    same bytes of the same device, whatever chain of aliases and merges lies
    between them. The one address of which this fails is the last one: a window
    that holds it is accepted, but its capped end leaves it to no region.
-/

namespace Rl78Sim

open Windows Fallible

variable {D : Type} [MemoryMapped D]

/-! ## What accesses have in common -/

/-- The error without the address and the offset. -/
def BusError.forget : BusError → BusError
  | .Unmapped _ len => .Unmapped 0 len
  | .OutOfRange _ _ len => .OutOfRange 0 0 len
  | .ReadOnly _ => .ReadOnly 0
  | .NotLoadable _ => .NotLoadable 0

/-- The record without the address. -/
def UnmappedRecord.forget (a : UnmappedRecord) : UnmappedRecord := { a with addr := 0 }

/-- The bus, with no addresses in its records. -/
def MemoryBus.forget (bus : MemoryBus D) : MemoryBus D :=
  { bus with
    unmapped_log := bus.unmapped_log.map UnmappedRecord.forget
    trap := bus.trap.map UnmappedRecord.forget }

/-- The outcome of an access without addresses and offsets. -/
def Served.forget (s : Served D) : Served D :=
  ⟨s.result.mapError BusError.forget, s.buf, s.bus.forget⟩

/-- A byte of a device with a host buffer. -/
def MemoryBus.byte_at (bus : MemoryBus D) (k i : Nat) : Option UInt8 :=
  ((bus.device_mut k).bind Device.host_ptr).bind fun bytes => bytes[i]?

/-- What an access may change: the device that it resolves to, and of the bytes
    there those in its range. -/
structure Confined (bus bus' : MemoryBus D) (addr len : Nat) : Prop where
  region (i : Nat) : (∀ off, bus.resolve addr len ≠ .ok (i, off)) →
    bus'.regions[i]? = bus.regions[i]?
  byte (k off : Nat) : bus.resolve addr len = .ok (k, off) →
    ∀ i, i < off ∨ off + len ≤ i → bus'.byte_at k i = bus.byte_at k i

/-- Every access inside the alias window is the access at the absolute target
    address. -/
def AliasWindow.Transparent (w : AliasWindow) (bus : MemoryBus D) : Prop :=
  ∀ op off buf, off < w.size → off + buf.length ≤ w.size →
    ∃ here there, bus.access op (w.alias_base + off) buf = some here ∧
      bus.access op (w.target + off) buf = some there ∧ here.forget = there.forget ∧
      Confined bus here.bus (w.alias_base + off) buf.length

/-- Neither the window nor its target range holds the last address. -/
def AliasWindow.BelowEnd (w : AliasWindow) : Prop :=
  w.alias_base + w.size ≤ u64_max ∧ w.target + w.size ≤ u64_max

theorem rewrite_result_forget (res : Except BusError Unit) (addr addr' : Nat) :
    (rewrite_result res addr).mapError BusError.forget =
      (rewrite_result res addr').mapError BusError.forget := by
  cases res with
  | ok _ => rfl
  | error err => cases err <;> rfl

/-- Accesses that resolve to the same place have the same outcome. -/
theorem access_forget {bus : MemoryBus D} {op : Op} {addr addr' : Nat} {buf : List UInt8}
    {here there : Served D} {k off : Nat} (hhere : bus.access op addr buf = some here)
    (hthere : bus.access op addr' buf = some there)
    (hok : bus.resolve addr buf.length = .ok (k, off))
    (hok' : bus.resolve addr' buf.length = .ok (k, off)) : here.forget = there.forget := by
  unfold MemoryBus.access at hhere hthere
  simp only [hok, hok'] at hhere hthere
  obtain ⟨d, hd, rfl⟩ := Option.map_eq_some_iff.mp hhere
  obtain ⟨d', hd', rfl⟩ := Option.map_eq_some_iff.mp hthere
  rw [hd] at hd'
  cases hd'
  unfold Served.forget
  simp only [rewrite_result_forget _ addr addr']

/-- Every access is confined to its range. -/
theorem access_confined {bus : MemoryBus D} {op : Op} {addr : Nat} {buf : List UInt8}
    {served : Served D} (h : bus.access op addr buf = some served) :
    Confined bus served.bus addr buf.length := by
  obtain ⟨⟨err, herr⟩, hregions⟩ | ⟨k, off, d, hok, hd, rfl⟩ := MemoryBus.access_cases h
  · refine ⟨fun i _ => by rw [hregions], ?_⟩
    intro k off hok
    rw [herr] at hok
    cases hok
  · refine ⟨?_, ?_⟩
    · intro i hi
      apply MemoryBus.put_device_regions_ne
      intro hik
      subst hik
      exact hi off hok
    · intro k' off' hok' i hi
      rw [hok] at hok'
      cases hok'
      unfold MemoryBus.byte_at
      rw [MemoryBus.put_device_same hd, hd, Option.bind_some, Option.bind_some]
      cases hhost : d.host_ptr with
      | none => rw [Device.serve_host_none hhost]
      | some bytes =>
        obtain ⟨bytes', hbytes', -, hsame⟩ := Device.serve_host_some hhost op off buf
        rw [hbytes']
        exact hsame i hi

/-! ## Windows and their targets -/

/-- The alias region `r` of `w` beside the region that its target lies in. -/
structure Mirrors (w : AliasWindow) (r R : MappedRegion D) (target_offset : Nat) : Prop where
  backing : r.backing = .Alias R.base target_offset
  base : r.base = w.alias_base
  size : r.size = w.size
  target : R.base + target_offset = w.target
  holds : R.window.Holds w.target
  room : target_offset + w.size ≤ R.size
  apart : w.alias_base ≠ w.target

/-- A window whose regions fit lies inside its target, without saturation. -/
theorem Built.mirrors {regions : List (MappedRegion D)} (hbuilt : Built regions)
    (hfits : ∀ r ∈ regions, r.base + r.size ≤ u64_max + 1) {w : AliasWindow}
    {r : MappedRegion D} (hr : r ∈ regions) (hmade : w.Made r) :
    ∃ R ∈ regions, ∃ target_offset, Mirrors w r R target_offset := by
  obtain ⟨hbase, hsize, target_base, target_offset, hbacking, htarget⟩ := hmade
  obtain ⟨R, hR, rfl, hholds, hroom, hmeets⟩ :=
    hbuilt.target r hr target_base target_offset hbacking
  rw [htarget] at hholds
  have hpos : 0 < r.size := hbuilt.pos r hr
  have hfit : r.base + r.size ≤ u64_max + 1 := hfits r hr
  have hfitR : R.base + R.size ≤ u64_max + 1 := hfits R hR
  have hin := holds_iff.mp hholds
  have hmeets' : ¬ (R.base < min (r.base + r.size) u64_max ∧
      r.base < min (R.base + R.size) u64_max) := hmeets
  have hroom' : min (target_offset + r.size) u64_max ≤ R.size := hroom
  refine ⟨R, hR, target_offset, hbacking, hbase, hsize, htarget, hholds, ?_, ?_⟩
  · omega
  · omega

/-- An access below the end of the address space and inside both windows
    reaches one place by either address. -/
theorem resolve_through_alias {b : MemoryMapBuilder D} {bus : MemoryBus D}
    (hbuilt : Built b.regions) (hbuild : b.build = .ok bus) {w : AliasWindow}
    {r R : MappedRegion D} {target_offset : Nat} (hr : r ∈ b.regions) (hR : R ∈ b.regions)
    (hw : Mirrors w r R target_offset) (hend : w.BelowEnd) {off len : Nat} (hoff : off < w.size)
    (hlen : off + len ≤ w.size) :
    ∃ k o, bus.resolve (w.alias_base + off) len = .ok (k, o) ∧
      bus.resolve (w.target + off) len = .ok (k, o) := by
  obtain ⟨hall, -⟩ := MemoryMapBuilder.build_ok hbuild
  have hwf : bus.Wf := hbuilt.wf hbuild
  obtain ⟨hend_alias, hend_target⟩ := hend
  obtain ⟨hbacking, hbase, hsize, htarget, hholds, hroom, -⟩ := hw
  -- the two regions after flattening
  obtain ⟨i, hi⟩ := List.mem_iff_getElem?.mp hr
  obtain ⟨j, hj⟩ := List.mem_iff_getElem?.mp hR
  obtain ⟨r', hi', hflat⟩ := forall₂_getElem? hall hi
  obtain ⟨R', hj', hflatR⟩ := forall₂_getElem? hall hj
  have hr_holds : r'.window.Holds (w.alias_base + off) := by
    rw [hflat.window, holds_iff]
    omega
  have hR_holds : R'.window.Holds (w.target + off) := by
    rw [hflatR.window, holds_iff]
    omega
  have hr_len : saturating_add (w.alias_base + off - r'.base) len ≤ r'.size := by
    rw [hflat.base, hflat.size]
    exact (saturating_add_le _ _).trans (by omega)
  have hR_len : saturating_add (w.target + off - R'.base) len ≤ R'.size := by
    rw [hflatR.base, hflatR.size]
    exact (saturating_add_le _ _).trans (by omega)
  have hbases : bus.regions.map (·.base) = b.regions.map (·.base) :=
    forall₂_map_eq hall fun _ _ h => h.base
  -- the first link of the chain leads to `R`
  have hfirst : find_base b.regions R.base = some j :=
    hbuilt.separate.find_base hbuilt.pos hj hholds
  obtain ⟨device_base, n, dev, d, hleads, hbacking', hfind, -⟩ := hflat.target _ _ hbacking
  obtain ⟨k, hk, -⟩ := findIdx?_of_find? hfind
  have hk' : find_base bus.regions device_base = some k := by
    rw [find_base_congr hbases]
    exact hk
  have hhere := MemoryBus.resolve_alias hwf.separate hi' hbacking' hk' hr_holds hr_len
  cases hleads with
  | device _ _ hd =>
    rw [hbacking] at hd
    cases hd
  | link _ next _ _ _ n hlink hnext hrest =>
    rw [hbacking] at hlink
    cases hlink
    rw [find?_of_findIdx? hfirst hj] at hnext
    cases hnext
    cases hR_backing : R.backing with
    | Device dR =>
      -- the target is a device: the chain ends there
      obtain ⟨rfl, rfl⟩ := hrest.unique (Leads.device R dR hR_backing)
      have hkj : k = j := by
        unfold find_base at hfirst
        rw [hfirst] at hk
        cases hk
        rfl
      subst hkj
      have hthere := MemoryBus.resolve_device hwf.separate hj' (hflatR.device dR hR_backing)
        hR_holds hR_len
      refine ⟨_, _, hhere, ?_⟩
      rw [hthere, hflatR.base, hflat.base]
      congr 2
      unfold saturating_add
      omega
    | Alias target_base' target_offset' =>
      -- the target is an alias itself: its own chain is the rest of this one
      obtain ⟨device_base', n', _, _, hleads', hbacking'', -⟩ :=
        hflatR.target _ _ hR_backing
      obtain ⟨rfl, rfl⟩ := hrest.unique hleads'
      have hthere := MemoryBus.resolve_alias hwf.separate hj' hbacking'' hk' hR_holds hR_len
      refine ⟨_, _, hhere, ?_⟩
      rw [hthere, hflatR.base, hflat.base]
      congr 2
      unfold saturating_add
      omega

/-- An access that no region holds is recorded, one that resolves is not. -/
theorem forget_ne {bus : MemoryBus D} {op : Op} {addr addr' k off : Nat} {buf : List UInt8}
    {missed met : Served D} (hmissed : bus.access op addr buf = some missed)
    (hmet : bus.access op addr' buf = some met)
    (hnone : bus.resolve addr buf.length = .error (.Unmapped addr buf.length))
    (hok : bus.resolve addr' buf.length = .ok (k, off)) : missed.forget ≠ met.forget := by
  intro heq
  unfold MemoryBus.access at hmissed hmet
  simp only [hnone, hok] at hmissed hmet
  cases hmissed
  obtain ⟨d, -, rfl⟩ := Option.map_eq_some_iff.mp hmet
  have hlen := congrArg (fun s => s.bus.unmapped_log.length) heq
  simp [Served.forget, MemoryBus.forget, MemoryBus.unmapped, MemoryBus.put_device] at hlen

/-- If the window or its target range holds the last address, the access to it
    fails on that side only. -/
theorem not_transparent {b : MemoryMapBuilder D} {bus : MemoryBus D} (hbuilt : Built b.regions)
    (hbuild : b.build = .ok bus) (hfits : ∀ r ∈ b.regions, r.base + r.size ≤ u64_max + 1)
    {w : AliasWindow} {r R : MappedRegion D} {target_offset : Nat} (hr : r ∈ b.regions)
    (hR : R ∈ b.regions) (hw : Mirrors w r R target_offset) (hend : ¬ w.BelowEnd) :
    ¬ w.Transparent bus := by
  intro htransparent
  obtain ⟨hall, -⟩ := MemoryMapBuilder.build_ok hbuild
  have hwf : bus.Wf := hbuilt.wf hbuild
  obtain ⟨hbacking, hbase, hsize, htarget, hholds, hroom, hapart⟩ := hw
  have hpos : 0 < r.size := hbuilt.pos r hr
  have hfit : r.base + r.size ≤ u64_max + 1 := hfits r hr
  have hfitR : R.base + R.size ≤ u64_max + 1 := hfits R hR
  obtain ⟨r', hr', hflat⟩ := forall₂_exists_right hall hr
  obtain ⟨R', hR', hflatR⟩ := forall₂_exists_right hall hR
  obtain ⟨i, hi⟩ := List.mem_iff_getElem?.mp hr'
  obtain ⟨j, hj⟩ := List.mem_iff_getElem?.mp hR'
  obtain ⟨here, there, hhere, hthere, hsame, -⟩ :=
    htransparent .read (w.size - 1) [0] (by omega) (by simp; omega)
  unfold AliasWindow.BelowEnd at hend
  have hin := holds_iff.mp hholds
  by_cases hside : w.alias_base + w.size ≤ u64_max
  · -- the target range ends at the end of the address space
    have hlast : w.target + (w.size - 1) = u64_max := by omega
    have hheld : r'.window.Holds (w.alias_base + (w.size - 1)) := by
      rw [hflat.window, holds_iff]
      omega
    have hlen : saturating_add (w.alias_base + (w.size - 1) - r'.base) 1 ≤ r'.size := by
      rw [hflat.base, hflat.size]
      exact (saturating_add_le _ _).trans (by omega)
    obtain ⟨k, off, hok⟩ := hwf.resolve_inside hi hheld hlen
    rw [hlast] at hthere
    exact forget_ne hthere hhere (MemoryBus.resolve_end bus _) hok hsame.symm
  · -- the window itself does
    have hlast : w.alias_base + (w.size - 1) = u64_max := by omega
    have hheld : R'.window.Holds (w.target + (w.size - 1)) := by
      rw [hflatR.window, holds_iff]
      omega
    have hlen : saturating_add (w.target + (w.size - 1) - R'.base) 1 ≤ R'.size := by
      rw [hflatR.base, hflatR.size]
      exact (saturating_add_le _ _).trans (by omega)
    obtain ⟨k, off, hok⟩ := hwf.resolve_inside hj hheld hlen
    rw [hlast] at hhere
    exact forget_ne hhere hthere (MemoryBus.resolve_end bus _) hok hsame

/-- However a map was put together and whatever accesses came before, every
    address lies in one region at most and every access through an alias is the
    access at its absolute target, exactly if no alias window and no target
    range holds the last address. -/
theorem alias_transparent {calls : MapCalls D} {b : MemoryMapBuilder D} {bus : MemoryBus D}
    (hfits : calls.Fits) (hrun : calls.run = .ok b) (hbuild : b.build = .ok bus) :
    (∀ history, ∃ bus', bus.after history = some bus' ∧ bus'.OneRegion ∧
      ∀ w ∈ calls.aliases, w.Transparent bus') ↔
    ∀ w ∈ calls.aliases, w.BelowEnd := by
  have hbuilt : Built b.regions := MapCalls.built hrun
  have hfit := MapCalls.fits hfits hrun
  have hwf : bus.Wf := hbuilt.wf hbuild
  constructor
  · intro h w hw
    obtain ⟨bus', hafter, -, htransparent⟩ := h []
    cases hafter
    obtain ⟨r, hr, hmade⟩ := MapCalls.made hrun w hw
    obtain ⟨R, hR, target_offset, hmirrors⟩ := hbuilt.mirrors hfit hr hmade
    by_contra hend
    exact not_transparent hbuilt hbuild hfit hr hR hmirrors hend (htransparent w hw)
  · intro hend history
    obtain ⟨bus', hafter, he⟩ := hwf.serves.after history
    refine ⟨bus', hafter, he.oneRegion hwf.separate, ?_⟩
    intro w hw op off buf hoff hlen
    obtain ⟨r, hr, hmade⟩ := MapCalls.made hrun w hw
    obtain ⟨R, hR, target_offset, hmirrors⟩ := hbuilt.mirrors hfit hr hmade
    obtain ⟨k, o, hhere, hthere⟩ :=
      resolve_through_alias hbuilt hbuild hr hR hmirrors (hend w hw) hoff hlen
    rw [← he.resolve] at hhere hthere
    have hserves : bus'.Serves := hwf.serves.evolved he
    obtain ⟨here, haccess⟩ := hserves.access op (w.alias_base + off) buf
    obtain ⟨there, haccess'⟩ := hserves.access op (w.target + off) buf
    exact ⟨here, there, haccess, haccess', access_forget haccess haccess' hhere hthere,
      access_confined haccess⟩

/-- No devices but RAM and ROM. -/
inductive NoDevice where
  deriving DecidableEq

instance : MemoryMapped NoDevice where
  len d := nomatch d
  read d := nomatch d
  write d := nomatch d
  load d := nomatch d
  len_le d := nomatch d

/-- Four bytes. -/
def four_bytes : Bytes := ⟨[10, 11, 12, 13], by decide⟩

/-- Four bytes at the end of the address space, and an alias of them. -/
def map_at_end : MapCalls NoDevice :=
  .alias_ (.map .new (u64_max - 3) (.Ram four_bytes)) 0x1000 (u64_max - 3) 4

/-- The bus of `map_at_end`. -/
def bus_at_end : MemoryBus NoDevice :=
  ⟨[⟨u64_max - 3, 4, .Device (.Ram four_bytes)⟩, ⟨0x1000, 4, .Alias (u64_max - 3) 0⟩], .Log, [],
    none⟩

/-- The last byte is read through the alias and not at its own address. -/
theorem alias_opaque_at_end : map_at_end.Fits ∧
    (∃ b, map_at_end.run = .ok b ∧ b.build = .ok bus_at_end) ∧
    (bus_at_end.read 0x1003 [0]).map (fun s => (s.result, s.buf)) = some (.ok (), [13]) ∧
    (bus_at_end.read u64_max [0]).map (fun s => (s.result, s.buf)) =
      some (.error (.Unmapped u64_max 1), [0]) ∧
    ¬ ∀ history, ∃ bus', bus_at_end.after history = some bus' ∧ bus'.OneRegion ∧
      ∀ w ∈ map_at_end.aliases, w.Transparent bus' := by
  have hhere : (bus_at_end.read 0x1003 [0]).map (fun s => (s.result, s.buf)) =
      some (.ok (), [13]) := by decide +kernel
  have hthere : (bus_at_end.read u64_max [0]).map (fun s => (s.result, s.buf)) =
      some (.error (.Unmapped u64_max 1), [0]) := by decide +kernel
  refine ⟨by simp [map_at_end, MapCalls.Fits, Device.len, four_bytes, u64_max], ?_, hhere, hthere,
    ?_⟩
  · exact ⟨⟨bus_at_end.regions, .Log⟩, by decide +kernel, by decide +kernel⟩
  · intro h
    obtain ⟨bus', hafter, -, htransparent⟩ := h []
    cases hafter
    obtain ⟨here, there, haccess, haccess', hsame, -⟩ :=
      htransparent ⟨0x1000, u64_max - 3, 4⟩ (by decide) .read 3 [0] (by decide) (by decide)
    obtain ⟨_, hread, hbuf⟩ := Option.map_eq_some_iff.mp hhere
    obtain ⟨_, hread', hbuf'⟩ := Option.map_eq_some_iff.mp hthere
    cases hread.symm.trans haccess
    cases hread'.symm.trans haccess'
    have hbufs : here.forget.buf = there.forget.buf := congrArg Served.buf hsame
    unfold Served.forget at hbufs
    rw [(Prod.mk.inj hbuf).2, (Prod.mk.inj hbuf').2] at hbufs
    exact absurd hbufs (by decide)

/-- An alias of an alias, the inner one from a map that was merged in. -/
def chained_map : MapCalls NoDevice :=
  .alias_ (.merge (.map .new 0x5000 (.Rom four_bytes))
    (.alias_ (.map .new 0x1000 (.Ram four_bytes)) 0x2000 0x1001 3)) 0x3000 0x2001 2

theorem alias_transparent_chained : ∃ b bus, chained_map.run = .ok b ∧ b.build = .ok bus ∧
    ∀ history, ∃ bus', bus.after history = some bus' ∧ bus'.OneRegion ∧
      ∀ w ∈ chained_map.aliases, w.Transparent bus' := by
  have hrun : chained_map.run = .ok ⟨[⟨0x5000, 4, .Device (.Rom four_bytes)⟩,
      ⟨0x1000, 4, .Device (.Ram four_bytes)⟩, ⟨0x2000, 3, .Alias 0x1000 1⟩,
      ⟨0x3000, 2, .Alias 0x2000 1⟩], .Log⟩ := by decide +kernel
  have hbuild : MemoryMapBuilder.build (D := NoDevice) ⟨[⟨0x5000, 4, .Device (.Rom four_bytes)⟩,
      ⟨0x1000, 4, .Device (.Ram four_bytes)⟩, ⟨0x2000, 3, .Alias 0x1000 1⟩,
      ⟨0x3000, 2, .Alias 0x2000 1⟩], .Log⟩ = .ok ⟨[⟨0x5000, 4, .Device (.Rom four_bytes)⟩,
      ⟨0x1000, 4, .Device (.Ram four_bytes)⟩, ⟨0x2000, 3, .Alias 0x1000 1⟩,
      ⟨0x3000, 2, .Alias 0x1000 2⟩], .Log, [], none⟩ := by decide +kernel
  have hfits : chained_map.Fits := by
    simp [chained_map, MapCalls.Fits, Device.len, four_bytes, u64_max]
  refine ⟨_, _, hrun, hbuild, (alias_transparent hfits hrun hbuild).mpr ?_⟩
  simp [chained_map, MapCalls.aliases, AliasWindow.BelowEnd, u64_max]

end Rl78Sim
