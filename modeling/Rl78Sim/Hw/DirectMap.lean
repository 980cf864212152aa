import Rl78Sim.Kernel.HostWindows

/-! # The Direct-Access Map

    The host windows that the instruction translator reads guest memory by, and
    the pages that it leaves to the bus. A host pointer is a place in the buffer
    of a device; the calls into the translator's library are kept as a list.
-/

namespace Rl78Sim

open Windows Fallible

variable {D : Type}

/-- `TLIB_PAGE_SIZE`. -/
def tlib_page_size : Nat := 256

/-- `HostRegion`. -/
structure HostRegion where
  guest_base : Nat
  size : Nat
  host : HostPtr
  deriving DecidableEq

/-- The window of a host region. -/
def HostRegion.window (r : HostRegion) : Window Nat := guest_window r.guest_base r.size

/-- `CallbackState`, with the stop latch beside it. -/
structure CallbackState where
  regions : List HostRegion
  io_bus : Bool
  stop : Option StopReason

namespace CallbackState

/-- `find_host`. -/
def find_host (s : CallbackState) (addr : Nat) : Option HostPtr :=
  (s.regions.find? fun r => r.window.Holds addr).map fun r => r.host.add (addr - r.guest_base)

/-- `map_host_region`: the new region drops those that it meets. -/
def map_host_region (s : CallbackState) (r : HostRegion) : CallbackState :=
  { s with
    regions := (s.regions.filter fun v =>
      v.window.stop ≤ r.window.first ∨ r.window.stop ≤ v.window.first) ++ [r] }

/-- `clear_host_regions`. -/
def clear_host_regions (s : CallbackState) : CallbackState := { s with regions := [] }

/-- `take_callback_stop`. -/
def take_callback_stop (s : CallbackState) : CallbackState := { s with stop := none }

/-- `set_io_bus`. -/
def set_io_bus (s : CallbackState) : CallbackState := { s with io_bus := true }

end CallbackState

/-- A call into the translator's library. -/
inductive TlibCall where
  | map_range (base len : Nat)
  | set_page_io_accessed (page : Nat)
  deriving DecidableEq

/-- `Rl78Cpu`, of which binding reads and writes these. -/
structure Rl78Cpu where
  memory_bound : Bool
  mapped_ranges : List (Nat × Nat)
  io_pages : List Nat
  tlib : List TlibCall

/-- The start of the page of an address. -/
def page_of (addr : Nat) : Nat := addr - addr % tlib_page_size

/-- The pages that the loop of `set_io_pages` visits. -/
def pages_from (page stop : Nat) (hstop : stop ≤ u64_max) : List Nat :=
  if hpage : page < stop then
    have : stop - saturating_add page tlib_page_size < stop - page := by
      unfold saturating_add tlib_page_size
      omega
    page :: if saturating_add page tlib_page_size = 0 then []
      else pages_from (saturating_add page tlib_page_size) stop hstop
  else []
termination_by stop - page

namespace Rl78Cpu

/-- `set_io_pages`. -/
def set_io_pages (cpu : Rl78Cpu) (guest_base length : Nat) : Rl78Cpu :=
  if length = 0 then cpu
  else
    let pages := pages_from (page_of guest_base) (saturating_add guest_base length)
      (saturating_add_le_max _ _)
    { cpu with
      tlib := cpu.tlib ++ pages.map TlibCall.set_page_io_accessed
      io_pages := cpu.io_pages ++ pages }

/-- A host window is registered and mapped. -/
def map_host (s : Rl78Cpu × CallbackState) (r : HostRegion) : Rl78Cpu × CallbackState :=
  ({ s.1 with
    tlib := s.1.tlib ++ [.map_range r.guest_base r.size]
    mapped_ranges := s.1.mapped_ranges ++ [(r.guest_base, r.size)] },
    s.2.map_host_region r)

end Rl78Cpu

/-- The regions with a host pointer. -/
def host_regions (visited : List (Nat × Nat × Option HostPtr)) : List HostRegion :=
  visited.filterMap fun (base, size, host) => host.map fun p => ⟨base, size, p⟩

/-- The regions without one. -/
def io_regions (visited : List (Nat × Nat × Option HostPtr)) : List (Nat × Nat) :=
  visited.filterMap fun (base, size, host) => if host = none then some (base, size) else none

/-- `Rl78Cpu::bind_memory`: a second call panics. -/
def Rl78Cpu.bind_memory (cpu : Rl78Cpu) (s : CallbackState) (bus : MemoryBus D) :
    Option (Rl78Cpu × CallbackState) :=
  if cpu.memory_bound then none
  else
    bus.for_each_region.map fun visited =>
      let (cpu, s) := (host_regions visited).foldl Rl78Cpu.map_host
        (cpu, s.clear_host_regions.take_callback_stop)
      let cpu := (io_regions visited).foldl (fun cpu r => cpu.set_io_pages r.1 r.2) cpu
      ({ cpu with memory_bound := true }, s.set_io_bus)

/-- The page is marked by the last of the calls, after all mappings. -/
def Marked (calls : List TlibCall) (page : Nat) : Prop :=
  ∃ before after, calls = before ++ .set_page_io_accessed page :: after ∧
    ∀ base len, .map_range base len ∉ after

/-- The direct map has the answer of the bus: a host pointer to the byte that a
    read returns if the address resolves to a device with a host buffer, and
    none if it does not. -/
def CallbackState.Agrees [MemoryMapped D] (s : CallbackState) (bus : MemoryBus D) (addr : Nat) :
    Prop :=
  match bus.resolve addr 1 with
  | .error _ => s.find_host addr = none
  | .ok (k, off) => ∃ d, bus.device_mut k = some d ∧
    match d.host_ptr with
    | none => s.find_host addr = none
    | some bytes => s.find_host addr = some ⟨k, off⟩ ∧ ∃ byte, bytes[off]? = some byte ∧
      ∀ old, ∃ served, bus.read addr [old] = some served ∧ served.result = .ok () ∧
        served.buf = [byte]

/-! ## Host windows -/

/-- Registering windows that do not meet keeps all of them. -/
theorem map_host_all {rs : List HostRegion} : ∀ {s : Rl78Cpu × CallbackState},
    Apart ((s.2.regions ++ rs).map HostRegion.window) →
      (rs.foldl Rl78Cpu.map_host s).2.regions = s.2.regions ++ rs := by
  induction rs with
  | nil =>
    intro s _
    simp
  | cons r rs ih =>
    intro s h
    have hkept : (s.2.map_host_region r).regions = s.2.regions ++ [r] := by
      unfold CallbackState.map_host_region
      show (s.2.regions.filter _) ++ [r] = _
      congr 1
      -- A region that meets the new one would be replaced, and there is none.
      rw [List.filter_eq_self]
      intro v hv
      have hapart : ¬ v.window.Meets r.window := by
        unfold Apart at h
        rw [List.map_append, List.pairwise_append] at h
        exact h.2.2 v.window (List.mem_map_of_mem hv) r.window (by simp)
      unfold Window.Meets at hapart
      simp only [decide_eq_true_eq]
      omega
    rw [List.foldl_cons, ih]
    · show (s.2.map_host_region r).regions ++ rs = _
      rw [hkept]
      simp
    · show Apart (((s.2.map_host_region r).regions ++ rs).map HostRegion.window)
      rw [hkept]
      simpa using h

section Visits

variable {bus : MemoryBus D}

theorem Visits.mem_host {visited : List (Nat × Nat × Option HostPtr)} (h : Visits bus visited)
    {x : HostRegion} : x ∈ host_regions visited ↔
      ∃ i r, bus.regions[i]? = some r ∧ r.base = x.guest_base ∧ r.size = x.size ∧
        bus.region_host i r = some (some x.host) := by
  rw [← h.mem]
  unfold host_regions
  rw [List.mem_filterMap]
  constructor
  · rintro ⟨⟨base, size, host⟩, hmem, hx⟩
    obtain ⟨p, rfl, rfl⟩ := Option.map_eq_some_iff.mp hx
    exact hmem
  · intro hmem
    exact ⟨_, hmem, rfl⟩

theorem Visits.mem_io {visited : List (Nat × Nat × Option HostPtr)} (h : Visits bus visited)
    {base size : Nat} : (base, size) ∈ io_regions visited ↔
      ∃ i r, bus.regions[i]? = some r ∧ r.base = base ∧ r.size = size ∧
        bus.region_host i r = some none := by
  rw [← h.mem]
  unfold io_regions
  rw [List.mem_filterMap]
  constructor
  · rintro ⟨⟨base', size', host⟩, hmem, hx⟩
    by_cases hnone : host = none
    · subst hnone
      cases hx
      exact hmem
    · simp [hnone] at hx
  · intro hmem
    exact ⟨_, hmem, by simp⟩

/-- No host pointer for an address in no region. -/
theorem Visits.find_host_none {visited : List (Nat × Nat × Option HostPtr)}
    (h : Visits bus visited) {s : CallbackState} (hs : s.regions = host_regions visited)
    {addr : Nat} (hnone : ∀ r ∈ bus.regions, ¬ r.window.Holds addr) : s.find_host addr = none := by
  unfold CallbackState.find_host
  rw [hs, Option.map_eq_none_iff, List.find?_eq_none]
  intro x hx
  obtain ⟨i, r, hi, hbase, hsize, -⟩ := h.mem_host.mp hx
  have hmissed := hnone r (List.mem_of_getElem? hi)
  unfold MappedRegion.window at hmissed
  rw [hbase, hsize] at hmissed
  have hmissed' : ¬ x.window.Holds addr := hmissed
  simpa using hmissed'

end Visits

section Windows

variable [MemoryMapped D] {bus : MemoryBus D}

/-- The windows that binding registers do not meet. -/
theorem Visits.apart {visited : List (Nat × Nat × Option HostPtr)} (h : Visits bus visited)
    (hwf : bus.Wf) : Apart ((host_regions visited).map HostRegion.window) := by
  have hall : visited.Pairwise fun v w =>
      ¬ (guest_window v.1 v.2.1).Meets (guest_window w.1 w.2.1) := by
    have hseparate := hwf.separate
    unfold Separate at hseparate
    rw [← h.windows] at hseparate
    exact List.pairwise_map.mp hseparate
  unfold Apart host_regions
  rw [List.pairwise_map, List.pairwise_filterMap]
  refine hall.imp ?_
  rintro ⟨base, size, host⟩ ⟨base', size', host'⟩ hmeets x hx x' hx'
  obtain ⟨p, -, rfl⟩ := Option.map_eq_some_iff.mp hx
  obtain ⟨p', -, rfl⟩ := Option.map_eq_some_iff.mp hx'
  exact hmeets

/-- The host pointer for an address in a region. -/
theorem Visits.find_host {visited : List (Nat × Nat × Option HostPtr)} (h : Visits bus visited)
    (hwf : bus.Wf) {s : CallbackState} (hs : s.regions = host_regions visited) {i : Nat}
    {r : MappedRegion D} {addr : Nat} {host : Option HostPtr} (hi : bus.regions[i]? = some r)
    (hr : r.window.Holds addr) (hhost : bus.region_host i r = some host) :
    s.find_host addr = host.map fun p => p.add (addr - r.base) := by
  -- The regions are separate, so only `r` itself can hold the address.
  have hone (x : HostRegion) (hx : x ∈ host_regions visited) (hheld : x.window.Holds addr) :
      x.guest_base = r.base ∧ some x.host = host := by
    obtain ⟨j, r', hj, hbase, hsize, hhost'⟩ := h.mem_host.mp hx
    have hheld' : r'.window.Holds addr := by
      unfold MappedRegion.window
      rw [hbase, hsize]
      exact hheld
    have hij : j = i := hwf.separate.eq_of_holds hj hi hheld' hr
    subst hij
    rw [hi] at hj
    cases hj
    rw [hhost] at hhost'
    cases hhost'
    exact ⟨hbase.symm, rfl⟩
  unfold CallbackState.find_host
  rw [hs]
  cases hfind : (host_regions visited).find? fun x => x.window.Holds addr with
  | some x =>
    obtain ⟨hbase, rfl⟩ := hone x (List.mem_of_find?_eq_some hfind)
      (by simpa using List.find?_some hfind)
    rw [Option.map_some, Option.map_some, hbase]
  | none =>
    -- A region that the host can map is in the list, so it would have been found.
    cases host with
    | none => rfl
    | some p =>
      have hmem : (⟨r.base, r.size, p⟩ : HostRegion) ∈ host_regions visited :=
        h.mem_host.mpr ⟨i, r, hi, rfl, rfl, hhost⟩
      have hmissed : ¬ (HostRegion.window ⟨r.base, r.size, p⟩).Holds addr := by
        simpa using List.find?_eq_none.mp hfind _ hmem
      exact absurd hr hmissed

/-- The direct map agrees with every later state of the bus. -/
theorem Visits.agrees {visited : List (Nat × Nat × Option HostPtr)} (h : Visits bus visited)
    (hwf : bus.Wf) {s : CallbackState} (hs : s.regions = host_regions visited)
    {bus' : MemoryBus D} (he : MemoryBus.Evolved bus bus') (addr : Nat) : s.Agrees bus' addr := by
  unfold CallbackState.Agrees
  rw [he.resolve]
  by_cases hheld : ∃ r ∈ bus.regions, r.window.Holds addr
  · obtain ⟨r, hmem, hr⟩ := hheld
    obtain ⟨i, hi⟩ := List.mem_iff_getElem?.mp hmem
    obtain ⟨k, off, d, hlies⟩ := hwf.lies hi
    have hfind := h.find_host hwf hs hi hr hlies.host
    have hok := hlies.resolve addr hr
    have hsame := he.device k
    rw [hlies.device] at hsame
    obtain ⟨d', hd', hlen⟩ := Option.map_eq_some_iff.mp hsame
    unfold Device.host_len at hlen
    rw [hok]
    refine ⟨d', hd', ?_⟩
    cases hhost : d.host_ptr with
    | none =>
      rw [hhost, Option.map_none, Option.map_eq_none_iff] at hlen
      rw [hlen]
      rw [hhost] at hfind
      exact hfind
    | some bytes =>
      rw [hhost, Option.map_some] at hlen
      obtain ⟨bytes', hbytes', hlen⟩ := Option.map_eq_some_iff.mp hlen
      rw [hbytes']
      obtain ⟨hroom, hmax⟩ := hlies.inside bytes hhost
      rw [holds_iff] at hr
      -- A buffer of the host ends far below the limit of the offsets.
      have hexact : saturating_add off (addr - r.base) = off + (addr - r.base) := by
        unfold saturating_add u64_max
        unfold isize_max at hmax
        omega
      have hin : off + (addr - r.base) < bytes'.length := by omega
      rw [hexact] at hok ⊢
      rw [← he.resolve] at hok
      refine ⟨?_, bytes'[off + (addr - r.base)], List.getElem?_eq_getElem hin, ?_⟩
      · rw [hfind, hhost]
        rfl
      · exact read_one_byte hok hd' hbytes' hin
  -- Unmapped for the bus, and in no host region either.
  · have hnone : ∀ r ∈ bus.regions, ¬ r.window.Holds addr := by
      intro r hmem hr
      exact hheld ⟨r, hmem, hr⟩
    rw [MemoryBus.resolve_none hnone]
    exact h.find_host_none hs hnone

end Windows

/-! ## IO pages -/

theorem mem_pages_from {page stop p : Nat} (hstop : stop ≤ u64_max)
    (hpage : page % tlib_page_size = 0) (hp : p % tlib_page_size = 0) (hle : page ≤ p)
    (hlt : p < stop) : p ∈ pages_from page stop hstop := by
  rw [pages_from, dif_pos (Nat.lt_of_le_of_lt hle hlt)]
  by_cases heq : p = page
  · subst heq
    exact List.mem_cons_self
  · have hnext : saturating_add page tlib_page_size = page + tlib_page_size := by
      unfold saturating_add tlib_page_size
      unfold tlib_page_size at hp hpage
      omega
    have hmore : page + tlib_page_size ≤ p := by
      unfold tlib_page_size at hp hpage ⊢
      omega
    apply List.mem_cons_of_mem
    rw [if_neg (by rw [hnext]; unfold tlib_page_size; omega), hnext]
    exact mem_pages_from hstop (by simpa using hpage) hp hmore hlt
termination_by stop - page
decreasing_by
  unfold tlib_page_size
  omega

/-- The pages of a region. -/
def region_pages (r : Nat × Nat) : List Nat :=
  if r.2 = 0 then []
  else pages_from (page_of r.1) (saturating_add r.1 r.2) (saturating_add_le_max _ _)

/-- Every address of a window is on one of its pages, also where the end of the
    window is capped: the last page starts below the last address. -/
theorem page_of_mem {base size addr : Nat} (hle : base ≤ addr) (hlt : addr < base + size)
    (hmax : addr ≤ u64_max) : page_of addr ∈ region_pages (base, size) := by
  unfold region_pages
  rw [if_neg (by simp; omega)]
  apply mem_pages_from
  · unfold page_of tlib_page_size
    omega
  · unfold page_of tlib_page_size
    omega
  · unfold page_of tlib_page_size
    omega
  · unfold page_of tlib_page_size saturating_add u64_max
    unfold u64_max at hmax
    omega

/-- All marks of a list of regions. -/
theorem set_io_pages_all (rs : List (Nat × Nat)) : ∀ cpu : Rl78Cpu,
    (rs.foldl (fun cpu r => cpu.set_io_pages r.1 r.2) cpu).tlib =
        cpu.tlib ++ (rs.flatMap region_pages).map TlibCall.set_page_io_accessed ∧
      (rs.foldl (fun cpu r => cpu.set_io_pages r.1 r.2) cpu).io_pages =
        cpu.io_pages ++ rs.flatMap region_pages := by
  induction rs with
  | nil =>
    intro cpu
    simp
  | cons r rs ih =>
    intro cpu
    have hstep : (cpu.set_io_pages r.1 r.2).tlib =
          cpu.tlib ++ (region_pages r).map TlibCall.set_page_io_accessed ∧
        (cpu.set_io_pages r.1 r.2).io_pages = cpu.io_pages ++ region_pages r := by
      unfold Rl78Cpu.set_io_pages region_pages
      by_cases hzero : r.2 = 0
      · simp [hzero]
      · simp [hzero]
    obtain ⟨htlib, hpages⟩ := ih (cpu.set_io_pages r.1 r.2)
    rw [List.foldl_cons, htlib, hpages, hstep.1, hstep.2]
    simp

/-- A mark among calls that only mark is not undone. -/
theorem marked_of_mem {calls : List TlibCall} {pages : List Nat} {page : Nat} (h : page ∈ pages) :
    Marked (calls ++ pages.map TlibCall.set_page_io_accessed) page := by
  obtain ⟨before, after, rfl⟩ := List.append_of_mem h
  refine ⟨calls ++ before.map TlibCall.set_page_io_accessed,
    after.map TlibCall.set_page_io_accessed, by simp, ?_⟩
  intro base len hmem
  obtain ⟨p, -, hp⟩ := List.mem_map.mp hmem
  cases hp

/-! ## Binding -/

/-- What binding leaves behind. -/
theorem bind_memory_ok {cpu : Rl78Cpu} {s : CallbackState} {bus : MemoryBus D}
    {visited : List (Nat × Nat × Option HostPtr)} (hfree : cpu.memory_bound = false)
    (hvisited : bus.for_each_region = some visited)
    (hapart : Apart ((host_regions visited).map HostRegion.window)) :
    ∃ cpu' s', cpu.bind_memory s bus = some (cpu', s') ∧ s'.regions = host_regions visited ∧
      ∀ r ∈ io_regions visited, ∀ page ∈ region_pages r,
        page ∈ cpu'.io_pages ∧ Marked cpu'.tlib page := by
  unfold Rl78Cpu.bind_memory
  rw [if_neg (by simp [hfree]), hvisited, Option.map_some]
  refine ⟨_, _, rfl, ?_, ?_⟩
  · show ((host_regions visited).foldl Rl78Cpu.map_host _).2.regions = _
    rw [map_host_all]
    · simp [CallbackState.clear_host_regions, CallbackState.take_callback_stop]
    · simpa [CallbackState.clear_host_regions, CallbackState.take_callback_stop] using hapart
  · intro r hr page hpage
    obtain ⟨htlib, hpages⟩ := set_io_pages_all (io_regions visited)
      ((host_regions visited).foldl Rl78Cpu.map_host
        (cpu, s.clear_host_regions.take_callback_stop)).1
    have hmem : page ∈ (io_regions visited).flatMap region_pages :=
      List.mem_flatMap.mpr ⟨r, hr, hpage⟩
    refine ⟨?_, ?_⟩
    · show page ∈ Rl78Cpu.io_pages (List.foldl _ _ (io_regions visited))
      rw [hpages]
      exact List.mem_append_right _ hmem
    · show Marked (Rl78Cpu.tlib (List.foldl _ _ (io_regions visited))) page
      rw [htlib]
      exact marked_of_mem hmem

/-- After a bus from a builder is bound, the direct map agrees with it at every
    address, whatever accesses follow, and every address of an MMIO region is on
    a page that is marked. -/
theorem direct_map_agrees [MemoryMapped D] {calls : MapCalls D} {b : MemoryMapBuilder D}
    {bus : MemoryBus D} (hrun : calls.run = .ok b) (hbuild : b.build = .ok bus) {cpu : Rl78Cpu}
    (hfree : cpu.memory_bound = false) (s : CallbackState) :
    ∃ cpu' s', cpu.bind_memory s bus = some (cpu', s') ∧
      (∀ history, ∃ bus', bus.after history = some bus' ∧ ∀ addr, s'.Agrees bus' addr) ∧
      ∀ r ∈ bus.regions, bus.IsMmio r → ∀ addr ≤ u64_max, r.base ≤ addr →
        addr < r.base + r.size →
          page_of addr ∈ cpu'.io_pages ∧ Marked cpu'.tlib (page_of addr) := by
  have hwf : bus.Wf := (MapCalls.built hrun).wf hbuild
  obtain ⟨visited, hvisited, hvisits⟩ := hwf.visits
  obtain ⟨cpu', s', hbind, hregions, hpages⟩ :=
    bind_memory_ok (s := s) hfree hvisited (hvisits.apart hwf)
  refine ⟨cpu', s', hbind, ?_, ?_⟩
  · intro history
    obtain ⟨bus', hafter, he⟩ := hwf.serves.after history
    exact ⟨bus', hafter, hvisits.agrees hwf hregions he⟩
  · intro r hr hmmio addr hmax hle hlt
    obtain ⟨i, hi⟩ := List.mem_iff_getElem?.mp hr
    obtain ⟨k, off, d, hlies⟩ := hwf.lies hi
    have hnone : bus.region_host i r = some none := by
      rw [hlies.host, hlies.mmio.mpr hmmio]
      rfl
    exact hpages (r.base, r.size) (hvisits.mem_io.mpr ⟨i, r, hi, rfl, rfl, hnone⟩) _
      (page_of_mem hle hlt hmax)

/-- `MAGIC_PROBE_SIZE`. -/
def magic_probe_size : Nat := 256

/-- `MagicProbe`, with what its sink received. -/
structure MagicProbe where
  sink : List UInt8
  deriving DecidableEq

/-- The error of an access that leaves the probe. -/
def MagicProbe.checked (offset len : Nat) : Except BusError Unit :=
  if magic_probe_size < saturating_add offset len then .error (.OutOfRange offset offset len)
  else .ok ()

instance : MemoryMapped MagicProbe where
  len _ := magic_probe_size
  read d offset buf :=
    match MagicProbe.checked offset buf.length with
    | .ok () => (.ok (), List.replicate buf.length 0, d)
    | .error err => (.error err, buf, d)
  write d offset buf :=
    match MagicProbe.checked offset buf.length with
    | .ok () => (.ok (), ⟨d.sink ++ buf⟩)
    | .error err => (.error err, d)
  load d offset _ := (.error (.NotLoadable offset), d)
  len_le _ := by decide

theorem four_le_isize_max : 4 ≤ isize_max := by decide

/-- RAM and a probe, and an alias into each. -/
def probed_map : MapCalls MagicProbe :=
  .alias_ (.alias_ (.map (.map .new 0x300 (.Ram ⟨[10, 11, 12, 13], four_le_isize_max⟩)) 0xF0000
    (.Mmio ⟨[]⟩)) 0x2000 0x301 3) 0x10F0 0xF0010 32

theorem direct_map_agrees_probe : ∃ b bus, probed_map.run = .ok b ∧ b.build = .ok bus ∧
    ∃ cpu' s', (Rl78Cpu.mk false [] [] []).bind_memory ⟨[], false, none⟩ bus = some (cpu', s') ∧
      (∀ history, ∃ bus', bus.after history = some bus' ∧ ∀ addr, s'.Agrees bus' addr) ∧
      Marked cpu'.tlib 0x1000 ∧ Marked cpu'.tlib 0x1100 := by
  have hbuild : MemoryMapBuilder.build (D := MagicProbe) ⟨[
      ⟨0x300, 4, .Device (.Ram ⟨[10, 11, 12, 13], four_le_isize_max⟩)⟩,
      ⟨0xF0000, 256, .Device (.Mmio ⟨[]⟩)⟩, ⟨0x2000, 3, .Alias 0x300 1⟩,
      ⟨0x10F0, 32, .Alias 0xF0000 16⟩], .Log⟩ = .ok ⟨[
      ⟨0x300, 4, .Device (.Ram ⟨[10, 11, 12, 13], four_le_isize_max⟩)⟩,
      ⟨0xF0000, 256, .Device (.Mmio ⟨[]⟩)⟩, ⟨0x2000, 3, .Alias 0x300 1⟩,
      ⟨0x10F0, 32, .Alias 0xF0000 16⟩], .Log, [], none⟩ := by decide +kernel
  have hrun : probed_map.run = .ok ⟨[
      ⟨0x300, 4, .Device (.Ram ⟨[10, 11, 12, 13], four_le_isize_max⟩)⟩,
      ⟨0xF0000, 256, .Device (.Mmio ⟨[]⟩)⟩, ⟨0x2000, 3, .Alias 0x300 1⟩,
      ⟨0x10F0, 32, .Alias 0xF0000 16⟩], .Log⟩ := by decide +kernel
  obtain ⟨cpu', s', hbind, hagrees, hmarked⟩ :=
    direct_map_agrees hrun hbuild
      (show (Rl78Cpu.mk false [] [] []).memory_bound = false from rfl) ⟨[], false, none⟩
  have hmmio := hmarked ⟨0x10F0, 32, .Alias 0xF0000 16⟩ (by simp)
    (Or.inr ⟨0xF0000, 16, 1, .Mmio ⟨[]⟩, rfl, rfl, rfl, rfl⟩)
  refine ⟨_, _, hrun, hbuild, cpu', s', hbind, hagrees, ?_, ?_⟩
  · exact (hmmio 0x10F0 (by decide) (by decide) (by decide)).2
  · exact (hmmio 0x1105 (by decide) (by decide) (by decide)).2

end Rl78Sim
