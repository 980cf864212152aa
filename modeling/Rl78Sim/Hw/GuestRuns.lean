import Rl78Sim.Hw.GuestAccess

/-! # A Guest Runs as on the Bus

    The meaning of a guest's code is given by the bus alone: every access is one
    access of the bus, and a quantum stops for the first error in it, or else as
    its exit code says. Translated code that uses the direct map for memory, and
    writes to no ROM through it, has this meaning.
-/

namespace Rl78Sim

open Windows

variable {D : Type} [MemoryMapped D]

/-! ### The meaning of a guest -/

/-- The device is a RAM. -/
def Device.is_ram {D : Type} : Device D → Bool
  | .Ram _ => true
  | _ => false

namespace MemoryBus

/-- A load on the bus: the value, the error if there is one, and the bus. -/
def guest_load (bus : MemoryBus D) (addr : Nat) (width : IoWidth) :
    Option (Nat × List StopReason × MemoryBus D) :=
  (bus.read addr (List.replicate width.len 0)).map fun served =>
    match served.result with
    | .ok () => (from_le_bytes served.buf % 256 ^ width.len, [], served.bus)
    | .error err => (0, [bus_stop false err], served.bus)

/-- A store on the bus. -/
def guest_store (bus : MemoryBus D) (addr : Nat) (width : IoWidth) (value : Nat) :
    Option (List StopReason × MemoryBus D) :=
  (bus.write addr (to_le_bytes width.len value)).map fun served =>
    match served.result with
    | .ok () => ([], served.bus)
    | .error err => ([bus_stop true err], served.bus)

/-- A quantum of a guest: how it ends, all errors in their order, and the bus. -/
def execute : GuestCode → MemoryBus D → Option (TlibReturn × List StopReason × MemoryBus D)
  | .done exit instructions pc, bus => some (⟨exit, instructions, pc⟩, [], bus)
  | .load addr width _ next, bus =>
    (bus.guest_load addr width).bind fun (value, first, bus') =>
      (execute (next value) bus').map fun (ret, rest, bus'') => (ret, first ++ rest, bus'')
  | .store addr width value _ next, bus =>
    (bus.guest_store addr width value).bind fun (first, bus') =>
      (execute next bus').map fun (ret, rest, bus'') => (ret, first ++ rest, bus'')

/-- The outcome of a quantum. -/
def guest_quantum (breakpoints : List Breakpoint) (code : GuestCode) (bus : MemoryBus D) :
    Option (QuantumEnd × MemoryBus D) :=
  (bus.execute code).map fun (ret, errors, bus') =>
    (⟨ret.instructions, errors.head?.or
      (map_tlib_exit ret.exit (breakpoint_id_at_pc breakpoints ret.pc))⟩, bus')

/-- Quanta, one after the other. -/
def guest_quanta (breakpoints : List Breakpoint) :
    List GuestCode → MemoryBus D → Option (List QuantumEnd × MemoryBus D)
  | [], bus => some ([], bus)
  | code :: rest, bus =>
    (bus.guest_quantum breakpoints code).bind fun (q, bus') =>
      (bus'.guest_quanta breakpoints rest).map fun (qs, bus'') => (q :: qs, bus'')

/-- The device behind an access that lies in one region. -/
def device_at (bus : MemoryBus D) (addr len : Nat) : Option (Device D) :=
  match bus.resolve addr len with
  | .ok (k, _) => bus.device_mut k
  | .error _ => none

/-- The access lies in one region, and there is a memory behind it. -/
def InMemory (bus : MemoryBus D) (addr len : Nat) : Prop :=
  (bus.device_at addr len).any (fun d => d.host_ptr.isSome) = true

/-- The access lies in one region, of a RAM. -/
def InRam (bus : MemoryBus D) (addr len : Nat) : Prop :=
  (bus.device_at addr len).any Device.is_ram = true

/-- Direct accesses stay in one region of memory, as the translator splits an
    access at the end of a page, and direct stores go to a RAM. -/
def Tame : GuestCode → MemoryBus D → Prop
  | .done .., _ => True
  | .load addr width direct next, bus => (direct = true → bus.InMemory addr width.len) ∧
      ∀ x ∈ bus.guest_load addr width, Tame (next x.1) x.2.2
  | .store addr width value direct next, bus => (direct = true → bus.InRam addr width.len) ∧
      ∀ x ∈ bus.guest_store addr width value, Tame next x.2

/-- All quanta are tame. -/
def AllTame (breakpoints : List Breakpoint) : List GuestCode → MemoryBus D → Prop
  | [], _ => True
  | code :: rest, bus => bus.Tame code ∧
      ∀ x ∈ bus.guest_quantum breakpoints code, AllTame breakpoints rest x.2

instance (bus : MemoryBus D) (addr len : Nat) : Decidable (bus.InMemory addr len) :=
  inferInstanceAs (Decidable ((bus.device_at addr len).any (fun d => d.host_ptr.isSome) = true))

instance (bus : MemoryBus D) (addr len : Nat) : Decidable (bus.InRam addr len) :=
  inferInstanceAs (Decidable ((bus.device_at addr len).any Device.is_ram = true))

instance decidable_tame : (code : GuestCode) → (bus : MemoryBus D) → Decidable (bus.Tame code)
  | .done .., _ => .isTrue trivial
  | .load addr width direct next, bus =>
    have (x : Nat × List StopReason × MemoryBus D) : Decidable (Tame (next x.1) x.2.2) :=
      decidable_tame (next x.1) x.2.2
    inferInstanceAs (Decidable ((direct = true → bus.InMemory addr width.len) ∧
      ∀ x ∈ bus.guest_load addr width, Tame (next x.1) x.2.2))
  | .store addr width value direct next, bus =>
    have (x : List StopReason × MemoryBus D) : Decidable (Tame next x.2) :=
      decidable_tame next x.2
    inferInstanceAs (Decidable ((direct = true → bus.InRam addr width.len) ∧
      ∀ x ∈ bus.guest_store addr width value, Tame next x.2))

instance decidable_all_tame (breakpoints : List Breakpoint) :
    (codes : List GuestCode) → (bus : MemoryBus D) → Decidable (bus.AllTame breakpoints codes)
  | [], _ => .isTrue trivial
  | code :: rest, bus =>
    have (x : QuantumEnd × MemoryBus D) : Decidable (AllTame breakpoints rest x.2) :=
      decidable_all_tame breakpoints rest x.2
    inferInstanceAs (Decidable (bus.Tame code ∧
      ∀ x ∈ bus.guest_quantum breakpoints code, AllTame breakpoints rest x.2))

omit [MemoryMapped D] in
theorem device_at_some {bus : MemoryBus D} {addr len : Nat} {d : Device D}
    (h : bus.device_at addr len = some d) :
    ∃ k off, bus.resolve addr len = .ok (k, off) ∧ bus.device_mut k = some d := by
  unfold device_at at h
  split at h
  · rename_i k off hok
    exact ⟨k, off, hok, h⟩
  · cases h

omit [MemoryMapped D] in
theorem InMemory.cases {bus : MemoryBus D} {addr len : Nat} (h : bus.InMemory addr len) :
    ∃ k off d bytes, bus.resolve addr len = .ok (k, off) ∧ bus.device_mut k = some d ∧
      d.host_ptr = some bytes := by
  obtain ⟨d, hd, hhost⟩ := (Option.any_eq_true ..).mp h
  obtain ⟨k, off, hok, hdevice⟩ := device_at_some hd
  obtain ⟨bytes, hbytes⟩ := Option.isSome_iff_exists.mp hhost
  exact ⟨k, off, d, bytes, hok, hdevice, hbytes⟩

omit [MemoryMapped D] in
theorem InRam.cases {bus : MemoryBus D} {addr len : Nat} (h : bus.InRam addr len) :
    ∃ k off data, bus.resolve addr len = .ok (k, off) ∧
      bus.device_mut k = some (.Ram data) := by
  obtain ⟨d, hd, hram⟩ := (Option.any_eq_true ..).mp h
  obtain ⟨k, off, hok, hdevice⟩ := device_at_some hd
  cases d with
  | Ram data => exact ⟨k, off, data, hok, hdevice⟩
  | Rom data => cases hram
  | Mmio device => cases hram

end MemoryBus

/-! ### Words -/

theorem IoWidth.len_pos (width : IoWidth) : 0 < width.len := by
  cases width <;> decide

/-! ### The bus serves every guest -/

namespace MemoryBus

variable {bus bus' : MemoryBus D}

theorem guest_load_serves (h : bus.Serves) (addr : Nat) (width : IoWidth) :
    ∃ value errors bus', bus.guest_load addr width = some (value, errors, bus') ∧
      Evolved bus bus' := by
  obtain ⟨served, hserved⟩ := h.access .read addr (List.replicate width.len 0)
  have hevolved := access_evolved hserved
  unfold guest_load MemoryBus.read
  rw [hserved, Option.map_some]
  split
  · exact ⟨_, _, _, rfl, hevolved⟩
  · exact ⟨_, _, _, rfl, hevolved⟩

theorem guest_store_serves (h : bus.Serves) (addr : Nat) (width : IoWidth) (value : Nat) :
    ∃ errors bus', bus.guest_store addr width value = some (errors, bus') ∧ Evolved bus bus' := by
  obtain ⟨served, hserved⟩ := h.access .write addr (to_le_bytes width.len value)
  have hevolved := access_evolved hserved
  unfold guest_store MemoryBus.write
  rw [hserved, Option.map_some]
  split
  · exact ⟨_, _, rfl, hevolved⟩
  · exact ⟨_, _, rfl, hevolved⟩

omit [MemoryMapped D] in
/-- Where a longer access lies, the access of one byte lies too. -/
theorem resolve_first {addr len : Nat} {x : Nat × Nat} (hlen : 0 < len)
    (h : bus.resolve addr len = .ok x) : bus.resolve addr 1 = .ok x := by
  unfold resolve at h ⊢
  cases hfind : find_region bus.regions addr with
  | none =>
    rw [hfind] at h
    cases h
  | some i =>
    rw [hfind] at h
    cases hi : bus.regions[i]? with
    | none =>
      simp only [hi] at h
      cases h
    | some r =>
      simp only [hi] at h ⊢
      split at h
      · cases h
      · rename_i hsize
        have hsize' : ¬ r.size < saturating_add (addr - r.base) 1 := by
          unfold saturating_add at hsize ⊢
          omega
        rw [if_neg hsize']
        cases hbacking : r.backing with
        | Device d =>
          simp only [hbacking] at h ⊢
          exact h
        | Alias target_base target_offset =>
          simp only [hbacking] at h ⊢
          cases hbase : find_base bus.regions target_base with
          | none =>
            simp only [hbase] at h
            cases h
          | some target =>
            simp only [hbase] at h ⊢
            exact h

end MemoryBus

/-! ### The direct map -/

section bound

variable {bus₀ bus : MemoryBus D} {visited : List (Nat × Nat × Option HostPtr)}

/-- The host pointer of an access that lies in a memory, with room for it. -/
theorem Visits.find_memory (hvisits : Visits bus₀ visited) (hwf : bus₀.Wf)
    {s : CallbackState} (hs : s.regions = host_regions visited)
    (hevolved : MemoryBus.Evolved bus₀ bus) {addr len k off : Nat} {d : Device D}
    {bytes : List UInt8} (hlen : 0 < len) (hok : bus.resolve addr len = .ok (k, off))
    (hd : bus.device_mut k = some d) (hhost : d.host_ptr = some bytes) :
    s.find_host addr = some ⟨k, off⟩ ∧ off + len ≤ bytes.length := by
  have hfirst := MemoryBus.resolve_first hlen hok
  constructor
  · have hagrees := hvisits.agrees hwf hs hevolved addr
    unfold CallbackState.Agrees at hagrees
    rw [hfirst] at hagrees
    obtain ⟨d', hd', hagrees⟩ := hagrees
    rw [hd] at hd'
    cases hd'
    rw [hhost] at hagrees
    exact hagrees.1
  · -- The region holds the access, and the buffer holds the region.
    rw [hevolved.resolve] at hok hfirst
    obtain ⟨i, r, hi, hr, hsize, -⟩ := MemoryBus.resolve_ok hok
    obtain ⟨k', off', d', hlies⟩ := hwf.lies hi
    rw [hlies.resolve addr hr] at hfirst
    cases hfirst
    have hlength := hevolved.device k
    rw [hd, hlies.device, Option.map_some, Option.map_some, Option.some.injEq] at hlength
    unfold Device.host_len at hlength
    rw [hhost, Option.map_some] at hlength
    obtain ⟨bytes', hhost', hsame⟩ := Option.map_eq_some_iff.mp hlength.symm
    obtain ⟨hroom, hmax⟩ := hlies.inside bytes' hhost'
    unfold saturating_add u64_max at hsize ⊢
    unfold isize_max at hmax
    omega

end bound

/-! ### One quantum -/

namespace Rl78Engine

variable {bus₀ : MemoryBus D} {visited : List (Nat × Nat × Option HostPtr)} {e : Rl78Engine D}

/-- The engine is bound to a bus that has come from `bus₀`. -/
structure Bound (bus₀ : MemoryBus D) (visited : List (Nat × Nat × Option HostPtr))
    (e : Rl78Engine D) : Prop where
  regions : e.callbacks.regions = host_regions visited
  io_bus : e.callbacks.io_bus = true
  evolved : MemoryBus.Evolved bus₀ e.bus

/-- The engine with another bus, after the errors. -/
def after (e : Rl78Engine D) (bus : MemoryBus D) (errors : List StopReason) : Rl78Engine D :=
  { e with
    bus := bus
    callbacks := { e.callbacks with stop := e.callbacks.stop.or errors.head? }
    return_request := e.return_request || !errors.isEmpty }

omit [MemoryMapped D] in
theorem after_nil (e : Rl78Engine D) (bus : MemoryBus D) :
    e.after bus [] = { e with bus := bus } := by
  unfold after
  rw [List.head?_nil, Option.or_none, List.isEmpty_nil, Bool.not_true, Bool.or_false]

omit [MemoryMapped D] in
theorem after_singleton (e : Rl78Engine D) (bus : MemoryBus D) (write : Bool) (err : BusError) :
    e.after bus [bus_stop write err] = { e with bus := bus }.fault write err := by
  obtain ⟨⟨regions, io_bus, stop⟩, bus₀, return_request, pending, breakpoints⟩ := e
  unfold after fault CallbackState.request_callback_stop
  cases stop with
  | none => simp
  | some reason => simp

omit [MemoryMapped D] in
theorem after_after (e : Rl78Engine D) (bus bus' : MemoryBus D) (first rest : List StopReason) :
    (e.after bus first).after bus' rest = e.after bus' (first ++ rest) := by
  unfold after
  cases first with
  | nil => simp
  | cons reason first => simp

omit [MemoryMapped D] in
theorem Bound.after (h : Bound bus₀ visited e) {bus : MemoryBus D}
    (hevolved : MemoryBus.Evolved e.bus bus) (errors : List StopReason) :
    Bound bus₀ visited (e.after bus errors) :=
  ⟨h.regions, h.io_bus, h.evolved.trans hevolved⟩

/-- The callbacks ask the bus. -/
theorem host_read_eq (h : Bound bus₀ visited e) {addr : Nat} {width : IoWidth} {value : Nat}
    {errors : List StopReason} {bus' : MemoryBus D}
    (hload : e.bus.guest_load addr width = some (value, errors, bus')) :
    e.host_read addr width = some (value, e.after bus' errors) := by
  unfold MemoryBus.guest_load at hload
  obtain ⟨served, hserved, hvalue⟩ := Option.map_eq_some_iff.mp hload
  unfold host_read
  rw [if_pos h.io_bus, hserved, Option.map_some]
  cases hresult : served.result with
  | ok =>
    simp only [hresult] at hvalue ⊢
    cases hvalue
    rw [after_nil]
  | error err =>
    simp only [hresult] at hvalue ⊢
    cases hvalue
    rw [after_singleton]

theorem host_write_eq (h : Bound bus₀ visited e) {addr value : Nat} {width : IoWidth}
    {errors : List StopReason} {bus' : MemoryBus D}
    (hstore : e.bus.guest_store addr width value = some (errors, bus')) :
    e.host_write addr width value = some (e.after bus' errors) := by
  unfold MemoryBus.guest_store at hstore
  obtain ⟨served, hserved, hvalue⟩ := Option.map_eq_some_iff.mp hstore
  unfold host_write
  rw [if_pos h.io_bus, hserved, Option.map_some]
  cases hresult : served.result with
  | ok =>
    simp only [hresult] at hvalue ⊢
    cases hvalue
    rw [after_nil]
  | error err =>
    simp only [hresult] at hvalue ⊢
    cases hvalue
    rw [after_singleton]

/-- A direct load has the value of the bus, which it leaves as it is. -/
theorem direct_load_eq (hvisits : Visits bus₀ visited) (hwf : bus₀.Wf)
    (h : Bound bus₀ visited e) {addr : Nat} {width : IoWidth}
    (hin : e.bus.InMemory addr width.len) :
    ∃ value, e.direct_load addr width = some value ∧
      e.bus.guest_load addr width = some (value, [], e.bus) := by
  obtain ⟨k, off, d, bytes, hok, hd, hhost⟩ := hin.cases
  obtain ⟨hfind, hroom⟩ :=
    hvisits.find_memory hwf h.regions h.evolved width.len_pos hok hd hhost
  refine ⟨from_le_bytes ((bytes.drop off).take width.len) % 256 ^ width.len, ?_, ?_⟩
  · unfold direct_load
    rw [hfind, Option.bind_some, hd, Option.bind_some, hhost, Option.bind_some, if_pos hroom]
  · have hbuf : (List.replicate width.len (0 : UInt8)).length = width.len := List.length_replicate
    have hread := read_host (hbuf.symm ▸ hok) hd hhost (hbuf.symm ▸ hroom)
    unfold MemoryBus.guest_load
    rw [hread, hbuf]
    rfl

/-- A direct store does to the bus what the bus does. -/
theorem direct_store_eq (hvisits : Visits bus₀ visited) (hwf : bus₀.Wf)
    (h : Bound bus₀ visited e) {addr value : Nat} {width : IoWidth}
    (hin : e.bus.InRam addr width.len) :
    ∃ bus', e.direct_store addr width value = some { e with bus := bus' } ∧
      e.bus.guest_store addr width value = some ([], bus') := by
  obtain ⟨k, off, data, hok, hd⟩ := hin.cases
  have hlength := length_to_le_bytes width.len value
  obtain ⟨hfind, hroom⟩ :=
    hvisits.find_memory hwf h.regions h.evolved width.len_pos hok hd rfl
  refine ⟨e.bus.put_device k (.Ram (copied_into data off (to_le_bytes width.len value)).2), ?_, ?_⟩
  · unfold direct_store
    dsimp only
    rw [hfind, Option.bind_some, hd, Option.bind_some, hlength]
    exact if_pos hroom
  · have hresult : (copied_into data off (to_le_bytes width.len value)).1 = .ok () := by
      unfold copied_into copy_into
      have hfits := data.fits
      rw [dif_pos]
      rw [hlength]
      unfold u64_max
      unfold isize_max at hfits
      omega
    unfold MemoryBus.guest_store MemoryBus.write MemoryBus.access
    rw [hlength, hok]
    show ((e.bus.device_mut k).map _).map _ = _
    rw [hd, Option.map_some]
    simp only [Option.map_some, Device.serve, Device.write, hresult, rewrite_result]

/-- Translated code does what the code means. -/
theorem tlib_execute_eq (hvisits : Visits bus₀ visited) (hwf : bus₀.Wf) (code : GuestCode)
    (h : Bound bus₀ visited e) (htame : e.bus.Tame code) :
    ∃ ret errors bus', e.bus.execute code = some (ret, errors, bus') ∧
      tlib_execute code e = some (ret, e.after bus' errors) ∧
      MemoryBus.Evolved e.bus bus' := by
  induction code generalizing e with
  | done exit instructions pc =>
    refine ⟨_, [], e.bus, rfl, ?_, MemoryBus.Evolved.refl e.bus⟩
    rw [after_nil]
    rfl
  | load addr width direct next ih =>
    have hserves := hwf.serves.evolved h.evolved
    obtain ⟨value, first, bus', hload, hevolved⟩ :=
      MemoryBus.guest_load_serves hserves addr width
    obtain ⟨ret, rest, bus'', hrest, hexecute, hlater⟩ :=
      ih value (h.after hevolved first) (htame.2 _ hload)
    change MemoryBus.execute (next value) bus' = _ at hrest
    refine ⟨ret, first ++ rest, bus'', ?_, ?_, hevolved.trans hlater⟩
    · show (e.bus.guest_load addr width).bind _ = _
      rw [hload]
      show (MemoryBus.execute (next value) bus').map _ = _
      rw [hrest]
      rfl
    · rw [after_after] at hexecute
      cases direct with
      | true =>
        obtain ⟨value', hdirect, hload'⟩ := direct_load_eq hvisits hwf h (htame.1 rfl)
        rw [hload] at hload'
        cases hload'
        show (e.direct_load addr width).bind _ = _
        rw [hdirect]
        rw [after_nil] at hexecute
        exact hexecute
      | false =>
        show (e.host_read addr width).bind _ = _
        rw [host_read_eq h hload]
        exact hexecute
  | store addr width value direct next ih =>
    have hserves := hwf.serves.evolved h.evolved
    obtain ⟨first, bus', hstore, hevolved⟩ :=
      MemoryBus.guest_store_serves hserves addr width value
    obtain ⟨ret, rest, bus'', hrest, hexecute, hlater⟩ :=
      ih (h.after hevolved first) (htame.2 _ hstore)
    change MemoryBus.execute next bus' = _ at hrest
    refine ⟨ret, first ++ rest, bus'', ?_, ?_, hevolved.trans hlater⟩
    · show (e.bus.guest_store addr width value).bind _ = _
      rw [hstore]
      show (MemoryBus.execute next bus').map _ = _
      rw [hrest]
      rfl
    · rw [after_after] at hexecute
      cases direct with
      | true =>
        obtain ⟨bus₁, hdirect, hstore'⟩ := direct_store_eq hvisits hwf h (htame.1 rfl)
        rw [hstore] at hstore'
        cases hstore'
        show (e.direct_store addr width value).bind _ = _
        rw [hdirect]
        rw [after_nil] at hexecute
        exact hexecute
      | false =>
        show (e.host_write addr width value).bind _ = _
        rw [host_write_eq h hstore]
        exact hexecute

/-- Nothing is latched. -/
structure Idle (e : Rl78Engine D) : Prop where
  stop : e.callbacks.stop = none
  return_request : e.return_request = false
  pending : e.pending.reason = none

/-- A quantum ends as the code means, and leaves nothing latched. -/
theorem run_quantum_eq (hvisits : Visits bus₀ visited) (hwf : bus₀.Wf) (code : GuestCode)
    (h : Bound bus₀ visited e) (hidle : e.Idle) (htame : e.bus.Tame code) :
    ∃ q bus', e.bus.guest_quantum e.breakpoints code = some (q, bus') ∧
      e.run_quantum code = some (q, { e with bus := bus' }) ∧ MemoryBus.Evolved e.bus bus' := by
  obtain ⟨ret, errors, bus', hexecute, hrun, hevolved⟩ :=
    tlib_execute_eq hvisits hwf code h htame
  refine ⟨⟨ret.instructions, errors.head?.or
    (map_tlib_exit ret.exit (breakpoint_id_at_pc e.breakpoints ret.pc))⟩, bus', ?_, ?_, hevolved⟩
  · unfold MemoryBus.guest_quantum
    rw [hexecute]
    rfl
  · unfold run_quantum
    rw [hrun, Option.map_some]
    obtain ⟨⟨regions, io_bus, stop⟩, bus, return_request, ⟨reason⟩, breakpoints⟩ := e
    obtain ⟨rfl, rfl, rfl⟩ := hidle
    -- The latch has the first of the errors, and is taken.
    cases errors <;> rfl

/-! ### Whole runs -/

theorem run_quanta_eq (hvisits : Visits bus₀ visited) (hwf : bus₀.Wf) (codes : List GuestCode)
    (h : Bound bus₀ visited e) (hidle : e.Idle)
    (htame : e.bus.AllTame e.breakpoints codes) :
    ∃ qs bus', e.bus.guest_quanta e.breakpoints codes = some (qs, bus') ∧
      e.run_quanta codes = some (qs, { e with bus := bus' }) := by
  induction codes generalizing e with
  | nil => exact ⟨[], e.bus, rfl, rfl⟩
  | cons code rest ih =>
    obtain ⟨q, bus', hmeans, hrun, hevolved⟩ :=
      run_quantum_eq hvisits hwf code h hidle htame.1
    have hbound : Bound bus₀ visited { e with bus := bus' } :=
      ⟨h.regions, h.io_bus, h.evolved.trans hevolved⟩
    have hidle' : Idle { e with bus := bus' } := ⟨hidle.stop, hidle.return_request, hidle.pending⟩
    obtain ⟨qs, bus'', hrest, hruns⟩ := ih hbound hidle' (htame.2 _ hmeans)
    change bus'.guest_quanta e.breakpoints rest = _ at hrest
    refine ⟨q :: qs, bus'', ?_, ?_⟩
    · show (e.bus.guest_quantum e.breakpoints code).bind _ = _
      rw [hmeans]
      show (bus'.guest_quanta e.breakpoints rest).map _ = _
      rw [hrest]
      rfl
    · show (e.run_quantum code).bind _ = _
      rw [hrun]
      show (Rl78Engine.run_quanta rest { e with bus := bus' }).map _ = _
      rw [hruns]
      rfl

end Rl78Engine

omit [MemoryMapped D] in
/-- What binding leaves of the latch and of the bus pointer. -/
theorem bind_memory_latch {cpu cpu' : Rl78Cpu} {s s' : CallbackState} {bus : MemoryBus D}
    (h : cpu.bind_memory s bus = some (cpu', s')) : s'.stop = none ∧ s'.io_bus = true := by
  unfold Rl78Cpu.bind_memory at h
  split at h
  · cases h
  · obtain ⟨visited, -, hbound⟩ := Option.map_eq_some_iff.mp h
    cases hbound
    have hkeep (rs : List HostRegion) (c : Rl78Cpu × CallbackState) :
        (rs.foldl Rl78Cpu.map_host c).2.stop = c.2.stop := by
      induction rs generalizing c with
      | nil => rfl
      | cons r rs ih => exact ih _
    exact ⟨hkeep _ _, rfl⟩

/-- After a bus from a builder is bound, quanta of translated code load the
    values and leave the bus that their code means on the bus alone, and each
    ends with the first error of its own accesses, or else as its exit code
    says. No error is lost and none is left to a later quantum. -/
theorem guest_runs_on_bus {calls : MapCalls D} {b : MemoryMapBuilder D} {bus : MemoryBus D}
    (hrun : calls.run = .ok b) (hbuild : b.build = .ok bus) {cpu : Rl78Cpu}
    (hfree : cpu.memory_bound = false) (s : CallbackState) {breakpoints : List Breakpoint}
    {codes : List GuestCode} (htame : bus.AllTame breakpoints codes) :
    ∃ cpu' s' qs bus', cpu.bind_memory s bus = some (cpu', s') ∧
      bus.guest_quanta breakpoints codes = some (qs, bus') ∧
      Rl78Engine.run_quanta codes ⟨s', bus, false, ⟨none⟩, breakpoints⟩ =
        some (qs, ⟨s', bus', false, ⟨none⟩, breakpoints⟩) := by
  have hwf : bus.Wf := (MapCalls.built hrun).wf hbuild
  obtain ⟨visited, hvisited, hvisits⟩ := hwf.visits
  obtain ⟨cpu', s', hbind, hregions, -⟩ :=
    bind_memory_ok (s := s) hfree hvisited (hvisits.apart hwf)
  obtain ⟨hstop, hio_bus⟩ := bind_memory_latch hbind
  obtain ⟨qs, bus', hmeans, hruns⟩ := Rl78Engine.run_quanta_eq hvisits hwf codes
    (e := ⟨s', bus, false, ⟨none⟩, breakpoints⟩)
    ⟨hregions, hio_bus, MemoryBus.Evolved.refl bus⟩ ⟨hstop, rfl, rfl⟩ htame
  exact ⟨cpu', s', qs, bus', hbind, hmeans, hruns⟩

/-- A word goes into the RAM, a byte of it comes back through the alias and goes
    to the probe, and then nothing is at the address. -/
def probing_code : GuestCode :=
  .store 0x300 .word 0x0201 true <| .load 0x2000 .byte true fun value =>
    .store 0xF0000 .byte value false <| .load 5 .byte false fun _ => .done 0x10005 4 0

/-- The bus of the map with the probe. -/
def probed_bus : MemoryBus MagicProbe :=
  ⟨[⟨0x300, 4, .Device (.Ram ⟨[10, 11, 12, 13], four_le_isize_max⟩)⟩,
    ⟨0xF0000, 256, .Device (.Mmio ⟨[]⟩)⟩, ⟨0x2000, 3, .Alias 0x300 1⟩,
    ⟨0x10F0, 32, .Alias 0xF0000 16⟩], .Log, [], none⟩

/-- The quantum stops for the address, and the next one for its breakpoint. -/
theorem guest_runs_on_bus_probe : ∃ cpu' s' bus',
    (Rl78Cpu.mk false [] [] []).bind_memory ⟨[], false, none⟩ probed_bus = some (cpu', s') ∧
      Rl78Engine.run_quanta [probing_code, .done 0x10002 0 0x10]
          ⟨s', probed_bus, false, ⟨none⟩, [⟨3, 0x10, true⟩]⟩ =
        some ([⟨4, some (.Unmapped 5 false)⟩, ⟨0, some (.Breakpoint 3)⟩],
          ⟨s', bus', false, ⟨none⟩, [⟨3, 0x10, true⟩]⟩) := by
  obtain ⟨b, hrun, hbuild⟩ : ∃ b, probed_map.run = .ok b ∧ b.build = .ok probed_bus :=
    ⟨⟨probed_bus.regions, .Log⟩, by decide +kernel, by decide +kernel⟩
  have hfree : (Rl78Cpu.mk false [] [] []).memory_bound = false := rfl
  have htame : probed_bus.AllTame [⟨3, 0x10, true⟩] [probing_code, .done 0x10002 0 0x10] := by
    decide +kernel
  obtain ⟨cpu', s', qs, bus', hbind, hmeans, hruns⟩ :=
    guest_runs_on_bus hrun hbuild hfree ⟨[], false, none⟩ htame
  have hends : (probed_bus.guest_quanta [⟨3, 0x10, true⟩]
      [probing_code, .done 0x10002 0 0x10]).map Prod.fst =
        some [⟨4, some (.Unmapped 5 false)⟩, ⟨0, some (.Breakpoint 3)⟩] := by decide +kernel
  rw [hmeans] at hends
  obtain rfl := Option.some.inj hends
  exact ⟨cpu', s', bus', hbind, hruns⟩

end Rl78Sim
