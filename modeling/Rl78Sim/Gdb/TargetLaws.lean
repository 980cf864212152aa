import Rl78Sim.Gdb.Target
import Rl78Sim.Kernel.Inspection

/-! # Memory Through the Stub

    What the stub reads of RAM or ROM are the bytes that are there, whatever
    their number, and what it writes to RAM is there afterwards. A call that
    fails can only cut this short: a read gives no bytes then, and a write has
    put a first part of the data into the RAM. -/

namespace Rl78Sim

/-! ### Digits -/

/-- The two digits of a byte. -/
def digits (byte : UInt8) : List UInt8 :=
  [(Nat.digitChar (byte.toNat / 16)).toUInt8, (Nat.digitChar (byte.toNat % 16)).toUInt8]

theorem as_bytes_encode_hex (bytes : List UInt8) :
    Utf8.as_bytes (encode_hex (bytes.map UInt8.toNat)) = bytes.flatMap digits := by
  have hdigit : ∀ n < 16, (Nat.digitChar n).toNat < 0x80 := by decide
  unfold Utf8.as_bytes encode_hex
  rw [String.toList_ofList, List.flatMap_map, Utf8.encode_ascii, List.map_flatMap]
  · rfl
  · intro c hc
    obtain ⟨byte, -, hc⟩ := List.mem_flatMap.mp hc
    have hlt : byte.toNat < 256 := byte.toNat_lt
    rcases List.mem_cons.mp hc with rfl | hc
    · exact hdigit _ (by omega)
    · rw [List.mem_singleton.mp hc]
      exact hdigit _ (by omega)

/-- The digits of a byte are read as the byte, and are no continuation of a
    character. -/
theorem read_digits (byte : UInt8) : ∃ first second, digits byte = [first, second] ∧
    u8_from_str_radix first second = .ok byte ∧ Utf8.is_utf8_char_boundary first = true := by
  refine ⟨_, _, rfl, ?_⟩
  obtain ⟨bits⟩ := byte
  revert bits
  decide +kernel

theorem decode_pairs_digits (bytes : List UInt8) :
    decode_pairs (bytes.flatMap digits) = some (.ok bytes) := by
  induction bytes with
  | nil => rfl
  | cons byte bytes ih =>
    obtain ⟨first, second, hdigits, hread, -⟩ := read_digits byte
    have hnext : (bytes.flatMap digits).head?.all Utf8.is_utf8_char_boundary = true := by
      cases bytes with
      | nil => rfl
      | cons next bytes =>
        obtain ⟨first', second', hdigits', -, hboundary⟩ := read_digits next
        rw [List.flatMap_cons, hdigits']
        exact hboundary
    rw [List.flatMap_cons, hdigits]
    show decode_pairs (first :: second :: bytes.flatMap digits) = _
    unfold decode_pairs
    rw [if_pos hnext, hread, ih]
    rfl

/-- Bytes survive their digits. -/
theorem decode_encode_hex (bytes : List UInt8) :
    decode_hex (encode_hex (bytes.map UInt8.toNat)) = some (.ok bytes) := by
  have hlen : (bytes.flatMap digits).length = 2 * bytes.length := by
    induction bytes with
    | nil => rfl
    | cons byte bytes ih =>
      rw [List.flatMap_cons, List.length_append, ih, List.length_cons]
      show 2 + 2 * bytes.length = _
      omega
  unfold decode_hex
  rw [Utf8.utf8ByteSize_eq, as_bytes_encode_hex, hlen, if_neg (by omega), decode_pairs_digits]

/-! ### Places on the bus -/

section places

variable {D : Type}

/-- A device in place of another in place of a third. -/
theorem put_device_twice (bus : MemoryBus D) (k : Nat) (d d' : Device D) :
    (bus.put_device k d).put_device k d' = bus.put_device k d' := by
  unfold MemoryBus.put_device
  rw [List.modify_modify_eq]
  rfl

/-- Two pieces that follow each other. -/
theorem overwrite_append (data a b : List UInt8) {off : Nat} (h : off + a.length ≤ data.length) :
    overwrite (overwrite data off a) (off + a.length) b = overwrite data off (a ++ b) := by
  unfold overwrite
  have htake : (data.take off ++ a).length = off + a.length := by
    rw [List.length_append, List.length_take, Nat.min_eq_left (by omega)]
  have hdrop : (data.take off ++ a ++ data.drop (off + a.length)).drop
      (off + a.length + b.length) = data.drop (off + (a ++ b).length) := by
    rw [← htake, ← List.drop_drop, List.drop_left, List.drop_drop, htake, List.length_append,
      Nat.add_assoc]
  rw [List.take_left' htake, hdrop, List.append_assoc _ a b]

theorem overwrite_nil (data : List UInt8) (off : Nat) : overwrite data off [] = data := by
  unfold overwrite
  rw [List.append_nil]
  exact List.take_append_drop off data

variable [MemoryMapped D] {bus : MemoryBus D} {addr len k off : Nat} {d : Device D}
  {bytes : List UInt8}

/-- The addresses from `start + first` on, as far as `start + len`, lie in a device
    from `off + first` on. -/
def MappedAt (bus : MemoryBus D) (start len k off first : Nat) : Prop :=
  ∀ i n, first ≤ i → 0 < n → i + n ≤ len → bus.resolve (start + i) n = .ok (k, off + i)

/-- The parts of a place in RAM or ROM. -/
theorem mappedAt_of_resolve (hwf : bus.Wf) (haddr : addr < 2 ^ 32)
    (hres : bus.resolve addr len = .ok (k, off)) (hdev : bus.device_mut k = some d)
    (hhost : d.host_ptr = some bytes) :
    MappedAt bus addr len k off 0 ∧ off + len ≤ bytes.length := by
  have hmax : isize_max + 2 ^ 32 < u64_max := by decide
  have hlen : d.len = bytes.length ∧ bytes.length ≤ isize_max := by
    cases d with
    | Ram data | Rom data =>
      obtain rfl := Option.some.inj hhost
      exact ⟨rfl, data.fits⟩
    | Mmio device => cases hhost
  obtain ⟨hlen, hfits⟩ := hlen
  obtain ⟨j, r, hr, hholds, hsize, hcase⟩ := MemoryBus.resolve_ok hres
  have hr' : r ∈ bus.regions := List.mem_of_getElem? hr
  rw [holds_iff] at hholds
  unfold saturating_add at hsize
  -- A region is a device's own, or a window into the region of another one. The
  -- parts of a place go the way that the whole of it goes.
  rcases hcase with ⟨d', hd', rfl, rfl⟩ | ⟨target_base, target_offset, halias, hfind, rfl⟩
  · obtain rfl : d' = d :=
      Option.some.inj ((device_mut_eq_some.mpr ⟨r, hr, hd'⟩).symm.trans hdev)
    have hroom := hwf.backed r hr' d' hd'
    refine ⟨fun i n _ hn hle => ?_, by omega⟩
    rw [MemoryBus.resolve_device hwf.separate hr hd' (holds_iff.mpr (by omega))
      (by unfold saturating_add; omega)]
    congr 2
    omega
  · obtain ⟨j', R, d', hj', hR, hd', hroom⟩ :=
      hwf.target r hr' target_base target_offset halias
    obtain rfl : j' = k := Option.some.inj (hj'.symm.trans hfind)
    obtain rfl : d' = d :=
      Option.some.inj ((device_mut_eq_some.mpr ⟨R, hR, hd'⟩).symm.trans hdev)
    have hback := hwf.backed R (List.mem_of_getElem? hR) d' hd'
    unfold saturating_add at hroom ⊢
    refine ⟨fun i n _ hn hle => ?_, by omega⟩
    rw [MemoryBus.resolve_alias hwf.separate hr halias hfind (holds_iff.mpr (by omega))
      (by unfold saturating_add; omega)]
    unfold saturating_add
    congr 2
    omega

/-- A region ends with the last `len` for which an access of its start resolves. What
    goes over the end is refused. -/
theorem resolve_over (hwf : bus.Wf) (hlow : addr + len < u64_max)
    (hres : bus.resolve addr len = .ok (k, off))
    (hover : ∀ place, bus.resolve addr (len + 1) ≠ .ok place) {i n : Nat} (hi : i < len)
    (hn : len < i + n) : ∃ off', bus.resolve (addr + i) n =
      .error (.OutOfRange (addr + i) off' n) := by
  obtain ⟨j, r, hr, hholds, hsize, hcase⟩ := MemoryBus.resolve_ok hres
  have hend : r.size < saturating_add (addr - r.base) (len + 1) := by
    by_contra hroom
    rcases hcase with ⟨d', hd', -, -⟩ | ⟨target_base, target_offset, halias, hfind, -⟩
    · exact hover _ (MemoryBus.resolve_device hwf.separate hr hd' hholds (Nat.le_of_not_lt hroom))
    · exact hover _ (MemoryBus.resolve_alias hwf.separate hr halias hfind hholds
        (Nat.le_of_not_lt hroom))
  clear hcase
  rw [holds_iff] at hholds
  unfold saturating_add at hsize hend
  have hholds' : r.window.Holds (addr + i) := holds_iff.mpr (by omega)
  have hbeyond : r.size < saturating_add (addr + i - r.base) n := by
    unfold saturating_add
    omega
  refine ⟨addr + i - r.base, ?_⟩
  unfold MemoryBus.resolve
  simp only [hwf.separate.find_region hr hholds', hr, if_pos hbeyond]

end places

/-! ### Commands of a simulator that has stopped -/

theorem map_ofNat_toNat (bytes : List UInt8) :
    (bytes.map UInt8.toNat).map UInt8.ofNat = bytes := by
  simp [Function.comp_def]

section commands

variable {K D Ev F : Type} [Core K D Ev F] {m : Machine (Soc K D) Ev F}
  {sim : Simulator (Machine (Soc K D) Ev F)} {addr k off : Nat}

/-- The machine with the bytes `data` in a RAM. -/
def with_ram (m : Machine (Soc K D) Ev F) (k : Nat) (data : Bytes) : Machine (Soc K D) Ev F :=
  { m with
    soc := { m.soc with bus := m.soc.bus.put_device k (.Ram data) }
    last_insn_le := m.insn_le_now }

/-- An access to the bus that leaves the other parts alone. -/
theorem call_access {α : Type} {op : Op} {buf buf' : List UInt8} {bus : MemoryBus D}
    {res : Except BusError Unit} {f : Except BusError Unit → List UInt8 → α}
    (h : ∀ now (parts : Parts K Ev F),
      Soc.access now parts op addr buf m.soc.bus = ⟨parts, res, buf', bus⟩) :
    m.call (Soc.bus_op fun _ parts => .access parts op addr buf fun parts res buf =>
      .done parts (f res buf)) = ({ m with soc := { m.soc with bus := bus } }, f res buf') := by
  unfold Machine.call Soc.bus_op
  simp only [Soc.exec, h]
  simp [OutPorts.on_input]

/-- A read of RAM or ROM. -/
theorem access_read_host {d : Device D} {bytes : List UInt8} {bus : MemoryBus D} {buf : List UInt8}
    (hres : bus.resolve addr buf.length = .ok (k, off)) (hdev : bus.device_mut k = some d)
    (hhost : d.host_ptr = some bytes) (hroom : off + buf.length ≤ bytes.length) (now : Nat)
    (parts : Parts K Ev F) : Soc.access now parts .read addr buf bus =
      ⟨parts, .ok (), (bytes.drop off).take buf.length, bus⟩ := by
  have hcopied (data : Bytes) (hdata : data.data = bytes) :
      copied_from data off buf = (.ok (), (bytes.drop off).take buf.length) := by
    have hmax : data.data.length ≤ u64_max := data.fits.trans (by decide)
    have hlen : data.data.length = bytes.length := congrArg List.length hdata
    unfold copied_from copy_from
    rw [if_pos ⟨by omega, by omega⟩, hdata]
  unfold Soc.access
  rw [hres]
  dsimp only
  rw [hdev]
  cases d with
  | Mmio device => cases hhost
  | Ram data | Rom data =>
    dsimp only [Bytes.serve]
    rw [hcopied data (Option.some.inj hhost), put_device_self hdev]
    rfl

/-- A write to RAM. -/
theorem access_write_ram {data : Bytes} {bus : MemoryBus D} {buf : List UInt8}
    (hres : bus.resolve addr buf.length = .ok (k, off)) (hdev : bus.device_mut k = some (.Ram data))
    (hroom : off + buf.length ≤ data.data.length) :
    ∃ data' : Bytes, data'.data = overwrite data.data off buf ∧
      ∀ now (parts : Parts K Ev F), Soc.access now parts .write addr buf bus =
        ⟨parts, .ok (), buf, bus.put_device k (.Ram data')⟩ := by
  have hmax : data.data.length ≤ u64_max := data.fits.trans (by decide)
  refine ⟨⟨overwrite data.data off buf, length_overwrite hroom ▸ data.fits⟩, rfl,
    fun now parts => ?_⟩
  unfold Soc.access
  rw [hres]
  dsimp only
  rw [hdev]
  dsimp only [Bytes.serve]
  unfold copied_into copy_into
  rw [dif_pos ⟨by omega, hroom⟩]
  rfl

/-- A write to ROM. -/
theorem access_write_rom {data : Bytes} {bus : MemoryBus D} {buf : List UInt8}
    (hres : bus.resolve addr buf.length = .ok (k, off)) (hdev : bus.device_mut k = some (.Rom data))
    (now : Nat) (parts : Parts K Ev F) : Soc.access now parts .write addr buf bus =
      ⟨parts, .error (.ReadOnly addr), buf, bus⟩ := by
  unfold Soc.access
  rw [hres]
  dsimp only
  rw [hdev]
  dsimp only [Bytes.serve]
  rw [put_device_self hdev]
  rfl

/-- A write over the end of a region. -/
theorem access_write_over {bus : MemoryBus D} {buf : List UInt8}
    (hres : bus.resolve addr buf.length = .error (.OutOfRange addr off buf.length)) (now : Nat)
    (parts : Parts K Ev F) : Soc.access now parts .write addr buf bus =
      ⟨parts, .error (.OutOfRange addr off buf.length), buf, bus⟩ := by
  unfold Soc.access
  rw [hres]

/-- What a simulator that has stopped does with a command. -/
theorem command_stopped (h : sim.state = .Stopped) (cmd : InspectCommand) :
    sim.command (.Inspect cmd) = ({ sim with entity := (sim.entity.inspect_command cmd).1 },
      (sim.entity.inspect_command cmd).2) := by
  unfold Simulator.command
  rw [if_neg (by simp [h])]
  dsimp only
  rw [if_neg (by simp [h])]
  rfl

/-- The service reads RAM or ROM. -/
theorem handle_read {d : Device D} {bytes : List UInt8} {n : Nat} (h : sim.state = .Stopped)
    (hres : sim.entity.soc.bus.resolve addr n = .ok (k, off))
    (hdev : sim.entity.soc.bus.device_mut k = some d) (hhost : d.host_ptr = some bytes)
    (hroom : off + n ≤ bytes.length) (hpos : 0 < n) (hchunk : n ≤ mem_chunk) :
    handle sim (.ReadMem addr n) =
      some (sim, .Mem (encode_hex (((bytes.drop off).take n).map UInt8.toNat))) := by
  have hlen : (List.replicate n (0 : UInt8)).length = n := List.length_replicate
  -- The core reads into a buffer of zeros, which the device fills to its end.
  have hcall : sim.entity.call (Cpu.read_mem addr n) =
      (sim.entity, .ok (((bytes.drop off).take n).map UInt8.toNat)) := by
    have hres' : sim.entity.soc.bus.resolve addr (List.replicate n (0 : UInt8)).length =
        .ok (k, off) := hlen.symm ▸ hres
    have haccess := call_access (m := sim.entity) (f := fun res buf =>
      (res.map fun _ => buf.map UInt8.toNat : Except BusError (List Nat)))
      (access_read_host hres' hdev hhost (hlen.symm ▸ hroom))
    rw [hlen] at haccess
    exact haccess
  have hinspect : sim.entity.inspect_command (.ReadMem addr n) =
      (sim.entity, .Inspect (.Mem addr (((bytes.drop off).take n).map UInt8.toNat))) := by
    simp only [Machine.inspect_command, hcall]
  unfold handle
  dsimp only
  rw [if_neg (by omega)]
  unfold reply_to
  rw [command_stopped h, hinspect]
  rfl

/-- The service writes RAM. -/
theorem handle_write {data : Bytes} {chunk : List UInt8} (h : sim.state = .Stopped)
    (hres : sim.entity.soc.bus.resolve addr chunk.length = .ok (k, off))
    (hdev : sim.entity.soc.bus.device_mut k = some (.Ram data))
    (hroom : off + chunk.length ≤ data.data.length) (hchunk : chunk.length ≤ mem_chunk) :
    ∃ data' : Bytes, data'.data = overwrite data.data off chunk ∧
      handle sim (.WriteMem addr (encode_hex (chunk.map UInt8.toNat))) =
        some ({ sim with entity := with_ram sim.entity k data' }, .Ok) := by
  -- The bytes go over the wire as hexadecimal text and come back as they were.
  obtain ⟨data', hdata', haccess⟩ := access_write_ram (K := K) hres hdev hroom
  have hcall : sim.entity.call (Cpu.write_mem addr (chunk.map UInt8.toNat)) =
      (with_ram sim.entity k data', .ok ()) := by
    have hbytes := map_ofNat_toNat chunk
    have hdone := call_access (m := sim.entity) (f := fun res _ => res) haccess
    rw [← hbytes] at hdone
    exact hdone
  have hinspect : sim.entity.inspect_command (.WriteMem addr (chunk.map UInt8.toNat)) =
      (with_ram sim.entity k data', .Inspect .Ok) := by
    simp only [Machine.inspect_command, hcall]
  refine ⟨data', hdata', ?_⟩
  unfold handle
  dsimp only
  rw [decode_encode_hex, Option.map_some]
  dsimp only
  rw [if_pos hchunk]
  unfold reply_to
  rw [command_stopped h, hinspect]
  rfl

/-- What a simulator that runs does with a command. -/
theorem command_running (h : sim.state = .Running) (cmd : InspectCommand) :
    sim.command (.Inspect cmd) = (sim, .Error .Running) := by
  unfold Simulator.command
  rw [if_neg (by simp [h])]
  exact if_pos h

theorem handle_running_read {n : Nat} (h : sim.state = .Running) (hpos : 0 < n)
    (hchunk : n ≤ mem_chunk) :
    handle sim (.ReadMem addr n) = some (sim, .Error SimError.Running.text) := by
  unfold handle
  dsimp only
  rw [if_neg (by omega)]
  unfold reply_to
  rw [command_running h]
  rfl

theorem handle_running_write {chunk : List UInt8} (h : sim.state = .Running)
    (hchunk : chunk.length ≤ mem_chunk) :
    handle sim (.WriteMem addr (encode_hex (chunk.map UInt8.toNat))) =
      some (sim, .Error SimError.Running.text) := by
  unfold handle
  dsimp only
  rw [decode_encode_hex, Option.map_some]
  dsimp only
  rw [if_pos hchunk]
  unfold reply_to
  rw [command_running h]
  rfl

/-- The service writes nothing where the bus refuses the access. -/
theorem handle_write_refused {chunk : List UInt8} {err : BusError} (h : sim.state = .Stopped)
    (haccess : ∀ now (parts : Parts K Ev F), Soc.access now parts .write addr chunk
      sim.entity.soc.bus = ⟨parts, .error err, chunk, sim.entity.soc.bus⟩)
    (hchunk : chunk.length ≤ mem_chunk) :
    handle sim (.WriteMem addr (encode_hex (chunk.map UInt8.toNat))) =
      some (sim, .Error (SimError.Bus err).text) := by
  have hcall : sim.entity.call (Cpu.write_mem addr (chunk.map UInt8.toNat)) =
      (sim.entity, .error err) := by
    have hbytes := map_ofNat_toNat chunk
    have hdone := call_access (m := sim.entity) (f := fun res _ => res) haccess
    rw [← hbytes] at hdone
    exact hdone
  have hinspect : sim.entity.inspect_command (.WriteMem addr (chunk.map UInt8.toNat)) =
      (sim.entity, .Error (.Bus err)) := by
    simp only [Machine.inspect_command, hcall]
  unfold handle
  dsimp only
  rw [decode_encode_hex, Option.map_some]
  dsimp only
  rw [if_pos hchunk]
  unfold reply_to
  rw [command_stopped h, hinspect]
  rfl

end commands

/-! ### Transfers -/

namespace ClusterGdbTarget

variable {fault : Nat → Option CallFault}

/-- None of these calls fails. -/
def Faultless (fault : Nat → Option CallFault) (first last : Nat) : Prop :=
  ∀ i, first ≤ i → i < last → fault i = none

theorem faultless_self (fault : Nat → Option CallFault) (first : Nat) :
    Faultless fault first first := fun _ hle hlt => absurd hlt (Nat.not_lt.mpr hle)

theorem Faultless.cons {first last : Nat} (h : fault first = none) :
    Faultless fault (first + 1) last ↔ Faultless fault first last := by
  constructor
  · intro hlater i hle hlt
    by_cases hfirst : i = first
    · rwa [hfirst]
    · exact hlater i (by omega) hlt
  · exact fun hall i hle hlt => hall i (by omega) hlt

theorem not_faultless {first last : Nat} (h : fault first ≠ none) (hlt : first < last) :
    ¬Faultless fault first last := fun hall => h (hall first (Nat.le_refl _) hlt)

/-- A transfer gives `value`, unless one of its calls has failed. -/
def Ends {α : Type} (fault : Nat → Option CallFault) (first last : Nat)
    (res : Except TargetError α) (value : α) : Prop :=
  (res = .ok value ∧ Faultless fault first last) ∨
    (res = .error .NonFatal ∧ ¬Faultless fault first last)

theorem Ends.cons {α : Type} {first last : Nat} {res : Except TargetError α} {value : α}
    (h : fault first = none) (hends : Ends fault (first + 1) last res value) :
    Ends fault first last res value := by
  rcases hends with ⟨hres, hall⟩ | ⟨hres, hsome⟩
  · exact .inl ⟨hres, (Faultless.cons h).mp hall⟩
  · exact .inr ⟨hres, fun hall => hsome ((Faultless.cons h).mpr hall)⟩

/-- A call that the node can serve. -/
theorem rpc_cases {E F : Type} [Entity E F] (fault : Nat → Option CallFault)
    {s : ClusterGdbTarget E} {req : InspectRequest} {sim : Simulator E} {reply : InspectReply}
    (h : handle s.sim req = some (sim, reply)) :
    (fault s.calls = none ∧ rpc fault s req = some (⟨sim, s.calls + 1⟩, some reply)) ∨
      (fault s.calls ≠ none ∧ ∃ sim', (sim' = s.sim ∨ sim' = sim) ∧
        rpc fault s req = some (⟨sim', s.calls + 1⟩, none)) := by
  unfold rpc
  cases hfault : fault s.calls with
  | none =>
    rw [h]
    exact .inl ⟨rfl, rfl⟩
  | some how =>
    cases how with
    | unserved => exact .inr ⟨Option.some_ne_none _, s.sim, .inl rfl, rfl⟩
    | unanswered =>
      rw [h]
      exact .inr ⟨Option.some_ne_none _, sim, .inr rfl, rfl⟩

section transfers

variable {K D Ev F : Type} [Core K D Ev F] {s : ClusterGdbTarget (Machine (Soc K D) Ev F)}
  {start len k off : Nat}

/-- The registers are read as the core packs them. -/
theorem read_registers_ends (fault : Nat → Option CallFault) (hstopped : s.sim.state = .Stopped)
    {raw : List UInt8}
    (hread : Cpu.read_gdb_registers s.sim.entity.soc = .ok (raw.map UInt8.toNat)) :
    ∃ s' res, read_registers fault s = some (s', res) ∧ s'.sim = s.sim ∧
      Ends fault s.calls s'.calls res ⟨raw, .ofNat (Cpu.pc s.sim.entity.soc)⟩ := by
  have hserve : handle s.sim .ReadRegs = some (s.sim,
      .Regs (encode_hex (raw.map UInt8.toNat)) (Cpu.pc s.sim.entity.soc)) := by
    unfold handle reply_to
    rw [command_stopped hstopped]
    simp only [Machine.inspect_command, hread]
    rfl
  unfold read_registers
  rcases rpc_cases fault hserve with ⟨hok, hrpc⟩ | ⟨hfail, sim', hsame, hrpc⟩
  · rw [hrpc, Option.bind_some]
    dsimp only
    rw [decode_encode_hex]
    exact ⟨_, _, rfl, rfl, .inl ⟨rfl, (Faultless.cons hok).mp (faultless_self fault _)⟩⟩
  · rw [hrpc, Option.bind_some]
    exact ⟨_, _, rfl, hsame.elim id id,
      .inr ⟨rfl, not_faultless hfail (Nat.lt_succ_self _)⟩⟩

/-- What the core accepts is written as it is. -/
theorem write_registers_ends (fault : Nat → Option CallFault) (hstopped : s.sim.state = .Stopped)
    {regs : GdbRegs} {soc : Soc K D} (hwrite : Cpu.write_gdb_registers s.sim.entity.soc
      (regs.raw.map UInt8.toNat) = (soc, .ok ())) :
    ∃ s' res, write_registers fault s regs = some (s', res) ∧
      (s'.sim = s.sim ∨
        s'.sim = { s.sim with entity := { s.sim.entity with soc := soc } }) ∧
      Ends fault s.calls s'.calls res () := by
  have hserve : handle s.sim (.WriteRegs (encode_hex (regs.raw.map UInt8.toNat))) =
      some ({ s.sim with entity := { s.sim.entity with soc := soc } }, .Ok) := by
    unfold handle reply_to
    dsimp only
    rw [decode_encode_hex, Option.map_some]
    dsimp only
    rw [command_stopped hstopped]
    simp only [Machine.inspect_command, hwrite]
    rfl
  unfold write_registers
  rcases rpc_cases fault hserve with ⟨hok, hrpc⟩ | ⟨hfail, sim', hsame, hrpc⟩
  · rw [hrpc]
    exact ⟨_, _, rfl, .inr rfl, .inl ⟨rfl, (Faultless.cons hok).mp (faultless_self fault _)⟩⟩
  · rw [hrpc]
    exact ⟨_, _, rfl, hsame, .inr ⟨rfl, not_faultless hfail (Nat.lt_succ_self _)⟩⟩

/-- All bytes have been filled in. -/
theorem ends_filled (fault : Nat → Option CallFault) (calls : Nat) {bytes filled : List UInt8}
    (hle : ¬filled.length < len) : Ends fault calls calls (.ok filled)
      (filled ++ (bytes.drop (off + filled.length)).take (len - filled.length)) := by
  rw [Nat.sub_eq_zero_of_le (Nat.le_of_not_lt hle), List.take_zero, List.append_nil]
  exact .inl ⟨rfl, faultless_self fault calls⟩

/-- The rounds of a read of RAM or ROM. -/
theorem read_loop_spec (fault : Nat → Option CallFault) {d : Device D} {bytes : List UInt8}
    (hstopped : s.sim.state = .Stopped)
    (hdev : s.sim.entity.soc.bus.device_mut k = some d) (hhost : d.host_ptr = some bytes)
    (hroom : off + len ≤ bytes.length) (fuel : Nat) (filled : List UInt8)
    (hplaced : MappedAt s.sim.entity.soc.bus start len k off filled.length)
    (hfilled : filled.length ≤ len) (hfuel : len ≤ filled.length + fuel) :
    ∃ s' res, read_loop fault start len fuel s filled = some (s', res) ∧ s'.sim = s.sim ∧
      s.calls ≤ s'.calls ∧ Ends fault s.calls s'.calls res
        (filled ++ (bytes.drop (off + filled.length)).take (len - filled.length)) := by
  -- Each round fills in a chunk, so that the fuel and what is filled reach `len`
  -- together.
  induction fuel generalizing s filled with
  | zero =>
    have hle : ¬filled.length < len := by omega
    refine ⟨s, .ok filled, ?_, rfl, Nat.le_refl _, ends_filled fault s.calls hle⟩
    unfold read_loop
    rw [if_neg hle]
  | succ fuel ih =>
    unfold read_loop
    split
    · rename_i hlt
      have hpos : 0 < min (len - filled.length) mem_chunk := by
        have hchunk : 0 < mem_chunk := by decide
        omega
      have hle : min (len - filled.length) mem_chunk ≤ len - filled.length := Nat.min_le_left _ _
      have hchunk : min (len - filled.length) mem_chunk ≤ mem_chunk := Nat.min_le_right _ _
      dsimp only
      -- All that matters of the chunk is that it is neither empty nor too large.
      generalize min (len - filled.length) mem_chunk = n at hpos hle hchunk
      have hread := handle_read hstopped (hplaced filled.length n (Nat.le_refl _) hpos (by omega))
        hdev hhost (by omega) hpos hchunk
      rcases rpc_cases fault hread with ⟨hok, hrpc⟩ | ⟨hfail, sim', hsame, hrpc⟩
      · have hlen : ((bytes.drop (off + filled.length)).take n).length = n := by
          rw [List.length_take, List.length_drop]
          omega
        have hgrown : (filled ++ (bytes.drop (off + filled.length)).take n).length =
            filled.length + n := by
          rw [List.length_append, hlen]
        obtain ⟨s', res, hloop, hsim, hcalls, hends⟩ := ih (s := ⟨s.sim, s.calls + 1⟩) hstopped hdev
          (filled ++ (bytes.drop (off + filled.length)).take n)
          (fun i m hi => hplaced i m (by omega)) (by omega) (by omega)
        -- This chunk and what the later rounds read are what this round set out to read.
        have hwhole : filled ++ (bytes.drop (off + filled.length)).take n ++
            (bytes.drop (off + (filled.length + n))).take (len - (filled.length + n)) =
              filled ++ (bytes.drop (off + filled.length)).take (len - filled.length) := by
          have hdrop : bytes.drop (off + (filled.length + n)) =
              (bytes.drop (off + filled.length)).drop n := by
            rw [List.drop_drop, Nat.add_assoc]
          rw [List.append_assoc, hdrop, ← Nat.sub_sub, ← List.take_add, Nat.add_sub_cancel' hle]
        rw [hgrown, hwhole] at hends
        refine ⟨s', res, ?_, hsim, Nat.le_of_succ_le hcalls, hends.cons hok⟩
        rw [hrpc, Option.bind_some]
        dsimp only
        rw [decode_encode_hex, Option.bind_some]
        dsimp only
        rw [hlen, Nat.min_eq_left hle, if_neg (by omega), List.take_of_length_le (by omega), hloop]
      · refine ⟨⟨s.sim, s.calls + 1⟩, .error .NonFatal, ?_, rfl, Nat.le_succ _,
          .inr ⟨rfl, not_faultless hfail (Nat.lt_succ_self _)⟩⟩
        -- Served or not, a read has changed nothing.
        have hsim : sim' = s.sim := hsame.elim id id
        rw [hrpc, hsim]
        rfl
    · rename_i hle
      exact ⟨s, .ok filled, rfl, rfl, Nat.le_refl _, ends_filled fault s.calls hle⟩

/-- The simulator with the bytes `data` in a RAM of its board. -/
def sim_with_ram (sim : Simulator (Machine (Soc K D) Ev F)) (k : Nat) (data : Bytes) :
    Simulator (Machine (Soc K D) Ev F) :=
  { sim with entity := with_ram sim.entity k data }

omit [Core K D Ev F] in
theorem sim_with_ram_twice (sim : Simulator (Machine (Soc K D) Ev F)) (k : Nat)
    (data data' : Bytes) :
    sim_with_ram (sim_with_ram sim k data) k data' = sim_with_ram sim k data' := by
  unfold sim_with_ram with_ram
  dsimp only
  rw [put_device_twice]

omit [Core K D Ev F] in
theorem sim_with_ram_self {sim : Simulator (Machine (Soc K D) Ev F)} {data : Bytes}
    (h : sim.entity.soc.bus.device_mut k = some (.Ram data)) : sim_with_ram sim k data = sim := by
  unfold sim_with_ram with_ram
  rw [put_device_self h]

/-- The request for a chunk. -/
def chunk_request (start o : Nat) (rest : List UInt8) : InspectRequest :=
  .WriteMem (start + o) (encode_hex ((rest.take mem_chunk).map UInt8.toNat))

section rounds

variable {E F : Type} [Entity E F] {s s' : ClusterGdbTarget E} {rest : List UInt8} {fuel o : Nat}

theorem write_loop_ok (hne : rest ≠ [])
    (h : rpc fault s (chunk_request start o rest) = some (s', some .Ok)) :
    write_loop fault start (fuel + 1) s o rest =
      write_loop fault start fuel s' (o + (rest.take mem_chunk).length) (rest.drop mem_chunk) := by
  cases rest with
  | nil => exact absurd rfl hne
  | cons byte tail => exact congrArg (Option.bind · _) h

theorem write_loop_none (hne : rest ≠ [])
    (h : rpc fault s (chunk_request start o rest) = none) :
    write_loop fault start (fuel + 1) s o rest = none := by
  cases rest with
  | nil => exact absurd rfl hne
  | cons byte tail => exact congrArg (Option.bind · _) h

theorem write_loop_failed {reply : Option InspectReply} (hne : rest ≠ [])
    (h : rpc fault s (chunk_request start o rest) = some (s', reply)) (hreply : reply ≠ some .Ok) :
    write_loop fault start (fuel + 1) s o rest = some (s', .error .NonFatal) := by
  cases rest with
  | nil => exact absurd rfl hne
  | cons byte tail =>
    refine (congrArg (Option.bind · _) h).trans ?_
    rw [Option.bind_some]
    split
    · rename_i hok
      exact absurd (Prod.mk.inj hok).2 hreply
    · rename_i hother
      obtain ⟨rfl, -⟩ := Prod.mk.inj hother
      rfl

/-- The rest of a write, unless the first part has failed. -/
def write_rest (fault : Nat → Option CallFault) (start fuel o : Nat) (rest : List UInt8) :
    ClusterGdbTarget E × Except TargetError Unit →
      Option (ClusterGdbTarget E × Except TargetError Unit)
  | (s, .ok _) => write_loop fault start fuel s o rest
  | (s, .error err) => some (s, .error err)

/-- A first part of whole chunks goes before the rest. -/
theorem write_loop_append {head : List UInt8} {m more : Nat} (hlen : head.length = m * mem_chunk)
    (hmore : m ≤ more) : write_loop fault start (m + fuel) s o (head ++ rest) =
      (write_loop fault start more s o head).bind
        (write_rest fault start fuel (o + head.length) rest) := by
  induction m generalizing s o head more with
  | zero =>
    obtain rfl : head = [] := List.eq_nil_of_length_eq_zero (by omega)
    have hdone : write_loop fault start more s o [] = some (s, .ok ()) := by cases more <;> rfl
    rw [hdone, Nat.zero_add]
    rfl
  | succ m ih =>
    obtain ⟨more, rfl⟩ := Nat.exists_eq_succ_of_ne_zero (Nat.ne_of_gt (Nat.zero_lt_of_lt hmore))
    rw [Nat.succ_mul] at hlen
    have hpos : 0 < mem_chunk := by decide
    have hne : head ≠ [] := List.ne_nil_of_length_pos (by omega)
    have hne' : head ++ rest ≠ [] := List.append_ne_nil_of_left_ne_nil hne _
    -- The first chunk is one of the head.
    have htake : (head ++ rest).take mem_chunk = head.take mem_chunk :=
      List.take_append_of_le_length (by omega)
    have hdrop : (head ++ rest).drop mem_chunk = head.drop mem_chunk ++ rest :=
      List.drop_append_of_le_length (by omega)
    have hrequest : chunk_request start o (head ++ rest) = chunk_request start o head := by
      unfold chunk_request
      rw [htake]
    rw [Nat.add_right_comm]
    cases hrpc : rpc fault s (chunk_request start o head) with
    | none => rw [write_loop_none hne' (hrequest ▸ hrpc), write_loop_none hne hrpc]; rfl
    | some called =>
      obtain ⟨s', reply⟩ := called
      by_cases hreply : reply = some .Ok
      · subst hreply
        have hlater : o + (head.take mem_chunk).length + (head.drop mem_chunk).length =
            o + head.length := by
          rw [List.length_take, List.length_drop]
          omega
        rw [write_loop_ok hne' (hrequest ▸ hrpc), write_loop_ok hne hrpc, htake, hdrop,
          ih (by rw [List.length_drop]; omega) (Nat.le_of_succ_le_succ hmore), hlater]
      · rw [write_loop_failed hne' (hrequest ▸ hrpc) hreply, write_loop_failed hne hrpc hreply]
        rfl

end rounds

/-- A first part of `rest` is in the RAM from `off` on, all of it if no call has
    failed. -/
structure Written (fault : Nat → Option CallFault)
    (s s' : ClusterGdbTarget (Machine (Soc K D) Ev F)) (k off : Nat) (data : Bytes)
    (rest : List UInt8) (res : Except TargetError Unit) : Prop where
  part : ∃ n data', n ≤ rest.length ∧ data'.data = overwrite data.data off (rest.take n) ∧
    s'.sim = sim_with_ram s.sim k data' ∧ (res = .ok () → n = rest.length)
  calls : s.calls ≤ s'.calls
  ends : Ends fault s.calls s'.calls res ()

omit [Core K D Ev F] in
theorem written_nil {data : Bytes} {o : Nat}
    (hdev : s.sim.entity.soc.bus.device_mut k = some (.Ram data)) :
    Written fault s s k (off + o) data [] (.ok ()) where
  part := ⟨0, data, Nat.le_refl _, (overwrite_nil _ _).symm, (sim_with_ram_self hdev).symm,
    fun _ => rfl⟩
  calls := Nat.le_refl _
  ends := .inl ⟨rfl, faultless_self fault s.calls⟩

omit [Core K D Ev F] in
/-- After its first chunk, the rest is written. -/
theorem Written.cons {data data₁ : Bytes} {chunk rest : List UInt8} {res : Except TargetError Unit}
    {s' : ClusterGdbTarget (Machine (Soc K D) Ev F)} (hok : fault s.calls = none)
    (hdata₁ : data₁.data = overwrite data.data off chunk)
    (hroom : off + chunk.length ≤ data.data.length)
    (h : Written fault ⟨sim_with_ram s.sim k data₁, s.calls + 1⟩ s' k (off + chunk.length) data₁
      rest res) : Written fault s s' k off data (chunk ++ rest) res := by
  obtain ⟨n, data', hn, hdata', hsim, hall⟩ := h.part
  refine ⟨⟨chunk.length + n, data', ?_, ?_, ?_, fun hres => ?_⟩, Nat.le_of_succ_le h.calls,
    h.ends.cons hok⟩
  · rw [List.length_append]
    omega
  · rw [hdata', hdata₁, overwrite_append _ _ _ hroom, List.take_length_add_append]
  · rw [hsim]
    exact sim_with_ram_twice ..
  · rw [hall hres, List.length_append]

/-- The rounds of a write to RAM. -/
theorem write_loop_spec (fault : Nat → Option CallFault) {data : Bytes} (rest : List UInt8)
    (fuel o : Nat)
    (hstopped : s.sim.state = .Stopped)
    (hdev : s.sim.entity.soc.bus.device_mut k = some (.Ram data))
    (hplaced : MappedAt s.sim.entity.soc.bus start (o + rest.length) k off o)
    (hroom : off + o + rest.length ≤ data.data.length) (hfuel : rest.length ≤ fuel) :
    ∃ s' res, write_loop fault start fuel s o rest = some (s', res) ∧
      Written fault s s' k (off + o) data rest res := by
  -- The RAM changes with every round. Its place on the bus does not.
  induction fuel generalizing s data rest o with
  | zero =>
    obtain rfl : rest = [] := List.eq_nil_of_length_eq_zero (by omega)
    exact ⟨s, .ok (), rfl, written_nil hdev⟩
  | succ fuel ih =>
    by_cases hne : rest = []
    · subst hne
      exact ⟨s, .ok (), rfl, written_nil hdev⟩
    · have hsome : 0 < rest.length := List.length_pos_of_ne_nil hne
      have hpos : 0 < mem_chunk := by decide
      have hsplit : rest.take mem_chunk ++ rest.drop mem_chunk = rest :=
        List.take_append_drop mem_chunk rest
      have hchunk : (rest.take mem_chunk).length = min mem_chunk rest.length := List.length_take
      have hlen : (rest.drop mem_chunk).length = rest.length - mem_chunk := List.length_drop
      obtain ⟨data₁, hdata₁, hserve⟩ := handle_write hstopped
        (hplaced o (rest.take mem_chunk).length (Nat.le_refl _) (by omega) (by omega)) hdev
        (by omega) (by omega)
      rw [Nat.add_assoc] at hroom
      rcases rpc_cases fault hserve with ⟨hok, hrpc⟩ | ⟨hfail, sim', hsame, hrpc⟩
      -- The node has answered. The rest goes into the RAM that has this chunk.
      · have hroom₁ : data₁.data.length = data.data.length := by
          rw [hdata₁]
          exact length_overwrite (by omega)
        obtain ⟨s', res, hloop, hwritten⟩ := ih
          (s := ⟨sim_with_ram s.sim k data₁, s.calls + 1⟩) (rest.drop mem_chunk)
          (o + (rest.take mem_chunk).length) hstopped
          (MemoryBus.put_device_same hdev)
          (fun i n hi hn hle =>
            (MemoryBus.put_device_resolve hdev ..).trans (hplaced i n (by omega) hn (by omega)))
          (by omega) (by omega)
        refine ⟨s', res, (write_loop_ok hne hrpc).trans hloop, ?_⟩
        rw [← Nat.add_assoc] at hwritten
        exact hsplit ▸ hwritten.cons hok hdata₁ (by omega)
      -- Without an answer the loop ends. The chunk is in the RAM if it was served.
      · have hends : Ends fault s.calls (s.calls + 1) (.error .NonFatal) () :=
          .inr ⟨rfl, not_faultless hfail (Nat.lt_succ_self _)⟩
        refine ⟨_, _, write_loop_failed hne hrpc (by simp), ?_, Nat.le_succ _, hends⟩
        rcases hsame with rfl | rfl
        · exact ⟨0, data, Nat.zero_le _, (overwrite_nil _ _).symm, (sim_with_ram_self hdev).symm,
            fun h => by cases h⟩
        · refine ⟨mem_chunk ⊓ rest.length, data₁, Nat.min_le_right _ _, ?_, rfl,
            fun h => by cases h⟩
          rw [hdata₁, ← List.take_eq_take_min]

/-! ### Whole transfers -/

section whole

variable {start_addr : UInt32} {d : Device D} {bytes : List UInt8}

theorem read_addrs_spec (hstopped : s.sim.state = .Stopped)
    (hplaced : MappedAt s.sim.entity.soc.bus start_addr.toNat len k off 0)
    (hdev : s.sim.entity.soc.bus.device_mut k = some d) (hhost : d.host_ptr = some bytes)
    (hroom : off + len ≤ bytes.length) :
    ∃ s' res, read_addrs fault s start_addr len = some (s', res) ∧ s'.sim = s.sim ∧
      Ends fault s.calls s'.calls res ((bytes.drop off).take len) := by
  obtain ⟨s', res, hloop, hsim, -, hends⟩ := read_loop_spec fault hstopped hdev hhost
    hroom len [] hplaced (Nat.zero_le _) (Nat.le_add_left ..)
  exact ⟨s', res, hloop, hsim, hends⟩

variable [MemoryMapped D]

/-- What is read of RAM or ROM, in as many calls as it takes, are its bytes. A read
    fails exactly when one of its calls has failed, and it changes nothing. -/
theorem gdb_reads_memory (fault : Nat → Option CallFault)
    (s : ClusterGdbTarget (Machine (Soc K D) Ev F)) (start_addr : UInt32) (len : Nat)
    (hstopped : s.sim.state = .Stopped) (hwf : s.sim.entity.soc.bus.Wf)
    (hres : s.sim.entity.soc.bus.resolve start_addr.toNat len = .ok (k, off))
    (hdev : s.sim.entity.soc.bus.device_mut k = some d) (hhost : d.host_ptr = some bytes) :
    ∃ s' res, read_addrs fault s start_addr len = some (s', res) ∧ s'.sim = s.sim ∧
      Ends fault s.calls s'.calls res ((bytes.drop off).take len) := by
  obtain ⟨hplaced, hroom⟩ := mappedAt_of_resolve hwf start_addr.toNat_lt hres hdev hhost
  exact read_addrs_spec hstopped hplaced hdev hhost hroom

instance : MemoryMapped Empty where
  len d := d.elim
  read d := d.elim
  write d := d.elim
  load d := d.elim
  len_le d := d.elim

/-- A stub at a machine with one device, from address 0 on. -/
def stub_at (device : Device Empty) : ClusterGdbTarget (Machine (Soc Counter Empty) Empty Nat) :=
  ⟨Simulator.new (Machine.new ⟨⟨0⟩, ⟨[⟨0, device.len, .Device device⟩], .Log, [], none⟩⟩), 0⟩

theorem two_le_isize_max : 2 ≤ isize_max := by decide

/-- A stub at a machine with two bytes of RAM. -/
def two_bytes : ClusterGdbTarget (Machine (Soc Counter Empty) Empty Nat) :=
  stub_at (.Ram ⟨[7, 8], two_le_isize_max⟩)

theorem stub_at_wf (device : Device Empty) : (stub_at device).sim.entity.soc.bus.Wf where
  separate := List.pairwise_singleton _ _
  target r hr target_base target_offset halias := by
    rw [List.mem_singleton.mp hr] at halias
    cases halias
  backed r hr d hd := by
    rw [List.mem_singleton.mp hr] at hd
    cases hd
    rw [List.mem_singleton.mp hr]

/-- Both bytes are read. -/
theorem gdb_reads_memory_two : ∃ s', s'.sim = two_bytes.sim ∧
    read_addrs (fun _ => none) two_bytes 0 2 = some (s', .ok [7, 8]) := by
  have hres : two_bytes.sim.entity.soc.bus.resolve (0 : UInt32).toNat 2 = .ok (0, 0) := rfl
  obtain ⟨s', res, hread, hsim, ⟨rfl, -⟩ | ⟨-, hfault⟩⟩ :=
    gdb_reads_memory (fun _ => none) two_bytes 0 2 rfl (stub_at_wf _) hres rfl rfl
  · exact ⟨s', hsim, hread⟩
  · exact absurd (fun _ _ _ => rfl) hfault

/-- What is written to RAM is there afterwards, and nothing else has changed; a
    write fails exactly when one of its calls has failed, and has then put a first
    part of the data there. Whatever is read of this RAM later, through any window,
    shows it. -/
theorem gdb_writes_memory (fault : Nat → Option CallFault)
    (s : ClusterGdbTarget (Machine (Soc K D) Ev F)) (start_addr : UInt32) (buf : List UInt8)
    {data : Bytes} (hstopped : s.sim.state = .Stopped) (hwf : s.sim.entity.soc.bus.Wf)
    (hres : s.sim.entity.soc.bus.resolve start_addr.toNat buf.length = .ok (k, off))
    (hdev : s.sim.entity.soc.bus.device_mut k = some (.Ram data)) :
    ∃ s' res n data', write_addrs fault s start_addr buf = some (s', res) ∧
      n ≤ buf.length ∧ data'.data = overwrite data.data off (buf.take n) ∧
      s'.sim = sim_with_ram s.sim k data' ∧ Ends fault s.calls s'.calls res () ∧
      (res = .ok () → n = buf.length) ∧
      ∀ later window len at_, s.sim.entity.soc.bus.resolve window.toNat len = .ok (k, at_) →
        ∃ s'' res', read_addrs later s' window len = some (s'', res') ∧ s''.sim = s'.sim ∧
          Ends later s'.calls s''.calls res' ((data'.data.drop at_).take len) := by
  obtain ⟨hplaced, hroom⟩ := mappedAt_of_resolve hwf start_addr.toNat_lt hres hdev rfl
  obtain ⟨s', res, hloop, ⟨n, data', hn, hdata', hsim, hall⟩, -, hends⟩ :=
    write_loop_spec fault buf buf.length 0 hstopped hdev
      ((Nat.zero_add buf.length).symm ▸ hplaced) hroom (Nat.le_refl _)
  refine ⟨s', res, n, data', hloop, hn, hdata', hsim, hends, hall,
    fun later window len at_ hwindow => ?_⟩
  -- A write moves no region, so that the window still leads to the RAM.
  obtain ⟨hplaced', hroom'⟩ := mappedAt_of_resolve hwf window.toNat_lt hwindow hdev rfl
  have hlen : data'.data.length = data.data.length := by
    rw [hdata']
    refine length_overwrite ?_
    rw [List.length_take]
    omega
  refine read_addrs_spec (k := k) (d := .Ram data') ?_ ?_ ?_ rfl ?_
  · rw [hsim]
    exact hstopped
  · intro i m hi hm hle
    rw [hsim]
    exact (MemoryBus.put_device_resolve hdev ..).trans (hplaced' i m hi hm hle)
  · rw [hsim]
    exact MemoryBus.put_device_same hdev
  · rw [hlen]
    exact hroom'

/-- The second byte is written, and both are read. -/
theorem gdb_writes_memory_two : ∃ s' s'',
    write_addrs (fun _ => none) two_bytes 1 [9] = some (s', .ok ()) ∧
      read_addrs (fun _ => none) s' 0 2 = some (s'', .ok [7, 9]) := by
  have hres : two_bytes.sim.entity.soc.bus.resolve (1 : UInt32).toNat 1 = .ok (0, 1) := rfl
  obtain ⟨s', res, n, data', hwrite, -, hdata', -, ⟨rfl, -⟩ | ⟨-, hfault⟩, hall, hlater⟩ :=
    gdb_writes_memory (fun _ => none) two_bytes 1 [9] rfl (stub_at_wf _) hres rfl
  · obtain ⟨s'', res', hread, -, ⟨rfl, -⟩ | ⟨-, hfault⟩⟩ := hlater (fun _ => none) 0 2 0 rfl
    · rw [hdata', hall rfl] at hread
      exact ⟨s', s'', hwrite, hread⟩
    · exact absurd (fun _ _ _ => rfl) hfault
  · exact absurd (fun _ _ _ => rfl) hfault

omit [MemoryMapped D] in
/-- A chunk that the node refuses ends the write. -/
theorem write_loop_refused {start fuel i : Nat} {rest : List UInt8} {message : String}
    (hne : rest ≠ [])
    (h : handle s.sim (chunk_request start i rest) = some (s.sim, .Error message)) :
    write_loop fault start (fuel + 1) s i rest =
      some (⟨s.sim, s.calls + 1⟩, .error .NonFatal) := by
  rcases rpc_cases fault h with ⟨-, hrpc⟩ | ⟨-, sim', hsame, hrpc⟩
  · exact write_loop_failed hne hrpc (by simp)
  · obtain rfl : sim' = s.sim := hsame.elim id id
    exact write_loop_failed hne hrpc (by simp)

omit [MemoryMapped D] in
/-- A write that the node refuses ends with its first call. -/
theorem write_addrs_refused {buf : List UInt8} {message : String} (hne : buf ≠ [])
    (h : handle s.sim (chunk_request start_addr.toNat 0 buf) = some (s.sim, .Error message)) :
    write_addrs fault s start_addr buf = some (⟨s.sim, s.calls + 1⟩, .error .NonFatal) := by
  obtain ⟨fuel, hfuel⟩ := Nat.exists_eq_succ_of_ne_zero
    (Nat.ne_of_gt (List.length_pos_of_ne_nil hne))
  unfold write_addrs
  rw [hfuel]
  exact write_loop_refused hne h

omit [MemoryMapped D] in
/-- A read that the node refuses ends with its first call. -/
theorem read_addrs_refused {message : String} (hpos : 0 < len)
    (h : handle s.sim (.ReadMem (start_addr.toNat + 0) (min len mem_chunk)) =
      some (s.sim, .Error message)) :
    read_addrs fault s start_addr len = some (⟨s.sim, s.calls + 1⟩, .error .NonFatal) := by
  obtain ⟨fuel, rfl⟩ := Nat.exists_eq_succ_of_ne_zero (Nat.ne_of_gt hpos)
  unfold read_addrs read_loop
  rw [List.length_nil, if_pos hpos, Nat.sub_zero]
  dsimp only
  rcases rpc_cases fault h with ⟨-, hrpc⟩ | ⟨-, sim', hsame, hrpc⟩
  · rw [hrpc]
    rfl
  · obtain rfl : sim' = s.sim := hsame.elim id id
    rw [hrpc]
    rfl

/-- The part of `len` bytes that whole chunks fill. -/
def whole_chunks (len : Nat) : Nat := len / mem_chunk * mem_chunk

theorem whole_chunks_add (len : Nat) : whole_chunks len + len % mem_chunk = len := by
  unfold whole_chunks
  rw [Nat.mul_comm]
  exact Nat.div_add_mod ..

variable (fault s start_addr) in
omit [MemoryMapped D] in
/-- The whole chunks of a longer write go before its rest. -/
theorem write_addrs_split {buf : List UInt8} (hlong : len < buf.length) :
    ∃ fuel, write_addrs fault s start_addr buf =
      (write_loop fault start_addr.toNat buf.length s 0 (buf.take (whole_chunks len))).bind
        (write_rest fault start_addr.toNat (fuel + 1) (whole_chunks len)
          (buf.drop (whole_chunks len))) := by
  have hparts := whole_chunks_add len
  have hhead : (buf.take (whole_chunks len)).length = whole_chunks len := by
    rw [List.length_take]
    omega
  have hless := Nat.div_le_self len mem_chunk
  have hmore : 0 < buf.length - len / mem_chunk := by omega
  obtain ⟨fuel, hfuel⟩ := Nat.exists_eq_succ_of_ne_zero (Nat.ne_of_gt hmore)
  refine ⟨fuel, ?_⟩
  have happend : write_loop fault start_addr.toNat (len / mem_chunk + (fuel + 1)) s 0
      (buf.take (whole_chunks len) ++ buf.drop (whole_chunks len)) = _ :=
    write_loop_append (hhead.trans rfl) (hless.trans hlong.le)
  rw [hhead, Nat.zero_add, List.take_append_drop] at happend
  rw [← happend]
  unfold write_addrs
  congr 1
  omega

/-- Whatever has been written before, the chunk that goes over the end of the RAM
    is refused. -/
theorem handle_over_end {data data' : Bytes} {buf : List UInt8} (hstopped : s.sim.state = .Stopped)
    (hwf : s.sim.entity.soc.bus.Wf)
    (hres : s.sim.entity.soc.bus.resolve start_addr.toNat len = .ok (k, off))
    (hover : ∀ place, s.sim.entity.soc.bus.resolve start_addr.toNat (len + 1) ≠ .ok place)
    (hdev : s.sim.entity.soc.bus.device_mut k = some (.Ram data)) (hlong : len < buf.length)
    (hwithin : len % mem_chunk ≠ 0) :
    ∃ message, handle (sim_with_ram s.sim k data')
        (chunk_request start_addr.toNat (whole_chunks len) (buf.drop (whole_chunks len))) =
      some (sim_with_ram s.sim k data', .Error message) := by
  have hparts := whole_chunks_add len
  have hrem : len % mem_chunk < mem_chunk := Nat.mod_lt _ (by decide)
  obtain ⟨-, hroom⟩ := mappedAt_of_resolve hwf start_addr.toNat_lt hres hdev rfl
  have hchunk : ((buf.drop (whole_chunks len)).take mem_chunk).length =
      min mem_chunk (buf.length - whole_chunks len) := by
    rw [List.length_take, List.length_drop]
  have hlow : start_addr.toNat + len < u64_max := by
    have hmax : isize_max + 2 ^ 32 < u64_max := by decide
    have haddr := start_addr.toNat_lt
    have hfits := data.fits
    omega
  obtain ⟨off', hrefused⟩ := resolve_over hwf hlow hres hover (i := whole_chunks len)
    (n := ((buf.drop (whole_chunks len)).take mem_chunk).length) (by omega) (by omega)
  have hsame (addr n : Nat) : (s.sim.entity.soc.bus.put_device k (.Ram data')).resolve addr n =
      s.sim.entity.soc.bus.resolve addr n := MemoryBus.put_device_resolve hdev addr n
  rw [← hsame] at hrefused
  replace hrefused : (sim_with_ram s.sim k data').entity.soc.bus.resolve _ _ = _ := hrefused
  have hstill : (sim_with_ram s.sim k data').state = .Stopped := hstopped
  exact ⟨_, handle_write_refused hstill (access_write_over hrefused) (by omega)⟩

/-- A write that goes over the end of a RAM within one of its chunks: the chunks
    before it are written, and that chunk is refused as a whole. -/
theorem write_addrs_over (fault : Nat → Option CallFault) {data : Bytes} {buf : List UInt8}
    (hstopped : s.sim.state = .Stopped) (hwf : s.sim.entity.soc.bus.Wf)
    (hres : s.sim.entity.soc.bus.resolve start_addr.toNat len = .ok (k, off))
    (hover : ∀ place, s.sim.entity.soc.bus.resolve start_addr.toNat (len + 1) ≠ .ok place)
    (hdev : s.sim.entity.soc.bus.device_mut k = some (.Ram data)) (hlong : len < buf.length)
    (hwithin : len % mem_chunk ≠ 0) :
    ∃ s' n data', write_addrs fault s start_addr buf = some (s', .error .NonFatal) ∧
      n ≤ whole_chunks len ∧ data'.data = overwrite data.data off (buf.take n) ∧
      s'.sim = sim_with_ram s.sim k data' ∧
      (Faultless fault s.calls s'.calls → n = whole_chunks len) := by
  have hparts := whole_chunks_add len
  obtain ⟨hplaced, hroom⟩ := mappedAt_of_resolve hwf start_addr.toNat_lt hres hdev rfl
  have hhead : (buf.take (whole_chunks len)).length = whole_chunks len := by
    rw [List.length_take]
    omega
  -- The chunks before the end lie in the RAM.
  obtain ⟨s₁, res, hloop, ⟨n, data', hn, hdata', hsim, hall⟩, hcalls, hends⟩ :=
    write_loop_spec fault (buf.take (whole_chunks len)) buf.length 0 hstopped hdev
      (fun i m hi hm hle => hplaced i m hi hm (by omega)) (by omega)
      (hhead.trans_le (by omega))
  rw [hhead] at hn hall
  have htaken : (buf.take (whole_chunks len)).take n = buf.take n := by
    rw [List.take_take, Nat.min_eq_left hn]
  rw [htaken] at hdata'
  obtain ⟨fuel, hsplit⟩ := write_addrs_split fault s start_addr hlong
  rw [hsplit, hloop, Option.bind_some]
  rcases hends with ⟨rfl, hfaultless⟩ | ⟨rfl, hfault⟩
  · -- The next chunk goes over the end.
    have hne : buf.drop (whole_chunks len) ≠ [] := by
      refine List.ne_nil_of_length_pos ?_
      rw [List.length_drop]
      omega
    obtain ⟨message, hserve⟩ := handle_over_end hstopped hwf hres hover hdev hlong hwithin
    rw [← hsim] at hserve
    exact ⟨_, n, data', write_loop_refused hne hserve, hn, hdata', hsim, fun _ => hall rfl⟩
  · exact ⟨s₁, n, data', rfl, hn, hdata', hsim, fun hfaultless => absurd hfaultless hfault⟩

/-- What the node refuses: a running simulator every transfer, ROM every write, and
    the end of a RAM the chunk that goes over it. The stub stops at the first chunk
    that is refused, and what it has written before stays. -/
theorem gdb_memory_refused (fault : Nat → Option CallFault)
    (s : ClusterGdbTarget (Machine (Soc K D) Ev F)) (start_addr : UInt32) (buf : List UInt8)
    (hne : buf ≠ []) :
    (s.sim.state = .Running →
      (∀ len, 0 < len → read_addrs fault s start_addr len =
        some (⟨s.sim, s.calls + 1⟩, .error .NonFatal)) ∧
      write_addrs fault s start_addr buf = some (⟨s.sim, s.calls + 1⟩, .error .NonFatal)) ∧
    (s.sim.state = .Stopped → s.sim.entity.soc.bus.Wf → ∀ k off len,
      s.sim.entity.soc.bus.resolve start_addr.toNat len = .ok (k, off) →
      (∀ rom, len = buf.length → s.sim.entity.soc.bus.device_mut k = some (.Rom rom) →
        write_addrs fault s start_addr buf = some (⟨s.sim, s.calls + 1⟩, .error .NonFatal)) ∧
      ∀ data, s.sim.entity.soc.bus.device_mut k = some (.Ram data) →
        (∀ place, s.sim.entity.soc.bus.resolve start_addr.toNat (len + 1) ≠ .ok place) →
        len < buf.length → len % mem_chunk ≠ 0 →
        ∃ s' n data', write_addrs fault s start_addr buf = some (s', .error .NonFatal) ∧
          n ≤ whole_chunks len ∧ data'.data = overwrite data.data off (buf.take n) ∧
          s'.sim = sim_with_ram s.sim k data' ∧
          (Faultless fault s.calls s'.calls → n = whole_chunks len)) := by
  have hpos : 0 < mem_chunk := by decide
  refine ⟨fun hrunning => ⟨fun len hlen => ?_, ?_⟩, fun hstopped hwf k off len hres => ⟨?_, ?_⟩⟩
  · exact read_addrs_refused hlen (handle_running_read hrunning (by omega) (Nat.min_le_right _ _))
  · exact write_addrs_refused hne (handle_running_write hrunning (List.length_take_le _ _))
  · rintro rom rfl hdev
    have hsome : 0 < buf.length := List.length_pos_of_ne_nil hne
    obtain ⟨hplaced, -⟩ := mappedAt_of_resolve hwf start_addr.toNat_lt hres hdev rfl
    have hlen : (buf.take mem_chunk).length = min mem_chunk buf.length := List.length_take
    -- The first chunk lies in the ROM as all of the data does.
    exact write_addrs_refused hne (handle_write_refused hstopped (access_write_rom
      (hplaced 0 (buf.take mem_chunk).length (Nat.le_refl _) (by omega) (by omega)) hdev)
      (by omega))
  · exact fun data hdev hover hlong hwithin =>
      write_addrs_over fault hstopped hwf hres hover hdev hlong hwithin

/-- The whole of the device resolves, and no more. -/
theorem stub_at_resolve {device : Device Empty} {n : Nat} (hpos : 0 < device.len)
    (hlow : device.len < u64_max) : (stub_at device).sim.entity.soc.bus.resolve 0 n =
      if device.len < n then .error (.OutOfRange 0 0 n) else .ok (0, 0) := by
  have hholds : (⟨0, device.len, .Device device⟩ : MappedRegion Empty).window.Holds 0 :=
    holds_iff.mpr ⟨Nat.le_refl _, hpos.trans_eq (Nat.zero_add _).symm, hpos.trans hlow⟩
  have hfind := (stub_at_wf device).separate.find_region
    (i := 0) (r := ⟨0, device.len, .Device device⟩) rfl hholds
  have hsize : device.len < saturating_add 0 n ↔ device.len < n := by
    unfold saturating_add
    omega
  unfold MemoryBus.resolve
  rw [hfind]
  show (if device.len < saturating_add 0 n then _ else _) = _
  rw [if_congr hsize rfl rfl]
  rfl

/-- A RAM of 1500 bytes. -/
def long_ram : Bytes := ⟨List.replicate 1500 0, by rw [List.length_replicate]; decide⟩

/-- A running simulator and a ROM refuse at once. Of 2000 bytes for the RAM, the
    first chunk is written. -/
theorem gdb_memory_refused_stub :
    read_addrs (fun _ => none) ⟨{ two_bytes.sim with state := .Running }, 0⟩ 0 2 =
      some (⟨{ two_bytes.sim with state := .Running }, 1⟩, .error .NonFatal) ∧
    write_addrs (fun _ => none) (stub_at (.Rom ⟨[7, 8], two_le_isize_max⟩)) 0 [9, 9] =
      some (⟨(stub_at (.Rom ⟨[7, 8], two_le_isize_max⟩)).sim, 1⟩, .error .NonFatal) ∧
    ∃ s' data', write_addrs (fun _ => none) (stub_at (.Ram long_ram)) 0 (List.replicate 2000 1) =
        some (s', .error .NonFatal) ∧
      data'.data = overwrite long_ram.data 0 (List.replicate 1024 1) ∧
      s'.sim = sim_with_ram (stub_at (.Ram long_ram)).sim 0 data' := by
  have hlen : (Device.Ram long_ram : Device Empty).len = 1500 := List.length_replicate
  have hlong : (List.replicate 2000 (1 : UInt8)).length = 2000 := List.length_replicate
  have hne : List.replicate 2000 (1 : UInt8) ≠ [] :=
    List.ne_nil_of_length_pos (by rw [hlong]; decide)
  have hresolve (n : Nat) : (stub_at (.Ram long_ram)).sim.entity.soc.bus.resolve 0 n =
      if 1500 < n then .error (.OutOfRange 0 0 n) else .ok (0, 0) := by
    rw [stub_at_resolve (by rw [hlen]; decide) (by rw [hlen]; decide), hlen]
  refine ⟨((gdb_memory_refused (fun _ => none) ⟨{ two_bytes.sim with state := .Running }, 0⟩ 0 [9]
    (by simp)).1 rfl).1 2 (by decide), ?_, ?_⟩
  · exact ((gdb_memory_refused (fun _ => none) (stub_at (.Rom ⟨[7, 8], two_le_isize_max⟩)) 0 [9, 9]
      (by simp)).2 rfl (stub_at_wf _) 0 0 2 rfl).1 _ rfl rfl
  · obtain ⟨s', n, data', hwrite, -, hdata', hsim, hall⟩ :=
      ((gdb_memory_refused (fun _ => none) (stub_at (.Ram long_ram)) 0 (List.replicate 2000 1)
        hne).2 rfl (stub_at_wf _) 0 0 1500 (hresolve 1500)).2 long_ram rfl
        (fun place h => by rw [show UInt32.toNat 0 = 0 from rfl, hresolve] at h; cases h)
        (by rw [hlong]; decide) (by decide)
    have hn : n = 1024 := hall fun _ _ _ => rfl
    refine ⟨s', data', hwrite, ?_, hsim⟩
    rw [hdata', hn, List.take_replicate, show min 1024 2000 = 1024 from rfl]

end whole

end transfers

end ClusterGdbTarget

end Rl78Sim
