import Mathlib.Data.Nat.Basic
import Rl78Sim.Framework.Windows
import Rl78Sim.Kernel.Clock
import Rl78Sim.Kernel.Entity

/-! # The Memory Map

    The bus, the regions it serves and the builder that puts them together. An
    address, an offset and a size are a `u64`. RAM and ROM are modelled with
    their bytes; every other device is an arbitrary `MemoryMapped` of which only
    the trait's functions are known, and which has no host pointer. A call that
    may panic returns `none` where it does.
-/

namespace Rl78Sim

open Windows

/-- `MapError`. -/
inductive MapError where
  | EmptyDevice
  | Overlap (base size : Nat)
  | AliasTargetMissing (target : Nat)
  | AliasOutOfRange (target size region_base region_size : Nat)
  | AliasCycle (path : List Nat)
  deriving DecidableEq

/-- `UnmappedPolicy`. -/
inductive UnmappedPolicy where
  | Log
  | Trap
  deriving DecidableEq

/-- `UnmappedAccess`, as the bus records it. -/
structure UnmappedRecord where
  addr : Nat
  len : Nat
  write : Bool
  deriving DecidableEq

/-- `isize::MAX`, the most bytes a `Vec` has room for. -/
def isize_max : Nat := 9223372036854775807

/-- A `Vec<u8>`. -/
structure Bytes where
  data : List UInt8
  fits : data.length ≤ isize_max
  deriving DecidableEq

/-- `copy_from`: the bytes that the buffer holds afterwards. A copy whose range
    overflows and one whose range leaves the data give the same error. -/
def copy_from (data : Bytes) (offset : Nat) (buf : List UInt8) : Except BusError (List UInt8) :=
  if offset + buf.length ≤ u64_max ∧ offset + buf.length ≤ data.data.length then
    .ok ((data.data.drop offset).take buf.length)
  else .error (.OutOfRange offset offset buf.length)

/-- The data with the buffer written over it. -/
def overwrite (data : List UInt8) (offset : Nat) (buf : List UInt8) : List UInt8 :=
  data.take offset ++ buf ++ data.drop (offset + buf.length)

theorem length_overwrite {data buf : List UInt8} {offset : Nat}
    (h : offset + buf.length ≤ data.length) :
    (overwrite data offset buf).length = data.length := by
  simp [overwrite]
  omega

/-- `copy_into`. -/
def copy_into (data : Bytes) (offset : Nat) (buf : List UInt8) : Except BusError Bytes :=
  if h : offset + buf.length ≤ u64_max ∧ offset + buf.length ≤ data.data.length then
    .ok ⟨overwrite data.data offset buf, length_overwrite h.2 ▸ data.fits⟩
  else .error (.OutOfRange offset offset buf.length)

/-- `MemoryMapped`, of a device that is neither RAM nor ROM. An access returns
    its result and the device afterwards; a read also returns the buffer. -/
class MemoryMapped (D : Type) where
  len : D → Nat
  read : D → Nat → List UInt8 → Except BusError Unit × List UInt8 × D
  write : D → Nat → List UInt8 → Except BusError Unit × D
  load : D → Nat → List UInt8 → Except BusError Unit × D
  /-- A length is a `u64`. -/
  len_le (d : D) : len d ≤ u64_max

/-- A `Box<dyn MemoryMapped>`. -/
inductive Device (D : Type) where
  | Ram (data : Bytes)
  | Rom (data : Bytes)
  | Mmio (device : D)
  deriving DecidableEq

/-- What an access asks of a device. -/
inductive Op where
  | read
  | write
  | load
  deriving DecidableEq

/-- The accesses that are recorded as writes. -/
def Op.is_write : Op → Bool
  | .read => false
  | .write => true
  | .load => true

/-- A copy into the buffer: its result, and the buffer afterwards. -/
def copied_from (data : Bytes) (offset : Nat) (buf : List UInt8) :
    Except BusError Unit × List UInt8 :=
  match copy_from data offset buf with
  | .ok buf' => (.ok (), buf')
  | .error err => (.error err, buf)

/-- A copy into the device: its result, and the bytes afterwards. -/
def copied_into (data : Bytes) (offset : Nat) (buf : List UInt8) :
    Except BusError Unit × Bytes :=
  match copy_into data offset buf with
  | .ok data' => (.ok (), data')
  | .error err => (.error err, data)

namespace Device

variable {D : Type} [MemoryMapped D]

/-- `MemoryMapped::len`. -/
def len : Device D → Nat
  | .Ram data => data.data.length
  | .Rom data => data.data.length
  | .Mmio device => MemoryMapped.len device

/-- `MemoryMapped::read`. -/
def read (offset : Nat) (buf : List UInt8) :
    Device D → Except BusError Unit × List UInt8 × Device D
  | .Ram data => ((copied_from data offset buf).1, (copied_from data offset buf).2, .Ram data)
  | .Rom data => ((copied_from data offset buf).1, (copied_from data offset buf).2, .Rom data)
  | .Mmio device =>
    let (res, buf', device') := MemoryMapped.read device offset buf
    (res, buf', .Mmio device')

/-- `MemoryMapped::write`. -/
def write (offset : Nat) (buf : List UInt8) : Device D → Except BusError Unit × Device D
  | .Ram data => ((copied_into data offset buf).1, .Ram (copied_into data offset buf).2)
  | .Rom data => (.error (.ReadOnly offset), .Rom data)
  | .Mmio device =>
    let (res, device') := MemoryMapped.write device offset buf
    (res, .Mmio device')

/-- `MemoryMapped::load`. -/
def load (offset : Nat) (buf : List UInt8) : Device D → Except BusError Unit × Device D
  | .Ram data => (.error (.NotLoadable offset), .Ram data)
  | .Rom data => ((copied_into data offset buf).1, .Rom (copied_into data offset buf).2)
  | .Mmio device =>
    let (res, device') := MemoryMapped.load device offset buf
    (res, .Mmio device')

/-- One of the three accesses; only a read changes the buffer. -/
def serve (op : Op) (offset : Nat) (buf : List UInt8) (d : Device D) :
    Except BusError Unit × List UInt8 × Device D :=
  match op with
  | .read => d.read offset buf
  | .write => ((d.write offset buf).1, buf, (d.write offset buf).2)
  | .load => ((d.load offset buf).1, buf, (d.load offset buf).2)

/-- The buffer behind `MemoryMapped::host_ptr`. -/
def host_ptr : Device D → Option (List UInt8)
  | .Ram data => some data.data
  | .Rom data => some data.data
  | .Mmio _ => none

end Device

/-- `RegionBacking`. -/
inductive RegionBacking (D : Type) where
  | Device (device : Device D)
  | Alias (target_base target_offset : Nat)
  deriving DecidableEq

/-- `MappedRegion`. -/
structure MappedRegion (D : Type) where
  base : Nat
  size : Nat
  backing : RegionBacking D
  deriving DecidableEq

/-- A guest window: its end is capped at `u64_max`. -/
def guest_window (base size : Nat) : Window Nat := ⟨base, saturating_add base size⟩

/-- The window of a region. -/
def MappedRegion.window {D : Type} (r : MappedRegion D) : Window Nat :=
  guest_window r.base r.size

/-- `overlaps`. -/
def overlaps (a_base a_size b_base b_size : Nat) : Bool :=
  decide ((guest_window a_base a_size).Meets (guest_window b_base b_size))

/-- `find_base`, on a list of regions. -/
def find_base {D : Type} (regions : List (MappedRegion D)) (base : Nat) : Option Nat :=
  regions.findIdx? fun r => r.base = base

/-- `find_region`, on a list of regions; `alias` searches for its target with
    the same test. -/
def find_region {D : Type} (regions : List (MappedRegion D)) (addr : Nat) : Option Nat :=
  regions.findIdx? fun r => r.window.Holds addr

/-- `MemoryBus`. -/
structure MemoryBus (D : Type) where
  regions : List (MappedRegion D)
  policy : UnmappedPolicy
  unmapped_log : List UnmappedRecord
  trap : Option UnmappedRecord
  deriving DecidableEq

/-- `rewrite_bus_error`. -/
def rewrite_bus_error (err : BusError) (addr : Nat) : BusError :=
  match err with
  | .ReadOnly _ => .ReadOnly addr
  | .NotLoadable _ => .NotLoadable addr
  | .OutOfRange _ offset len => .OutOfRange addr offset len
  | .Unmapped _ len => .Unmapped addr len

/-- `map_err` with the rewrite. -/
def rewrite_result (res : Except BusError Unit) (addr : Nat) : Except BusError Unit :=
  match res with
  | .ok () => .ok ()
  | .error err => .error (rewrite_bus_error err addr)

/-- What an access returns, with the buffer and the bus afterwards. -/
structure Served (D : Type) where
  result : Except BusError Unit
  buf : List UInt8
  bus : MemoryBus D

namespace MemoryBus

variable {D : Type} [MemoryMapped D]

/-- `resolve`: the index of the device and the offset in it. -/
def resolve (bus : MemoryBus D) (addr len : Nat) : Except BusError (Nat × Nat) :=
  match find_region bus.regions addr with
  | none => .error (.Unmapped addr len)
  | some index =>
    match bus.regions[index]? with
    -- a search answers with an index of the list
    | none => .error (.Unmapped addr len)
    | some region =>
      if region.size < saturating_add (addr - region.base) len then
        .error (.OutOfRange addr (addr - region.base) len)
      else
        match region.backing with
        | .Device _ => .ok (index, addr - region.base)
        | .Alias target_base target_offset =>
          match find_base bus.regions target_base with
          | none => .error (.Unmapped addr len)
          | some target => .ok (target, saturating_add target_offset (addr - region.base))

/-- `device_mut`: `none` where the source panics. -/
def device_mut (bus : MemoryBus D) (index : Nat) : Option (Device D) :=
  match bus.regions[index]? with
  | some { base := _, size := _, backing := .Device d } => some d
  | _ => none

/-- The device of a region is now `d`. -/
def put_device (bus : MemoryBus D) (index : Nat) (d : Device D) : MemoryBus D :=
  { bus with regions := bus.regions.modify index fun r => { r with backing := .Device d } }

/-- `unmapped`. -/
def unmapped (bus : MemoryBus D) (addr len : Nat) (write : Bool) : MemoryBus D :=
  { bus with
    unmapped_log := bus.unmapped_log ++ [⟨addr, len, write⟩]
    trap := if bus.policy = .Trap then some ⟨addr, len, write⟩ else bus.trap }

/-- The three accesses of the bus differ in what they ask of the device and in
    the flag of the record. -/
def access (bus : MemoryBus D) (op : Op) (addr : Nat) (buf : List UInt8) : Option (Served D) :=
  match bus.resolve addr buf.length with
  | .error (.Unmapped _ _) =>
    some ⟨.error (.Unmapped addr buf.length), buf, bus.unmapped addr buf.length op.is_write⟩
  | .error err => some ⟨.error err, buf, bus⟩
  | .ok (dev_idx, offset) =>
    (bus.device_mut dev_idx).map fun d =>
      let (res, buf', d') := d.serve op offset buf
      ⟨rewrite_result res addr, buf', bus.put_device dev_idx d'⟩

/-- `MemoryBus::read`. -/
def read (bus : MemoryBus D) (addr : Nat) (buf : List UInt8) : Option (Served D) :=
  bus.access .read addr buf

/-- `MemoryBus::write`. -/
def write (bus : MemoryBus D) (addr : Nat) (buf : List UInt8) : Option (Served D) :=
  bus.access .write addr buf

/-- `MemoryBus::load`. -/
def load (bus : MemoryBus D) (addr : Nat) (buf : List UInt8) : Option (Served D) :=
  bus.access .load addr buf

end MemoryBus

/-- A call on a bus that is in use. -/
inductive BusCall where
  | read (addr : Nat) (buf : List UInt8)
  | write (addr : Nat) (buf : List UInt8)
  | load (addr : Nat) (buf : List UInt8)
  | take_unmapped_log
  | take_trap

/-- The bus after a call. -/
def MemoryBus.call {D : Type} [MemoryMapped D] (bus : MemoryBus D) :
    BusCall → Option (MemoryBus D)
  | .read addr buf => (bus.read addr buf).map (·.bus)
  | .write addr buf => (bus.write addr buf).map (·.bus)
  | .load addr buf => (bus.load addr buf).map (·.bus)
  | .take_unmapped_log => some { bus with unmapped_log := [] }
  | .take_trap => some { bus with trap := none }

/-- The bus after a sequence of calls. -/
def MemoryBus.after {D : Type} [MemoryMapped D] (bus : MemoryBus D) (calls : List BusCall) :
    Option (MemoryBus D) :=
  calls.foldlM MemoryBus.call bus

/-- The regions whose base is not on the path. -/
def unseen {D : Type} (regions : List (MappedRegion D)) (path : List Nat) :
    List (MappedRegion D) :=
  regions.filter fun r => r.base ∉ path

/-- A visit of a new base leaves fewer to see. -/
theorem unseen_concat_lt {D : Type} {regions : List (MappedRegion D)} {path : List Nat}
    {region : MappedRegion D} (hmem : region ∈ regions) (hnew : region.base ∉ path) :
    (unseen regions (path ++ [region.base])).length < (unseen regions path).length := by
  have hsub : unseen regions (path ++ [region.base]) =
      (unseen regions path).filter fun r => r.base ≠ region.base := by
    unfold unseen
    rw [List.filter_filter]
    apply List.filter_congr
    intro r _
    simp [and_comm]
  rw [hsub]
  apply List.length_filter_lt_length_iff_exists.mpr
  exact ⟨region, List.mem_filter.mpr ⟨hmem, by simpa using hnew⟩, by simp⟩

/-- `resolve_alias_chain`, from the region whose chain it follows: where the
    source keeps the index of a region, this keeps the region. -/
def resolve_alias_chain {D : Type} (regions : List (MappedRegion D)) (path : List Nat)
    (region : MappedRegion D) (hmem : region ∈ regions) (accum : Nat) :
    Except MapError (Nat × Nat) :=
  match region.backing with
  | .Device _ => .ok (region.base, accum)
  | .Alias target_base target_offset =>
    if hseen : region.base ∈ path then .error (.AliasCycle (path ++ [region.base]))
    else
      have := unseen_concat_lt hmem hseen
      match hfind : regions.find? fun r => r.base = target_base with
      | none => .error (.AliasTargetMissing (saturating_add target_base target_offset))
      | some next =>
        resolve_alias_chain regions (path ++ [region.base]) next
          (List.mem_of_find?_eq_some hfind) (saturating_add accum target_offset)
termination_by (unseen regions path).length

/-- One region of `flatten_aliases`: an alias onto the device at the end of its
    chain. -/
def flatten_region {D : Type} (regions : List (MappedRegion D)) (region : MappedRegion D)
    (hmem : region ∈ regions) : Except MapError (MappedRegion D) :=
  match region.backing with
  | .Device _ => .ok region
  | .Alias _ _ =>
    match resolve_alias_chain regions [] region hmem 0 with
    | .error err => .error err
    | .ok (device_base, offset) =>
      match regions.find? fun r => r.base = device_base with
      -- the `expect` of the source: a chain ends at a region of the list
      | none => .error (.AliasTargetMissing device_base)
      | some device =>
        if device.size < saturating_add offset region.size then
          .error (.AliasOutOfRange (saturating_add device_base offset) region.size device_base
            device.size)
        else .ok { region with backing := .Alias device_base offset }

/-- `flatten_aliases`: every chain is walked on the regions as they were. -/
def flatten_aliases {D : Type} (regions : List (MappedRegion D)) :
    Except MapError (List (MappedRegion D)) :=
  regions.attach.mapM fun r => flatten_region regions r.1 r.2

/-- `MemoryMapBuilder`. -/
structure MemoryMapBuilder (D : Type) where
  regions : List (MappedRegion D)
  policy : UnmappedPolicy
  deriving DecidableEq

namespace MemoryMapBuilder

variable {D : Type} [MemoryMapped D]

/-- `MemoryMapBuilder::new`. -/
def new : MemoryMapBuilder D := ⟨[], .Log⟩

/-- `MemoryMapBuilder::policy`. -/
def set_policy (b : MemoryMapBuilder D) (policy : UnmappedPolicy) : MemoryMapBuilder D :=
  { b with policy := policy }

/-- `MemoryMapBuilder::map`. -/
def map (b : MemoryMapBuilder D) (base : Nat) (device : Device D) :
    Except MapError (MemoryMapBuilder D) :=
  if device.len = 0 then .error .EmptyDevice
  else if b.regions.any fun r => overlaps r.base r.size base device.len then
    .error (.Overlap base device.len)
  else .ok { b with regions := b.regions ++ [⟨base, device.len, .Device device⟩] }

/-- `MemoryMapBuilder::alias`. -/
def alias_ (b : MemoryMapBuilder D) (alias_base target size : Nat) :
    Except MapError (MemoryMapBuilder D) :=
  if size = 0 then .error .EmptyDevice
  else
    match b.regions.find? fun r => r.window.Holds target with
    | none => .error (.AliasTargetMissing target)
    | some region =>
      if region.size < saturating_add (target - region.base) size then
        .error (.AliasOutOfRange target size region.base region.size)
      else if b.regions.any fun r => overlaps r.base r.size alias_base size then
        .error (.Overlap alias_base size)
      else
        .ok { b with
          regions := b.regions ++ [⟨alias_base, size, .Alias region.base (target - region.base)⟩] }

/-- One region of the map that is merged in. -/
def merge_region (b : MemoryMapBuilder D) (region : MappedRegion D) :
    Except MapError (MemoryMapBuilder D) :=
  match region.backing with
  | .Device device => b.map region.base device
  | .Alias target_base target_offset =>
    b.alias_ region.base (saturating_add target_base target_offset) region.size

/-- `MemoryMapBuilder::merge`. -/
def merge (b other : MemoryMapBuilder D) : Except MapError (MemoryMapBuilder D) :=
  other.regions.foldlM merge_region b

/-- `MemoryMapBuilder::build`. -/
def build (b : MemoryMapBuilder D) : Except MapError (MemoryBus D) :=
  match flatten_aliases b.regions with
  | .error err => .error err
  | .ok regions => .ok ⟨regions, b.policy, [], none⟩

end MemoryMapBuilder

/-- A sequence of builder calls; the map that is merged in has a sequence of its
    own. -/
inductive MapCalls (D : Type) where
  | new
  | policy (calls : MapCalls D) (policy : UnmappedPolicy)
  | map (calls : MapCalls D) (base : Nat) (device : Device D)
  | alias_ (calls : MapCalls D) (alias_base target size : Nat)
  | merge (calls other : MapCalls D)

/-- The arguments of an `alias` call. -/
structure AliasWindow where
  alias_base : Nat
  target : Nat
  size : Nat
  deriving DecidableEq

namespace MapCalls

variable {D : Type} [MemoryMapped D]

/-- Make the calls. -/
def run : MapCalls D → Except MapError (MemoryMapBuilder D)
  | .new => .ok .new
  | .policy calls p => do .ok ((← calls.run).set_policy p)
  | .map calls base device => do (← calls.run).map base device
  | .alias_ calls alias_base target size => do (← calls.run).alias_ alias_base target size
  | .merge calls other => do
    let b ← calls.run
    let o ← other.run
    b.merge o

/-- Every alias that a call asks for. -/
def aliases : MapCalls D → List AliasWindow
  | .new => []
  | .policy calls _ => calls.aliases
  | .map calls _ _ => calls.aliases
  | .alias_ calls alias_base target size => calls.aliases ++ [⟨alias_base, target, size⟩]
  | .merge calls other => calls.aliases ++ other.aliases

/-- No window reaches past the end of the address space. -/
def Fits : MapCalls D → Prop
  | .new => True
  | .policy calls _ => calls.Fits
  | .map calls base device => calls.Fits ∧ base + device.len ≤ u64_max + 1
  | .alias_ calls alias_base _ size => calls.Fits ∧ alias_base + size ≤ u64_max + 1
  | .merge calls other => calls.Fits ∧ other.Fits

end MapCalls

end Rl78Sim
