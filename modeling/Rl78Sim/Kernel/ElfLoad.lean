import Rl78Sim.Kernel.Aliases
import Rl78Sim.Kernel.HostWindows

/-! # Loading an Image

    The segments of an ELF file, written to the bus one after the other. The
    parser is a library of its own: a parameter that yields the program headers
    of an image and the file bytes of each. A load that succeeds has put every
    byte of every segment at its load address and changed nothing else; one that
    fails has done so with the segments before the one that the bus refused.
-/

namespace Rl78Sim

/-! ## The loader -/

/-- `Endianness`. -/
inductive Endianness where
  | Little
  | Big
  deriving DecidableEq

/-- `PT_LOAD`. -/
def pt_load : UInt32 := 1

/-- A program header, with what `data` returns for it; `none` is an error. -/
structure ProgramHeader where
  p_type : UInt32
  p_paddr : UInt32
  p_vaddr : UInt32
  data : Option Bytes

/-- `object::File`, of which the loader reads these. -/
structure ObjectFile where
  is_elf32 : Bool
  endianness : Endianness
  entry : Nat
  elf_program_headers : List ProgramHeader

/-- `LoadError`. -/
inductive LoadError where
  | NotElf
  | Unsupported (msg : String)
  | Truncated
  | Bus (err : BusError)
  deriving DecidableEq

/-- `ElfLoad`. -/
structure ElfLoad where
  entry : Nat
  deriving DecidableEq

/-- The load address of a header. -/
def ProgramHeader.addr (ph : ProgramHeader) : Nat :=
  (if ph.p_paddr = 0 then ph.p_vaddr else ph.p_paddr).toNat

/-- The error for an image that the parser refuses. -/
def parse_error (image : List UInt8) : LoadError :=
  if image.length < 4 ∨ image.take 4 ≠ [0x7F, 0x45, 0x4C, 0x46] then .NotElf else .Truncated

section Loader

variable {D : Type} [MemoryMapped D]

/-- The loop of `load_elf`: the bus, and whether a segment was loaded. -/
def load_segments : List ProgramHeader → Bool → MemoryBus D →
    Option (MemoryBus D × Except LoadError Bool)
  | [], loaded, bus => some (bus, .ok loaded)
  | ph :: rest, loaded, bus =>
    match ph.data with
    | none => some (bus, .error .Truncated)
    | some data =>
      if data.data.isEmpty ∨ ph.p_type ≠ pt_load then load_segments rest loaded bus
      else
        match bus.load ph.addr data.data with
        | none => none
        | some served =>
          match served.result with
          | .ok () => load_segments rest true served.bus
          | .error err => some (served.bus, .error (.Bus err))

/-- `load_elf`. -/
def load_elf (parse : List UInt8 → Option ObjectFile) (image : List UInt8) (bus : MemoryBus D) :
    Option (MemoryBus D × Except LoadError ElfLoad) :=
  match parse image with
  | none => some (bus, .error (parse_error image))
  | some file =>
    if file.is_elf32 = false then some (bus, .error (.Unsupported "only ELF32 is supported"))
    else if file.endianness ≠ .Little then
      some (bus, .error (.Unsupported "ELF must be little-endian"))
    else
      match load_segments file.elf_program_headers false bus with
      | none => none
      | some (bus, .error err) => some (bus, .error err)
      | some (bus, .ok false) => some (bus, .error (.Unsupported "ELF has no PT_LOAD segments"))
      | some (bus, .ok true) => some (bus, .ok ⟨file.entry⟩)

end Loader

/-! ## What a load does to the memory -/

/-- What `MemoryMapped::load` promises: no device but ROM takes an image. -/
class RefusesImages (D : Type) [MemoryMapped D] : Prop where
  load_eq (d : D) (offset : Nat) (buf : List UInt8) :
    MemoryMapped.load d offset buf = (.error (.NotLoadable offset), d)

/-- The file bytes of a header that is loaded. -/
def ProgramHeader.file_bytes (ph : ProgramHeader) : List UInt8 :=
  if ph.p_type = pt_load then (ph.data.map Bytes.data).getD [] else []

/-- The bytes from an address on, each with its own address. -/
def bytes_at (addr : Nat) (bytes : List UInt8) : List (Nat × UInt8) :=
  bytes.zipIdx.map fun (byte, j) => (addr + j, byte)

/-- The file bytes of a header, each with its address. -/
def ProgramHeader.image (ph : ProgramHeader) : List (Nat × UInt8) :=
  bytes_at ph.addr ph.file_bytes

/-- The file bytes of all headers, in the order of loading. -/
def image_of (headers : List ProgramHeader) : List (Nat × UInt8) :=
  headers.flatMap ProgramHeader.image

variable {D : Type} {bus bus' : MemoryBus D}

/-- The last byte of the image whose address is that of byte `i` of device `k`. -/
def MemoryBus.last_at (bus : MemoryBus D) (image : List (Nat × UInt8)) (k i : Nat) :
    Option UInt8 :=
  ((image.filter fun w => bus.resolve w.1 1 = .ok (k, i)).getLast?).map Prod.snd

/-- The whole range lies in ROM. -/
def MemoryBus.InRom (bus : MemoryBus D) (addr len : Nat) : Prop :=
  ∃ k off data, bus.resolve addr len = .ok (k, off) ∧ bus.device_mut k = some (.Rom data)

/-- The image is in memory: every address of it is that of a byte, a byte of the
    memory is the last one of the image at its address, and every byte that the
    image does not reach is what it was, as is every device without memory. -/
structure Programmed (bus bus' : MemoryBus D) (image : List (Nat × UInt8)) : Prop where
  resolve (addr len : Nat) : bus'.resolve addr len = bus.resolve addr len
  in_rom (addr len : Nat) : bus'.InRom addr len ↔ bus.InRom addr len
  placed (w : Nat × UInt8) : w ∈ image → ∃ k i, bus.resolve w.1 1 = .ok (k, i) ∧
    (bus'.byte_at k i).isSome
  byte (k i : Nat) : bus'.byte_at k i = (bus.last_at image k i).or (bus.byte_at k i)
  device (k : Nat) : (bus.device_mut k).bind Device.host_ptr = none →
    bus'.device_mut k = bus.device_mut k

/-- The load stopped at a header that has no data, or whose bytes do not all lie
    in ROM; the headers before it are loaded. -/
structure Stopped (bus bus' : MemoryBus D) (headers : List ProgramHeader) (err : LoadError)
    (written : List ProgramHeader) (ph : ProgramHeader) : Prop where
  headers : ∃ rest, headers = written ++ ph :: rest
  programmed : Programmed bus bus' (image_of written)
  cause : (ph.data = none ∧ err = .Truncated) ∨
    (¬ bus.InRom ph.addr ph.file_bytes.length ∧ ∃ e, err = .Bus e)

/-- The image is refused before anything is loaded: it does not parse, is of
    another class or byte order, or has no loadable segment with bytes. -/
inductive Refused (parse : List UInt8 → Option ObjectFile) (image : List UInt8) :
    LoadError → Prop where
  | parse (hnone : parse image = none) : Refused parse image (parse_error image)
  | elf64 (file : ObjectFile) (hparse : parse image = some file)
      (hclass : file.is_elf32 = false) :
      Refused parse image (.Unsupported "only ELF32 is supported")
  | endianness (file : ObjectFile) (hparse : parse image = some file)
      (hclass : file.is_elf32 = true) (hbig : file.endianness ≠ .Little) :
      Refused parse image (.Unsupported "ELF must be little-endian")
  | empty (file : ObjectFile) (hparse : parse image = some file) (hclass : file.is_elf32 = true)
      (hlittle : file.endianness = .Little) (hnone : image_of file.elf_program_headers = []) :
      Refused parse image (.Unsupported "ELF has no PT_LOAD segments")

/-- What a load has done when it returns: the image is in memory, or it was
    refused and nothing has changed, or the load stopped at a header. -/
def Loaded (parse : List UInt8 → Option ObjectFile) (image : List UInt8) (bus bus' : MemoryBus D) :
    Except LoadError ElfLoad → Prop
  | .ok elf => ∃ file, parse image = some file ∧ file.is_elf32 = true ∧
      file.endianness = .Little ∧ elf.entry = file.entry ∧
      image_of file.elf_program_headers ≠ [] ∧
      Programmed bus bus' (image_of file.elf_program_headers)
  | .error err => (Refused parse image err ∧ Programmed bus bus' []) ∨
      ∃ file written ph, parse image = some file ∧ file.is_elf32 = true ∧
        file.endianness = .Little ∧ Stopped bus bus' file.elf_program_headers err written ph

/-! ## One segment -/

theorem zipIdx_filter {α : Type} (m : Nat) (l : List α) : ∀ n ≤ m,
    (l.zipIdx n).filter (fun p => p.2 = m) = (l[m - n]?.map fun a => (a, m)).toList := by
  induction l with
  | nil =>
    intro n _
    simp
  | cons a l ih =>
    intro n hn
    rw [List.zipIdx_cons, List.filter_cons]
    by_cases heq : n = m
    · subst heq
      have hlater : (l.zipIdx (n + 1)).filter (fun p => p.2 = n) = [] := by
        rw [List.filter_eq_nil_iff]
        rintro ⟨b, j⟩ hmem
        have hj := (List.mem_zipIdx hmem).1
        simp only [decide_eq_true_eq]
        omega
      simp [hlater]
    · rw [if_neg (by simpa using heq), ih (n + 1) (by omega)]
      have hsucc : m - n = m - (n + 1) + 1 := by omega
      rw [hsucc, List.getElem?_cons_succ]

namespace MemoryBus

/-- The bytes of one write lie where they were put. -/
theorem last_at_bytes {addr k off : Nat} {bytes : List UInt8}
    (h : ∀ j < bytes.length, bus.resolve (addr + j) 1 = .ok (k, off + j)) (k' i : Nat) :
    bus.last_at (bytes_at addr bytes) k' i =
      if k' = k ∧ off ≤ i then bytes[i - off]? else none := by
  unfold last_at bytes_at
  rw [List.filter_map, List.getLast?_map, Option.map_map]
  have hpick : bytes.zipIdx.filter ((fun w => decide (bus.resolve w.1 1 = .ok (k', i))) ∘
      fun (byte, j) => (addr + j, byte)) =
      bytes.zipIdx.filter fun p => decide (k' = k ∧ off ≤ i ∧ p.2 = i - off) := by
    apply List.filter_congr
    rintro ⟨byte, j⟩ hmem
    have hj := (List.mem_zipIdx hmem).2.1
    simp only [Function.comp_apply]
    rw [h j (by omega), decide_eq_decide]
    simp only [Except.ok.injEq, Prod.mk.injEq]
    omega
  rw [hpick]
  -- the only byte that can land on `i` is the one at `i - off`
  by_cases hhere : k' = k ∧ off ≤ i
  · rw [if_pos hhere]
    simp only [hhere, true_and]
    rw [zipIdx_filter _ _ 0 (Nat.zero_le _)]
    cases bytes[i - off - 0]? with
    | none => rfl
    | some byte => rfl
  · rw [if_neg hhere]
    have hnone : (bytes.zipIdx.filter fun p =>
        decide (k' = k ∧ off ≤ i ∧ p.2 = i - off)) = [] := by
      rw [List.filter_eq_nil_iff]
      intro p _
      simp only [decide_eq_true_eq]
      exact fun hp => hhere ⟨hp.1, hp.2.1⟩
    rw [hnone]
    rfl

theorem last_at_append (bus : MemoryBus D) (first rest : List (Nat × UInt8)) (k i : Nat) :
    bus.last_at (first ++ rest) k i = (bus.last_at rest k i).or (bus.last_at first k i) := by
  unfold last_at
  rw [List.filter_append, List.getLast?_append, Option.map_or]

theorem last_at_congr (h : ∀ addr len, bus'.resolve addr len = bus.resolve addr len)
    (image : List (Nat × UInt8)) (k i : Nat) : bus'.last_at image k i = bus.last_at image k i := by
  unfold last_at
  simp only [h]

end MemoryBus

namespace Programmed

/-- A bus with the same regions. -/
theorem of_regions (h : bus'.regions = bus.regions) : Programmed bus bus' [] := by
  have he : MemoryBus.Evolved bus bus' := MemoryBus.Evolved.of_regions h
  have hdevice (k : Nat) : bus'.device_mut k = bus.device_mut k := by
    unfold MemoryBus.device_mut
    rw [h]
  refine ⟨he.resolve, ?_, ?_, ?_, fun k _ => hdevice k⟩
  · intro addr len
    unfold MemoryBus.InRom
    simp only [he.resolve, hdevice]
  · intro w hw
    cases hw
  · intro k i
    unfold MemoryBus.byte_at
    rw [hdevice]
    rfl

/-- One image after another: where they meet, the later one lies on top. -/
theorem trans {bus'' : MemoryBus D} {first rest : List (Nat × UInt8)}
    (h : Programmed bus bus' first) (h' : Programmed bus' bus'' rest) :
    Programmed bus bus'' (first ++ rest) := by
  have hbyte (k i : Nat) : bus''.byte_at k i =
      (bus.last_at rest k i).or (bus'.byte_at k i) := by
    rw [h'.byte, MemoryBus.last_at_congr h.resolve]
  refine ⟨?_, ?_, ?_, ?_, ?_⟩
  · intro addr len
    rw [h'.resolve, h.resolve]
  · intro addr len
    rw [h'.in_rom, h.in_rom]
  · intro w hw
    rcases List.mem_append.mp hw with hw | hw
    · obtain ⟨k, i, hok, hsome⟩ := h.placed w hw
      refine ⟨k, i, hok, ?_⟩
      rw [hbyte, Option.isSome_or, hsome, Bool.or_true]
    · obtain ⟨k, i, hok, hsome⟩ := h'.placed w hw
      rw [h.resolve] at hok
      exact ⟨k, i, hok, hsome⟩
  · intro k i
    rw [hbyte, h.byte, MemoryBus.last_at_append, Option.or_assoc]
  · intro k hk
    have hsame := h.device k hk
    rw [← hsame] at hk
    rw [h'.device k hk, hsame]

end Programmed

theorem overwrite_getElem? {data buf : List UInt8} {off : Nat}
    (h : off + buf.length ≤ data.length) (i : Nat) :
    (overwrite data off buf)[i]? = (if off ≤ i then buf[i - off]? else none).or data[i]? := by
  have htake : (data.take off).length = off := by
    rw [List.length_take]
    omega
  unfold overwrite
  by_cases hbefore : off ≤ i
  · rw [if_pos hbefore, List.append_assoc, List.getElem?_append_right (by omega), htake]
    by_cases hin : i - off < buf.length
    · rw [List.getElem?_append_left hin, List.getElem?_eq_getElem hin]
      rfl
    · rw [List.getElem?_append_right (by omega), List.getElem?_drop,
        List.getElem?_eq_none (by omega : buf.length ≤ i - off), Option.none_or]
      congr 1
      omega
  · rw [if_neg hbefore, List.append_assoc, List.getElem?_append_left (by omega),
      List.getElem?_take_of_lt (by omega), Option.none_or]

/-- Bytes written over the data of a ROM. -/
theorem programmed_put {addr k off : Nat} {buf : List UInt8} {data data' : Bytes}
    (hd : bus.device_mut k = some (.Rom data))
    (hbytes : ∀ j < buf.length, bus.resolve (addr + j) 1 = .ok (k, off + j))
    (hroom : off + buf.length ≤ data.data.length)
    (hdata : data'.data = overwrite data.data off buf) :
    Programmed bus (bus.put_device k (.Rom data')) (bytes_at addr buf) := by
  have hput : (bus.put_device k (.Rom data')).device_mut k = some (.Rom data') :=
    MemoryBus.put_device_same hd
  have hother {i : Nat} (hi : i ≠ k) :
      (bus.put_device k (.Rom data')).device_mut i = bus.device_mut i :=
    MemoryBus.put_device_ne hi
  refine ⟨MemoryBus.put_device_resolve hd, ?_, ?_, ?_, ?_⟩
  · -- The device is a ROM before and after.
    intro addr' len
    constructor
    · rintro ⟨k', off', data'', hok, hd'⟩
      rw [MemoryBus.put_device_resolve hd] at hok
      by_cases hk : k' = k
      · subst hk
        exact ⟨k', off', data, hok, hd⟩
      · rw [hother hk] at hd'
        exact ⟨k', off', data'', hok, hd'⟩
    · rintro ⟨k', off', data'', hok, hd'⟩
      rw [← MemoryBus.put_device_resolve hd] at hok
      by_cases hk : k' = k
      · subst hk
        exact ⟨k', off', data', hok, hput⟩
      · rw [← hother hk] at hd'
        exact ⟨k', off', data'', hok, hd'⟩
  · intro w hw
    unfold bytes_at at hw
    obtain ⟨⟨byte, j⟩, hmem, rfl⟩ := List.mem_map.mp hw
    have hj := (List.mem_zipIdx hmem).2.1
    refine ⟨k, off + j, hbytes j (by omega), ?_⟩
    unfold MemoryBus.byte_at
    rw [hput]
    show data'.data[off + j]?.isSome
    rw [hdata, isSome_getElem?, length_overwrite hroom]
    omega
  · intro k' i
    rw [MemoryBus.last_at_bytes hbytes]
    unfold MemoryBus.byte_at
    by_cases hk : k' = k
    · subst hk
      rw [hput, hd]
      show data'.data[i]? = Option.or _ data.data[i]?
      rw [hdata, overwrite_getElem? hroom]
      simp
    · rw [hother hk, if_neg fun h => hk h.1, Option.none_or]
  · intro k' hnone
    apply hother
    intro hk
    subst hk
    rw [hd] at hnone
    cases hnone

section Load

variable [MemoryMapped D]

/-- A load into ROM. -/
theorem MemoryBus.Mapped.load_rom (h : bus.Mapped) {addr : Nat} {buf : List UInt8}
    (hend : addr + buf.length ≤ u64_max) (hpos : buf ≠ []) (hrom : bus.InRom addr buf.length) :
    ∃ served, bus.load addr buf = some served ∧ served.result = .ok () ∧
      Programmed bus served.bus (bytes_at addr buf) := by
  obtain ⟨k, off, data, hok, hd⟩ := hrom
  obtain ⟨hroom, hmax, hbytes⟩ := h.resolve_byte hok hd rfl hend
    (List.length_pos_iff.mpr hpos)
  -- The range lies in the data, so the copy is made.
  have hfits : off + buf.length ≤ u64_max ∧ off + buf.length ≤ data.data.length := by
    unfold u64_max
    unfold isize_max at hmax
    omega
  have hcopy : copied_into data off buf =
      (.ok (), ⟨overwrite data.data off buf, length_overwrite hfits.2 ▸ data.fits⟩) := by
    unfold copied_into copy_into
    rw [dif_pos hfits]
  have hload : bus.load addr buf = some ⟨rewrite_result (copied_into data off buf).1 addr, buf,
      bus.put_device k (.Rom (copied_into data off buf).2)⟩ := by
    unfold MemoryBus.load MemoryBus.access
    rw [hok]
    show (bus.device_mut k).map _ = _
    rw [hd]
    rfl
  refine ⟨_, hload, ?_, ?_⟩
  · rw [hcopy]
    rfl
  · rw [hcopy]
    exact programmed_put hd hbytes hroom rfl

/-- A load anywhere else is refused. -/
theorem MemoryBus.Serves.load_refused [RefusesImages D] (h : bus.Serves) {addr : Nat}
    {buf : List UInt8} (hrom : ¬ bus.InRom addr buf.length) :
    ∃ served err, bus.load addr buf = some served ∧ served.result = .error err ∧
      served.bus.regions = bus.regions := by
  obtain ⟨served, hserved⟩ := h.access .load addr buf
  have hput {k : Nat} {d : Device D} (hd : bus.device_mut k = some d) :
      (bus.put_device k d).regions = bus.regions := by
    rw [put_device_self hd]
  have hload : bus.load addr buf = some served := hserved
  refine ⟨served, ?_⟩
  unfold MemoryBus.access at hserved
  split at hserved
  · cases hserved
    exact ⟨_, hload, rfl, rfl⟩
  · cases hserved
    exact ⟨_, hload, rfl, rfl⟩
  · rename_i k off hres
    obtain ⟨d, hd, rfl⟩ := Option.map_eq_some_iff.mp hserved
    cases d with
    | Rom data => exact absurd ⟨k, off, data, hres, hd⟩ hrom
    | Ram data => exact ⟨_, hload, rfl, hput hd⟩
    | Mmio device =>
      have hserve : Device.serve .load off buf (.Mmio device) =
          (.error (.NotLoadable off), buf, .Mmio device) := by
        show ((MemoryMapped.load device off buf).1, buf,
          Device.Mmio (MemoryMapped.load device off buf).2) = _
        rw [RefusesImages.load_eq]
      simp only [hserve] at hload ⊢
      exact ⟨_, hload, rfl, hput hd⟩

end Load

/-! ## All segments -/

/-- A segment ends far below the end of the address space. -/
theorem ProgramHeader.room {ph : ProgramHeader} {data : Bytes} :
    ph.addr + data.data.length ≤ u64_max := by
  have haddr : ph.addr < 2 ^ 32 := UInt32.toNat_lt _
  have hlen := data.fits
  unfold isize_max at hlen
  unfold u64_max
  omega

theorem ProgramHeader.file_bytes_skipped {ph : ProgramHeader} {data : Bytes}
    (hdata : ph.data = some data) (hskip : data.data.isEmpty ∨ ph.p_type ≠ pt_load) :
    ph.file_bytes = [] := by
  unfold file_bytes
  rw [hdata]
  rcases hskip with hempty | hother
  · rw [List.isEmpty_iff] at hempty
    simp [hempty]
  · rw [if_neg hother]

theorem ProgramHeader.file_bytes_loaded {ph : ProgramHeader} {data : Bytes}
    (hdata : ph.data = some data) (hload : ¬ (data.data.isEmpty ∨ ph.p_type ≠ pt_load)) :
    ph.file_bytes = data.data ∧ data.data ≠ [] := by
  obtain ⟨hsome, htype⟩ := not_or.mp hload
  unfold file_bytes
  rw [hdata, if_pos (not_not.mp htype)]
  exact ⟨rfl, by simpa using hsome⟩

theorem image_of_cons (ph : ProgramHeader) (rest : List ProgramHeader) :
    image_of (ph :: rest) = ph.image ++ image_of rest :=
  List.flatMap_cons

/-- The headers before the one that a load stopped at, with one more of them. -/
theorem Stopped.cons {bus'' : MemoryBus D} {headers written : List ProgramHeader}
    {err : LoadError} {first ph : ProgramHeader} (h : Programmed bus bus' first.image)
    (h' : Stopped bus' bus'' headers err written ph) :
    Stopped bus bus'' (first :: headers) err (first :: written) ph := by
  obtain ⟨⟨rest, rfl⟩, hprogrammed, hcause⟩ := h'
  refine ⟨⟨rest, rfl⟩, ?_, ?_⟩
  · rw [image_of_cons]
    exact h.trans hprogrammed
  · rwa [h.in_rom] at hcause

/-- The loop over the headers runs to the end or to the first that cannot be
    loaded. -/
theorem load_segments_spec [MemoryMapped D] [RefusesImages D] (headers : List ProgramHeader) :
    ∀ {bus : MemoryBus D} (loaded : Bool), bus.Mapped →
      ∃ bus' res, load_segments headers loaded bus = some (bus', res) ∧
        match res with
        | .ok any => Programmed bus bus' (image_of headers) ∧
          (any = true ↔ loaded = true ∨ image_of headers ≠ [])
        | .error err => ∃ written ph, Stopped bus bus' headers err written ph := by
  induction headers with
  | nil =>
    intro bus loaded _
    exact ⟨bus, .ok loaded, rfl, Programmed.of_regions rfl, by simp [image_of]⟩
  | cons ph rest ih =>
    intro bus loaded h
    unfold load_segments
    cases hdata : ph.data with
    | none =>
      refine ⟨bus, .error .Truncated, rfl, [], ph, ⟨rest, rfl⟩, ?_, Or.inl ⟨hdata, rfl⟩⟩
      exact Programmed.of_regions rfl
    | some data =>
      by_cases hskip : data.data.isEmpty ∨ ph.p_type ≠ pt_load
      · -- Nothing is loaded of this header, and it has no image.
        have himage : ph.image = [] := by
          unfold ProgramHeader.image
          rw [ph.file_bytes_skipped hdata hskip]
          rfl
        obtain ⟨bus', res, hrun, hres⟩ := ih loaded h
        refine ⟨bus', res, by simpa only [if_pos hskip] using hrun, ?_⟩
        cases res with
        | ok any =>
          rw [image_of_cons, himage]
          exact hres
        | error err =>
          obtain ⟨written, ph', hstopped⟩ := hres
          refine ⟨ph :: written, ph', hstopped.cons ?_⟩
          rw [himage]
          exact Programmed.of_regions rfl
      · obtain ⟨hbytes, hsome⟩ := ph.file_bytes_loaded hdata hskip
        simp only [if_neg hskip]
        by_cases hrom : bus.InRom ph.addr data.data.length
        · obtain ⟨served, hload, hok, hput⟩ := h.load_rom ProgramHeader.room hsome hrom
          obtain ⟨bus', res, hrun, hres⟩ := ih true (h.access hload)
          have himage : ph.image = bytes_at ph.addr data.data := by
            unfold ProgramHeader.image
            rw [hbytes]
          have hne : ph.image ≠ [] := by
            rw [himage]
            simpa [bytes_at] using hsome
          rw [← himage] at hput
          refine ⟨bus', res, by rw [hload]; simpa only [hok] using hrun, ?_⟩
          cases res with
          | ok any =>
            rw [image_of_cons]
            obtain ⟨hrest, hany⟩ := hres
            refine ⟨hput.trans hrest, ?_⟩
            simpa [hne] using hany
          | error err =>
            obtain ⟨written, ph', hstopped⟩ := hres
            exact ⟨ph :: written, ph', hstopped.cons hput⟩
        · obtain ⟨served, err, hload, herr, hregions⟩ :=
            h.serves.load_refused hrom
          refine ⟨served.bus, .error (.Bus err), by simp only [hload, herr], [], ph,
            ⟨rest, rfl⟩, Programmed.of_regions hregions, Or.inr ⟨?_, err, rfl⟩⟩
          rw [hbytes]
          exact hrom

/-- On every bus that the builder made, in every state that it can get into: a
    load that succeeds has put the image of all loadable segments into memory,
    and one that fails has put there that of the segments before the one that it
    stopped at, if it came to them at all. -/
theorem load_elf_programs [MemoryMapped D] [RefusesImages D] {calls : MapCalls D}
    {b : MemoryMapBuilder D} {bus₀ bus : MemoryBus D} (hrun : calls.run = .ok b)
    (hbuild : b.build = .ok bus₀) {history : List BusCall} (hafter : bus₀.after history = some bus)
    (parse : List UInt8 → Option ObjectFile) (image : List UInt8) :
    ∃ bus' res, load_elf parse image bus = some (bus', res) ∧ Loaded parse image bus bus' res := by
  have hmapped : bus.Mapped := MemoryBus.Mapped.after history
    ((MapCalls.built hrun).wf hbuild).mapped hafter
  have hsame : Programmed bus bus [] := Programmed.of_regions rfl
  unfold load_elf
  cases hparse : parse image with
  | none => exact ⟨bus, _, rfl, Or.inl ⟨.parse hparse, hsame⟩⟩
  | some file =>
    cases hclass : file.is_elf32 with
    | false => exact ⟨bus, _, if_pos hclass, Or.inl ⟨.elf64 file hparse hclass, hsame⟩⟩
    | true =>
      have h32 : ¬ file.is_elf32 = false := by simp [hclass]
      by_cases hendian : file.endianness ≠ .Little
      · refine ⟨bus, .error (.Unsupported "ELF must be little-endian"), ?_,
          Or.inl ⟨.endianness file hparse hclass hendian, hsame⟩⟩
        simp only [if_neg h32, if_pos hendian]
      · have hlittle := not_not.mp hendian
        simp only [if_neg h32, if_neg hendian]
        obtain ⟨bus', res, hsegments, hres⟩ :=
          load_segments_spec file.elf_program_headers false hmapped
        rw [hsegments]
        cases res with
        | error err =>
          obtain ⟨written, ph, hstopped⟩ := hres
          exact ⟨bus', _, rfl, Or.inr ⟨file, written, ph, hparse, hclass, hlittle, hstopped⟩⟩
        | ok any =>
          obtain ⟨hprogrammed, hany⟩ := hres
          cases any with
          | true =>
            have hsome : image_of file.elf_program_headers ≠ [] := by simpa using hany
            exact ⟨bus', _, rfl, file, hparse, hclass, hlittle, rfl, hsome, hprogrammed⟩
          | false =>
            -- No segment had bytes to load, so the image is empty.
            have hempty : image_of file.elf_program_headers = [] := by simpa using hany
            rw [hempty] at hprogrammed
            exact ⟨bus', _, rfl,
              Or.inl ⟨.empty file hparse hclass hlittle hempty, hprogrammed⟩⟩

instance : RefusesImages NoDevice where
  load_eq d := nomatch d

/-- Four bytes of ROM. -/
def small_rom : MapCalls NoDevice := .map .new 0x1000 (.Rom four_bytes)

/-- The bus of `small_rom`. -/
def small_bus : MemoryBus NoDevice := ⟨[⟨0x1000, 4, .Device (.Rom four_bytes)⟩], .Log, [], none⟩

/-- An image with two segments: two bytes at 0x1000, and one at the address with
    the low bytes `lo` and `hi`. -/
def two_segments (lo hi : UInt8) : List UInt8 :=
  [0x7F, 0x45, 0x4C, 0x46, 1, 1, 1, 0, 0, 0, 0, 0, 0, 0, 0, 0, 1, 0, 197, 0, 1, 0, 0, 0] ++
    -- entry, offset of the program headers, their size and number
    [0, 0x10, 0, 0, 52, 0, 0, 0, 0, 0, 0, 0, 0, 0, 0, 0, 52, 0, 32, 0, 2, 0, 0, 0, 0, 0, 0, 0] ++
    [1, 0, 0, 0, 116, 0, 0, 0, 0, 0x10, 0, 0, 0, 0x10, 0, 0, 2, 0, 0, 0, 2, 0, 0, 0, 7, 0, 0, 0,
      1, 0, 0, 0] ++
    [1, 0, 0, 0, 118, 0, 0, 0, lo, hi, 0, 0, lo, hi, 0, 0, 1, 0, 0, 0, 1, 0, 0, 0, 7, 0, 0, 0,
      1, 0, 0, 0] ++
    [1, 2, 3]

/-- What the parser makes of `two_segments`. -/
def parse_two_segments (lo hi : UInt8) (image : List UInt8) : Option ObjectFile :=
  let addr := lo.toUInt32 + 256 * hi.toUInt32
  if image = two_segments lo hi then
    some ⟨true, .Little, 0x1000, [⟨pt_load, 0x1000, 0x1000, some ⟨[1, 2], by decide⟩⟩,
      ⟨pt_load, addr, addr, some ⟨[3], by decide⟩⟩]⟩
  else none

theorem small_rom_built : ∃ b, small_rom.run = .ok b ∧ b.build = .ok small_bus :=
  ⟨⟨small_bus.regions, .Log⟩, by decide +kernel, by decide +kernel⟩

/-- The second segment lies over the end of the first, or outside the ROM. -/
theorem load_elf_programs_small :
    (∃ bus', load_elf (parse_two_segments 1 0x10) (two_segments 1 0x10) small_bus =
      some (bus', .ok ⟨0x1000⟩) ∧
      Loaded (parse_two_segments 1 0x10) (two_segments 1 0x10) small_bus bus' (.ok ⟨0x1000⟩) ∧
      (List.range 4).map (bus'.byte_at 0) = [some 1, some 3, some 12, some 13]) ∧
    ∃ bus', load_elf (parse_two_segments 0 0x50) (two_segments 0 0x50) small_bus =
      some (bus', .error (.Bus (.Unmapped 0x5000 1))) ∧
      Loaded (parse_two_segments 0 0x50) (two_segments 0 0x50) small_bus bus'
        (.error (.Bus (.Unmapped 0x5000 1))) := by
  obtain ⟨b, hrun, hbuild⟩ := small_rom_built
  have hafter : small_bus.after [] = some small_bus := rfl
  constructor
  · have hok : load_elf (parse_two_segments 1 0x10) (two_segments 1 0x10) small_bus =
        some (⟨[⟨0x1000, 4, .Device (.Rom ⟨[1, 3, 12, 13], by decide⟩)⟩], .Log, [], none⟩,
          .ok ⟨0x1000⟩) := by decide +kernel
    obtain ⟨bus', res, hload, hloaded⟩ := load_elf_programs hrun hbuild hafter
      (parse_two_segments 1 0x10) (two_segments 1 0x10)
    cases hok.symm.trans hload
    exact ⟨_, hok, hloaded, by decide⟩
  · have herr : load_elf (parse_two_segments 0 0x50) (two_segments 0 0x50) small_bus =
        some (⟨[⟨0x1000, 4, .Device (.Rom ⟨[1, 2, 12, 13], by decide⟩)⟩], .Log,
          [⟨0x5000, 1, true⟩], none⟩, .error (.Bus (.Unmapped 0x5000 1))) := by decide +kernel
    obtain ⟨bus', res, hload, hloaded⟩ := load_elf_programs hrun hbuild hafter
      (parse_two_segments 0 0x50) (two_segments 0 0x50)
    cases herr.symm.trans hload
    exact ⟨_, herr, hloaded⟩

/-- The second segment is refused after the first was written. -/
theorem load_elf_partial : (∃ b, small_rom.run = .ok b ∧ b.build = .ok small_bus) ∧
    (∃ bus', load_elf (parse_two_segments 0 0x50) (two_segments 0 0x50) small_bus =
      some (bus', .error (.Bus (.Unmapped 0x5000 1))) ∧
      small_bus.byte_at 0 0 = some 10 ∧ bus'.byte_at 0 0 = some 1) ∧
    ¬ ∀ bus' err, load_elf (parse_two_segments 0 0x50) (two_segments 0 0x50) small_bus =
        some (bus', .error err) →
      ∀ k i, bus'.byte_at k i = small_bus.byte_at k i := by
  have hload : ∃ bus', load_elf (parse_two_segments 0 0x50) (two_segments 0 0x50) small_bus =
      some (bus', .error (.Bus (.Unmapped 0x5000 1))) ∧
      small_bus.byte_at 0 0 = some 10 ∧ bus'.byte_at 0 0 = some 1 := by
    refine ⟨⟨[⟨0x1000, 4, .Device (.Rom ⟨[1, 2, 12, 13], by decide⟩)⟩], .Log,
      [⟨0x5000, 1, true⟩], none⟩, ?_, ?_, ?_⟩
    · decide +kernel
    · decide +kernel
    · decide +kernel
  refine ⟨small_rom_built, hload, ?_⟩
  intro hsame
  obtain ⟨bus', hrun, hbefore, hafter⟩ := hload
  have hbyte := hsame bus' _ hrun 0 0
  rw [hbefore, hafter] at hbyte
  exact absurd hbyte (by decide)

end Rl78Sim
