import Rl78Sim.Framework.Utf8
import Rl78Sim.Kernel.Aliases
import Rl78Sim.Kernel.HostWindows

/-! # Semihosting

    The text that a guest address names: the bytes up to the first NUL, inside
    the one window of RAM or ROM that holds the address. Nothing is read of any
    other window, so the bus is left as it was.
-/

namespace Rl78Sim

open Windows Utf8

variable {D : Type}

/-- The closure of `host_limit`. -/
def visit_limit (addr : Nat) (limit : Option Nat) : Nat × Nat × Option HostPtr → Option Nat
  | (base, size, host) =>
    if limit.isSome ∨ host = none then limit
    else if base ≤ addr ∧ addr < saturating_add base size then some (saturating_add base size)
    else limit

/-- `host_limit`. -/
def host_limit (bus : MemoryBus D) (addr : Nat) : Option (Option Nat) :=
  bus.for_each_region.map fun visited => visited.foldl (visit_limit addr) none

/-- `guest_cstring`, with the bus afterwards. -/
def guest_cstring [MemoryMapped D] (bus : MemoryBus D) (addr : Nat) :
    Option (Option String × MemoryBus D) :=
  match host_limit bus addr with
  | none => none
  | some none => some (none, bus)
  | some (some stop) =>
    -- `checked_sub`
    if stop < addr then some (none, bus)
    else
      match bus.read addr (List.replicate (stop - addr) 0) with
      | none => none
      | some served =>
        match served.result with
        | .error _ => some (none, served.bus)
        | .ok () =>
          match served.buf.findIdx? fun b => b = 0 with
          | none => some (none, served.bus)
          | some nul => some (some (from_utf8_lossy (served.buf.take nul)), served.bus)

/-- The byte of RAM or ROM at an address. -/
def MemoryBus.guest_byte (bus : MemoryBus D) (addr : Nat) : Option UInt8 :=
  match bus.resolve addr 1 with
  | .ok (k, off) => bus.byte_at k off
  | .error _ => none

/-- A window of RAM or ROM holds the address, and a NUL behind it. -/
def HasNul (bus : MemoryBus D) (addr : Nat) : Prop :=
  ∃ r ∈ bus.regions, ¬ bus.IsMmio r ∧ r.window.Holds addr ∧
    ∃ n, addr ≤ n ∧ n < r.window.stop ∧ bus.guest_byte n = some 0

/-- The bytes from the address up to the first NUL. -/
structure BeforeNul (bus : MemoryBus D) (addr : Nat) (bytes : List UInt8) : Prop where
  byte (j : Nat) (hj : j < bytes.length) : bus.guest_byte (addr + j) = some bytes[j]
  no_nul : 0 ∉ bytes
  nul : bus.guest_byte (addr + bytes.length) = some 0

/-! ## The window -/

theorem visit_limit_some (addr base size : Nat) (p : HostPtr) :
    visit_limit addr none (base, size, some p) =
      if (guest_window base size).Holds addr then some (guest_window base size).stop else none :=
  rfl

/-- The first region with a host pointer that holds the address. -/
theorem foldl_visit_limit (addr : Nat) (visited : List (Nat × Nat × Option HostPtr)) :
    visited.foldl (visit_limit addr) none =
      (visited.find? fun v => v.2.2.isSome ∧ (guest_window v.1 v.2.1).Holds addr).map fun v =>
        (guest_window v.1 v.2.1).stop := by
  have hfound (stop : Nat) (visited : List (Nat × Nat × Option HostPtr)) :
      visited.foldl (visit_limit addr) (some stop) = some stop := by
    induction visited with
    | nil => rfl
    | cons v visited ih => exact ih
  induction visited with
  | nil => rfl
  | cons v visited ih =>
    obtain ⟨base, size, host⟩ := v
    rw [List.foldl_cons, List.find?_cons]
    cases host with
    | none => simpa [visit_limit] using ih
    | some p =>
      rw [visit_limit_some]
      by_cases hholds : (guest_window base size).Holds addr
      · rw [if_pos hholds, hfound]
        simp [hholds]
      · rw [if_neg hholds, ih]
        simp [hholds]

variable {bus : MemoryBus D} {addr : Nat}

/-- The limit is the end of the window of memory that holds the address, and
    there is none if no such window does. -/
theorem MemoryBus.Mapped.limit_cases (h : bus.Mapped) (addr : Nat) :
    (∃ (i : Nat) (r : MappedRegion D), bus.regions[i]? = some r ∧ ¬ bus.IsMmio r ∧
      r.window.Holds addr ∧ host_limit bus addr = some (some r.window.stop)) ∨
    ((∀ r ∈ bus.regions, r.window.Holds addr → bus.IsMmio r) ∧
      host_limit bus addr = some none) := by
  obtain ⟨visited, hvisited, hvisits⟩ := h.visits
  have hlimit : host_limit bus addr = some (visited.foldl (visit_limit addr) none) := by
    unfold host_limit
    rw [hvisited]
    rfl
  rw [hlimit, foldl_visit_limit]
  cases hfind : visited.find? fun v => v.2.2.isSome ∧ (guest_window v.1 v.2.1).Holds addr with
  | some v =>
    obtain ⟨base, size, host⟩ := v
    have hvisit := List.find?_some hfind
    simp only [decide_eq_true_eq] at hvisit
    obtain ⟨hsome, hholds⟩ := hvisit
    obtain ⟨i, r, hi, rfl, rfl, hhost⟩ :=
      (hvisits.mem _ _ _).mp (List.mem_of_find?_eq_some hfind)
    refine Or.inl ⟨i, r, hi, ?_, hholds, rfl⟩
    intro hmmio
    rw [(region_host_eq_none hi ⟨_, hhost⟩).mpr hmmio] at hhost
    cases hhost
    cases hsome
  | none =>
    refine Or.inr ⟨?_, rfl⟩
    intro r hmem hholds
    obtain ⟨i, hi⟩ := List.mem_iff_getElem?.mp hmem
    obtain ⟨k, off, d, hlies⟩ := h.lies i r hi
    have hnone := List.find?_eq_none.mp hfind _
      ((hvisits.mem _ _ _).mpr ⟨i, r, hi, rfl, rfl, hlies.host⟩)
    rw [← hlies.mmio]
    cases hhost : d.host_ptr with
    | none => rfl
    | some bytes =>
      rw [hhost] at hnone
      exact absurd (decide_eq_true ⟨rfl, hholds⟩) hnone

variable [MemoryMapped D]

/-- A read up to the end of a window of memory yields its bytes, and changes
    nothing. -/
theorem MemoryBus.Mapped.read_window (h : bus.Mapped) {i : Nat} {r : MappedRegion D}
    (hi : bus.regions[i]? = some r) (hmem : ¬ bus.IsMmio r) (hr : r.window.Holds addr) :
    ∃ buf, bus.read addr (List.replicate (r.window.stop - addr) 0) = some ⟨.ok (), buf, bus⟩ ∧
      buf.length = r.window.stop - addr ∧
      ∀ j (hj : j < buf.length), bus.guest_byte (addr + j) = some buf[j] := by
  obtain ⟨k, off, d, hlies⟩ := h.lies i r hi
  obtain ⟨bytes, hhost⟩ := Option.ne_none_iff_exists'.mp fun hnone => hmem (hlies.mmio.mp hnone)
  have hheld := holds_iff.mp hr
  have hstop : r.window.stop = saturating_add r.base r.size := rfl
  have hlen : saturating_add (addr - r.base) (r.window.stop - addr) ≤ r.size := by
    rw [hstop]
    unfold saturating_add
    omega
  have hok := h.resolve_inside hi hlies hr hlen
  have hend : addr + (r.window.stop - addr) ≤ u64_max := by
    rw [hstop]
    unfold saturating_add
    omega
  -- the read is served from the host memory of one device, byte by byte
  have hpos : 0 < r.window.stop - addr := Nat.sub_pos_of_lt hr.2
  obtain ⟨hroom, -, hbytes⟩ := h.resolve_byte hok hlies.device hhost hend hpos
  generalize saturating_add off (addr - r.base) = place at hok hroom hbytes
  have hread : bus.read addr (List.replicate (r.window.stop - addr) 0) = _ :=
    read_host (by rwa [List.length_replicate]) hlies.device hhost (by rwa [List.length_replicate])
  rw [List.length_replicate] at hread
  have hlength : ((bytes.drop place).take (r.window.stop - addr)).length =
      r.window.stop - addr := by
    rw [List.length_take, List.length_drop]
    omega
  refine ⟨_, hread, hlength, ?_⟩
  intro j hj
  unfold MemoryBus.guest_byte
  rw [hbytes j (by omega)]
  show bus.byte_at k (place + j) = _
  unfold MemoryBus.byte_at
  rw [hlies.device, Option.bind_some, hhost, Option.bind_some, List.getElem_take,
    List.getElem_drop, List.getElem?_eq_getElem (by omega)]

/-! ## The text -/

/-- The text that a read up to the end of the window yields. -/
theorem MemoryBus.Mapped.guest_cstring (h : bus.Mapped) (addr : Nat) :
    ∃ res, guest_cstring bus addr = some (res, bus) ∧ (res.isSome ↔ HasNul bus addr) ∧
      ∀ text, res = some text →
        ∃ bytes, BeforeNul bus addr bytes ∧ text = from_utf8_lossy bytes := by
  unfold Rl78Sim.guest_cstring
  obtain ⟨i, r, hi, hmem, hr, hlimit⟩ | ⟨hmmio, hlimit⟩ := h.limit_cases addr
  · obtain ⟨buf, hread, hlength, hbytes⟩ := h.read_window hi hmem hr
    rw [hlimit]
    simp only [if_neg (Nat.not_lt.mpr (Nat.le_of_lt hr.2)), hread]
    cases hnul : buf.findIdx? fun b => b = 0 with
    | none =>
      refine ⟨none, rfl, ?_, by simp⟩
      -- A NUL in the window would be one of the bytes that were read.
      simp only [Option.isSome_none, Bool.false_eq_true, false_iff]
      rintro ⟨r', hmem', -, hr', n, hle, hlt, hzero⟩
      obtain ⟨i', hi'⟩ := List.mem_iff_getElem?.mp hmem'
      have hsame : i' = i := h.separate.eq_of_holds hi' hi hr' hr
      subst hsame
      rw [hi] at hi'
      cases hi'
      obtain ⟨j, rfl⟩ := Nat.exists_eq_add_of_le hle
      have hj : j < buf.length := by omega
      rw [hbytes j hj, Option.some.injEq] at hzero
      rw [List.findIdx?_eq_none_iff] at hnul
      have hne := hnul _ (List.getElem_mem hj)
      rw [hzero] at hne
      cases hne
    | some nul =>
      obtain ⟨hlt, hzero, hbefore⟩ := List.findIdx?_eq_some_iff_getElem.mp hnul
      simp only [decide_eq_true_eq] at hzero hbefore
      have hat : bus.guest_byte (addr + nul) = some 0 := by rw [hbytes nul hlt, hzero]
      refine ⟨some _, rfl, ?_, ?_⟩
      · simp only [Option.isSome_some, true_iff]
        exact ⟨r, List.mem_of_getElem? hi, hmem, hr, addr + nul, by omega, by omega, hat⟩
      · rintro text ⟨⟩
        have htake : (buf.take nul).length = nul := by
          rw [List.length_take]
          omega
        refine ⟨buf.take nul, ⟨?_, ?_, ?_⟩, rfl⟩
        · intro j hj
          rw [List.getElem_take]
          exact hbytes j (by omega)
        · intro hmem
          obtain ⟨j, hj, heq⟩ := List.mem_iff_getElem.mp hmem
          rw [List.getElem_take] at heq
          exact hbefore j (by omega) heq
        · rw [htake]
          exact hat
  · rw [hlimit]
    refine ⟨none, rfl, ?_, by simp⟩
    simp only [Option.isSome_none, Bool.false_eq_true, false_iff]
    rintro ⟨r, hmem, hmemory, hr, -⟩
    exact hmemory (hmmio r hmem hr)

omit [MemoryMapped D] in
theorem BeforeNul.length_le {bytes bytes' : List UInt8} (h : BeforeNul bus addr bytes)
    (h' : BeforeNul bus addr bytes') : bytes.length ≤ bytes'.length := by
  by_contra hlt
  -- the NUL behind the shorter one would be among the bytes of the other
  have hj : bytes'.length < bytes.length := Nat.lt_of_not_le hlt
  have hzero : bytes[bytes'.length] = 0 := Option.some.inj ((h.byte _ hj).symm.trans h'.nul)
  exact h.no_nul (hzero ▸ List.getElem_mem hj)

omit [MemoryMapped D] in
/-- There is one first NUL. -/
theorem BeforeNul.unique {bytes bytes' : List UInt8} (h : BeforeNul bus addr bytes)
    (h' : BeforeNul bus addr bytes') : bytes = bytes' := by
  refine List.ext_getElem (Nat.le_antisymm (h.length_le h') (h'.length_le h)) ?_
  intro j hj hj'
  exact Option.some.inj ((h.byte j hj).symm.trans (h'.byte j hj'))

/-- A text that the guest has in its memory is read as it is. -/
theorem MemoryBus.Mapped.guest_cstring_of_text (h : bus.Mapped) {addr : Nat} {text : String}
    (hbytes : BeforeNul bus addr (as_bytes text)) (hnul : HasNul bus addr) :
    Rl78Sim.guest_cstring bus addr = some (some text, bus) := by
  obtain ⟨res, hres, hsome, htext⟩ := h.guest_cstring addr
  obtain ⟨text', rfl⟩ := Option.isSome_iff_exists.mp (hsome.mpr hnul)
  obtain ⟨bytes, hbytes', rfl⟩ := htext text' rfl
  rw [hres, hbytes'.unique hbytes, from_utf8_lossy_as_bytes]

/-- On every bus that the builder made, in every state that it can get into and
    whatever its devices do when they are read: a text is found exactly if a NUL
    lies between the address and the end of a window of memory that holds it, it
    is that of the bytes before the first NUL, and the bus stays as it was. -/
theorem guest_cstring_text {calls : MapCalls D} {b : MemoryMapBuilder D} {bus₀ bus : MemoryBus D}
    (hrun : calls.run = .ok b) (hbuild : b.build = .ok bus₀) {history : List BusCall}
    (hafter : bus₀.after history = some bus) (addr : Nat) :
    ∃ res, guest_cstring bus addr = some (res, bus) ∧ (res.isSome ↔ HasNul bus addr) ∧
      ∀ text, res = some text → ∃ bytes, BeforeNul bus addr bytes ∧ text = from_utf8_lossy bytes :=
  MemoryBus.Mapped.guest_cstring
    (MemoryBus.Mapped.after history ((MapCalls.built hrun).wf hbuild).mapped hafter) addr

/-- A device that counts how often it is read. -/
structure ReadCount where
  reads : Nat
  deriving DecidableEq

instance : MemoryMapped ReadCount where
  len _ := 16
  read d _ buf := (.ok (), buf, ⟨d.reads + 1⟩)
  write d _ _ := (.ok (), d)
  load d offset _ := (.error (.NotLoadable offset), d)
  len_le _ := by decide

/-- ROM with a text in it, the counting device, and an alias that ends with the
    NUL of the text. -/
def text_map : MapCalls ReadCount :=
  .alias_ (.map (.map .new 0x2000 (.Rom ⟨[0x6F, 0x6B, 0, 0x72], by decide⟩)) 0xE0000
    (.Mmio ⟨0⟩)) 0x8000 0x2001 2

/-- The regions of `text_map`. -/
def text_regions : List (MappedRegion ReadCount) :=
  [⟨0x2000, 4, .Device (.Rom ⟨[0x6F, 0x6B, 0, 0x72], by decide⟩)⟩,
    ⟨0xE0000, 16, .Device (.Mmio ⟨0⟩)⟩, ⟨0x8000, 2, .Alias 0x2000 1⟩]

example : (guest_cstring ⟨text_regions, .Log, [], none⟩ 0x8000).map Prod.fst = some (some "k") ∧
    (guest_cstring ⟨text_regions, .Log, [], none⟩ 0x2003).map Prod.fst = some none := by
  decide +kernel

theorem guest_cstring_text_alias : ∃ res,
    guest_cstring ⟨text_regions, .Log, [], none⟩ 0x8000 =
      some (res, ⟨text_regions, .Log, [], none⟩) ∧
    (res.isSome ↔ HasNul ⟨text_regions, .Log, [], none⟩ 0x8000) ∧
    ∀ text, res = some text → ∃ bytes,
      BeforeNul ⟨text_regions, .Log, [], none⟩ 0x8000 bytes ∧ text = from_utf8_lossy bytes := by
  have hrun : text_map.run = .ok ⟨text_regions, .Log⟩ := by decide +kernel
  have hbuild : MemoryMapBuilder.build (D := ReadCount) ⟨text_regions, .Log⟩ =
      .ok ⟨text_regions, .Log, [], none⟩ := by decide +kernel
  have hafter : MemoryBus.after (D := ReadCount) ⟨text_regions, .Log, [], none⟩ [] =
      some ⟨text_regions, .Log, [], none⟩ := rfl
  exact guest_cstring_text hrun hbuild hafter 0x8000

end Rl78Sim
