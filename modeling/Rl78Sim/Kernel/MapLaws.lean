import Rl78Sim.Framework.Fallible
import Rl78Sim.Kernel.MemoryMap

/-! # Laws of the Memory Map

    What the builder accepts, what a chain of aliases leads to, and where the
    bus finds an address.
-/

namespace Rl78Sim

open Windows Fallible

variable {D : Type}

/-! ## Regions -/

/-- No two regions meet. -/
def Separate (regions : List (MappedRegion D)) : Prop :=
  Apart (regions.map MappedRegion.window)

theorem any_overlaps_eq_false {regions : List (MappedRegion D)} {base size : Nat} :
    (regions.any fun r => overlaps r.base r.size base size) = false ↔
      ∀ r ∈ regions, ¬ r.window.Meets (guest_window base size) := by
  simp [overlaps, MappedRegion.window]

theorem holds_iff {r : MappedRegion D} {addr : Nat} :
    r.window.Holds addr ↔ r.base ≤ addr ∧ addr < r.base + r.size ∧ addr < u64_max := by
  show r.base ≤ addr ∧ addr < min (r.base + r.size) u64_max ↔ _
  omega

/-- An address lies in at most one region. -/
theorem Separate.eq_of_holds {regions : List (MappedRegion D)} (h : Separate regions)
    {i j : Nat} {r s : MappedRegion D} {addr : Nat} (hi : regions[i]? = some r)
    (hj : regions[j]? = some s) (hr : r.window.Holds addr) (hs : s.window.Holds addr) : i = j := by
  apply Apart.eq_of_holds h (v := r.window) (w := s.window) _ _ hr hs
  · simp [hi]
  · simp [hj]

/-- The search for an address finds the region that holds it. -/
theorem Separate.find_region {regions : List (MappedRegion D)} (h : Separate regions) {i : Nat}
    {r : MappedRegion D} {addr : Nat} (hi : regions[i]? = some r) (hr : r.window.Holds addr) :
    find_region regions addr = some i := by
  apply findIdx?_of_unique hi (by simpa using hr)
  intro j s hj hs
  exact h.eq_of_holds hj hi (by simpa using hs) hr

/-- The search for a base finds the region that it is the base of, if that
    region holds an address at all. -/
theorem Separate.find_base {regions : List (MappedRegion D)} (h : Separate regions)
    (hpos : ∀ r ∈ regions, 0 < r.size) {i : Nat} {r : MappedRegion D} {addr : Nat}
    (hi : regions[i]? = some r) (hr : r.window.Holds addr) :
    find_base regions r.base = some i := by
  rw [holds_iff] at hr
  apply findIdx?_of_unique hi (by simp)
  intro j s hj hs
  have hbase : s.base = r.base := by simpa using hs
  have hsize : 0 < s.size := hpos s (List.mem_of_getElem? hj)
  have hsize' : 0 < r.size := hpos r (List.mem_of_getElem? hi)
  -- both regions hold their common base
  refine h.eq_of_holds hj hi (?_ : s.window.Holds r.base) ?_
  · rw [holds_iff]
    omega
  · rw [holds_iff]
    omega

/-! ## The builder -/

section Builder

variable [MemoryMapped D]

/-- A region that the builder adds to a list. -/
structure Accepted (regions : List (MappedRegion D)) (r : MappedRegion D) : Prop where
  pos : 0 < r.size
  apart : ∀ v ∈ regions, ¬ v.window.Meets r.window
  backed (d : Device D) : r.backing = .Device d → r.size = d.len
  target (target_base target_offset : Nat) : r.backing = .Alias target_base target_offset →
    ∃ R ∈ regions, R.base = target_base ∧ R.window.Holds (target_base + target_offset) ∧
      saturating_add target_offset r.size ≤ R.size

theorem MemoryMapBuilder.map_ok {b b' : MemoryMapBuilder D} {base : Nat} {device : Device D}
    (h : b.map base device = .ok b') :
    b'.regions = b.regions ++ [⟨base, device.len, .Device device⟩] ∧
      Accepted b.regions ⟨base, device.len, .Device device⟩ := by
  unfold MemoryMapBuilder.map at h
  split at h
  · cases h
  · rename_i hlen
    split at h
    · cases h
    · rename_i hover
      cases h
      refine ⟨rfl, Nat.pos_of_ne_zero hlen, ?_, ?_, ?_⟩
      · exact any_overlaps_eq_false.mp (by simpa using hover)
      · intro d hd
        cases hd
        rfl
      · intro target_base target_offset hd
        cases hd

theorem MemoryMapBuilder.alias_ok {b b' : MemoryMapBuilder D} {alias_base target size : Nat}
    (h : b.alias_ alias_base target size = .ok b') :
    ∃ target_base target_offset, target_base + target_offset = target ∧
      b'.regions = b.regions ++ [⟨alias_base, size, .Alias target_base target_offset⟩] ∧
      Accepted b.regions ⟨alias_base, size, .Alias target_base target_offset⟩ := by
  unfold MemoryMapBuilder.alias_ at h
  split at h
  · cases h
  · rename_i hsize
    split at h
    · cases h
    · rename_i R hfind
      split at h
      · cases h
      · rename_i hroom
        split at h
        · cases h
        · rename_i hover
          cases h
          have hmem : R ∈ b.regions := List.mem_of_find?_eq_some hfind
          have hholds : R.window.Holds target := by simpa using List.find?_some hfind
          have htarget : R.base + (target - R.base) = target := by
            rw [holds_iff] at hholds
            omega
          refine ⟨R.base, target - R.base, htarget, rfl, Nat.pos_of_ne_zero hsize, ?_, ?_, ?_⟩
          · exact any_overlaps_eq_false.mp (by simpa using hover)
          · intro d hd
            cases hd
          · intro target_base target_offset hd
            cases hd
            exact ⟨R, hmem, rfl, by rwa [htarget], Nat.le_of_not_lt hroom⟩

/-- A region of a merged map and what became of it: an alias may lead to its
    target by another base. -/
structure Copied (r r' : MappedRegion D) : Prop where
  base : r'.base = r.base
  size : r'.size = r.size
  target (target_base target_offset : Nat) : r.backing = .Alias target_base target_offset →
    ∃ target_base' target_offset', r'.backing = .Alias target_base' target_offset' ∧
      target_base' + target_offset' = saturating_add target_base target_offset

theorem MemoryMapBuilder.merge_region_ok {b b' : MemoryMapBuilder D} {r : MappedRegion D}
    (hbacked : ∀ d, r.backing = .Device d → r.size = d.len) (h : b.merge_region r = .ok b') :
    ∃ r', b'.regions = b.regions ++ [r'] ∧ Accepted b.regions r' ∧ Copied r r' := by
  unfold MemoryMapBuilder.merge_region at h
  split at h
  · rename_i d hd
    obtain ⟨hregions, haccepted⟩ := map_ok h
    refine ⟨_, hregions, haccepted, rfl, (hbacked d hd).symm, ?_⟩
    intro target_base target_offset ha
    rw [hd] at ha
    cases ha
  · rename_i target_base target_offset ha
    obtain ⟨target_base', target_offset', htarget, hregions, haccepted⟩ := alias_ok h
    refine ⟨_, hregions, haccepted, rfl, rfl, ?_⟩
    intro tb off ha'
    rw [ha] at ha'
    cases ha'
    exact ⟨target_base', target_offset', rfl, htarget⟩

/-- A list of regions that a builder has put together. -/
inductive Built : List (MappedRegion D) → Prop where
  | nil : Built []
  | concat (regions : List (MappedRegion D)) (r : MappedRegion D) : Built regions →
      Accepted regions r → Built (regions ++ [r])

theorem MemoryMapBuilder.merge_ok {b' : MemoryMapBuilder D} {rs : List (MappedRegion D)} :
    ∀ {b : MemoryMapBuilder D}, Built b.regions →
      (∀ r ∈ rs, ∀ d, r.backing = .Device d → r.size = d.len) →
      rs.foldlM merge_region b = .ok b' →
        ∃ new, b'.regions = b.regions ++ new ∧ List.Forall₂ Copied rs new ∧ Built b'.regions := by
  induction rs with
  | nil =>
    intro b hb _ h
    cases h
    exact ⟨[], by simp, List.Forall₂.nil, hb⟩
  | cons r rs ih =>
    intro b hb hbacked h
    rw [List.foldlM_cons] at h
    obtain ⟨b₁, hfirst, hrest⟩ := bind_ok h
    obtain ⟨r', hregions, haccepted, hcopied⟩ :=
      merge_region_ok (hbacked r List.mem_cons_self) hfirst
    have hb₁ : Built b₁.regions := hregions ▸ Built.concat _ _ hb haccepted
    obtain ⟨new, hnew, hall, hbuilt⟩ :=
      ih hb₁ (fun r hr => hbacked r (List.mem_cons_of_mem _ hr)) hrest
    exact ⟨r' :: new, by simp [hnew, hregions], List.Forall₂.cons hcopied hall, hbuilt⟩

namespace Built

variable {regions : List (MappedRegion D)}

theorem separate (h : Built regions) : Separate regions := by
  induction h with
  | nil => exact Apart.nil
  | concat regions r _ hr ih =>
    unfold Separate
    rw [List.map_append]
    apply Apart.concat ih
    intro v hv
    obtain ⟨s, hs, rfl⟩ := List.mem_map.mp hv
    exact hr.apart s hs

/-- Every region was accepted, by the regions before it. -/
theorem accepted (h : Built regions) : ∀ r ∈ regions, ∃ before, Accepted before r := by
  induction h with
  | nil => simp
  | concat regions r _ hr ih =>
    intro s hs
    rcases List.mem_append.mp hs with hs | hs
    · exact ih s hs
    · rw [List.mem_singleton.mp hs]
      exact ⟨regions, hr⟩

theorem pos (h : Built regions) : ∀ r ∈ regions, 0 < r.size := by
  intro r hr
  obtain ⟨before, haccepted⟩ := h.accepted r hr
  exact haccepted.pos

theorem backed (h : Built regions) :
    ∀ r ∈ regions, ∀ d, r.backing = .Device d → r.size = d.len := by
  intro r hr
  obtain ⟨before, haccepted⟩ := h.accepted r hr
  exact haccepted.backed

/-- An alias leads into a region of the list, which it does not meet. -/
theorem target (h : Built regions) :
    ∀ r ∈ regions, ∀ target_base target_offset, r.backing = .Alias target_base target_offset →
      ∃ R ∈ regions, R.base = target_base ∧ R.window.Holds (target_base + target_offset) ∧
        saturating_add target_offset r.size ≤ R.size ∧ ¬ R.window.Meets r.window := by
  induction h with
  | nil => simp
  | concat regions r _ hr ih =>
    intro s hs target_base target_offset hbacking
    rcases List.mem_append.mp hs with hs | hs
    · obtain ⟨R, hmem, hR⟩ := ih s hs target_base target_offset hbacking
      exact ⟨R, List.mem_append_left _ hmem, hR⟩
    · rw [List.mem_singleton.mp hs] at hbacking ⊢
      obtain ⟨R, hmem, hbase, hholds, hroom⟩ := hr.target target_base target_offset hbacking
      exact ⟨R, List.mem_append_left _ hmem, hbase, hholds, hroom, hr.apart R hmem⟩

end Built


namespace MapCalls

/-- The calls that returned a builder made its list of regions. -/
theorem built {calls : MapCalls D} :
    ∀ {b : MemoryMapBuilder D}, calls.run = .ok b → Built b.regions := by
  induction calls with
  | new =>
    intro b h
    cases h
    exact Built.nil
  | policy calls p ih =>
    intro b h
    obtain ⟨b₀, hb₀, h⟩ := bind_ok h
    cases h
    show Built b₀.regions
    exact ih hb₀
  | map calls base device ih =>
    intro b h
    obtain ⟨b₀, hb₀, h⟩ := bind_ok h
    obtain ⟨hregions, haccepted⟩ := MemoryMapBuilder.map_ok h
    rw [hregions]
    exact Built.concat _ _ (ih hb₀) haccepted
  | alias_ calls alias_base target size ih =>
    intro b h
    obtain ⟨b₀, hb₀, h⟩ := bind_ok h
    obtain ⟨_, _, _, hregions, haccepted⟩ := MemoryMapBuilder.alias_ok h
    rw [hregions]
    exact Built.concat _ _ (ih hb₀) haccepted
  | merge calls other ih ih_other =>
    intro b h
    obtain ⟨b₀, hb₀, h⟩ := bind_ok h
    obtain ⟨o, ho, h⟩ := bind_ok h
    obtain ⟨_, _, _, hbuilt⟩ := MemoryMapBuilder.merge_ok (ih hb₀) (ih_other ho).backed h
    exact hbuilt

/-- The windows of calls that fit make regions that do. -/
theorem fits {calls : MapCalls D} :
    ∀ {b : MemoryMapBuilder D}, calls.Fits → calls.run = .ok b →
      ∀ r ∈ b.regions, r.base + r.size ≤ u64_max + 1 := by
  induction calls with
  | new =>
    intro b _ h
    cases h
    simp [MemoryMapBuilder.new]
  | policy calls p ih =>
    intro b hfits h
    obtain ⟨b₀, hb₀, h⟩ := bind_ok h
    cases h
    show ∀ r ∈ b₀.regions, r.base + r.size ≤ u64_max + 1
    exact ih hfits hb₀
  | map calls base device ih =>
    intro b hfits h r hr
    obtain ⟨b₀, hb₀, h⟩ := bind_ok h
    obtain ⟨hregions, -⟩ := MemoryMapBuilder.map_ok h
    rw [hregions] at hr
    rcases List.mem_append.mp hr with hr | hr
    · exact ih hfits.1 hb₀ r hr
    · rw [List.mem_singleton.mp hr]
      exact hfits.2
  | alias_ calls alias_base target size ih =>
    intro b hfits h r hr
    obtain ⟨b₀, hb₀, h⟩ := bind_ok h
    obtain ⟨_, _, _, hregions, -⟩ := MemoryMapBuilder.alias_ok h
    rw [hregions] at hr
    rcases List.mem_append.mp hr with hr | hr
    · exact ih hfits.1 hb₀ r hr
    · rw [List.mem_singleton.mp hr]
      exact hfits.2
  | merge calls other ih ih_other =>
    intro b hfits h r hr
    obtain ⟨b₀, hb₀, h⟩ := bind_ok h
    obtain ⟨o, ho, h⟩ := bind_ok h
    obtain ⟨new, hnew, hall, -⟩ :=
      MemoryMapBuilder.merge_ok (built hb₀) (built ho).backed h
    rw [hnew] at hr
    rcases List.mem_append.mp hr with hr | hr
    · exact ih hfits.1 hb₀ r hr
    · obtain ⟨s, hs, hcopied⟩ := forall₂_exists_left hall hr
      rw [hcopied.base, hcopied.size]
      exact ih_other hfits.2 ho s hs

end MapCalls

/-- The region of an alias call. -/
def AliasWindow.Made (w : AliasWindow) (r : MappedRegion D) : Prop :=
  r.base = w.alias_base ∧ r.size = w.size ∧
    ∃ target_base target_offset, r.backing = .Alias target_base target_offset ∧
      target_base + target_offset = w.target

/-- Every alias call made a region. -/
theorem MapCalls.made {calls : MapCalls D} :
    ∀ {b : MemoryMapBuilder D}, calls.run = .ok b →
      ∀ w ∈ calls.aliases, ∃ r ∈ b.regions, w.Made r := by
  induction calls with
  | new =>
    intro b _ w hw
    cases hw
  | policy calls p ih =>
    intro b h
    obtain ⟨b₀, hb₀, h⟩ := bind_ok h
    cases h
    show ∀ w ∈ calls.aliases, ∃ r ∈ b₀.regions, w.Made r
    exact ih hb₀
  | map calls base device ih =>
    intro b h w hw
    obtain ⟨b₀, hb₀, h⟩ := bind_ok h
    obtain ⟨hregions, -⟩ := MemoryMapBuilder.map_ok h
    obtain ⟨r, hr, hmade⟩ := ih hb₀ w hw
    exact ⟨r, hregions ▸ List.mem_append_left _ hr, hmade⟩
  | alias_ calls alias_base target size ih =>
    intro b h w hw
    obtain ⟨b₀, hb₀, h⟩ := bind_ok h
    obtain ⟨target_base, target_offset, htarget, hregions, -⟩ := MemoryMapBuilder.alias_ok h
    rcases List.mem_append.mp hw with hw | hw
    · obtain ⟨r, hr, hmade⟩ := ih hb₀ w hw
      exact ⟨r, hregions ▸ List.mem_append_left _ hr, hmade⟩
    · rw [List.mem_singleton.mp hw, hregions]
      exact ⟨_, List.mem_append_right _ List.mem_cons_self, rfl, rfl, target_base,
        target_offset, rfl, htarget⟩
  | merge calls other ih ih_other =>
    intro b h w hw
    obtain ⟨b₀, hb₀, h⟩ := bind_ok h
    obtain ⟨o, ho, h⟩ := bind_ok h
    obtain ⟨new, hnew, hall, -⟩ :=
      MemoryMapBuilder.merge_ok (built hb₀) (built ho).backed h
    rcases List.mem_append.mp hw with hw | hw
    · obtain ⟨r, hr, hmade⟩ := ih hb₀ w hw
      exact ⟨r, hnew ▸ List.mem_append_left _ hr, hmade⟩
    · obtain ⟨s, hs, hbase, hsize, target_base, target_offset, hbacking, htarget⟩ :=
        ih_other ho w hw
      obtain ⟨r, hr, hcopied⟩ := forall₂_exists_right hall hs
      obtain ⟨target_base', target_offset', hbacking', htarget'⟩ :=
        hcopied.target target_base target_offset hbacking
      -- the target is an address that a region holds: the sum does not saturate
      have hexact : saturating_add target_base target_offset = target_base + target_offset := by
        obtain ⟨R, -, -, hholds, -⟩ :=
          (built ho).target s hs target_base target_offset hbacking
        rw [holds_iff] at hholds
        unfold saturating_add
        omega
      refine ⟨r, hnew ▸ List.mem_append_right _ hr, hcopied.base.trans hbase,
        hcopied.size.trans hsize, target_base', target_offset', hbacking', ?_⟩
      rw [htarget', hexact, htarget]

end Builder

end Rl78Sim
