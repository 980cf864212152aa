import Mathlib.Data.List.Nodup
import Rl78Sim.Framework.Walk
import Rl78Sim.Kernel.BusLaws

/-! # Alias Chains

    The walk from an alias through the regions that it and its targets name. It ends
    at a device, at a base that no region has, or where it comes back to an alias
    that it has seen; `resolve_alias_chain` tells the three apart in any list of
    regions with distinct bases, and the lists of a builder only have the first. -/

namespace Rl78Sim

open Windows Walk Fallible

variable {D : Type} {regions : List (MappedRegion D)} {r s : MappedRegion D} {i j n : Nat}

/-! ## Chains -/

/-- The region that an alias names. -/
def next_region (regions : List (MappedRegion D)) (r : MappedRegion D) : Option (MappedRegion D) :=
  match r.backing with
  | .Device _ => none
  | .Alias target_base _ => regions.find? fun q => q.base = target_base

/-- The offset of an alias in its target. -/
def MappedRegion.target_offset (r : MappedRegion D) : Nat :=
  match r.backing with
  | .Device _ => 0
  | .Alias _ target_offset => target_offset

/-- The offsets of the first aliases of a chain, added up. -/
def chain_offset (regions : List (MappedRegion D)) (r : MappedRegion D) : Nat → Nat
  | 0 => 0
  | n + 1 => chain_offset regions r n +
      ((after (next_region regions) r n).map MappedRegion.target_offset).getD 0

/-- The chain comes back to an alias that it has visited. -/
def Cycles (regions : List (MappedRegion D)) (r : MappedRegion D) : Prop :=
  Returns (next_region regions) r

/-- A hop of the chain names a base that no region has; it is for the address `target`. -/
def Dangles (regions : List (MappedRegion D)) (r : MappedRegion D) (target : Nat) : Prop :=
  ∃ n s target_base target_offset, after (next_region regions) r n = some s ∧
    s.backing = .Alias target_base target_offset ∧ (∀ q ∈ regions, q.base ≠ target_base) ∧
    target = saturating_add target_base target_offset

/-- After `n` hops the chain is at the device in `s`. -/
def EndsAt (regions : List (MappedRegion D)) (r : MappedRegion D) (n : Nat)
    (s : MappedRegion D) : Prop :=
  after (next_region regions) r n = some s ∧ ∃ d, s.backing = .Device d

theorem next_region_device {d : Device D} (h : s.backing = .Device d) :
    next_region regions s = none := by
  unfold next_region
  rw [h]

theorem next_region_alias {target_base target_offset : Nat}
    (h : s.backing = .Alias target_base target_offset) :
    next_region regions s = regions.find? fun q => q.base = target_base := by
  unfold next_region
  rw [h]

theorem next_region_missing {target_base target_offset : Nat}
    (h : s.backing = .Alias target_base target_offset)
    (hmissing : ∀ q ∈ regions, q.base ≠ target_base) : next_region regions s = none := by
  rw [next_region_alias h, List.find?_eq_none]
  simpa using hmissing

/-- A region that a hop leads to is the one that its base finds. -/
theorem find_next (h : next_region regions r = some s) :
    (regions.find? fun q => q.base = s.base) = some s := by
  unfold next_region at h
  split at h
  · cases h
  · rename_i target_base _ _
    have hbase : s.base = target_base := by simpa using List.find?_some h
    rw [hbase]
    exact h

theorem find_after (h : after (next_region regions) r (n + 1) = some s) :
    (regions.find? fun q => q.base = s.base) = some s := by
  obtain ⟨t, -, ht⟩ := Option.bind_eq_some_iff.mp h
  exact find_next ht

/-- A chain stays in its list. -/
theorem mem_after (hmem : r ∈ regions) (h : after (next_region regions) r n = some s) :
    s ∈ regions := by
  cases n with
  | zero => exact Option.some.inj h ▸ hmem
  | succ n => exact List.mem_of_find?_eq_some (find_after h)

/-- With distinct bases, a region is known by its base. -/
theorem eq_of_base (hdistinct : (regions.map (·.base)).Nodup) (hr : r ∈ regions)
    (hs : s ∈ regions) (h : r.base = s.base) : r = s :=
  List.inj_on_of_nodup_map hdistinct hr hs h

/-! ## What the walk finds -/

/-- Two places of the chain have one base. -/
def Repeats (regions : List (MappedRegion D)) (r : MappedRegion D) : Prop :=
  ∃ i j s t, i < j ∧ after (next_region regions) r i = some s ∧
    after (next_region regions) r j = some t ∧ s.base = t.base

theorem Repeats.cycles (h : Repeats regions r) (hmem : r ∈ regions)
    (hdistinct : (regions.map (·.base)).Nodup) : Cycles regions r := by
  obtain ⟨i, j, s, t, hij, hs, ht, hbase⟩ := h
  obtain rfl := eq_of_base hdistinct (mem_after hmem hs) (mem_after hmem ht) hbase
  exact ⟨i, j, s, hij, hs, ht⟩

/-- What a result of the walk says about the chain. -/
def Explains (regions : List (MappedRegion D)) (r : MappedRegion D) :
    Except MapError (Nat × Nat) → Prop
  | .ok (device_base, offset) => ∃ n s, EndsAt regions r n s ∧ device_base = s.base ∧
      offset = min (chain_offset regions r n) u64_max
  | .error (.AliasCycle _) => Repeats regions r
  | .error (.AliasTargetMissing target) => Dangles regions r target
  | .error _ => False

/-- The walk, from any place of the chain with the bases up to there. -/
theorem resolve_from {r : MappedRegion D} {n accum : Nat} {path : List Nat}
    (start : MappedRegion D) (hmem : r ∈ regions)
    (hr : after (next_region regions) start n = some r)
    (hpath : ∀ base ∈ path, ∃ i < n, ∃ s, after (next_region regions) start i = some s ∧
      s.base = base)
    (haccum : accum = min (chain_offset regions start n) u64_max) :
    Explains regions start (resolve_alias_chain regions path r hmem accum) := by
  rw [resolve_alias_chain]
  split
  · rename_i d hd
    exact ⟨n, r, ⟨hr, d, hd⟩, rfl, haccum⟩
  · rename_i target_base target_offset ha
    split
    -- The base is on the path: an earlier place of the chain has it.
    · rename_i hseen
      obtain ⟨i, hi, s, hs, hbase⟩ := hpath _ hseen
      exact ⟨i, n, s, r, hi, hs, hr, hbase⟩
    -- Otherwise one base less is unseen, which is why the walk ends.
    · rename_i hseen
      have hless := unseen_concat_lt hmem hseen
      simp only
      split
      · rename_i hnone
        refine ⟨n, r, target_base, target_offset, hr, ha, ?_, rfl⟩
        simpa using List.find?_eq_none.mp hnone
      · rename_i next hnext
        have hoffset : r.target_offset = target_offset := by
          unfold MappedRegion.target_offset
          rw [ha]
        refine resolve_from (n := n + 1) start _ ?_ ?_ ?_
        · show (after (next_region regions) start n).bind _ = _
          rw [hr]
          show next_region regions r = some next
          rw [next_region_alias ha]
          exact hnext
        · intro base hbase
          rcases List.mem_append.mp hbase with hbase | hbase
          · obtain ⟨i, hi, hs⟩ := hpath base hbase
            exact ⟨i, by omega, hs⟩
          · rw [List.mem_singleton.mp hbase]
            exact ⟨n, by omega, r, hr, rfl⟩
        -- A sum that was capped once stays at the cap.
        · unfold chain_offset saturating_add
          rw [hr, Option.map_some, Option.getD_some, hoffset, haccum]
          omega
termination_by (unseen regions path).length

/-- The walk of an alias reports what its chain is. -/
theorem resolve_explains (hmem : r ∈ regions) :
    Explains regions r (resolve_alias_chain regions [] r hmem 0) :=
  resolve_from (n := 0) r hmem rfl nofun rfl

/-! ## One outcome for each chain -/

theorem Cycles.not_ends (h : Cycles regions r) : ¬ EndsAt regions r n s := by
  rintro ⟨hend, d, hd⟩
  exact h.endless hend (next_region_device hd)

theorem Cycles.not_dangles (h : Cycles regions r) {target : Nat} : ¬ Dangles regions r target := by
  rintro ⟨n, s, target_base, target_offset, hend, ha, hmissing, -⟩
  exact h.endless hend (next_region_missing ha hmissing)

theorem Dangles.not_ends {target : Nat} (h : Dangles regions r target) :
    ¬ EndsAt regions r n s := by
  rintro ⟨hend, d, hd⟩
  obtain ⟨m, t, target_base, target_offset, hend', ha, hmissing, -⟩ := h
  obtain ⟨-, rfl⟩ := end_unique hend (next_region_device hd) hend'
    (next_region_missing ha hmissing)
  rw [hd] at ha
  cases ha

theorem Dangles.unique {target target' : Nat} (h : Dangles regions r target)
    (h' : Dangles regions r target') : target = target' := by
  obtain ⟨n, s, target_base, target_offset, hend, ha, hmissing, rfl⟩ := h
  obtain ⟨m, t, target_base', target_offset', hend', ha', hmissing', rfl⟩ := h'
  obtain ⟨-, rfl⟩ := end_unique hend (next_region_missing ha hmissing) hend'
    (next_region_missing ha' hmissing')
  rw [ha] at ha'
  cases ha'
  rfl

theorem EndsAt.unique {m : Nat} {t : MappedRegion D} (h : EndsAt regions r n s)
    (h' : EndsAt regions r m t) : n = m ∧ s = t := by
  obtain ⟨hend, d, hd⟩ := h
  obtain ⟨hend', d', hd'⟩ := h'
  exact end_unique hend (next_region_device hd) hend' (next_region_device hd')

/-! ## The walk is exact -/

/-- The walk has one of three results, each with what it says about the chain. -/
theorem resolve_cases (hdistinct : (regions.map (·.base)).Nodup) (hmem : r ∈ regions) :
    (∃ path, resolve_alias_chain regions [] r hmem 0 = .error (.AliasCycle path) ∧
      Cycles regions r) ∨
    (∃ target, resolve_alias_chain regions [] r hmem 0 = .error (.AliasTargetMissing target) ∧
      Dangles regions r target) ∨
    ∃ n s, resolve_alias_chain regions [] r hmem 0 =
      .ok (s.base, min (chain_offset regions r n) u64_max) ∧ EndsAt regions r n s := by
  have hexplains := resolve_explains hmem
  cases h : resolve_alias_chain regions [] r hmem 0 with
  | ok end_ =>
    rw [h] at hexplains
    obtain ⟨n, s, hends, hbase, hoffset⟩ := hexplains
    exact Or.inr (Or.inr ⟨n, s, by rw [← hbase, ← hoffset], hends⟩)
  | error err =>
    rw [h] at hexplains
    cases err with
    | AliasCycle path => exact Or.inl ⟨path, rfl, Repeats.cycles hexplains hmem hdistinct⟩
    | AliasTargetMissing target => exact Or.inr (Or.inl ⟨target, rfl, hexplains⟩)
    | EmptyDevice | Overlap | AliasOutOfRange => exact absurd hexplains id

theorem resolve_cycle_iff (hdistinct : (regions.map (·.base)).Nodup) (hmem : r ∈ regions) :
    (∃ path, resolve_alias_chain regions [] r hmem 0 = .error (.AliasCycle path)) ↔
      Cycles regions r := by
  obtain ⟨path, h, hcycles⟩ | ⟨target, h, hdangles⟩ | ⟨n, s, h, hends⟩ :=
    resolve_cases hdistinct hmem
  · exact ⟨fun _ => hcycles, fun _ => ⟨path, h⟩⟩
  · rw [h]
    exact ⟨nofun, fun hcycles => absurd hdangles hcycles.not_dangles⟩
  · rw [h]
    exact ⟨nofun, fun hcycles => absurd hends hcycles.not_ends⟩

theorem resolve_missing_iff (hdistinct : (regions.map (·.base)).Nodup) (hmem : r ∈ regions)
    {target : Nat} :
    resolve_alias_chain regions [] r hmem 0 = .error (.AliasTargetMissing target) ↔
      Dangles regions r target := by
  obtain ⟨path, h, hcycles⟩ | ⟨target', h, hdangles⟩ | ⟨n, s, h, hends⟩ :=
    resolve_cases hdistinct hmem
  · rw [h]
    exact ⟨nofun, fun hdangles => absurd hdangles hcycles.not_dangles⟩
  · rw [h]
    constructor
    · intro heq
      cases heq
      exact hdangles
    · intro hdangles'
      rw [hdangles'.unique hdangles]
  · rw [h]
    exact ⟨nofun, fun hdangles => absurd hends hdangles.not_ends⟩

theorem resolve_ok_iff (hdistinct : (regions.map (·.base)).Nodup) (hmem : r ∈ regions)
    {device_base offset : Nat} :
    resolve_alias_chain regions [] r hmem 0 = .ok (device_base, offset) ↔
      ∃ n s, EndsAt regions r n s ∧ device_base = s.base ∧
        offset = min (chain_offset regions r n) u64_max := by
  obtain ⟨path, h, hcycles⟩ | ⟨target, h, hdangles⟩ | ⟨n, s, h, hends⟩ :=
    resolve_cases hdistinct hmem
  · rw [h]
    refine ⟨nofun, ?_⟩
    rintro ⟨n, s, hends, -⟩
    exact absurd hends hcycles.not_ends
  · rw [h]
    refine ⟨nofun, ?_⟩
    rintro ⟨n, s, hends, -⟩
    exact absurd hends hdangles.not_ends
  · rw [h]
    constructor
    · intro heq
      cases heq
      exact ⟨n, s, hends, rfl, rfl⟩
    · rintro ⟨m, t, hends', rfl, rfl⟩
      obtain ⟨rfl, rfl⟩ := hends.unique hends'
      rfl

/-! ## Flattening -/

/-- The alias reaches beyond the device at the end of its chain. A device of `u64_max` bytes
    has no beyond: the sum is capped there. -/
def Overruns (regions : List (MappedRegion D)) (r : MappedRegion D) : Prop :=
  ∃ n s, EndsAt regions r n s ∧ s.size < u64_max ∧ s.size < chain_offset regions r n + r.size

/-- What a flattened alias is checked for. -/
theorem flatten_region_fails_iff (hmem : r ∈ regions) :
    (∃ err, flatten_region regions r hmem = .error err) ↔
      (∃ err, resolve_alias_chain regions [] r hmem 0 = .error err) ∨ Overruns regions r := by
  have hexplains := resolve_explains hmem
  cases hbacking : r.backing with
  | Device d =>
    -- A device is kept as it is; its chain has no hop, and it does not reach beyond itself.
    have hends : EndsAt regions r 0 r := ⟨rfl, d, hbacking⟩
    have hflat : flatten_region regions r hmem = .ok r := by
      unfold flatten_region
      split
      · rfl
      · rename_i ha
        rw [hbacking] at ha
        cases ha
    have hchain : resolve_alias_chain regions [] r hmem 0 = .ok (r.base, 0) := by
      rw [resolve_alias_chain]
      split
      · rfl
      · rename_i ha
        rw [hbacking] at ha
        cases ha
    rw [hflat, hchain]
    constructor
    · rintro ⟨err, h⟩
      cases h
    · rintro (⟨err, h⟩ | ⟨n, s, hends', -, hover⟩)
      · cases h
      · obtain ⟨rfl, rfl⟩ := hends.unique hends'
        unfold chain_offset at hover
        omega
  | Alias target_base target_offset =>
    unfold flatten_region
    split
    · rename_i hd
      rw [hbacking] at hd
      cases hd
    · split
      · rename_i err hchain
        exact ⟨fun _ => Or.inl ⟨err, hchain⟩, fun _ => ⟨err, rfl⟩⟩
      · rename_i device_base offset hchain
        rw [hchain] at hexplains ⊢
        obtain ⟨n, s, hends, rfl, rfl⟩ := hexplains
        -- An alias is not a device, so the end was found by its base.
        have hfind : (regions.find? fun q => q.base = s.base) = some s := by
          cases n with
          | zero =>
            obtain ⟨hhere, d, hd⟩ := hends
            cases hhere
            rw [hbacking] at hd
            cases hd
          | succ n => exact find_after hends.1
        rw [hfind]
        dsimp only
        have hover : s.size < saturating_add (min (chain_offset regions r n) u64_max) r.size ↔
            s.size < u64_max ∧ s.size < chain_offset regions r n + r.size := by
          unfold saturating_add
          omega
        by_cases hlt : s.size < saturating_add (min (chain_offset regions r n) u64_max) r.size
        · rw [if_pos hlt]
          exact ⟨fun _ => Or.inr ⟨n, s, hends, hover.mp hlt⟩, fun _ => ⟨_, rfl⟩⟩
        · rw [if_neg hlt]
          constructor
          · rintro ⟨err, h⟩
            cases h
          · rintro (⟨err, h⟩ | ⟨m, t, hends', hover'⟩)
            · cases h
            · obtain ⟨rfl, rfl⟩ := hends.unique hends'
              exact absurd (hover.mpr hover') hlt

/-- Flattening fails at an alias whose chain does not end, or that overruns. -/
theorem flatten_aliases_fails_iff (hdistinct : (regions.map (·.base)).Nodup) :
    (∃ err, flatten_aliases regions = .error err) ↔ ∃ r ∈ regions,
      Cycles regions r ∨ (∃ target, Dangles regions r target) ∨ Overruns regions r := by
  unfold flatten_aliases
  rw [mapM_error_iff]
  constructor
  · rintro ⟨⟨r, hmem⟩, -, hfails⟩
    refine ⟨r, hmem, ?_⟩
    rcases (flatten_region_fails_iff hmem).mp hfails with ⟨err, hchain⟩ | hover
    · obtain ⟨path, -, hcycles⟩ | ⟨target, -, hdangles⟩ | ⟨n, s, h, -⟩ :=
        resolve_cases hdistinct hmem
      · exact Or.inl hcycles
      · exact Or.inr (Or.inl ⟨target, hdangles⟩)
      · rw [hchain] at h
        cases h
    · exact Or.inr (Or.inr hover)
  · rintro ⟨r, hmem, h⟩
    refine ⟨⟨r, hmem⟩, List.mem_attach _ _, (flatten_region_fails_iff hmem).mpr ?_⟩
    rcases h with hcycles | ⟨target, hdangles⟩ | hover
    · obtain ⟨path, hpath⟩ := (resolve_cycle_iff hdistinct hmem).mpr hcycles
      exact Or.inl ⟨_, hpath⟩
    · exact Or.inl ⟨_, (resolve_missing_iff hdistinct hmem).mpr hdangles⟩
    · exact Or.inr hover

/-! ## The maps of a builder -/

section Builder

variable [MemoryMapped D]

/-- An alias leads to a region further up in the list. -/
theorem Built.target_above (h : Built regions) (hi : regions[i]? = some r)
    {target_base target_offset : Nat} (ha : r.backing = .Alias target_base target_offset) :
    ∃ j < i, ∃ R, regions[j]? = some R ∧ R.base = target_base ∧
      R.window.Holds (target_base + target_offset) ∧
      saturating_add target_offset r.size ≤ R.size := by
  induction h with
  | nil => simp at hi
  | concat regions new _ hnew ih =>
    by_cases hlt : i < regions.length
    · rw [List.getElem?_append_left hlt] at hi
      obtain ⟨j, hj, R, hR, hrest⟩ := ih hi
      refine ⟨j, hj, R, ?_, hrest⟩
      rw [List.getElem?_append_left (by omega)]
      exact hR
    · rw [List.getElem?_append_right (Nat.le_of_not_lt hlt)] at hi
      obtain ⟨hzero, rfl⟩ : i - regions.length = 0 ∧ new = r := by
        rw [List.getElem?_singleton] at hi
        split at hi
        · exact ⟨‹_›, Option.some.inj hi⟩
        · cases hi
      obtain ⟨R, hR, hrest⟩ := hnew.target target_base target_offset ha
      obtain ⟨j, hj⟩ := List.mem_iff_getElem?.mp hR
      have hjlt : j < regions.length := (List.getElem?_eq_some_iff.mp hj).1
      refine ⟨j, by omega, R, ?_, hrest⟩
      rw [List.getElem?_append_left hjlt]
      exact hj

/-- Where the next region of a chain is, and that there is one. -/
theorem Built.next_above (h : Built regions) (hi : regions[i]? = some r)
    {target_base target_offset : Nat} (ha : r.backing = .Alias target_base target_offset) :
    ∃ j < i, ∃ R, regions[j]? = some R ∧ next_region regions r = some R ∧ R.base < u64_max ∧
      saturating_add target_offset r.size ≤ R.size := by
  obtain ⟨j, hj, R, hR, rfl, hholds, hroom⟩ := h.target_above hi ha
  have hfind := h.separate.find_base h.pos hR hholds
  rw [holds_iff] at hholds
  refine ⟨j, hj, R, hR, ?_, by omega, hroom⟩
  rw [next_region_alias ha]
  exact find?_of_findIdx? hfind hR

/-- A chain goes up in the list. -/
theorem Built.after_above (h : Built regions) (hi : regions[i]? = some r)
    (hs : after (next_region regions) r n = some s) :
    ∃ j, regions[j]? = some s ∧ j + n ≤ i ∧ (0 < n → s.base < u64_max) ∧
      saturating_add (chain_offset regions r n) r.size ≤ s.size := by
  induction n generalizing s with
  | zero =>
    cases hs
    refine ⟨i, hi, by omega, nofun, ?_⟩
    unfold chain_offset saturating_add
    omega
  | succ n ih =>
    obtain ⟨t, ht, hnext⟩ := Option.bind_eq_some_iff.mp hs
    obtain ⟨j, hj, hle, -, hroom⟩ := ih ht
    cases hbacking : t.backing with
    | Device d =>
      rw [next_region_device hbacking] at hnext
      cases hnext
    | Alias target_base target_offset =>
      obtain ⟨k, hk, R, hR, hnext', hbase, hroom'⟩ := h.next_above hj hbacking
      rw [hnext] at hnext'
      cases hnext'
      refine ⟨k, hR, by omega, fun _ => hbase, ?_⟩
      have hoffset : t.target_offset = target_offset := by
        unfold MappedRegion.target_offset
        rw [hbacking]
      have hsum : chain_offset regions r (n + 1) = chain_offset regions r n + target_offset := by
        show _ + _ = _
        rw [ht, Option.map_some, Option.getD_some, hoffset]
      -- Each alias fits its target, so what fits the alias fits the target at its offset.
      unfold saturating_add at hroom hroom' ⊢
      rw [hsum]
      omega

/-- No two places of a chain have one base. -/
theorem Built.not_repeats (h : Built regions) (hi : regions[i]? = some r) :
    ¬ Repeats regions r := by
  rintro ⟨m, n, s, t, hmn, hs, ht, hbase⟩
  -- The later place is further up in the list, and the two regions would share an address.
  obtain ⟨j, hj, -⟩ := h.after_above hi hs
  obtain ⟨d, rfl⟩ := Nat.exists_eq_add_of_lt hmn
  rw [Nat.add_assoc, after_add hs] at ht
  obtain ⟨k, hk, hle, hlast, -⟩ := h.after_above hj ht
  have ht_base : t.base < u64_max := hlast (by omega)
  have hs_pos : 0 < s.size := h.pos s (List.mem_of_getElem? hj)
  have ht_pos : 0 < t.size := h.pos t (List.mem_of_getElem? hk)
  have hs_holds : s.window.Holds t.base := by
    rw [holds_iff]
    omega
  have ht_holds : t.window.Holds t.base := by
    rw [holds_iff]
    omega
  have hjk : j = k := h.separate.eq_of_holds hj hk hs_holds ht_holds
  omega

/-- Every chain of a builder's list leads to a device that it fits. -/
theorem Built.flattens (h : Built regions) :
    ∃ regions', flatten_aliases regions = .ok regions' := by
  cases hflat : flatten_aliases regions with
  | ok regions' => exact ⟨regions', rfl⟩
  | error err =>
    exfalso
    obtain ⟨⟨r, hmem⟩, -, hfails⟩ := mapM_error_iff.mp ⟨err, hflat⟩
    obtain ⟨i, hi⟩ := List.mem_iff_getElem?.mp hmem
    rcases (flatten_region_fails_iff hmem).mp hfails with ⟨err, hchain⟩ | ⟨n, s, hends, hlt, hover⟩
    · have hexplains := resolve_explains hmem
      rw [hchain] at hexplains
      cases err with
      | AliasCycle path => exact h.not_repeats hi hexplains
      -- Every alias of the list has its target in it.
      | AliasTargetMissing target =>
        obtain ⟨n, s, target_base, target_offset, hs, ha, hmissing, -⟩ := hexplains
        obtain ⟨j, hj, -⟩ := h.after_above hi hs
        obtain ⟨k, -, R, -, hnext, -⟩ := h.next_above hj ha
        rw [next_region_missing ha hmissing] at hnext
        cases hnext
      | EmptyDevice | Overlap | AliasOutOfRange => exact hexplains
    · obtain ⟨j, -, -, -, hroom⟩ := h.after_above hi hends.1
      unfold saturating_add at hroom
      omega

/-- What calls of a builder have made can be built. -/
theorem MapCalls.builds {calls : MapCalls D} {b : MemoryMapBuilder D} (hrun : calls.run = .ok b) :
    ∃ bus, b.build = .ok bus := by
  obtain ⟨regions, hflat⟩ := (MapCalls.built hrun).flattens
  unfold MemoryMapBuilder.build
  rw [hflat]
  exact ⟨_, rfl⟩

/-- In a list of regions with distinct bases the walk of an alias reports whether its chain
    comes back, names a base that no region has, or ends at a device, and at which offset.
    Flattening fails at an alias whose chain does not end, or that reaches beyond a device of
    less than `u64_max` bytes. What a builder has made can always be built. -/
theorem alias_chains_exact :
    (∀ regions : List (MappedRegion D), (regions.map (·.base)).Nodup →
      (∀ r, ∀ hmem : r ∈ regions,
        ((∃ path, resolve_alias_chain regions [] r hmem 0 = .error (.AliasCycle path)) ↔
          Cycles regions r) ∧
        (∀ target, resolve_alias_chain regions [] r hmem 0 =
          .error (.AliasTargetMissing target) ↔ Dangles regions r target) ∧
        (∀ device_base offset, resolve_alias_chain regions [] r hmem 0 =
          .ok (device_base, offset) ↔ ∃ n s, EndsAt regions r n s ∧ device_base = s.base ∧
            offset = min (chain_offset regions r n) u64_max) ∧
        (Cycles regions r ∨ (∃ target, Dangles regions r target) ∨ ∃ n s, EndsAt regions r n s)) ∧
      ((∃ err, flatten_aliases regions = .error err) ↔ ∃ r ∈ regions,
        Cycles regions r ∨ (∃ target, Dangles regions r target) ∨ Overruns regions r)) ∧
    ∀ (calls : MapCalls D) (b : MemoryMapBuilder D), calls.run = .ok b →
      ∃ bus, b.build = .ok bus := by
  refine ⟨?_, fun _ _ => MapCalls.builds⟩
  intro regions hdistinct
  refine ⟨?_, flatten_aliases_fails_iff hdistinct⟩
  intro r hmem
  refine ⟨resolve_cycle_iff hdistinct hmem, fun _ => resolve_missing_iff hdistinct hmem,
    fun _ _ => resolve_ok_iff hdistinct hmem, ?_⟩
  obtain ⟨path, -, hcycles⟩ | ⟨target, -, hdangles⟩ | ⟨n, s, -, hends⟩ :=
    resolve_cases hdistinct hmem
  · exact Or.inl hcycles
  · exact Or.inr (Or.inl ⟨target, hdangles⟩)
  · exact Or.inr (Or.inr ⟨n, s, hends⟩)

end Builder

/-- The one device that is as long as a device can be. -/
inductive Longest where
  | device
  deriving DecidableEq

instance : MemoryMapped Longest where
  len _ := u64_max
  read d _ buf := (.ok (), buf, d)
  write d _ _ := (.ok (), d)
  load d _ _ := (.ok (), d)
  len_le _ := Nat.le_refl _

/-- Two aliases that name each other. -/
def crossed : List (MappedRegion Longest) :=
  [⟨0x2000, 16, .Alias 0x3000 0⟩, ⟨0x3000, 16, .Alias 0x2000 0⟩]

/-- The chain of the first alias comes back to it, and so neither alias is flattened; a map with
    one device is built. -/
theorem alias_chains_exact_crossed :
    (∃ path, resolve_alias_chain crossed [] ⟨0x2000, 16, .Alias 0x3000 0⟩ List.mem_cons_self 0 =
      .error (.AliasCycle path)) ∧ (∃ err, flatten_aliases crossed = .error err) ∧
    ∃ bus, MemoryMapBuilder.build ⟨[⟨0, u64_max, .Device (.Mmio Longest.device)⟩], .Log⟩ =
      .ok bus := by
  obtain ⟨hlists, hbuilds⟩ := alias_chains_exact (D := Longest)
  obtain ⟨hwalks, hflattens⟩ := hlists crossed (by decide)
  have hcycles : Cycles crossed ⟨0x2000, 16, .Alias 0x3000 0⟩ :=
    ⟨0, 2, _, by decide, rfl, rfl⟩
  refine ⟨(hwalks _ List.mem_cons_self).1.mpr hcycles, ?_, ?_⟩
  · exact hflattens.mpr ⟨_, List.mem_cons_self, Or.inl hcycles⟩
  · exact hbuilds (.map .new 0 (.Mmio .device)) _ rfl

/-- The longest device, and an alias of the byte behind its last one. -/
def behind_longest : List (MappedRegion Longest) :=
  [⟨1, u64_max, .Device (.Mmio .device)⟩, ⟨0, 1, .Alias 1 u64_max⟩]

/-- The alias is flattened onto the device, which it reaches beyond. -/
theorem overrun_accepted : ¬ ∀ regions : List (MappedRegion Longest),
    (regions.map (·.base)).Nodup →
      ((∃ err, flatten_aliases regions = .error err) ↔ ∃ r ∈ regions,
        Cycles regions r ∨ (∃ target, Dangles regions r target) ∨
          ∃ n s, EndsAt regions r n s ∧
            s.size < min (chain_offset regions r n) u64_max + r.size) := by
  intro h
  have hends : EndsAt behind_longest ⟨0, 1, .Alias 1 u64_max⟩ 1
      ⟨1, u64_max, .Device (.Mmio .device)⟩ := ⟨rfl, _, rfl⟩
  have hmem : (⟨0, 1, .Alias 1 u64_max⟩ : MappedRegion Longest) ∈ behind_longest :=
    List.mem_cons_of_mem _ List.mem_cons_self
  have hflat : flatten_aliases behind_longest = .ok behind_longest := by decide +kernel
  obtain ⟨err, hfails⟩ := (h behind_longest (by decide)).mpr
    ⟨_, hmem, Or.inr (Or.inr ⟨1, _, hends, by decide⟩)⟩
  rw [hflat] at hfails
  cases hfails

end Rl78Sim
