import KernelProbe.Image.Memory

/-!
# Reading parts of what can be read

A read lies within one region, the one with the greatest start that is not above its address. If no
region starts inside another, the addresses of a read all belong to that region, and whatever lies
within a read can be read by itself and gives that part of the bytes.

* `Memory.Apart` -- no region starts inside another;
* `Memory.regionOf_congr` -- addresses between which no region starts have the same region;
* `Memory.read?_part` -- a read within a read.
-/

namespace KernelProbe

/-- **The start of one region lies inside another one.** -/
def Region.StartsInside (inner outer : Region) : Prop :=
  outer.start < inner.start ∧ inner.start.toNat < outer.start.toNat + outer.bytes.size

namespace Memory

/-- **No region starts inside another.** -/
def Apart (memory : Memory) : Prop :=
  ∀ outer ∈ memory.regions, ∀ inner ∈ memory.regions, ¬ inner.StartsInside outer

variable {memory : Memory} {regions : List Region} {region : Region} {address other : UInt64}
  {length : Nat}

theorem apart_single (region : Region) : Apart ⟨[region]⟩ := by
  intro outer houter inner hinner hinside
  rw [List.mem_singleton.mp houter, List.mem_singleton.mp hinner] at hinside
  exact Nat.lt_irrefl _ (UInt64.lt_iff_toNat_lt.mp hinside.1)

/-! ## 1. The region of an address -/

theorem of_regionOf (h : regionOf address regions = some region) :
    region ∈ regions ∧ region.start ≤ address := by
  induction regions with
  | nil => cases h
  | cons first rest ih =>
    rw [regionOf] at h
    split at h
    next hrest =>
      split at h
      next hle =>
        cases h
        exact ⟨List.mem_cons_self, hle⟩
      next => cases h
    next found hrest =>
      split at h
      next hle =>
        cases h
        exact ⟨List.mem_cons_self, hle.1⟩
      next =>
        cases h
        obtain ⟨hmem, hle⟩ := ih hrest
        exact ⟨List.mem_cons_of_mem first hmem, hle⟩

/-- Addresses belong to the same region if no region starts between them. -/
theorem regionOf_congr (h : ∀ region ∈ regions, region.start ≤ address ↔ region.start ≤ other) :
    regionOf address regions = regionOf other regions := by
  induction regions with
  | nil => rfl
  | cons first rest ih =>
    have hfirst := h first List.mem_cons_self
    rw [regionOf, regionOf, ih fun region hregion => h region (List.mem_cons_of_mem first hregion)]
    simp only [hfirst]

/-- **All addresses in a region belong to it**, from an address on that does. -/
theorem region?_of_inside (hapart : memory.Apart) (h : memory.region? address = some region)
    (hle : address ≤ other) (hlt : other.toNat < region.start.toNat + region.bytes.size) :
    memory.region? other = some region := by
  obtain ⟨hmem, hstart⟩ := of_regionOf h
  refine (regionOf_congr fun inner hinner => ⟨fun hbelow => ?_, fun hbelow => ?_⟩).trans h
  · rw [UInt64.le_iff_toNat_le] at hbelow hle hstart ⊢
    -- A region that starts behind the first address would start inside the region of that one.
    refine Nat.le_of_not_lt fun habove => hapart region hmem inner hinner ⟨?_, by omega⟩
    rw [UInt64.lt_iff_toNat_lt]
    omega
  · exact UInt64.le_trans hbelow hle

/-! ## 2. Reads -/

/-- **What a read gives**: the bytes at the distance of its address from the start of the region. -/
theorem read?_eq_some {bytes : Vector UInt8 length} :
    memory.read? address length = some bytes ↔
      ∃ region, memory.region? address = some region ∧
        (address - region.start).toNat + length ≤ region.bytes.size ∧
        bytes.toList =
          (region.bytes.toList.drop (address - region.start).toNat).take length := by
  unfold read?
  cases memory.region? address with
  | none => exact iff_of_false (fun h => nomatch h) fun ⟨_, h, _⟩ => nomatch h
  | some region =>
    dsimp only
    have hpart : (region.bytes.extract (address - region.start).toNat
        ((address - region.start).toNat + length)).toList =
          (region.bytes.toList.drop (address - region.start).toNat).take length := by
      rw [Array.toList_extract, List.extract_eq_take_drop, Nat.add_sub_cancel_left]
    by_cases hfits : (address - region.start).toNat + length ≤ region.bytes.size
    · rw [dif_pos hfits]
      refine ⟨fun h => ?_, fun ⟨found, hfound, _, hbytes⟩ => ?_⟩
      · cases h
        exact ⟨region, rfl, hfits, hpart⟩
      · cases hfound
        refine congrArg some (Vector.toList_inj.mp ?_)
        exact hpart.trans hbytes.symm
    · rw [dif_neg hfits]
      refine iff_of_false (fun h => nomatch h) fun ⟨found, hfound, h, _⟩ => ?_
      cases hfound
      exact hfits h

/-- **A read within a read** gives that part of its bytes. A part without bytes must be at the
    start, since behind the end of a region nothing need be read. -/
theorem read?_part (hapart : memory.Apart) {bytes : Vector UInt8 length}
    (hread : memory.read? address length = some bytes) {offset part : Nat}
    (hother : other.toNat = address.toNat + offset) (hpart : offset + part ≤ length)
    (hempty : part = 0 → offset = 0) :
    ∃ piece, memory.read? other part = some piece ∧
      piece.toList = (bytes.toList.drop offset).take part := by
  obtain ⟨region, hregion, hfits, hbytes⟩ := read?_eq_some.mp hread
  have hstart : region.start ≤ address := (of_regionOf hregion).2
  have hle : address ≤ other := UInt64.le_iff_toNat_le.mpr (by omega)
  have hdistance := UInt64.toNat_sub_of_le address region.start hstart
  have hdistance' := UInt64.toNat_sub_of_le other region.start (UInt64.le_trans hstart hle)
  have hbelow := UInt64.le_iff_toNat_le.mp hstart
  have hother' : (other - region.start).toNat = (address - region.start).toNat + offset := by
    omega
  have hfound : memory.region? other = some region := by
    by_cases hzero : offset = 0
    · obtain rfl : other = address := UInt64.toNat_inj.mp (by omega)
      exact hregion
    · exact region?_of_inside hapart hregion hle (by omega)
  refine ⟨⟨((bytes.toList.drop offset).take part).toArray, ?_⟩,
    read?_eq_some.mpr ⟨region, hfound, by omega, ?_⟩, rfl⟩
  · rw [List.size_toArray, List.length_take, List.length_drop, Vector.length_toList]
    omega
  · calc (bytes.toList.drop offset).take part
      _ = (((region.bytes.toList.drop (address - region.start).toNat).take length).drop
            offset).take part := by rw [hbytes]
      _ = ((region.bytes.toList.drop (other - region.start).toNat).take (length - offset)).take
            part := by rw [List.drop_take, List.drop_drop, hother']
      _ = (region.bytes.toList.drop (other - region.start).toNat).take part := by
          rw [List.take_take, Nat.min_eq_left (by omega)]

end Memory

end KernelProbe
