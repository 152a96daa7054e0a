import KernelProbe.Proofs.Paging.Merging

/-!
# Joining keeps the mapped memory

Mappings in ascending order that do not overlap may be of mixed sizes and leave gaps anywhere,
between virtual addresses, physical ones or permissions. Joining them neither adds nor loses an
address: every virtual address has the same physical byte and the same permission behind it before
and after. The ranges given are again in ascending order, and of no two of them the second
continues the first.

* `Mapping.Sends` -- the physical byte and the permission that a mapping has for an address;
* `Range.Fits` -- a range whose addresses are all addresses;
* `Joining.joined_sends` -- what joining keeps.
-/

namespace KernelProbe

/-- What a mapping has for an address: the physical byte behind it, and the permission. -/
def Mapping.Sends (mapping : Mapping) (va : Nat) (byte : Nat × Nat) : Prop :=
  mapping.start.bits.toNat ≤ va ∧ va ≤ mapping.last.bits.toNat ∧
    byte = (mapping.physical.bits.toNat + (va - mapping.start.bits.toNat),
      mapping.flags.permission.bits.toNat)

namespace Range

/-- **A range whose addresses are all addresses**: it is proper, and it does not wrap physically. -/
structure Fits (range : Range) : Prop extends range.Proper where
  physical_lt :
    range.physical.bits.toNat + (range.last.bits.toNat - range.start.bits.toNat) < 2 ^ 64

theorem fits_joined {range next : Range} (hgoes : range.goesOn next = true) (h : range.Fits)
    (hnext : next.Fits) : Fits { range with last := next.last } := by
  have hproper := proper_joined hgoes h.toProper hnext.toProper
  obtain ⟨hadjacent, -, hphysical⟩ := (goesOn_iff h.toProper).mp hgoes
  have hstart := h.start_le
  have hstart' := hnext.start_le
  have hlt := hnext.physical_lt
  refine ⟨hproper, ?_⟩
  show range.physical.bits.toNat + (next.last.bits.toNat - range.start.bits.toNat) < 2 ^ 64
  omega

theorem fits_merge {ranges : List Range} (h : ∀ range ∈ ranges, range.Fits) :
    ∀ range ∈ merge ranges, range.Fits :=
  forall_merge fits_joined h

end Range

namespace Joining

/-- **Joining keeps the mapped memory.** Of mappings in ascending order that do not overlap, ranges
    are given that send each address as the mappings do; they are in ascending order and do not
    overlap, and none continues the one before it. -/
theorem joined_sends (target : Target) (mappings : List Mapping)
    (hfits : ∀ mapping ∈ mappings,
      mapping.start.bits.toNat ≤ mapping.last.bits.toNat ∧
        mapping.last.bits.toNat < 2 ^ 64 - 1 ∧
        mapping.physical.bits.toNat +
          (mapping.last.bits.toNat - mapping.start.bits.toNat) < 2 ^ 64)
    (hordered : mappings.Pairwise fun mapping next =>
      mapping.last.bits.toNat < next.start.bits.toNat) :
    ∃ ranges : List Range,
      Traversal.stream target (Joining.of (mappings.map .ok : List (Except Fault Mapping))) =
        ranges.map .ok ∧
      (∀ va byte, (∃ mapping ∈ mappings, mapping.Sends va byte) ↔
        ∃ range ∈ ranges, range.Sends va byte) ∧
      (∀ range ∈ ranges, range.Fits) ∧
      ranges.Pairwise fun range next => range.Before next ∧ ¬ range.Continues next := by
  have hranges : ∀ range ∈ mappings.map Mapping.range, range.Fits := fun range hrange => by
    obtain ⟨mapping, hmem, rfl⟩ := List.mem_map.mp hrange
    obtain ⟨hstart, hlast, hphysical⟩ := hfits mapping hmem
    exact ⟨⟨hstart, hlast⟩, hphysical⟩
  obtain ⟨hproper, hapart, hsends⟩ := Range.merge_spec
    (fun range hrange => (hranges range hrange).toProper) (List.pairwise_map.mpr hordered)
  refine ⟨Range.merge (mappings.map Mapping.range), ?_, fun va byte => ?_,
    Range.fits_merge hranges, ?_⟩
  · rw [stream_eq, Joining.of, Traversal.stream_list, output_map]
  · rw [hsends]
    constructor
    · rintro ⟨mapping, hmem, hbyte⟩
      exact ⟨mapping.range, List.mem_map_of_mem hmem, hbyte⟩
    · rintro ⟨range, hrange, hbyte⟩
      obtain ⟨mapping, hmem, rfl⟩ := List.mem_map.mp hrange
      exact ⟨mapping, hmem, hbyte⟩
  · refine hapart.imp_of_mem fun {range next} hmem _ happart => ?_
    rw [Range.Apart, Range.goesOn_iff (hproper range hmem)] at happart
    exact happart

/-- A page, the large page behind it, and a page that lies apart from both physically. -/
def mixedPages : List Mapping :=
  [⟨⟨0x1FF000⟩, ⟨0x1FFFFF⟩, ⟨0x801FF000⟩, ⟨0xC7⟩⟩, ⟨⟨0x200000⟩, ⟨0x3FFFFF⟩, ⟨0x80200000⟩, ⟨0x07⟩⟩,
    ⟨⟨0x400000⟩, ⟨0x400FFF⟩, ⟨0x90000000⟩, ⟨0x07⟩⟩]

/-- An address in the large page is sent by one of the ranges as it was by its mapping. -/
theorem joined_sends_mixed :
    (∀ mapping ∈ mixedPages,
      mapping.start.bits.toNat ≤ mapping.last.bits.toNat ∧
        mapping.last.bits.toNat < 2 ^ 64 - 1 ∧
        mapping.physical.bits.toNat +
          (mapping.last.bits.toNat - mapping.start.bits.toNat) < 2 ^ 64) ∧
      (mixedPages.Pairwise fun mapping next =>
        mapping.last.bits.toNat < next.start.bits.toNat) ∧
      ∃ ranges : List Range,
        Traversal.stream .blank
          (Joining.of (mixedPages.map .ok : List (Except Fault Mapping))) = ranges.map .ok ∧
        ∃ range ∈ ranges, range.Sends 0x200123 (0x80200123, 0x07) := by
  have hfits : ∀ mapping ∈ mixedPages,
      mapping.start.bits.toNat ≤ mapping.last.bits.toNat ∧
        mapping.last.bits.toNat < 2 ^ 64 - 1 ∧
        mapping.physical.bits.toNat +
          (mapping.last.bits.toNat - mapping.start.bits.toNat) < 2 ^ 64 := by decide
  have hordered : mixedPages.Pairwise fun mapping next =>
      mapping.last.bits.toNat < next.start.bits.toNat := by decide
  obtain ⟨ranges, hstream, hsends, -⟩ :=
    joined_sends .blank mixedPages hfits hordered
  refine ⟨hfits, hordered, ranges, hstream, (hsends _ _).mp ⟨mixedPages[1], by decide, ?_⟩⟩
  exact ⟨by decide, by decide, by decide⟩

end Joining

end KernelProbe
