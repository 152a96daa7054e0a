import KernelProbe.Proofs.Paging.Merging

/-!
# Joining in pieces

A long dump may be joined in pieces: the mappings are cut anywhere, each piece is joined by itself,
and what comes out is joined again, every range taken for a mapping with its permission as flags.
The ranges are the same as if all mappings had been joined at once. A cut inside a run does no
harm, because a range goes on as its last part does, however long it has grown, and begins as its
first part did, so that the two halves of the run are joined again where they were cut.

* `Range.goesOn_joined` -- a joined range goes on as its second part does;
* `Range.merge_append_merge`, `Range.merge_merge_append` -- merging a part beforehand;
* `Range.merge_flatMap` -- merging every part beforehand;
* `Joining.joined_in_pieces` -- joining in pieces.
-/

namespace KernelProbe

namespace Range

/-! ## 1. A range goes on as its last part does -/

section Join

variable {range middle : Range} (hgoes : range.goesOn middle = true) (h : range.Proper)
  (hmiddle : middle.Proper)

include hgoes h hmiddle

theorem continues_joined (next : Range) :
    Continues { range with last := middle.last } next ↔ middle.Continues next := by
  obtain ⟨hadjacent, hpermission, hphysical⟩ := (goesOn_iff h).mp hgoes
  have hstart := h.start_le
  have hstart' := hmiddle.start_le
  -- both spans together reach as far physically as the second one does from its own beginning
  have hspan : range.physical.bits.toNat +
      (middle.last.bits.toNat - range.start.bits.toNat + 1) =
        middle.physical.bits.toNat +
          (middle.last.bits.toNat - middle.start.bits.toNat + 1) := by
    omega
  refine ⟨fun hjoined => ⟨hjoined.adjacent, ?_, ?_⟩, fun hnext => ⟨hnext.adjacent, ?_, ?_⟩⟩
  · exact hpermission.symm.trans hjoined.permission
  · exact hspan.symm.trans hjoined.physical
  · exact hpermission.trans hnext.permission
  · exact hspan.trans hnext.physical

/-- **A joined range goes on as its second part does.** -/
theorem goesOn_joined (next : Range) :
    goesOn { range with last := middle.last } next = middle.goesOn next := by
  rw [Bool.eq_iff_iff, goesOn_iff (proper_joined hgoes h hmiddle), goesOn_iff hmiddle,
    continues_joined hgoes h hmiddle]

end Join

/-! ## 2. Merging a part beforehand -/

theorem mergeInto_of_goesOn {held next : Range} (hgoes : held.goesOn next = true)
    (rest : List Range) :
    mergeInto held (next :: rest) = mergeInto { held with last := next.last } rest := by
  rw [mergeInto, join?, if_pos hgoes]

theorem mergeInto_of_not {held next : Range} (hgoes : ¬ held.goesOn next = true)
    (rest : List Range) : mergeInto held (next :: rest) = held :: mergeInto next rest := by
  rw [mergeInto, join?, if_neg hgoes]

/-- The first range of a merge begins as the first range of the list does. -/
theorem mergeInto_eq_cons (held : Range) (ranges : List Range) :
    ∃ last rest, mergeInto held ranges = { held with last := last } :: rest := by
  induction ranges generalizing held with
  | nil => exact ⟨held.last, [], rfl⟩
  | cons next ranges ih =>
    by_cases hgoes : held.goesOn next = true
    · rw [mergeInto_of_goesOn hgoes]
      exact ih _
    · exact ⟨held.last, mergeInto next ranges, mergeInto_of_not hgoes ranges⟩

theorem merge_mergeInto_append (held : Range) (ranges later : List Range) :
    merge (mergeInto held ranges ++ later) = mergeInto held (ranges ++ later) := by
  induction ranges generalizing held with
  | nil => rfl
  | cons next ranges ih =>
    rw [List.cons_append]
    by_cases hgoes : held.goesOn next = true
    · rw [mergeInto_of_goesOn hgoes, mergeInto_of_goesOn hgoes, ih]
    · have hnext := ih next
      obtain ⟨last, rest, hrest⟩ := mergeInto_eq_cons next ranges
      -- where the next range has come to end does not matter to the one held back
      have hlonger : ¬ held.goesOn { next with last := last } = true := hgoes
      rw [mergeInto_of_not hgoes, mergeInto_of_not hgoes, ← hnext, hrest]
      exact mergeInto_of_not hlonger (rest ++ later)

/-- **The first part may be merged beforehand.** -/
theorem merge_merge_append (ranges later : List Range) :
    merge (merge ranges ++ later) = merge (ranges ++ later) := by
  cases ranges with
  | nil => rfl
  | cons range rest => exact merge_mergeInto_append range rest later

/-- Merging leaves nothing to merge, whatever the ranges are. -/
theorem merge_merge (ranges : List Range) : merge (merge ranges) = merge ranges := by
  simpa using merge_merge_append ranges []

/-- What has been merged is merged into a range as it would have been piece by piece. -/
theorem mergeInto_mergeInto {held next : Range} {ranges : List Range} (h : held.Proper)
    (hproper : ∀ range ∈ next :: ranges, range.Proper) :
    mergeInto held (mergeInto next ranges) = mergeInto held (next :: ranges) := by
  induction ranges generalizing held next with
  | nil => rfl
  | cons second ranges ih =>
    obtain ⟨hnext, hranges⟩ := List.forall_mem_cons.mp hproper
    -- either way of the join inside meets either way of the join with the range held back
    by_cases hjoins : next.goesOn second = true
    · have hlonger : ∀ range ∈ { next with last := second.last } :: ranges, range.Proper :=
        forall_cons_joined proper_joined hjoins hproper
      rw [mergeInto_of_goesOn hjoins, ih h hlonger]
      by_cases hgoes : held.goesOn next = true
      · have hboth : held.goesOn { next with last := second.last } = true := hgoes
        have hthrough : goesOn { held with last := next.last } second = true :=
          (goesOn_joined hgoes h hnext second).trans hjoins
        rw [mergeInto_of_goesOn hgoes, mergeInto_of_goesOn hthrough, mergeInto_of_goesOn hboth]
      · have hboth : ¬ held.goesOn { next with last := second.last } = true := hgoes
        rw [mergeInto_of_not hgoes, mergeInto_of_goesOn hjoins, mergeInto_of_not hboth]
    · rw [mergeInto_of_not hjoins]
      by_cases hgoes : held.goesOn next = true
      · rw [mergeInto_of_goesOn hgoes, mergeInto_of_goesOn hgoes,
          ih (proper_joined hgoes h hnext) hranges]
      · rw [mergeInto_of_not hgoes, mergeInto_of_not hgoes, ih hnext hranges]

theorem mergeInto_append_merge {held : Range} {ranges later : List Range}
    (hproper : ∀ range ∈ held :: ranges, range.Proper) (hlater : ∀ range ∈ later, range.Proper) :
    mergeInto held (ranges ++ merge later) = mergeInto held (ranges ++ later) := by
  induction ranges generalizing held with
  | nil =>
    cases later with
    | nil => rfl
    | cons next rest => exact mergeInto_mergeInto (hproper held List.mem_cons_self) hlater
  | cons next ranges ih =>
    rw [List.cons_append, List.cons_append]
    by_cases hgoes : held.goesOn next = true
    · rw [mergeInto_of_goesOn hgoes, mergeInto_of_goesOn hgoes,
        ih (forall_cons_joined proper_joined hgoes hproper)]
    · rw [mergeInto_of_not hgoes, mergeInto_of_not hgoes,
        ih fun range hmem => hproper range (List.mem_cons_of_mem _ hmem)]

/-- **The second part may be merged beforehand.** -/
theorem merge_append_merge {ranges later : List Range} (hproper : ∀ range ∈ ranges, range.Proper)
    (hlater : ∀ range ∈ later, range.Proper) :
    merge (ranges ++ merge later) = merge (ranges ++ later) := by
  cases ranges with
  | nil => exact merge_merge later
  | cons range rest => exact mergeInto_append_merge hproper hlater

/-- **Every part may be merged beforehand.** -/
theorem merge_flatMap {parts : List (List Range)}
    (hproper : ∀ part ∈ parts, ∀ range ∈ part, range.Proper) :
    merge (parts.flatMap merge) = merge parts.flatten := by
  induction parts with
  | nil => rfl
  | cons part parts ih =>
    obtain ⟨hpart, hparts⟩ := List.forall_mem_cons.mp hproper
    have hflat : ∀ range ∈ parts.flatten, range.Proper := by
      simpa only [List.forall_mem_flatten] using hparts
    have hmerged : ∀ range ∈ parts.flatMap merge, range.Proper := fun range hmem => by
      obtain ⟨other, hother, hrange⟩ := List.mem_flatMap.mp hmem
      exact forall_merge proper_joined (hparts other hother) range hrange
    calc merge ((part :: parts).flatMap merge)
        = merge (part ++ parts.flatMap merge) := merge_merge_append part _
      _ = merge (part ++ merge (parts.flatMap merge)) := (merge_append_merge hpart hmerged).symm
      _ = merge (part ++ merge parts.flatten) := by rw [ih hparts]
      _ = merge (part :: parts).flatten := merge_append_merge hpart hflat

end Range

/-! ## 3. Ranges taken for mappings -/

/-- The permission of a permission is the same one. -/
theorem Flags.permission_permission (flags : Flags) :
    flags.permission.permission = flags.permission := by
  simp [Flags.permission, BitVec.and_assoc]

namespace Range

/-- A range as a mapping, with its permission as flags. -/
def mapping (range : Range) : Mapping :=
  ⟨range.start, range.last, range.physical, range.permission⟩

/-- A range that came from mappings is its own range when it is taken for a mapping. -/
theorem map_range_mapping (mappings : List Mapping) :
    (merge (mappings.map Mapping.range)).map (Mapping.range ∘ Range.mapping) =
      merge (mappings.map Mapping.range) := by
  have hpermission : ∀ range ∈ mappings.map Mapping.range,
      range.permission.permission = range.permission := fun range hmem => by
    obtain ⟨mapping, -, rfl⟩ := List.mem_map.mp hmem
    exact mapping.flags.permission_permission
  refine (List.map_congr_left fun range hmem => ?_).trans (List.map_id _)
  have hsame : range.permission.permission = range.permission :=
    forall_merge (fun _ h _ => h) hpermission range hmem
  rw [Function.comp_apply, mapping, Mapping.range, hsame, id]

end Range

/-! ## 4. Joining in pieces -/

namespace Joining

/-- What is given for a list of mappings. -/
def joined (target : Target) (mappings : List Mapping) : List (Except Fault Range) :=
  Traversal.stream target (Joining.of (mappings.map .ok : List (Except Fault Mapping)))

theorem joined_eq (target : Target) (mappings : List Mapping) :
    joined target mappings = (Range.merge (mappings.map Mapping.range)).map .ok := by
  rw [joined, stream_eq, Joining.of, Traversal.stream_list, output_map]

/-- What is given, taken for mappings again. -/
def asMappings (items : List (Except Fault Range)) : List (Except Fault Mapping) :=
  items.map (Except.map Range.mapping)

theorem asMappings_joined (target : Target) (mappings : List Mapping) :
    asMappings (joined target mappings) =
      ((Range.merge (mappings.map Mapping.range)).map Range.mapping).map .ok := by
  rw [joined_eq, asMappings, List.map_map, List.map_map]
  rfl

/-- Ranges of mappings, joined as mappings, are merged. -/
theorem stream_asMappings (target : Target) (parts : List (List Mapping)) :
    Traversal.stream target
        (Joining.of (parts.flatMap fun part => asMappings (joined target part))) =
      (Range.merge ((parts.map (List.map Mapping.range)).flatMap Range.merge)).map .ok := by
  have hsource : (parts.flatMap fun part => asMappings (joined target part)) =
      (parts.flatMap fun part =>
        (Range.merge (part.map Mapping.range)).map Range.mapping).map .ok := by
    simp only [asMappings_joined, List.map_flatMap]
  have hranges : (parts.flatMap fun part =>
      (Range.merge (part.map Mapping.range)).map Range.mapping).map Mapping.range =
        (parts.map (List.map Mapping.range)).flatMap Range.merge := by
    simp only [List.map_flatMap, List.flatMap_map, List.map_map, Range.map_range_mapping]
  rw [hsource, ← hranges]
  exact joined_eq target _

/-- **Joining in pieces gives the same ranges.** Mappings in any order may be cut anywhere: what
    the pieces are joined into, taken for mappings and joined again, is what all of them are joined
    into at once. In particular, joining what has been joined changes nothing. -/
theorem joined_in_pieces (target : Target) (mappings : List Mapping)
    (hproper : ∀ mapping ∈ mappings,
      mapping.start.bits.toNat ≤ mapping.last.bits.toNat ∧
        mapping.last.bits.toNat < 2 ^ 64 - 1) :
    (∀ pieces : List (List Mapping), pieces.flatten = mappings →
      Traversal.stream target
          (Joining.of (pieces.flatMap fun piece => asMappings (joined target piece))) =
        joined target mappings) ∧
      Traversal.stream target (Joining.of (asMappings (joined target mappings))) =
        joined target mappings := by
  have hpieces : ∀ pieces : List (List Mapping), pieces.flatten = mappings →
      Traversal.stream target
          (Joining.of (pieces.flatMap fun piece => asMappings (joined target piece))) =
        joined target mappings := fun pieces hflatten => by
    have hparts : ∀ part ∈ pieces.map (List.map Mapping.range), ∀ range ∈ part, range.Proper := by
      intro part hpart range hrange
      obtain ⟨piece, hpiece, rfl⟩ := List.mem_map.mp hpart
      obtain ⟨mapping, hmapping, rfl⟩ := List.mem_map.mp hrange
      have hmem : mapping ∈ mappings := hflatten ▸ List.mem_flatten.mpr ⟨piece, hpiece, hmapping⟩
      obtain ⟨hstart, hlast⟩ := hproper mapping hmem
      exact ⟨hstart, hlast⟩
    rw [stream_asMappings, Range.merge_flatMap hparts, ← List.map_flatten, hflatten, joined_eq]
  refine ⟨hpieces, ?_⟩
  simpa using hpieces [mappings] (by simp)

/-- Two runs of pages, the second one further down, cut inside both of them. -/
def cutRuns : List (List Mapping) :=
  [[⟨⟨0x200000⟩, ⟨0x200FFF⟩, ⟨0x80000000⟩, ⟨0x0F⟩⟩],
    [⟨⟨0x201000⟩, ⟨0x201FFF⟩, ⟨0x80001000⟩, ⟨0xCF⟩⟩, ⟨⟨0x4000⟩, ⟨0x4FFF⟩, ⟨0x90000000⟩, ⟨0x17⟩⟩],
    [], [⟨⟨0x5000⟩, ⟨0x5FFF⟩, ⟨0x90001000⟩, ⟨0x17⟩⟩]]

/-- The pieces give four ranges, and these are joined into one for each run. -/
theorem joined_in_pieces_cut :
    (∀ mapping ∈ cutRuns.flatten,
      mapping.start.bits.toNat ≤ mapping.last.bits.toNat ∧
        mapping.last.bits.toNat < 2 ^ 64 - 1) ∧
      (cutRuns.flatMap (joined .blank)).length = 4 ∧
      Traversal.stream .blank
          (Joining.of (cutRuns.flatMap fun piece => asMappings (joined .blank piece))) =
        [.ok ⟨⟨0x200000⟩, ⟨0x201FFF⟩, ⟨0x80000000⟩, ⟨0x0F⟩⟩,
          .ok ⟨⟨0x4000⟩, ⟨0x5FFF⟩, ⟨0x90000000⟩, ⟨0x17⟩⟩] := by
  have hproper : ∀ mapping ∈ cutRuns.flatten,
      mapping.start.bits.toNat ≤ mapping.last.bits.toNat ∧
        mapping.last.bits.toNat < 2 ^ 64 - 1 := by decide
  refine ⟨hproper, by simp only [cutRuns, List.flatMap_cons, joined_eq]; decide, ?_⟩
  rw [(joined_in_pieces .blank cutRuns.flatten hproper).1 cutRuns rfl, joined_eq]
  rfl

end Joining

end KernelProbe
