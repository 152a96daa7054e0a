import KernelProbe.Proofs.Paging.Merging
import Mathlib.Data.List.SplitBy

/-!
# Runs

Whether a mapping joins the range held back is asked of the range, with all that it has taken in.
The answer is that of its last mapping alone: a range ends where its last mapping does, virtually
and physically. So mappings in any order, ascending or not, are given as the runs in which each
continues the one before it. A fault cuts the items: the run before it is lost, the next item opens
a new one.

A pull reads up to the item that closes the run, and no further.

* `Range.EndsWith` -- a range ends with a mapping;
* `Joining.runRanges` -- the ranges of the runs;
* `Joining.closings` -- the places at which something is given;
* `Joining.pulls_runs` -- the ranges given, and what is read for each.
-/

namespace KernelProbe

/-! ## 1. The end of a range -/

namespace Range

/-- **A range ends with a mapping**: the mapping is the last part of it. -/
structure EndsWith (range : Range) (mapping : Mapping) : Prop where
  proper : range.Proper
  last_eq : range.last = mapping.last
  permission_eq : range.permission = mapping.range.permission
  start_le : range.start.bits.toNat ≤ mapping.start.bits.toNat
  mapping_le : mapping.start.bits.toNat ≤ mapping.last.bits.toNat
  physical_eq :
    range.physical.bits.toNat + (mapping.start.bits.toNat - range.start.bits.toNat) =
      mapping.physical.bits.toNat

/-- The range of a mapping ends with it. -/
theorem endsWith_range {mapping : Mapping} (h : mapping.range.Proper) :
    mapping.range.EndsWith mapping where
  proper := h
  last_eq := rfl
  permission_eq := rfl
  start_le := Nat.le_refl _
  mapping_le := h.start_le
  physical_eq := by rw [Mapping.range, Nat.sub_self, Nat.add_zero]

section EndsWith

variable {range : Range} {mapping : Mapping} (h : range.EndsWith mapping)

include h

/-- **What continues a range is what continues its last mapping.** -/
theorem EndsWith.continues_iff (next : Range) :
    range.Continues next ↔ mapping.range.Continues next := by
  have hlast : range.last.bits.toNat = mapping.range.last.bits.toNat :=
    congrArg (fun address : VAddr => address.bits.toNat) h.last_eq
  have hspan : range.physical.bits.toNat + (range.last.bits.toNat - range.start.bits.toNat + 1) =
      mapping.range.physical.bits.toNat +
        (mapping.range.last.bits.toNat - mapping.range.start.bits.toNat + 1) := by
    have hstart := h.start_le
    have hmapping := h.mapping_le
    have hphysical := h.physical_eq
    simp only [Mapping.range] at hlast ⊢
    omega
  constructor
  · rintro ⟨hadjacent, hpermission, hphysical⟩
    exact ⟨hlast ▸ hadjacent, h.permission_eq ▸ hpermission, hspan ▸ hphysical⟩
  · rintro ⟨hadjacent, hpermission, hphysical⟩
    exact ⟨hlast ▸ hadjacent, h.permission_eq ▸ hpermission, hspan ▸ hphysical⟩

theorem EndsWith.join?_of_continues {next : Mapping}
    (hcontinues : mapping.range.Continues next.range) :
    range.join? next.range = some { range with last := next.last } := by
  have hgoes := (goesOn_iff h.proper).mpr ((h.continues_iff next.range).mpr hcontinues)
  rw [join?, if_pos hgoes]
  rfl

theorem EndsWith.join?_of_not {next : Mapping}
    (hcontinues : ¬ mapping.range.Continues next.range) : range.join? next.range = none := by
  have hgoes : ¬ range.goesOn next.range = true := fun hgoes =>
    hcontinues ((h.continues_iff next.range).mp ((goesOn_iff h.proper).mp hgoes))
  rw [join?, if_neg hgoes]

/-- With the mapping that continues it, a range ends with that mapping. -/
theorem EndsWith.joined {next : Mapping} (hcontinues : mapping.range.Continues next.range)
    (hnext : next.range.Proper) : EndsWith { range with last := next.last } next := by
  have hjoins := (h.continues_iff next.range).mpr hcontinues
  have hstart := h.proper.start_le
  have hadjacent : range.last.bits.toNat + 1 = next.start.bits.toNat := hjoins.adjacent
  have hphysical : range.physical.bits.toNat +
      (range.last.bits.toNat - range.start.bits.toNat + 1) = next.physical.bits.toNat :=
    hjoins.physical
  refine ⟨proper_joined ((goesOn_iff h.proper).mpr hjoins) h.proper hnext, rfl,
    hjoins.permission, ?_, hnext.start_le, ?_⟩
  · show range.start.bits.toNat ≤ next.start.bits.toNat
    omega
  · show range.physical.bits.toNat + (next.start.bits.toNat - range.start.bits.toNat) =
      next.physical.bits.toNat
    omega

end EndsWith

/-- The range of a run: from the first mapping of it to the last. -/
def ofRun? (run : List Mapping) : Option Range := do
  let first ← run.head?
  let last ← run.getLast?
  return ⟨first.start, last.last, first.physical, first.flags.permission⟩

theorem ofRun?_append {run : List Mapping} {range : Range} (h : ofRun? run = some range)
    (next : Mapping) : ofRun? (run ++ [next]) = some { range with last := next.last } := by
  cases run with
  | nil => cases h
  | cons first rest =>
    rw [ofRun?, List.getLast?_cons] at h
    cases h
    rw [ofRun?, List.getLast?_append]
    rfl

end Range

namespace Joining

/-! ## 2. The ranges of the runs -/

/-- Whether the second mapping belongs to the run of the first. -/
def sameRun (mapping next : Mapping) : Bool :=
  mapping.range.Continues next.range

/-- **The ranges of the maximal runs** in which each mapping continues the one before it. -/
def runRanges (mappings : List Mapping) : List Range :=
  (mappings.splitBy sameRun).filterMap Range.ofRun?

/-- **An open run**: the mappings so far, their range, and the last of them. -/
structure OpenRun (run : List Mapping) (range : Range) (last : Mapping) : Prop where
  chain : run.IsChain fun mapping next => sameRun mapping next
  getLast?_eq : run.getLast? = some last
  ofRun?_eq : Range.ofRun? run = some range
  endsWith : range.EndsWith last

/-- A mapping opens a run. -/
theorem OpenRun.single {mapping : Mapping} (h : mapping.range.Proper) :
    OpenRun [mapping] mapping.range mapping :=
  ⟨List.isChain_singleton mapping, rfl, rfl, Range.endsWith_range h⟩

section OpenRun

variable {run : List Mapping} {range : Range} {last : Mapping} (h : OpenRun run range last)

include h

/-- The run goes on with a mapping that continues the last one. -/
theorem OpenRun.joined {next : Mapping} (hcontinues : last.range.Continues next.range)
    (hnext : next.range.Proper) :
    OpenRun (run ++ [next]) { range with last := next.last } next where
  chain := by
    refine List.isChain_append.mpr ⟨h.chain, List.isChain_singleton _, ?_⟩
    intro mapping hmapping other hother
    rw [h.getLast?_eq] at hmapping
    cases hmapping
    cases hother
    exact decide_eq_true hcontinues
  getLast?_eq := List.getLast?_concat
  ofRun?_eq := Range.ofRun?_append h.ofRun?_eq next
  endsWith := h.endsWith.joined hcontinues hnext

theorem OpenRun.ne_nil : run ≠ [] := by
  intro hnil
  rw [hnil] at h
  cases h.getLast?_eq

/-- Nothing behind it: the run is the only one. -/
theorem OpenRun.runRanges_self : runRanges run = [range] := by
  rw [runRanges, List.splitBy_of_isChain h.ne_nil h.chain, List.filterMap_cons_some h.ofRun?_eq,
    List.filterMap_nil]

/-- The run ends before a mapping that does not continue the last one. -/
theorem OpenRun.runRanges_closed {next : Mapping}
    (hcontinues : ¬ last.range.Continues next.range) (rest : List Mapping) :
    runRanges (run ++ next :: rest) = range :: runRanges (next :: rest) := by
  have hsplit : (run ++ next :: rest).splitBy sameRun =
      run.splitBy sameRun ++ (next :: rest).splitBy sameRun :=
    List.splitBy_append_cons rest fun mapping hmapping => by
      rw [h.getLast?_eq] at hmapping
      cases hmapping
      exact decide_eq_false hcontinues
  rw [runRanges, hsplit, List.splitBy_of_isChain h.ne_nil h.chain, List.singleton_append,
    List.filterMap_cons_some h.ofRun?_eq]
  rfl

/-- **Mappings behind an open run**: some ranges are given, and one is held back at the end. -/
theorem output_run (mappings : List Mapping)
    (hproper : ∀ mapping ∈ mappings, mapping.range.Proper) :
    ∃ closed held, runRanges (run ++ mappings) = closed ++ [held] ∧
      ∀ tail, output (some range) (mappings.map .ok ++ tail) =
        closed.map .ok ++ output (some held) tail := by
  induction mappings generalizing run range last with
  | nil =>
    refine ⟨[], range, ?_, fun tail => rfl⟩
    rw [List.append_nil, h.runRanges_self, List.nil_append]
  | cons next rest ih =>
    have hnext := hproper next List.mem_cons_self
    have hrest : ∀ mapping ∈ rest, mapping.range.Proper := fun mapping hmem =>
      hproper mapping (List.mem_cons_of_mem _ hmem)
    by_cases hcontinues : last.range.Continues next.range
    · obtain ⟨closed, held, hranges, houtput⟩ := ih (h.joined hcontinues hnext) hrest
      refine ⟨closed, held, ?_, fun tail => ?_⟩
      · rw [← hranges, List.append_assoc, List.singleton_append]
      · rw [List.map_cons, List.cons_append, output,
          h.endsWith.join?_of_continues hcontinues]
        exact houtput tail
    · obtain ⟨closed, held, hranges, houtput⟩ := ih (.single hnext) hrest
      refine ⟨range :: closed, held, ?_, fun tail => ?_⟩
      · rw [h.runRanges_closed hcontinues, List.cons_append, ← hranges, List.singleton_append]
      · rw [List.map_cons, List.cons_append, output, h.endsWith.join?_of_not hcontinues,
          List.map_cons, List.cons_append]
        exact congrArg _ (houtput tail)

end OpenRun

/-- **Of mappings all ranges are given but the last**, which is held back. -/
theorem output_mappings (mappings : List Mapping)
    (hproper : ∀ mapping ∈ mappings, mapping.range.Proper) (tail : List (Except Fault Mapping)) :
    output none (mappings.map .ok ++ tail) =
      (runRanges mappings).dropLast.map .ok ++ output (runRanges mappings).getLast? tail := by
  cases mappings with
  | nil => rfl
  | cons first rest =>
    have hfirst := hproper first List.mem_cons_self
    obtain ⟨closed, held, hranges, houtput⟩ := output_run (.single hfirst) rest fun mapping hmem =>
      hproper mapping (List.mem_cons_of_mem _ hmem)
    rw [List.singleton_append] at hranges
    rw [hranges, List.dropLast_concat, List.getLast?_concat]
    exact houtput tail

/-- At the end the last one is given too. -/
theorem output_final (mappings : List Mapping)
    (hproper : ∀ mapping ∈ mappings, mapping.range.Proper) :
    output none (mappings.map .ok) = (runRanges mappings).map .ok := by
  have houtput := output_mappings mappings hproper []
  rw [List.append_nil] at houtput
  rw [houtput]
  cases hlast : (runRanges mappings).getLast? with
  | none => rw [List.getLast?_eq_none_iff.mp hlast]; rfl
  | some last =>
    rw [← List.dropLast_append_getLast? last hlast, List.map_append, List.dropLast_concat]
    rfl

/-- Items cut at their faults: mappings with the fault behind them, and the mappings at the end. -/
def cut (segments : List (List Mapping × Fault)) (final : List Mapping) :
    List (Except Fault Mapping) :=
  segments.flatMap (fun segment => segment.1.map .ok ++ [.error segment.2]) ++ final.map .ok

/-- **What is given for them**: of a segment with a fault all runs but the last, then the fault; of
    the mappings at the end all runs. -/
def given (segments : List (List Mapping × Fault)) (final : List Mapping) :
    List (Except Fault Range) :=
  segments.flatMap (fun segment =>
    (runRanges segment.1).dropLast.map .ok ++ [.error segment.2]) ++ (runRanges final).map .ok

theorem exists_cut (items : List (Except Fault Mapping)) :
    ∃ segments final, items = cut segments final := by
  induction items with
  | nil => exact ⟨[], [], rfl⟩
  | cons item rest ih =>
    obtain ⟨segments, final, hrest⟩ := ih
    cases item with
    | error fault => exact ⟨([], fault) :: segments, final, by rw [hrest]; rfl⟩
    | ok mapping =>
      cases segments with
      | nil => exact ⟨[], mapping :: final, by rw [hrest]; rfl⟩
      | cons segment segments =>
        exact ⟨(mapping :: segment.1, segment.2) :: segments, final, by rw [hrest]; rfl⟩

theorem output_cut (segments : List (List Mapping × Fault)) (final : List Mapping)
    (hproper : ∀ mapping, .ok mapping ∈ cut segments final → mapping.range.Proper) :
    output none (cut segments final) = given segments final := by
  induction segments with
  | nil => exact output_final final fun mapping hmem => hproper mapping (List.mem_map_of_mem hmem)
  | cons segment segments ih =>
    have hcut : cut (segment :: segments) final =
        segment.1.map .ok ++ .error segment.2 :: cut segments final := by
      simp only [cut, List.flatMap_cons, List.append_assoc, List.cons_append, List.nil_append]
    have hgiven : given (segment :: segments) final =
        (runRanges segment.1).dropLast.map .ok ++ .error segment.2 :: given segments final := by
      simp only [given, List.flatMap_cons, List.append_assoc, List.cons_append, List.nil_append]
    rw [hcut] at hproper ⊢
    have hsegment := output_mappings segment.1 (fun mapping hmem =>
      hproper mapping (List.mem_append_left _ (List.mem_map_of_mem hmem)))
      (.error segment.2 :: cut segments final)
    rw [hgiven, hsegment, output, ih]
    exact fun mapping hmem =>
      hproper mapping (List.mem_append_right _ (List.mem_cons_of_mem _ hmem))

/-! ## 3. What is read -/

/-- Each item with the one before it, and the end with the last one. -/
def neighbours (before : Option (Except Fault Mapping)) (items : List (Except Fault Mapping)) :
    List (Option (Except Fault Mapping) × Option (Except Fault Mapping)) :=
  (before :: items.map some).zip (items.map some ++ [none])

/-- Whether something is given when the second is read behind the first: a fault is, and an open run
    at its end. -/
def closes : Option (Except Fault Mapping) × Option (Except Fault Mapping) → Bool
  | (_, some (.error _)) => true
  | (some (.ok mapping), some (.ok next)) => !sameRun mapping next
  | (some (.ok _), none) => true
  | _ => false

theorem closes_of_continues {mapping next : Mapping} (h : mapping.range.Continues next.range) :
    closes (some (.ok mapping), some (.ok next)) = false :=
  congrArg not (decide_eq_true h)

theorem closes_of_not {mapping next : Mapping} (h : ¬ mapping.range.Continues next.range) :
    closes (some (.ok mapping), some (.ok next)) = true :=
  congrArg not (decide_eq_false h)

/-- **The places at which something is given**: those of the items, and the one behind them. -/
def closings (before : Option (Except Fault Mapping)) (items : List (Except Fault Mapping)) :
    List Nat :=
  (neighbours before items).findIdxs closes

theorem closings_cons (before : Option (Except Fault Mapping)) (item : Except Fault Mapping)
    (rest : List (Except Fault Mapping)) :
    closings before (item :: rest) =
      if closes (before, some item) then 0 :: (closings (some item) rest).map (· + 1)
      else (closings (some item) rest).map (· + 1) := by
  have hrest : (neighbours (some item) rest).findIdxs closes 1 =
      (closings (some item) rest).map (· + 1) := List.findIdxs_start
  show ((before, some item) :: neighbours (some item) rest).findIdxs closes = _
  rw [List.findIdxs_cons, Nat.zero_add, hrest]

theorem closings_of_closes {before : Option (Except Fault Mapping)} {item : Except Fault Mapping}
    (h : closes (before, some item) = true) (rest : List (Except Fault Mapping)) :
    closings before (item :: rest) = 0 :: (closings (some item) rest).map (· + 1) := by
  rw [closings_cons, if_pos h]

theorem closings_of_not {before : Option (Except Fault Mapping)} {item : Except Fault Mapping}
    (h : closes (before, some item) = false) (rest : List (Except Fault Mapping)) :
    closings before (item :: rest) = (closings (some item) rest).map (· + 1) := by
  rw [closings_cons, if_neg (Bool.eq_false_iff.mp h)]

/-- **What is held back behind an item**: behind a mapping a range that ends with it, else none. -/
inductive Holds : Option Range → Option (Except Fault Mapping) → Prop
  | start : Holds none none
  | fault (fault : Fault) : Holds none (some (.error fault))
  | mapping {range : Range} {mapping : Mapping} :
    range.EndsWith mapping → Holds (some range) (some (.ok mapping))

/-- As many items are given as there are places for it. -/
theorem length_output {held : Option Range} {before : Option (Except Fault Mapping)}
    (h : Holds held before) (items : List (Except Fault Mapping))
    (hproper : ∀ mapping, .ok mapping ∈ items → mapping.range.Proper) :
    (output held items).length = (closings before items).length := by
  induction items generalizing held before with
  | nil => cases h <;> rfl
  | cons item rest ih =>
    have hrest : ∀ mapping, .ok mapping ∈ rest → mapping.range.Proper := fun mapping hmem =>
      hproper mapping (List.mem_cons_of_mem _ hmem)
    cases item with
    | error fault =>
      have hlength := ih (.fault fault) hrest
      rw [closings_of_closes rfl, List.length_cons, List.length_map, ← hlength]
      cases h <;> rfl
    | ok next =>
      have hnext := hproper next List.mem_cons_self
      have hopened := ih (.mapping (Range.endsWith_range hnext)) hrest
      cases h with
      | start =>
        rw [closings_of_not rfl, List.length_map, output]
        exact hopened
      | fault fault =>
        rw [closings_of_not rfl, List.length_map, output]
        exact hopened
      | @mapping range last hends =>
        by_cases hcontinues : last.range.Continues next.range
        · rw [closings_of_not (closes_of_continues hcontinues), List.length_map, output,
            hends.join?_of_continues hcontinues]
          exact ih (.mapping (hends.joined hcontinues hnext)) hrest
        · rw [closings_of_closes (closes_of_not hcontinues), output,
            hends.join?_of_not hcontinues, List.length_cons, List.length_cons, List.length_map]
          exact congrArg Nat.succ hopened

variable {σ : Type} [Traversal σ Mapping]

/-- **What a joining has read**: the source up to a place, and behind it there are later places. -/
structure ReadTo (target : Target) (source : σ) (place : Nat) (later : List Nat)
    (joining : Joining σ) : Prop where
  source_eq : joining.source = Traversal.after (List.replicate (place + 1) target) source
  holds : ∃ here, Holds joining.held here ∧
    later = (closings here (Traversal.stream target joining.source)).map (· + (place + 1))

/-- With one more pull before. -/
theorem ReadTo.succ {target : Target} {source : σ} {place : Nat} {later : List Nat}
    {joining : Joining σ}
    (h : ReadTo target (Traversal.pull target source).rest place later joining) :
    ReadTo target source (place + 1) (later.map (· + 1)) joining := by
  obtain ⟨here, hholds, hlater⟩ := h.holds
  refine ⟨h.source_eq, here, hholds, ?_⟩
  rw [hlater, List.map_map]
  rfl

/-- A mapping that closes nothing is read over. -/
theorem read_over {target : Target} {source : σ} {before : Option (Except Fault Mapping)}
    {mapping : Mapping} (hitem : (Traversal.pull target source).item = some (.ok mapping))
    (hcloses : closes (before, some (.ok mapping)) = false) {place : Nat} {later : List Nat}
    (hplaces : closings before (Traversal.stream target source) = place :: later) :
    ∃ place' later', closings (some (.ok mapping))
        (Traversal.stream target (Traversal.pull target source).rest) = place' :: later' ∧
      ∀ joining, ReadTo target (Traversal.pull target source).rest place' later' joining →
        ReadTo target source place later joining := by
  rw [Traversal.stream_of_some hitem, closings_of_not hcloses, List.map_eq_cons_iff] at hplaces
  obtain ⟨place', later', hplaces, rfl, rfl⟩ := hplaces
  exact ⟨place', later', hplaces, fun joining hread => hread.succ⟩

/-- **One pull reads up to the next place at which something is given.** -/
theorem gather_reads (target : Target) (events : Array Event) {held : Option Range} {source : σ}
    {before : Option (Except Fault Mapping)} (h : Holds held before)
    (hproper : ∀ mapping, .ok mapping ∈ Traversal.stream target source → mapping.range.Proper)
    {place : Nat} {later : List Nat}
    (hplaces : closings before (Traversal.stream target source) = place :: later) :
    ReadTo target source place later (gather target events held source).rest := by
  fun_induction gather target events held source generalizing before place later with
  | case1 events held source seen rest hpull =>
    have hnone : (Traversal.pull target source).item = none := by rw [hpull]
    have hbound := Traversal.bound_end target source hnone
    rw [hpull] at hbound
    rw [Traversal.stream_of_none hnone] at hplaces
    cases h with
    | start => cases hplaces
    | fault fault => cases hplaces
    | mapping hends =>
      cases hplaces
      refine ⟨by rw [List.replicate_one, Traversal.after, hpull]; rfl, none, .start, ?_⟩
      rw [Traversal.stream_of_none (Traversal.item_eq_none hbound)]
      rfl
  | case2 events held source seen fault rest hpull =>
    have hitem : (Traversal.pull target source).item = some (.error fault) := by rw [hpull]
    have hrest : (Traversal.pull target source).rest = rest := by rw [hpull]
    rw [Traversal.stream_of_some hitem, closings_of_closes rfl, hrest] at hplaces
    cases hplaces
    exact ⟨hrest.symm, _, .fault fault, rfl⟩
  | case3 events source seen mapping rest hpull ih =>
    have hitem : (Traversal.pull target source).item = some (.ok mapping) := by rw [hpull]
    obtain rfl : (Traversal.pull target source).rest = rest := by rw [hpull]
    have hcloses : closes (before, some (.ok mapping)) = false := by cases h <;> rfl
    obtain ⟨place', later', hplaces', hread⟩ := read_over hitem hcloses hplaces
    rw [Traversal.stream_of_some hitem] at hproper
    exact hread _ (ih (.mapping (Range.endsWith_range (hproper mapping List.mem_cons_self)))
      (fun other hmem => hproper other (List.mem_cons_of_mem _ hmem)) hplaces')
  | case4 events source seen mapping rest hpull range joined hjoin ih =>
    have hitem : (Traversal.pull target source).item = some (.ok mapping) := by rw [hpull]
    obtain rfl : (Traversal.pull target source).rest = rest := by rw [hpull]
    rw [Traversal.stream_of_some hitem] at hproper
    obtain ⟨hgoes, rfl⟩ := Range.join?_eq_some hjoin
    cases h with
    | mapping hends =>
      have hcontinues := (hends.continues_iff _).mp ((Range.goesOn_iff hends.proper).mp hgoes)
      obtain ⟨place', later', hplaces', hread⟩ :=
        read_over hitem (closes_of_continues hcontinues) hplaces
      exact hread _ (ih (.mapping (hends.joined hcontinues (hproper mapping List.mem_cons_self)))
        (fun other hmem => hproper other (List.mem_cons_of_mem _ hmem)) hplaces')
  | case5 events source seen mapping rest hpull range hjoin =>
    have hitem : (Traversal.pull target source).item = some (.ok mapping) := by rw [hpull]
    have hrest : (Traversal.pull target source).rest = rest := by rw [hpull]
    rw [Traversal.stream_of_some hitem] at hproper
    have hmapping := Range.endsWith_range (hproper mapping List.mem_cons_self)
    cases h with
    | mapping hends =>
      have hcontinues := fun hcontinues => Range.join?_eq_none hjoin
        ((Range.goesOn_iff hends.proper).mpr ((hends.continues_iff _).mpr hcontinues))
      rw [Traversal.stream_of_some hitem, closings_of_closes (closes_of_not hcontinues), hrest]
        at hplaces
      cases hplaces
      exact ⟨hrest.symm, _, .mapping hmapping, rfl⟩

/-- **So many pulls read up to the place of the last of them.** -/
theorem source_after (target : Target) {joining : Joining σ}
    {before : Option (Except Fault Mapping)} (h : Holds joining.held before)
    (hproper : ∀ mapping, .ok mapping ∈ Traversal.stream target joining.source →
      mapping.range.Proper) {count place : Nat}
    (hplace : (closings before (Traversal.stream target joining.source))[count]? = some place) :
    (Traversal.after (List.replicate (count + 1) target) joining).source =
      Traversal.after (List.replicate (place + 1) target) joining.source := by
  induction count generalizing joining before place with
  | zero =>
    obtain ⟨later, hplaces⟩ := List.head?_eq_some_iff.mp ((List.head?_eq_getElem?).trans hplace)
    exact (gather_reads target #[] h hproper hplaces).source_eq
  | succ count ih =>
    cases hplaces : closings before (Traversal.stream target joining.source) with
    | nil =>
      rw [hplaces] at hplace
      cases hplace
    | cons first later =>
      obtain ⟨hsource, here, hholds, hlater⟩ := gather_reads target #[] h hproper hplaces
      rw [hplaces, List.getElem?_cons_succ, hlater, List.getElem?_map, Option.map_eq_some_iff]
        at hplace
      obtain ⟨further, hfurther, rfl⟩ := hplace
      have hrest : ∀ mapping, .ok mapping ∈ Traversal.stream target
          (gather target #[] joining.held joining.source).rest.source →
            mapping.range.Proper := fun mapping hmem => by
        rw [hsource, Traversal.stream_after] at hmem
        exact hproper mapping (List.mem_of_mem_drop hmem)
      rw [List.replicate_succ, Traversal.after]
      rw [show Traversal.pull target joining = gather target #[] joining.held joining.source
        from rfl, ih hholds hrest hfurther, hsource, ← Traversal.after_append,
        ← List.replicate_add]
      congr 2
      omega

/-! ## 4. What is given, and what is read for it -/

/-- **The ranges given are those of the runs, and each is given as soon as its run is closed.** Cut
    the items at their faults: of each segment the ranges of all maximal runs but the last are
    given, then the fault; behind the last fault the ranges of all runs, then none. A pull reads up
    to the next place at which something is given. -/
theorem pulls_runs (target : Target) (source : σ)
    (hproper : ∀ mapping, .ok mapping ∈ Traversal.stream target source → mapping.range.Proper) :
    ∃ segments final, Traversal.stream target source = cut segments final ∧
      (∀ count, Traversal.pulls (List.replicate count target) (Joining.of source) =
        ((given segments final).map some ++ List.replicate count none).take count) ∧
      (closings none (Traversal.stream target source)).length = (given segments final).length ∧
      ∀ count place, (closings none (Traversal.stream target source))[count]? = some place →
        (Traversal.after (List.replicate (count + 1) target) (Joining.of source)).source =
          Traversal.after (List.replicate (place + 1) target) source := by
  obtain ⟨segments, final, hcut⟩ := exists_cut (Traversal.stream target source)
  have houtput : output none (Traversal.stream target source) = given segments final := by
    rw [hcut] at hproper ⊢
    exact output_cut segments final hproper
  refine ⟨segments, final, hcut, fun count => ?_, ?_, fun count place hplace => ?_⟩
  · rw [Traversal.pulls_replicate, stream_eq, Joining.of, houtput]
  · rw [← length_output .start _ hproper, houtput]
  · exact source_after target .start hproper hplace

/-- Two pages of one run, a page apart from them, a fault, and a page that continues the last. -/
def brokenPages : List (Except Fault Mapping) :=
  [.ok ⟨⟨0x1000⟩, ⟨0x1FFF⟩, ⟨0x80001000⟩, ⟨0x07⟩⟩, .ok ⟨⟨0x2000⟩, ⟨0x2FFF⟩, ⟨0x80002000⟩, ⟨0xC7⟩⟩,
    .ok ⟨⟨0x3000⟩, ⟨0x3FFF⟩, ⟨0x90000000⟩, ⟨0x07⟩⟩, .error (.memoryUnavailable 0x5000 4096),
    .ok ⟨⟨0x4000⟩, ⟨0x4FFF⟩, ⟨0x90001000⟩, ⟨0x07⟩⟩]

/-- The first range is given at the third page, the fault where it stands, the last range at the
    end; so the second pull reads four items. -/
theorem pulls_runs_broken :
    (∀ mapping, .ok mapping ∈ Traversal.stream .blank brokenPages → mapping.range.Proper) ∧
      (∃ segments final, brokenPages = cut segments final ∧
        Traversal.pulls (List.replicate 4 .blank) (Joining.of brokenPages) =
          ((given segments final).map some ++ List.replicate 4 none).take 4) ∧
      closings none brokenPages = [2, 3, 5] ∧
      (Traversal.after (List.replicate 2 .blank) (Joining.of brokenPages)).source =
        brokenPages.drop 4 := by
  have hproper : ∀ mapping, .ok mapping ∈ Traversal.stream .blank brokenPages →
      mapping.range.Proper := fun mapping hmem => by
    rw [Traversal.stream_list, brokenPages] at hmem
    simp only [List.mem_cons, Except.ok.injEq, List.not_mem_nil, or_false, reduceCtorEq, false_or]
      at hmem
    rcases hmem with rfl | rfl | rfl | rfl <;> exact ⟨by decide, by decide⟩
  have hclosings : closings none brokenPages = [2, 3, 5] := rfl
  obtain ⟨segments, final, hcut, hpulls, -, hreads⟩ := pulls_runs .blank brokenPages hproper
  rw [Traversal.stream_list] at hcut hreads
  exact ⟨hproper, ⟨segments, final, hcut, hpulls 4⟩, hclosings, hreads 1 3 rfl⟩

end Joining

end KernelProbe
