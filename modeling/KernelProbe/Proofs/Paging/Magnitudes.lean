import KernelProbe.Satp
import KernelProbe.Proofs.Paging.Merging
import KernelProbe.Proofs.Paging.Order
import KernelProbe.Proofs.Paging.Translation

/-!
# The page dump computes exactly

The dump of a page table adds, subtracts and shifts machine words without a check. Nothing is lost
by that: whatever the paging register and the memory hold, and however the kernel changes between
the pulls, every word that is computed is the natural number it stands for. A walk stays below bit
39 because its tables are in their place, a page begins below bit 56 because page numbers have 44
bits, and a range held back is no larger than the addresses below bit 39, however many mappings it
has taken in.

* `Range.Bounded`, `Range.Exact` -- the bounds of a range, and exact computing with it;
* `Cursor.Exact` -- exact computing at an entry of a table;
* `Joining.Stage` -- what a joining holds back, with a kernel of its own at each mapping;
* `Walk.dump_exact` -- the bounds of a dump.
-/

namespace KernelProbe

/-! ## 1. Ranges -/

namespace Range

/-- **The bounds of a range**: it lies below bit 39, and begins physically with a page below
    bit 56. -/
structure Bounded (range : Range) : Prop where
  start_le : range.start.bits.toNat ≤ range.last.bits.toNat
  last_lt : range.last.bits.toNat < 2 ^ 39
  physical_lt : range.physical.bits.toNat < 2 ^ 56
  aligned : range.physical.bits.toNat % pageSize = 0

/-- **Computing with a range is exact**: no difference falls below zero, no sum is cut, and there
    are addresses behind the range, virtual and physical ones. -/
structure Exact (range : Range) : Prop where
  distance : ((range.last.bits - range.start.bits).toNat : Int) =
    range.last.bits.toNat - range.start.bits.toNat
  span : (range.span.toNat : Int) = range.last.bits.toNat - range.start.bits.toNat + 1
  physicalLast : (range.physicalLast.bits.toNat : Int) =
    range.physical.bits.toNat + (range.last.bits.toNat - range.start.bits.toNat)
  next : (advance? range.last.bits 1).isSome
  physicalNext : (advance? range.physical.bits range.span.toNat).isSome

section Bounded

variable {range : Range} (h : range.Bounded)

include h

theorem Bounded.proper : range.Proper :=
  ⟨h.start_le, Nat.lt_of_lt_of_le h.last_lt (by decide)⟩

/-- A range below bit 39 has no more than those addresses. -/
theorem Bounded.span_le : range.span.toNat ≤ 2 ^ 39 := by
  have hlast := h.last_lt
  rw [toNat_span h.proper]
  omega

theorem Bounded.physical_add_span_le :
    range.physical.bits.toNat + range.span.toNat ≤ 2 ^ 56 + 2 ^ 39 :=
  Nat.add_le_add (Nat.le_of_lt h.physical_lt) h.span_le

/-- **Within the bounds computing is exact.** -/
theorem Bounded.exact : range.Exact := by
  have hstart := h.start_le
  have hlast := h.last_lt
  have hspan := toNat_span h.proper
  have hend := h.physical_add_span_le
  have hdistance : (range.last.bits - range.start.bits).toNat =
      range.last.bits.toNat - range.start.bits.toNat :=
    UInt64.toNat_sub_of_le _ _ (UInt64.le_iff_toNat_le.mpr hstart)
  refine ⟨by omega, by omega, ?_, ?_, ?_⟩
  · rw [physicalLast, UInt64.toNat_add, hdistance, Nat.mod_eq_of_lt (by omega)]
    omega
  · rw [advance?_of_lt (by omega)]
    rfl
  · rw [advance?_of_lt (by omega)]
    rfl

/-- **What is joined to a range stays within the bounds.** -/
theorem bounded_joined {next : Range} (hgoes : range.goesOn next = true) (hnext : next.Bounded) :
    Bounded { range with last := next.last } :=
  ⟨(proper_joined hgoes h.proper hnext.proper).start_le, hnext.last_lt, h.physical_lt, h.aligned⟩

end Bounded

end Range

/-! ## 2. Entries of a table -/

/-- **Computing at the next entry of a table is exact**: no bit of the mask, of the page number or
    of the span is shifted out, and the addresses of the entry's memory are the sums they stand
    for. -/
structure Cursor.Exact (cursor : Cursor) : Prop where
  shift_lt : levelShift cursor.level < 64
  mask : (UInt64.ofNat levelMask <<< UInt64.ofNat (levelShift cursor.level)).toNat =
    levelMask * 2 ^ levelShift cursor.level
  number : (UInt64.ofNat (cursor.next &&& levelMask) <<<
    UInt64.ofNat (levelShift cursor.level)).toNat = cursor.next * 2 ^ levelShift cursor.level
  span : (levelSpan cursor.level).toNat = 2 ^ levelShift cursor.level
  spanLast : ((levelSpan cursor.level - 1).toNat : Int) = (levelSpan cursor.level).toNat - 1
  start : cursor.start.bits.toNat =
    cursor.base.bits.toNat + cursor.next * 2 ^ levelShift cursor.level
  last : (cursor.start.plus (levelSpan cursor.level - 1)).bits.toNat =
    cursor.start.bits.toNat + (levelSpan cursor.level - 1).toNat

/-- A number of nine bits, shifted to its level. -/
theorem toNat_shifted {level number : Nat} (h : level ≤ 2) (hnumber : number < 512) :
    (UInt64.ofNat number <<< UInt64.ofNat (levelShift level)).toNat =
      number * 2 ^ levelShift level := by
  have hpow : 2 ^ levelShift level ≤ 2 ^ 30 :=
    Nat.pow_le_pow_right (by decide) (by rw [levelShift_eq]; omega)
  have hfits : number * 2 ^ levelShift level ≤ 512 * 2 ^ 30 :=
    Nat.mul_le_mul (Nat.le_of_lt hnumber) hpow
  rw [toNat_shiftLeft_level (by omega), UInt64.toNat_ofNat_of_lt' (by simp [UInt64.size]; omega),
    Nat.shiftLeft_eq, Nat.mod_eq_of_lt (by omega)]

/-- **At an entry of a table in its place computing is exact.** -/
theorem Placed.exact {cursor : Cursor} (h : Placed (cursor.level + 1) cursor.base)
    (hnext : cursor.next < entriesPerTable) : cursor.Exact := by
  have hlevel : cursor.level ≤ 2 := Nat.le_of_succ_le_succ h.levels_le
  have hspan := levelSpan_toNat (show cursor.level ≤ 5 by omega)
  have hpos : 0 < 2 ^ levelShift cursor.level := Nat.two_pow_pos _
  have hlimit := (h.inner hnext).limit_le
  have hspanLast := levelSpan_sub_one_toNat (show cursor.level ≤ 5 by omega)
  have hnumber : cursor.next &&& levelMask = cursor.next :=
    (Nat.and_two_pow_sub_one_eq_mod cursor.next 9).trans (Nat.mod_eq_of_lt hnext)
  refine ⟨levelShift_lt (by omega), toNat_shifted hlevel (by decide), ?_, hspan, by omega,
    h.toNat_start hnext, VAddr.toNat_plus (by omega)⟩
  rw [hnumber]
  exact toNat_shifted hlevel hnext

/-! ## 3. Mappings of a walk -/

namespace Walk

variable {root : PAddr}

/-- The next entry of an open table is computed with exactly. -/
theorem exact_of_opened {cursor : Cursor} {outer : List Cursor} (h : Opened root (cursor :: outer))
    (hnext : cursor.next < entriesPerTable) : cursor.Exact :=
  (nested_of_opened h).1.placed.exact hnext

/-- **A mapping lies within the bounds**, whatever the entry holds. -/
theorem bounded_of_step {target : Target} {cursors rest : List Cursor} {mapping : Mapping}
    (h : Opened root cursors) (hstep : Step target cursors (some (.ok mapping)) rest) :
    mapping.range.Bounded := by
  cases hstep with
  | maps cursor outer hnext physical flags hkind =>
    have hplaced := (nested_of_opened h).1.placed
    obtain ⟨hstart, hlast⟩ := hplaced.mapping hnext physical flags
    have hlimit := (hplaced.inner hnext).limit_le
    rw [hplaced.toNat_start hnext] at hlimit
    have hpos : 0 < 2 ^ levelShift cursor.level := Nat.two_pow_pos _
    have haddress : physical.bits.toNat =
        wordAddress cursor.table.entries[cursor.next].bits.toNat := by
      rw [← (Entry.kind_eq_leaf.mp hkind).2.1, Entry.toNat_address]
    rw [wordAddress] at haddress
    refine ⟨?_, ?_, ?_, ?_⟩
    · show (cursor.mapping physical flags).start.bits.toNat ≤
        (cursor.mapping physical flags).last.bits.toNat
      omega
    · show (cursor.mapping physical flags).last.bits.toNat < 2 ^ 39
      omega
    · show physical.bits.toNat < 2 ^ 56
      omega
    · show physical.bits.toNat % 4096 = 0
      omega

theorem Runs.bounded {target : Target} {count : Nat} {walk : Walk} {mapping : Mapping}
    {item : Option (Except Fault Mapping)} {rest : List Cursor}
    (hruns : Runs target count walk item rest) (h : Within root walk)
    (hitem : item = some (.ok mapping)) : mapping.range.Bounded := by
  induction hruns with
  | unreadable => cases hitem
  | starts hread _ ih =>
    obtain rfl := h
    exact ih (.root hread) hitem
  | ends => cases hitem
  | gives hstep =>
    cases hitem
    exact bounded_of_step h hstep
  | quiet hstep _ ih => exact ih (.step h hstep) hitem

/-- **One pull of a walk**: only tables that the walk can come to are open after it, and its
    mapping lies within the bounds. -/
theorem pull_within {walk rest : Walk} {target : Target} {seen : Array Event}
    {item : Option (Except Fault Mapping)} (h : Within root walk)
    (hpull : Traversal.pull target walk = ⟨seen, item, rest⟩) :
    Within root rest ∧ ∀ mapping, item = some (.ok mapping) → mapping.range.Bounded := by
  obtain ⟨count, cursors, -, hruns, hrest⟩ := runs_pull target walk
  rw [show pull target walk = ⟨seen, item, rest⟩ from hpull] at hruns hrest
  obtain rfl : rest = .inside cursors := hrest
  exact ⟨hruns.opened h, fun mapping hitem => hruns.bounded h hitem⟩

end Walk

/-! ## 4. What a joining holds back -/

namespace Joining

variable {σ : Type} [Traversal σ Mapping]

/-- **The stages of a joining**: what is left of its source, and the range held back, with a kernel
    of its own at each pull of the source. -/
inductive Stage (source : σ) : σ → Option Range → Prop where
  /-- Nothing has been read. -/
  | start : Stage source source none
  /-- The source gave a fault, or nothing more. -/
  | drops {target : Target} {before rest : σ} {held : Option Range} {seen : Array Event}
      {item : Option (Except Fault Mapping)} (h : Stage source before held)
      (hpull : Traversal.pull target before = ⟨seen, item, rest⟩)
      (hitem : ∀ mapping, item ≠ some (.ok mapping)) : Stage source rest none
  /-- A mapping is held back; a range that was before it is given. -/
  | takes {target : Target} {before rest : σ} {held : Option Range} {seen : Array Event}
      {mapping : Mapping} (h : Stage source before held)
      (hpull : Traversal.pull target before = ⟨seen, some (.ok mapping), rest⟩)
      (hheld : ∀ range ∈ held, range.join? mapping.range = none) :
      Stage source rest (some mapping.range)
  /-- A mapping goes on from the range held back. -/
  | joins {target : Target} {before rest : σ} {range joined : Range} {seen : Array Event}
      {mapping : Mapping} (h : Stage source before (some range))
      (hpull : Traversal.pull target before = ⟨seen, some (.ok mapping), rest⟩)
      (hjoin : range.join? mapping.range = some joined) : Stage source rest (some joined)

/-- **A pull of a joining leads from stage to stage**, and what it gives was held back at one. -/
theorem stage_gather (target : Target) (events : Array Event) {start source : σ}
    {held : Option Range} (h : Stage start source held) :
    Stage start (gather target events held source).rest.source
        (gather target events held source).rest.held ∧
      ∀ range, (gather target events held source).item = some (.ok range) →
        ∃ between, Stage start between (some range) := by
  fun_induction gather target events held source with
  | case1 events held source seen rest hpull =>
    have hnext : Stage start rest none := h.drops hpull fun mapping hitem => by cases hitem
    refine ⟨hnext, fun range hrange => ⟨source, ?_⟩⟩
    cases held with
    | none => cases hrange
    | some other =>
      cases hrange
      exact h
  | case2 events held source seen fault rest hpull =>
    have hnext : Stage start rest none := h.drops hpull fun mapping hitem => by cases hitem
    refine ⟨hnext, fun range hrange => ?_⟩
    cases hrange
  | case3 events source seen mapping rest hpull ih =>
    exact ih (h.takes hpull fun range hrange => by cases hrange)
  | case4 events source seen mapping rest hpull range joined hjoin ih =>
    exact ih (h.joins hpull hjoin)
  | case5 events source seen mapping rest hpull range hjoin =>
    have hnext : Stage start rest (some mapping.range) := h.takes hpull fun other hother => by
      cases hother
      exact hjoin
    refine ⟨hnext, fun other hother => ⟨source, ?_⟩⟩
    cases hother
    exact h

/-- Pulls of a joining only come to its stages, and give ranges that were held back. -/
theorem stage_pulls (source : σ) (targets : List Target) :
    Stage source (Traversal.after targets (Joining.of source)).source
        (Traversal.after targets (Joining.of source)).held ∧
      ∀ range, some (.ok range) ∈ Traversal.pulls targets (Joining.of source) →
        ∃ between, Stage source between (some range) :=
  Traversal.pulls_keep (fun joining : Joining σ => Stage source joining.source joining.held)
    (fun range => ∃ between, Stage source between (some range))
    (fun target _ h => (stage_gather target #[] h).1)
    (fun target _ range h hitem => (stage_gather target #[] h).2 range hitem) targets .start

/-- **At every stage of a dump the range held back is bounded.** -/
theorem bounded_of_stage {root : PAddr} {walk : Walk} {held : Option Range}
    (h : Stage (Walk.unread root) walk held) :
    Walk.Within root walk ∧ ∀ range ∈ held, range.Bounded := by
  -- the bounds of a range do not depend on how many mappings it has taken in
  induction h with
  | start => exact ⟨rfl, nofun⟩
  | drops _ hpull _ ih =>
    obtain ⟨hwithin, -⟩ := Walk.pull_within ih.1 hpull
    exact ⟨hwithin, nofun⟩
  | takes _ hpull _ ih =>
    obtain ⟨hwithin, hbounded⟩ := Walk.pull_within ih.1 hpull
    refine ⟨hwithin, fun range hrange => ?_⟩
    cases hrange
    exact hbounded _ rfl
  | joins _ hpull hjoin ih =>
    obtain ⟨hwithin, hbounded⟩ := Walk.pull_within ih.1 hpull
    obtain ⟨hgoes, rfl⟩ := Range.join?_eq_some hjoin
    refine ⟨hwithin, fun range hrange => ?_⟩
    cases hrange
    exact Range.bounded_joined (ih.2 _ rfl) hgoes (hbounded _ rfl)

end Joining

/-! ## 5. The dump -/

namespace Walk

/-- **The page dump computes exactly**, whatever the paging register and the memory hold and however
    the kernel changes between the pulls. Page numbers are shifted without loss; at every entry of
    every table that is opened the addresses are the sums they stand for; every range held back, at
    every stage of the joining, is bounded and computed with exactly, so that the addresses behind
    it are addresses. So are the mappings and the ranges that the pulls give. -/
theorem dump_exact (satp : Satp) :
    satp.root.bits.toNat = satp.pageNumber.toNat * 2 ^ pageShift ∧
    (∀ entry : Entry, entry.address.bits.toNat = entry.pageNumber.toNat * 2 ^ pageShift) ∧
    (∀ cursor outer, Opened satp.root (cursor :: outer) → cursor.next < entriesPerTable →
      cursor.Exact) ∧
    (∀ walk range, Joining.Stage (Walk.unread satp.root) walk (some range) →
      range.Bounded ∧ range.Exact) ∧
    ∀ targets : List Target,
      (∀ mapping, some (.ok mapping) ∈ Traversal.pulls targets (Walk.unread satp.root) →
        mapping.range.Bounded) ∧
      Joining.Stage (Walk.unread satp.root)
        (Traversal.after targets (Joining.of (Walk.unread satp.root))).source
        (Traversal.after targets (Joining.of (Walk.unread satp.root))).held ∧
      ∀ range, some (.ok range) ∈
          Traversal.pulls targets (Joining.of (Walk.unread satp.root)) →
        range.Bounded ∧ range.Exact ∧ range.span.toNat ≤ 2 ^ 39 ∧
          range.physical.bits.toNat + range.span.toNat ≤ 2 ^ 56 + 2 ^ 39 := by
  have hstages : ∀ walk range, Joining.Stage (Walk.unread satp.root) walk (some range) →
      range.Bounded := fun walk range h => (Joining.bounded_of_stage h).2 range rfl
  refine ⟨PAddr.toNat_ofPageNumber _, fun entry => PAddr.toNat_ofPageNumber _,
    fun cursor outer h hnext => exact_of_opened h hnext,
    fun walk range h => ⟨hstages walk range h, (hstages walk range h).exact⟩,
    fun targets => ⟨?_, ?_, fun range hrange => ?_⟩⟩
  · have hwithin : Within satp.root (.unread satp.root) := rfl
    exact (Traversal.pulls_keep (Within satp.root) (fun mapping => mapping.range.Bounded)
      (fun target _ h => (pull_within h rfl).1)
      (fun target _ mapping h hitem => (pull_within h rfl).2 mapping hitem) targets hwithin).2
  · exact (Joining.stage_pulls _ targets).1
  · obtain ⟨walk, hstage⟩ := (Joining.stage_pulls _ targets).2 range hrange
    have hbounded := hstages walk range hstage
    exact ⟨hbounded, hbounded.exact, hbounded.span_le, hbounded.physical_add_span_le⟩

/-- A kernel in which every page is the same table: its first entry is a leaf with the greatest page
    number that there is, and the others are not valid. -/
def brimful : Target :=
  .ofTables fun _ index => if index = 0 then 0x3FFFFFFFFFFC0F else 0

/-- What the first entry of the root maps there. -/
def lastPages : Mapping :=
  ⟨⟨0⟩, ⟨0x3FFFFFFF⟩, ⟨0xFFFFFFFFFFF000⟩, ⟨0x0F⟩⟩

/-- The first pull of a walk there. -/
theorem pull_brimful (root : PAddr) :
    ∃ seen rest, Traversal.pull brimful (Walk.unread root) =
      ⟨seen, some (.ok lastPages), rest⟩ := by
  obtain ⟨table, hread, hentries⟩ := read_ofTables
    (fun _ index => if index = 0 then 0x3FFFFFFFFFFC0F else 0) root
  have hentry : table.entries[0] = ⟨0x3FFFFFFFFFFC0F⟩ := hentries ⟨0, by decide⟩
  have hstep : step brimful [.atStart table (tableLevels - 1) ⟨0⟩] =
      some ⟨note table 2 0 ⟨0x3FFFFFFFFFFC0F⟩, some (.ok lastPages), [⟨table, 2, 1, ⟨0⟩⟩]⟩ := by
    rw [Cursor.atStart, step, dif_pos (by decide)]
    dsimp only
    rw [hentry]
    rfl
  refine ⟨#[.tableRead root] ++ note table 2 0 ⟨0x3FFFFFFFFFFC0F⟩, .inside [⟨table, 2, 1, ⟨0⟩⟩], ?_⟩
  show pull brimful (.unread root) = _
  rw [pull, show Table.read brimful root = .ok table from hread]
  exact advance_of_item hstep

/-- The last pages begin below bit 56 and end above it, and nothing is cut. -/
theorem dump_exact_brimful :
    some (.ok lastPages) ∈ Traversal.pulls [brimful] (Walk.unread (Satp.mk 0).root) ∧
      lastPages.range.Bounded ∧
      (∃ rest, Joining.Stage (Walk.unread (Satp.mk 0).root) rest (some lastPages.range)) ∧
      lastPages.range.Exact ∧
      2 ^ 56 ≤ lastPages.range.physical.bits.toNat + lastPages.range.span.toNat := by
  obtain ⟨-, -, -, hstages, hpulls⟩ := dump_exact ⟨0⟩
  obtain ⟨seen, rest, hpull⟩ := pull_brimful (Satp.mk 0).root
  have hmem : some (.ok lastPages) ∈ Traversal.pulls [brimful] (Walk.unread (Satp.mk 0).root) :=
    List.mem_singleton.mpr (congrArg Pull.item hpull).symm
  have hstage : Joining.Stage (Walk.unread (Satp.mk 0).root) rest (some lastPages.range) :=
    .takes .start hpull nofun
  exact ⟨hmem, (hpulls [brimful]).1 lastPages hmem, ⟨rest, hstage⟩, (hstages rest _ hstage).2,
    by decide⟩

end Walk

end KernelProbe
