import KernelProbe.Proofs.Allocator.Slots
import KernelProbe.Proofs.Image.Samples
import Mathlib.Algebra.Order.BigOperators.Group.List
import Mathlib.Algebra.Order.Ring.Nat

/-!
# The totals of a report

The sums of a report are sums of machine words. Where the chains of all slots are whole and the
totals in natural numbers still are words, no sum on the way is cut: the blocks of one size are no
more than the bytes that they take, and those no more than the total. The report then says of each
size with descriptors how many blocks and pages are in use, and of all of them together how many
bytes and pages; a slot without descriptors has no entry, but its size is passed over all the same.

* `Tally` -- what is in use of one size, in natural numbers;
* `talliesOf` -- this of all slots, by the counts along their chains;
* `toNat_totalBytes`, `toNat_totalPages` -- the totals of a report, as far as they are words;
* `totals_exact` -- a survey of whole chains is exact.
-/

namespace KernelProbe

/-! ## 1. Sums of words -/

theorem toNat_sum (words : List UInt64) :
    words.sum.toNat = (words.map UInt64.toNat).sum % 2 ^ 64 := by
  induction words with
  | nil => rfl
  | cons word words ih =>
    rw [List.sum_cons, UInt64.toNat_add, ih, List.map_cons, List.sum_cons, Nat.add_mod_mod]

theorem toNat_blockSize {position : Nat} (h : position < 60) :
    (blockSize position).toNat = 2 ^ (4 + position) := by
  have hlt : 2 ^ (4 + position) < 2 ^ 64 := Nat.pow_lt_pow_right (by decide) (by omega)
  have hplace : 4 + position < 64 := by omega
  have hshift : (UInt64.ofNat (4 + position)).toNat = 4 + position :=
    UInt64.toNat_ofNat_of_lt' (Nat.lt_trans hplace (by decide))
  show (1 <<< UInt64.ofNat (4 + position) : UInt64).toNat = _
  rw [UInt64.toNat_shiftLeft, hshift, Nat.mod_eq_of_lt hplace, UInt64.toNat_one,
    Nat.one_shiftLeft, Nat.mod_eq_of_lt hlt]

/-! ## 2. What is in use, in natural numbers -/

/-- **What is in use of one size**: how many blocks, and how many pages they lie in. -/
structure Tally where
  size : Nat
  items : Nat
  pages : Nat
  deriving DecidableEq

/-- The bytes that the blocks take. -/
def Tally.bytes (tally : Tally) : Nat :=
  tally.items * tally.size

/-- What an entry of a report says. -/
def Usage.tally (usage : Usage) : Tally :=
  ⟨usage.size.toNat, usage.items.toNat, usage.pages.toNat⟩

/-- **What is in use of the size of a slot**, by the counts along its chain: the size is 16 bytes
    for the low bound and twice as much for each further index. -/
def slotTally (low index : Int) (counts : List UInt64) : Tally :=
  ⟨2 ^ (4 + (index - low).toNat), (counts.map UInt64.toNat).sum, counts.length⟩

/-- This of those among some slots that have descriptors. -/
def talliesAt (low : Int) (counts : Int → List UInt64) (indices : List Int) : List Tally :=
  (indices.filter fun index => counts index ≠ []).map fun index =>
    slotTally low index (counts index)

/-- **What is in use of all sizes**, by the index of the slot. -/
def talliesOf (low high : Int) (counts : Int → List UInt64) : List Tally :=
  talliesAt low counts (indicesFrom low (high - low + 1).toNat)

/-- What is in use of one size is given in words. -/
def Tally.Fits (tally : Tally) : Prop :=
  tally.items < 2 ^ 64 ∧ tally.pages < 2 ^ 64

variable {low high index : Int} {counts : Int → List UInt64} {position count : Nat}

theorem talliesAt_cons (low : Int) (counts : Int → List UInt64) (index : Int) (later : List Int) :
    talliesAt low counts (index :: later) = (if counts index = [] then []
      else [slotTally low index (counts index)]) ++ talliesAt low counts later := by
  unfold talliesAt
  by_cases h : counts index = [] <;> simp [h]

/-- The entry of a slot with descriptors. -/
theorem tally_plus {chain : List UInt64} (hposition : position < 60)
    (hindex : index = low + position) (hfits : (slotTally low index chain).Fits) :
    (Usage.plus ⟨blockSize position, 0, 0⟩ chain).tally = slotTally low index chain := by
  obtain ⟨hsum, hlength⟩ : (chain.map UInt64.toNat).sum < 2 ^ 64 ∧ chain.length < 2 ^ 64 := hfits
  have hoffset : (index - low).toNat = position := by omega
  have hitems : (0 + chain.sum).toNat = (chain.map UInt64.toNat).sum := by
    rw [UInt64.zero_add, toNat_sum, Nat.mod_eq_of_lt hsum]
  have hpages : (0 + UInt64.ofNat chain.length).toNat = chain.length := by
    rw [UInt64.zero_add, UInt64.toNat_ofNat_of_lt' hlength]
  rw [Usage.tally, Usage.plus, slotTally, toNat_blockSize hposition, hoffset, hitems, hpages]

/-- **The entries are what is in use**, if it is given in words. -/
theorem map_tally_usagesFrom (hposition : position + count ≤ 60) (hindex : index = low + position)
    (hfits : ∀ tally ∈ talliesAt low counts (indicesFrom index count), tally.Fits) :
    (usagesFrom position ((indicesFrom index count).map counts)).map Usage.tally =
      talliesAt low counts (indicesFrom index count) := by
  induction count generalizing position index with
  | zero => rfl
  | succ count ih =>
    rw [indicesFrom, talliesAt_cons] at hfits ⊢
    obtain ⟨hfirst, hlater⟩ := List.forall_mem_append.mp hfits
    have hrest := ih (by omega : position + 1 + count ≤ 60) (by omega) hlater
    rw [List.map_cons, usagesFrom, List.map_append, hrest, usageAt]
    by_cases hnil : counts index = []
    · simp [hnil]
    · rw [if_neg hnil] at hfirst ⊢
      have hentry := tally_plus (by omega) hindex (hfirst _ List.mem_cons_self)
      rw [if_neg hnil, Option.toList_some, List.map_cons, List.map_nil, hentry]

theorem pairwise_indicesFrom (index : Int) (count : Nat) :
    (indicesFrom index count).Pairwise (· < ·) := by
  induction count generalizing index with
  | zero => exact .nil
  | succ count ih =>
    refine List.pairwise_cons.mpr ⟨fun other hother => ?_, ih (index + 1)⟩
    have hbounds := mem_indicesFrom.mp hother
    omega

/-- The sizes ascend. -/
theorem pairwise_talliesOf (low high : Int) (counts : Int → List UInt64) :
    (talliesOf low high counts).Pairwise fun earlier later => earlier.size < later.size := by
  rw [talliesOf, talliesAt, List.pairwise_map]
  refine ((pairwise_indicesFrom _ _).filter _).imp_of_mem fun {earlier later} hearlier _ hlt => ?_
  have hbounds := mem_indicesFrom.mp (List.mem_of_mem_filter hearlier)
  exact Nat.pow_lt_pow_right (by decide) (by omega)

/-- What is in use is given in words if the totals are words. -/
theorem fits_of_totals {tallies : List Tally} (hsize : ∀ tally ∈ tallies, 1 ≤ tally.size)
    (hbytes : (tallies.map Tally.bytes).sum < 2 ^ 64)
    (hpages : (tallies.map Tally.pages).sum < 2 ^ 64) : ∀ tally ∈ tallies, tally.Fits := by
  intro tally htally
  have hitems : tally.items ≤ tally.bytes := Nat.le_mul_of_pos_right _ (hsize tally htally)
  have hbyte := List.le_sum_of_mem (List.mem_map_of_mem (f := Tally.bytes) htally)
  have hpage := List.le_sum_of_mem (List.mem_map_of_mem (f := Tally.pages) htally)
  exact ⟨by omega, by omega⟩

/-! ## 3. The totals of a report -/

theorem usages_foldl (usages : List Usage) (report : Report) :
    (usages.foldl Report.add report).usages = report.usages ++ usages := by
  induction usages generalizing report with
  | nil => rw [List.foldl_nil, List.append_nil]
  | cons usage usages ih => rw [List.foldl_cons, ih, Report.add, List.append_assoc]; rfl

theorem toNat_totalBytes (usages : List Usage) (report : Report) :
    (usages.foldl Report.add report).totalBytes.toNat =
      (report.totalBytes.toNat + ((usages.map Usage.tally).map Tally.bytes).sum) % 2 ^ 64 := by
  induction usages generalizing report with
  | nil => exact (Nat.mod_eq_of_lt report.totalBytes.toNat_lt).symm
  | cons usage usages ih =>
    rw [List.foldl_cons, ih]
    simp only [Report.add, UInt64.toNat_add, UInt64.toNat_mul, List.map_cons, List.sum_cons]
    simp only [Tally.bytes, Usage.tally]
    omega

theorem toNat_totalPages (usages : List Usage) (report : Report) :
    (usages.foldl Report.add report).totalPages.toNat =
      (report.totalPages.toNat + ((usages.map Usage.tally).map Tally.pages).sum) % 2 ^ 64 := by
  induction usages generalizing report with
  | nil => exact (Nat.mod_eq_of_lt report.totalPages.toNat_lt).symm
  | cons usage usages ih =>
    rw [List.foldl_cons, ih]
    simp only [Report.add, UInt64.toNat_add, List.map_cons, List.sum_cons, Usage.tally]
    omega

/-! ## 4. A survey of whole chains -/

/-- **A survey of whole chains is exact.** Let the directory be an array of at most 60 slots. Each
    slot is a pointer to the first descriptor of a chain, or null: within the limit there is a null
    pointer, and all descriptors before it can be read. Let the bytes and the pages in use, in
    natural numbers, be less than `2 ^ 64` each. Then the survey gives a report. It has an entry for
    each slot that has a descriptor, in the order of the slots, whose size is 16 bytes for the low
    bound and doubles with every index, those of null slots included; and the entry says how many
    blocks the descriptors of the chain count together, and how many descriptors there are, which is
    one at least. The totals are the bytes and the pages of all entries. -/
theorem totals_exact {target : Target} {config : Config} {directory : Value} {element : String}
    (hdirectory : target.evaluate config.bucketDirectorySymbol = .ok directory)
    (harray : directory.layout.kind = .array element low high) (hsixty : high - low + 1 ≤ 60)
    (hslots : ∀ index, low ≤ index → index ≤ high →
      SlotChain target config.maxChainNodes directory index (counts index))
    (hbytes : ((talliesOf low high counts).map Tally.bytes).sum < 2 ^ 64)
    (hpages : ((talliesOf low high counts).map Tally.pages).sum < 2 ^ 64) :
    ∃ report, surveyAllocator target config = .ok report ∧
      report.usages.map Usage.tally = talliesOf low high counts ∧
      (report.usages.Pairwise fun earlier later => earlier.size < later.size) ∧
      (∀ usage ∈ report.usages, 1 ≤ usage.pages) ∧
      report.totalBytes.toNat = ((talliesOf low high counts).map Tally.bytes).sum ∧
      report.totalPages.toNat = ((talliesOf low high counts).map Tally.pages).sum := by
  have hsize : ∀ tally ∈ talliesOf low high counts, 1 ≤ tally.size ∧ 1 ≤ tally.pages := by
    intro tally htally
    obtain ⟨index, hindex, rfl⟩ := List.mem_map.mp htally
    have hne : counts index ≠ [] := by simpa using List.of_mem_filter hindex
    exact ⟨Nat.one_le_two_pow, List.length_pos_of_ne_nil hne⟩
  have hfits := fits_of_totals (fun tally htally => (hsize tally htally).1) hbytes hpages
  have hentries : (usagesFrom 0 ((indicesFrom low (high - low + 1).toNat).map counts)).map
      Usage.tally = talliesOf low high counts :=
    map_tally_usagesFrom (by omega) (by omega) hfits
  have hreport : surveyAllocator target config =
      .ok ((usagesFrom 0 ((indicesFrom low (high - low + 1).toNat).map counts)).foldl
        Report.add .empty) := by
    refine (surveyAllocator_eq_ok hdirectory harray).mpr ⟨_, ?_, rfl⟩
    rw [List.map_map]
    refine List.map_congr_left fun index hindex => ?_
    have hbounds := mem_indicesFrom.mp hindex
    exact slotCounts_eq_ok.mpr (hslots index (by omega) (by omega))
  refine ⟨_, hreport, ?_⟩
  rw [usages_foldl, toNat_totalBytes, toNat_totalPages, hentries]
  have hempty : Report.empty.usages = [] := rfl
  rw [hempty, List.nil_append]
  refine ⟨hentries, ?_, ?_, ?_, ?_⟩
  · have hsizes := pairwise_talliesOf low high counts
    rw [← hentries, List.pairwise_map] at hsizes
    exact hsizes.imp fun {earlier later} hlt => UInt64.lt_iff_toNat_lt.mpr hlt
  · intro usage husage
    have hmem := List.mem_map_of_mem (f := Usage.tally) husage
    rw [hentries] at hmem
    exact UInt64.le_iff_toNat_le.mpr (hsize _ hmem).2
  · exact (Nat.mod_eq_of_lt (by simpa [Report.empty] using hbytes)).trans (Nat.zero_add _)
  · exact (Nat.mod_eq_of_lt (by simpa [Report.empty] using hpages)).trans (Nat.zero_add _)

/-! ## 5. A directory from index -1 on -/

/-- The teaching kernel with a directory of four slots, from index -1 to index 2. The first slot has
    a chain of two descriptors and the third slot one descriptor; the others are null. -/
def stocked : Target :=
  Image.view { Image.kernel with
    layouts := ("struct bucket_desc *[4]", .array "struct bucket_desc *[4]" "struct bucket_desc *"
      8 (-1) 2) :: Image.kernel.layouts
    symbols := [("bucket_dir", ⟨0x1000, "struct bucket_desc *[4]"⟩)]
    memory := ⟨[
      wordsAt 0x1000 [0x2000, 0, 0x4000, 0], wordsAt 0x2000 [0x3000, 0, 0, 3],
      wordsAt 0x3000 [0, 0, 0, 5], wordsAt 0x4000 [0, 0, 0, 2]]⟩ }

/-- The counts along the chains of this kernel. -/
def stockedCounts (index : Int) : List UInt64 :=
  if index = -1 then [3, 5] else if index = 1 then [2] else []

/-- The first chain is as long as the limit allows. The null slot at index 0 takes up the size of 32
    bytes, so that the descriptor at index 1 is one of blocks of 64 bytes. -/
theorem totals_exact_stocked :
    ∃ directory, stocked.evaluate shortChains.bucketDirectorySymbol = .ok directory ∧
      (∀ index, -1 ≤ index → index ≤ 2 →
        SlotChain stocked shortChains.maxChainNodes directory index (stockedCounts index)) ∧
      ∃ report, surveyAllocator stocked shortChains = .ok report ∧
        report.usages.map Usage.tally = [⟨16, 8, 2⟩, ⟨64, 2, 1⟩] ∧
        report.totalBytes.toNat = 256 ∧ report.totalPages.toNat = 3 := by
  have hdirectory : stocked.evaluate shortChains.bucketDirectorySymbol = .ok ⟨0x1000,
      .array "struct bucket_desc *[4]" "struct bucket_desc *" 8 (-1) 2⟩ :=
    rfl
  have hslots : ∀ index : Int, -1 ≤ index → index ≤ 2 →
      SlotChain stocked shortChains.maxChainNodes ⟨0x1000,
        .array "struct bucket_desc *[4]" "struct bucket_desc *" 8 (-1) 2⟩ index
        (stockedCounts index) := by
    intro index hlow hhigh
    obtain rfl | rfl | rfl | rfl : index = -1 ∨ index = 0 ∨ index = 1 ∨ index = 2 := by omega
    all_goals exact slotCounts_eq_ok.mp rfl
  obtain ⟨report, hreport, hentries, -, -, hbytes, hpages⟩ :=
    totals_exact hdirectory rfl (by decide) hslots
      (by decide) (by decide)
  exact ⟨_, hdirectory, hslots, report, hreport, hentries.trans (by decide),
    hbytes.trans (by decide), hpages.trans (by decide)⟩

end KernelProbe
