import KernelProbe.Proofs.Allocator.Slots
import KernelProbe.Proofs.Image.Samples

/-!
# The first fault of a survey

Memory may hold any chain: one that leads nowhere, one that ends in the middle, one that comes back
to a descriptor it has met. A survey reads no more descriptors of a slot than the limit says, and
comes to an end. It gives a report only if every slot has a whole chain; else it gives the fault
that comes first, by the order of the slots and in each slot by the order of the chain.

A chain that is too long is one of these faults, and the only one of its kind: behind as many
descriptors as the limit there is a pointer that leads to one more. So a chain of exactly the limit
is no fault, and a chain that comes back to one of its descriptors has this fault at every limit.

* `surveyNoted` -- a survey with the descriptors that it reads;
* `ReadsChain`, `ReadsSlots` -- how many these are;
* `Overlong`, `Circles` -- chains without an end within the limit;
* `slotFails_tooLong` -- the fault of a chain that is too long;
* `survey_first_fault` -- what a survey gives, whatever the chains are.
-/

namespace KernelProbe

variable {target : Target} {config : Config} {directory slot : Value} {limit : Nat}
  {low high index : Int} {head : UInt64}

/-! ## 1. The descriptors that a survey reads -/

/-- What a survey reads of a descriptor: the count of blocks in use, and where the chain goes on. -/
def readDescriptor (target : Target) (descriptor : Value) :
    Except Fault (UInt64 × Option Value) := do
  let items ← descriptor.fieldWord target "refcnt"
  return (items, ← (← descriptor.field target "next").follow target)

/-- What a survey reads of a slot: the pointer, and where it leads. -/
def readSlot (target : Target) (directory : Value) (index : Int) :
    Except Fault (Value × Option Value) := do
  let slot ← directory.index target index
  return (slot, ← slot.follow target)

/-- The survey of a chain, with the descriptors that it reads. -/
def surveyChainNoted (target : Target) (slot : Value) (limit : Nat) :
    (left : Nat) → Option Value → Usage → List Value × Except Fault Usage
  | left, none, usage => ([], surveyChain target slot limit left none usage)
  | 0, some descriptor, usage => ([], surveyChain target slot limit 0 (some descriptor) usage)
  | left + 1, some descriptor, usage =>
    match readDescriptor target descriptor with
    | .error fault => ([descriptor], .error fault)
    | .ok (items, next) =>
      (surveyChainNoted target slot limit left next
        { usage with items := usage.items + items, pages := usage.pages + 1 }).map
          (descriptor :: ·) id

/-- The survey of the slots, with the descriptors that it reads of each. -/
def surveySlotsNoted (target : Target) (limit : Nat) (directory : Value) :
    (count : Nat) → (position : Nat) → (index : Int) → Report →
      List (List Value) × Except Fault Report
  | 0, _, _, report => ([], .ok report)
  | count + 1, position, index, report =>
    match readSlot target directory index with
    | .error fault => ([[]], .error fault)
    | .ok (_, none) =>
      (surveySlotsNoted target limit directory count (position + 1) (index + 1) report).map
        ([] :: ·) id
    | .ok (slot, some first) =>
      match surveyChainNoted target slot limit limit (some first) ⟨blockSize position, 0, 0⟩ with
      | (read, .error fault) => ([read], .error fault)
      | (read, .ok usage) =>
        (surveySlotsNoted target limit directory count (position + 1) (index + 1)
          (report.add usage)).map (read :: ·) id

/-- **A survey, with the descriptors that it reads** of each slot that it comes to. -/
def surveyNoted (target : Target) (config : Config) : List (List Value) × Except Fault Report :=
  match target.evaluate config.bucketDirectorySymbol with
  | .error fault => ([], .error fault)
  | .ok directory =>
    match directory.layout.range with
    | .error fault => ([], .error fault)
    | .ok (low, high) =>
      surveySlotsNoted target config.maxChainNodes directory (high - low + 1).toNat 0 low .empty

theorem surveyChain_succ (left : Nat) (descriptor : Value) (usage : Usage) :
    surveyChain target slot limit (left + 1) (some descriptor) usage =
      readDescriptor target descriptor >>= fun (items, next) =>
        surveyChain target slot limit left next
          { usage with items := usage.items + items, pages := usage.pages + 1 } := by
  simp only [surveyChain, readDescriptor, bind_assoc, pure_bind]

theorem surveySlots_read (count position : Nat) (report : Report) :
    surveySlots target limit directory (count + 1) position index report =
      readSlot target directory index >>= fun (slot, first) =>
        match first with
        | none => surveySlots target limit directory count (position + 1) (index + 1) report
        | some first =>
          surveyChain target slot limit limit (some first) ⟨blockSize position, 0, 0⟩ >>=
            fun usage => surveySlots target limit directory count (position + 1) (index + 1)
              (report.add usage) := by
  rw [surveySlots, readSlot]
  cases directory.index target index with
  | error fault => rfl
  | ok slot =>
    show (slot.follow target >>= fun first => _) = (slot.follow target >>= fun first => _) >>= _
    cases slot.follow target with
    | error fault => rfl
    | ok first => cases first <;> rfl

/-- What is noted by the way changes nothing. -/
theorem surveyChainNoted_snd (target : Target) (slot : Value) (limit left : Nat)
    (first : Option Value) (usage : Usage) :
    (surveyChainNoted target slot limit left first usage).2 =
      surveyChain target slot limit left first usage := by
  induction left generalizing first usage with
  | zero => cases first <;> rfl
  | succ left ih =>
    cases first with
    | none => rfl
    | some descriptor =>
      rw [surveyChainNoted, surveyChain_succ]
      cases readDescriptor target descriptor with
      | error fault => rfl
      | ok read => exact ih read.2 _

theorem surveySlotsNoted_snd (count position : Nat) (index : Int) (report : Report) :
    (surveySlotsNoted target limit directory count position index report).2 =
      surveySlots target limit directory count position index report := by
  induction count generalizing position index report with
  | zero => rfl
  | succ count ih =>
    rw [surveySlotsNoted, surveySlots_read]
    match readSlot target directory index with
    | .error fault => rfl
    | .ok (slot, none) => exact ih (position + 1) (index + 1) report
    | .ok (slot, some first) =>
      have hchain := surveyChainNoted_snd target slot limit limit (some first)
        ⟨blockSize position, 0, 0⟩
      show Prod.snd (match surveyChainNoted target slot limit limit (some first) _ with
        | (read, .error fault) => _ | (read, .ok usage) => _) = surveyChain _ _ _ _ _ _ >>= _
      rw [← hchain]
      match surveyChainNoted target slot limit limit (some first) ⟨blockSize position, 0, 0⟩ with
      | (read, .error fault) => rfl
      | (read, .ok usage) => exact ih (position + 1) (index + 1) (report.add usage)

theorem surveyNoted_snd (target : Target) (config : Config) :
    (surveyNoted target config).2 = surveyAllocator target config := by
  unfold surveyNoted surveyAllocator
  cases target.evaluate config.bucketDirectorySymbol with
  | error fault => rfl
  | ok directory =>
    show Prod.snd (match directory.layout.range with
      | .error fault => _ | .ok (low, high) => _) = directory.layout.range >>= fun bounds => _
    cases directory.layout.range with
    | error fault => rfl
    | ok bounds => exact surveySlotsNoted_snd _ 0 bounds.1 .empty

/-- **What a survey reads of a chain**: no more descriptors than are left over. Each one that is
    counted as a page has been read. -/
structure ReadsChain (left : Nat) (usage : Usage) (noted : List Value × Except Fault Usage) :
    Prop where
  bounded : noted.1.length ≤ left
  pages (sums : Usage) (h : noted.2 = .ok sums) :
    sums.pages = usage.pages + .ofNat noted.1.length

/-- **What a survey reads of the slots**: each of them once at the most, and of each no more
    descriptors than the limit says. Each one that is counted as a page has been read. -/
structure ReadsSlots (limit count : Nat) (report : Report)
    (noted : List (List Value) × Except Fault Report) : Prop where
  slots : noted.1.length ≤ count
  bounded : ∀ read ∈ noted.1, read.length ≤ limit
  pages (total : Report) (h : noted.2 = .ok total) :
    total.totalPages = report.totalPages + .ofNat noted.1.flatten.length

theorem readsChain_surveyChainNoted (target : Target) (slot : Value) (limit left : Nat)
    (first : Option Value) (usage : Usage) :
    ReadsChain left usage (surveyChainNoted target slot limit left first usage) := by
  induction left generalizing first usage with
  | zero =>
    refine ⟨by cases first <;> exact Nat.zero_le 0, fun sums h => ?_⟩
    cases first with
    | none =>
      cases h
      exact (UInt64.add_zero _).symm
    | some descriptor =>
      -- The descriptor that is one too many is not read, and there are no sums.
      obtain ⟨head, -, h⟩ := bind_eq_ok.mp h
      cases h
  | succ left ih =>
    cases first with
    | none =>
      refine ⟨Nat.zero_le _, fun sums h => ?_⟩
      cases h
      exact (UInt64.add_zero _).symm
    | some descriptor =>
      rw [surveyChainNoted]
      cases readDescriptor target descriptor with
      | error fault =>
        refine ⟨Nat.succ_le_succ (Nat.zero_le left), fun sums h => ?_⟩
        cases h
      | ok read =>
        obtain ⟨hbounded, hpages⟩ := ih read.2
          { usage with items := usage.items + read.1, pages := usage.pages + 1 }
        refine ⟨Nat.succ_le_succ hbounded, fun sums h => (hpages sums h).trans ?_⟩
        rw [UInt64.add_assoc, ← UInt64.ofNat_one, ← UInt64.ofNat_add, Nat.add_comm]
        rfl

theorem ReadsSlots.cons {count : Nat} {report next : Report} {read : List Value}
    {noted : List (List Value) × Except Fault Report} (hread : read.length ≤ limit)
    (hpages : next.totalPages = report.totalPages + .ofNat read.length)
    (h : ReadsSlots limit count next noted) :
    ReadsSlots limit (count + 1) report (noted.map (read :: ·) id) where
  slots := Nat.succ_le_succ h.slots
  bounded := List.forall_mem_cons.mpr ⟨hread, h.bounded⟩
  pages total htotal := by
    rw [h.pages total htotal, hpages, UInt64.add_assoc, ← UInt64.ofNat_add, ← List.length_append]
    rfl

theorem readsSlots_surveySlotsNoted (count position : Nat) (index : Int) (report : Report) :
    ReadsSlots limit count report
      (surveySlotsNoted target limit directory count position index report) := by
  induction count generalizing position index report with
  | zero =>
    refine ⟨Nat.le_refl 0, List.forall_mem_nil _, fun total h => ?_⟩
    cases h
    exact (UInt64.add_zero _).symm
  | succ count ih =>
    have hstop : ∀ read : List Value, ∀ fault, read.length ≤ limit →
        ReadsSlots limit (count + 1) report ([read], .error fault) := fun read fault hread =>
      ⟨Nat.succ_le_succ (Nat.zero_le count), List.forall_mem_singleton.mpr hread,
        fun total h => by cases h⟩
    rw [surveySlotsNoted]
    match readSlot target directory index with
    | .error fault => exact hstop [] fault (Nat.zero_le limit)
    | .ok (slot, none) =>
      exact (ih (position + 1) (index + 1) report).cons (Nat.zero_le limit)
        (UInt64.add_zero _).symm
    | .ok (slot, some first) =>
      have hchain := readsChain_surveyChainNoted target slot limit limit (some first)
        ⟨blockSize position, 0, 0⟩
      dsimp only
      match surveyChainNoted target slot limit limit (some first) ⟨blockSize position, 0, 0⟩,
        hchain with
      | (read, .error fault), hchain => exact hstop read fault hchain.bounded
      | (read, .ok usage), hchain =>
        have hpages := hchain.pages usage rfl
        refine (ih (position + 1) (index + 1) (report.add usage)).cons hchain.bounded ?_
        rw [Report.add, hpages, UInt64.zero_add]

/-! ## 2. Chains that are too long -/

/-- **A chain that is too long**: behind as many descriptors as the limit there is a pointer that
    leads to one more. -/
def Overlong (target : Target) (limit : Nat) (slot : Value) : Prop :=
  ∃ (counts : List UInt64) (last descriptor : Value), ChainTo target slot counts last ∧
    counts.length = limit ∧ last.LeadsTo target descriptor

/-- **A chain that comes back** to a descriptor that it has met. Along the way some descriptors may
    come before those that come again. -/
def Circles (target : Target) (slot : Value) : Prop :=
  ∃ (before round : List UInt64) (pointer again descriptor : Value),
    ChainTo target slot before pointer ∧ pointer.LeadsTo target descriptor ∧
    round ≠ [] ∧ ChainTo target pointer round again ∧ again.LeadsTo target descriptor

/-- **The fault of a chain that is too long** comes from nothing else. -/
theorem slotFails_tooLong {told : Nat} :
    SlotFails target limit directory index (.chainTooLong head told) ↔
      told = limit ∧ ∃ slot, directory.Element target index slot ∧ slot.Contains target head ∧
        Overlong target limit slot := by
  refine ⟨fun h => ?_, fun ⟨htold, slot, hslot, hhead, counts, last, descriptor, h⟩ => ?_⟩
  · cases h with
    | element h => cases Value.ofPlace_of_index h
    | chain hslot h =>
      cases h with
      | tooLong h hlength hlast hhead => exact ⟨rfl, _, hslot, hhead, _, _, _, h, hlength, hlast⟩
      | pointer h hlength hlast => cases Value.ofPlace_of_follow hlast
      | count h hlength hlast hcount => cases Value.ofPlace_of_fieldWord hcount
      | member h hlength hlast hcount hmember => cases Value.ofPlace_of_field hmember
  · obtain ⟨h, hlength, hlast⟩ := h
    rw [htold]
    exact .chain hslot (.tooLong h hlength hlast hhead)

/-- Pointers that lead to the same descriptor have the same chain. -/
theorem ChainTo.of_leadsTo {pointer again descriptor last : Value} {counts : List UInt64}
    (h : ChainTo target pointer counts last) (hne : counts ≠ [])
    (hpointer : pointer.LeadsTo target descriptor) (hagain : again.LeadsTo target descriptor) :
    ChainTo target again counts last := by
  cases h with
  | here pointer => exact absurd rfl hne
  | on hlink h =>
    obtain rfl := hlink.leads.unique hpointer
    exact .on ⟨hagain, hlink.items, hlink.next⟩ h

/-- A chain that comes back goes round any number of times. -/
theorem ChainTo.rounds {pointer again descriptor : Value} {round : List UInt64}
    (h : ChainTo target pointer round again) (hne : round ≠ [])
    (hpointer : pointer.LeadsTo target descriptor) (hagain : again.LeadsTo target descriptor)
    (times : Nat) : ChainTo target again (List.replicate times round).flatten again := by
  induction times with
  | zero => exact .here again
  | succ times ih =>
    rw [List.replicate_succ, List.flatten_cons]
    exact (h.of_leadsTo hne hpointer hagain).append ih

/-- Where the last pointer of a chain leads on, so does the first one. -/
theorem ChainTo.leadsTo {pointer last descriptor : Value} {counts : List UInt64}
    (h : ChainTo target pointer counts last) (hlast : last.LeadsTo target descriptor) :
    ∃ first, pointer.LeadsTo target first := by
  cases h with
  | here pointer => exact ⟨descriptor, hlast⟩
  | on hlink h => exact ⟨_, hlink.leads⟩

/-- **A chain that comes back is too long** for every limit. -/
theorem Circles.overlong (h : Circles target slot) (limit : Nat) : Overlong target limit slot := by
  obtain ⟨before, round, pointer, again, descriptor, hbefore, hpointer, hne, hround, hagain⟩ := h
  have hrounds := hround.rounds hne hpointer hagain limit
  have hchain := hbefore.append (hround.append hrounds)
  have hlength : limit ≤ (before ++ (round ++ (List.replicate limit round).flatten)).length := by
    have hpos : 1 ≤ round.length := List.length_pos_iff.mpr hne
    have hflatten := Nat.le_mul_of_pos_right limit hpos
    simp only [List.length_append, List.length_flatten, List.map_replicate,
      List.sum_replicate_nat]
    omega
  -- The chain is cut behind the limit; it goes on from there, or the last pointer does.
  obtain ⟨middle, hfirst, hrest⟩ := hchain.split hlength
  obtain ⟨next, hnext⟩ := hrest.leadsTo hagain
  exact ⟨_, middle, next, hfirst, List.length_take_of_le hlength, hnext⟩

/-! ## 3. What a survey gives -/

section

variable {element : String}
  (hdirectory : target.evaluate config.bucketDirectorySymbol = .ok directory)
  (harray : directory.layout.kind = .array element low high)
include hdirectory harray

/-- **A survey gives a report** if all slots have chains. -/
theorem surveyAllocator_isOk : (∃ report, surveyAllocator target config = .ok report) ↔
    ∀ index, low ≤ index → index ≤ high →
      ∃ counts, SlotChain target config.maxChainNodes directory index counts := by
  rw [surveyAllocator_eq hdirectory harray]
  simp only [map_eq_ok, exists_comm (α := Report), exists_and_left, exists_eq', and_true]
  rw [mapM_isOk]
  simp only [slotCounts_eq_ok, mem_indicesFrom]
  refine forall_congr' fun index =>
    ⟨fun h hlow hhigh => h ⟨hlow, ?_⟩, fun h hbounds => h hbounds.1 ?_⟩
  all_goals omega

/-- **A survey says that a chain is too long** if it is, and all slots before it have chains. -/
theorem surveyAllocator_tooLong {told : Nat} :
    surveyAllocator target config = .error (.chainTooLong head told) ↔
      told = config.maxChainNodes ∧ ∃ index slot, (low ≤ index ∧ index ≤ high) ∧
        (∀ earlier, low ≤ earlier → earlier < index →
          ∃ counts, SlotChain target config.maxChainNodes directory earlier counts) ∧
        directory.Element target index slot ∧ slot.Contains target head ∧
        Overlong target config.maxChainNodes slot := by
  rw [surveyAllocator_eq_error hdirectory harray]
  simp only [slotFails_tooLong]
  constructor
  · intro h
    obtain ⟨index, hindex, hearlier, htold, slot, hslot⟩ := h
    exact ⟨htold, index, slot, hindex, hearlier, hslot⟩
  · intro h
    obtain ⟨htold, index, slot, hindex, hearlier, hslot⟩ := h
    exact ⟨index, hindex, hearlier, htold, slot, hslot⟩

/-- **What a survey gives, whatever the chains are.** Let the directory be an array. Then a survey
    comes to an end, having come to every slot once at the most and read no more descriptors of it
    than the limit says, each for one page. It gives a report if every slot has a whole chain, of no
    more descriptors than the limit; and it gives a fault if that is the fault of a slot before
    which all slots have whole chains: of the element, or of what first ends the chain. This is the
    fault of a chain that is too long, with the pointer in the slot and the limit, if behind as many
    descriptors as the limit the slot has a pointer that leads to one more, and only then; and that
    is so of every chain that comes back to one of its descriptors. -/
theorem survey_first_fault :
    ((surveyNoted target config).2 = surveyAllocator target config ∧
      ReadsSlots config.maxChainNodes (high - low + 1).toNat .empty (surveyNoted target config)) ∧
    ((∃ report, surveyAllocator target config = .ok report) ↔
      ∀ index, low ≤ index → index ≤ high →
        ∃ counts, SlotChain target config.maxChainNodes directory index counts) ∧
    (∀ fault, surveyAllocator target config = .error fault ↔
      ∃ index, (low ≤ index ∧ index ≤ high) ∧
        (∀ earlier, low ≤ earlier → earlier < index →
          ∃ counts, SlotChain target config.maxChainNodes directory earlier counts) ∧
        SlotFails target config.maxChainNodes directory index fault) ∧
    (∀ head told, surveyAllocator target config = .error (.chainTooLong head told) ↔
      told = config.maxChainNodes ∧ ∃ index slot, (low ≤ index ∧ index ≤ high) ∧
        (∀ earlier, low ≤ earlier → earlier < index →
          ∃ counts, SlotChain target config.maxChainNodes directory earlier counts) ∧
        directory.Element target index slot ∧ slot.Contains target head ∧
        Overlong target config.maxChainNodes slot) ∧
    ∀ slot, Circles target slot → Overlong target config.maxChainNodes slot := by
  have hrange : directory.layout.range = .ok (low, high) := by
    rw [Layout.range, harray]
  have hreads : ReadsSlots config.maxChainNodes (high - low + 1).toNat .empty
      (surveyNoted target config) := by
    rw [surveyNoted, hdirectory]
    dsimp only
    rw [hrange]
    exact readsSlots_surveySlotsNoted _ 0 low .empty
  refine ⟨⟨surveyNoted_snd target config, hreads⟩, surveyAllocator_isOk hdirectory harray,
    fun fault => surveyAllocator_eq_error hdirectory harray,
    fun head told => surveyAllocator_tooLong hdirectory harray,
    fun slot hslot => hslot.overlong _⟩

end

/-! ## 4. A round behind a descriptor -/

/-- The teaching kernel with a directory of nine slots. The first one has a chain of two
    descriptors. The second one has a descriptor and behind it one that leads to itself; the third
    one leads to where no memory is. -/
def entangled : Target :=
  Image.view { Image.kernel with
    symbols := [("bucket_dir", ⟨0x1000, "struct bucket_desc *[9]"⟩)]
    memory := ⟨[
      wordsAt 0x1000 [0x2000, 0x4000, 0x9000, 0, 0, 0, 0, 0, 0], wordsAt 0x2000 [0x3000, 0, 0, 3],
      wordsAt 0x3000 [0, 0, 0, 5], wordsAt 0x4000 [0x5000, 0, 0, 7],
      wordsAt 0x5000 [0x5000, 0, 0, 8]]⟩ }

/-- The pointer at an address of this kernel. -/
def entangledPointer (address : UInt64) : Value :=
  ⟨address, .pointer "struct bucket_desc *" "struct bucket_desc"⟩

/-- With a limit of two the first chain is just short enough. The second one is the first fault; the
    third one is not come to. -/
theorem survey_first_fault_entangled :
    ∃ directory, entangled.evaluate shortChains.bucketDirectorySymbol = .ok directory ∧
      SlotChain entangled shortChains.maxChainNodes directory 0 [3, 5] ∧
      Circles entangled (entangledPointer 0x1008) ∧
      surveyAllocator entangled shortChains = .error (.chainTooLong 0x4000 2) := by
  have hdirectory : entangled.evaluate shortChains.bucketDirectorySymbol = .ok ⟨0x1000,
      .array "struct bucket_desc *[9]" "struct bucket_desc *" 8 0 8⟩ :=
    rfl
  have hchain : SlotChain entangled shortChains.maxChainNodes
      ⟨0x1000, .array "struct bucket_desc *[9]" "struct bucket_desc *" 8 0 8⟩ 0 [3, 5] :=
    slotCounts_eq_ok.mp rfl
  have hfirst : Link entangled (entangledPointer 0x1008) ⟨0x4000, kernelLayout "struct bucket_desc"⟩
      7 (entangledPointer 0x4000) :=
    ⟨Value.follow_eq_some_iff_leadsTo.mp rfl, Value.fieldWord_eq_ok.mp rfl,
      Value.field_eq_ok_iff_member.mp rfl⟩
  have hround : Link entangled (entangledPointer 0x4000) ⟨0x5000, kernelLayout "struct bucket_desc"⟩
      8 (entangledPointer 0x5000) :=
    ⟨Value.follow_eq_some_iff_leadsTo.mp rfl, Value.fieldWord_eq_ok.mp rfl,
      Value.field_eq_ok_iff_member.mp rfl⟩
  have hcircles : Circles entangled (entangledPointer 0x1008) :=
    ⟨[7], [8], _, _, _, .on hfirst (.here _), hround.leads, List.cons_ne_nil _ _,
      .on hround (.here _), Value.follow_eq_some_iff_leadsTo.mp rfl⟩
  obtain ⟨-, -, -, hfault, hrounds⟩ :=
    survey_first_fault hdirectory rfl
  refine ⟨_, hdirectory, hchain, hcircles, (hfault 0x4000 2).mpr
    ⟨rfl, 1, entangledPointer 0x1008, by decide, fun earlier hlow hlt => ?_,
      Value.index_eq_ok_iff_element.mp rfl, Value.word_eq_ok_iff_contains.mp rfl,
      hrounds _ hcircles⟩⟩
  obtain rfl : earlier = 0 := by omega
  exact ⟨_, hchain⟩

end KernelProbe
