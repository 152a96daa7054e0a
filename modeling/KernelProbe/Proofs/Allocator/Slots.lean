import KernelProbe.Proofs.Allocator.Chains
import KernelProbe.Proofs.Value.Rows

/-!
# The slots of the directory

A survey works through the slots in the order of their indices. Each slot has the counts of its
chain, or a fault; the survey gives the report of all these counts, or the first of the faults.

* `SlotChain`, `SlotFails` -- the chain of a slot, or its fault;
* `usagesFrom` -- what is in use, by the counts along the chains of the slots;
* `surveyAllocator_eq` -- a survey works through the slots and adds up what is in use;
* `surveyAllocator_eq_ok`, `surveyAllocator_eq_error` -- what a survey gives.
-/

namespace KernelProbe

variable {target : Target} {config : Config} {directory : Value} {limit count position : Nat}
  {low high index : Int} {counts : List UInt64} {fault : Fault}

/-! ## 1. One slot -/

/-- **The chain of a slot**: within the limit there is a null pointer, and before it there are
    descriptors with these counts. -/
def SlotChain (target : Target) (limit : Nat) (directory : Value) (index : Int)
    (counts : List UInt64) : Prop :=
  ∃ slot last, directory.Element target index slot ∧ ChainTo target slot counts last ∧
    counts.length ≤ limit ∧ last.IsNull target

/-- **The fault of a slot**: that of the element, or the one that its chain ends with. -/
inductive SlotFails (target : Target) (limit : Nat) (directory : Value) (index : Int) :
    Fault → Prop where
  | element {fault : Fault} (h : directory.index target index = .error fault) :
    SlotFails target limit directory index fault
  | chain {slot : Value} {fault : Fault} (hslot : directory.Element target index slot)
    (h : ChainEnds target slot limit limit slot (.error fault)) :
    SlotFails target limit directory index fault

/-- The counts along the chain of a slot. -/
def slotCounts (target : Target) (limit : Nat) (directory : Value) (index : Int) :
    Except Fault (List UInt64) := do
  let slot ← directory.index target index
  countsFrom target slot limit limit slot

theorem slotCounts_eq_ok :
    slotCounts target limit directory index = .ok counts ↔
      SlotChain target limit directory index counts := by
  simp only [slotCounts, bind_eq_ok, Value.index_eq_ok_iff_element, countsFrom_eq_iff]
  refine ⟨fun ⟨slot, hslot, h⟩ => ?_, fun ⟨slot, last, hslot, h, hlength, hlast⟩ => ?_⟩
  · cases h with
    | null h hlength hlast => exact ⟨slot, _, hslot, h, hlength, hlast⟩
  · exact ⟨slot, hslot, .null h hlength hlast⟩

theorem slotCounts_eq_error :
    slotCounts target limit directory index = .error fault ↔
      SlotFails target limit directory index fault := by
  simp only [slotCounts, bind_eq_error, Value.index_eq_ok_iff_element, countsFrom_eq_iff]
  refine ⟨fun h => ?_, fun h => ?_⟩
  · rcases h with h | ⟨slot, hslot, h⟩
    · exact .element h
    · exact .chain hslot h
  · cases h with
    | element h => exact .inl h
    | chain hslot h => exact .inr ⟨_, hslot, h⟩

/-! ## 2. All slots -/

/-- What is in use of the size at a position, by the counts along its chain. A slot without
    descriptors has no entry. -/
def usageAt (position : Nat) (counts : List UInt64) : Option Usage :=
  if counts = [] then none else some (Usage.plus ⟨blockSize position, 0, 0⟩ counts)

/-- **What is in use**, by the counts along the chains of the slots from a position on. -/
def usagesFrom : (position : Nat) → (chains : List (List UInt64)) → List Usage
  | _, [] => []
  | position, counts :: chains =>
    (usageAt position counts).toList ++ usagesFrom (position + 1) chains

/-- The chain of a slot that leads somewhere has descriptors. -/
theorem countsFrom_ne_nil {slot first : Value} {left : Nat} (hslot : slot.LeadsTo target first)
    (h : countsFrom target slot limit left slot = .ok counts) : counts ≠ [] := by
  intro hnil
  cases countsFrom_eq_iff.mp h with
  | null h hlength hlast =>
    subst hnil
    cases h
    rw [← Value.follow_eq_some_iff_leadsTo] at hslot
    rw [← Value.follow_eq_none_iff_isNull] at hlast
    cases hslot.symm.trans hlast

/-- **One slot of a survey**: its counts are added, and the survey goes on behind it. -/
theorem surveySlots_succ (report : Report) :
    surveySlots target limit directory (count + 1) position index report =
      slotCounts target limit directory index >>= fun counts =>
        surveySlots target limit directory count (position + 1) (index + 1)
          ((usageAt position counts).toList.foldl Report.add report) := by
  unfold slotCounts
  rw [surveySlots]
  cases directory.index target index with
  | error fault => rfl
  | ok slot =>
    show (slot.follow target >>= fun first => _) = countsFrom target slot limit limit slot >>= _
    cases hfollow : slot.follow target with
    | error fault =>
      rw [countsFrom_of_follow_error hfollow]
      rfl
    | ok followed =>
      cases followed with
      | none =>
        rw [countsFrom_of_null (Value.follow_eq_none_iff_isNull.mp hfollow)]
        rfl
      | some first =>
        have hchain := surveyChain_eq target slot limit limit ⟨blockSize position, 0, 0⟩ slot
        rw [hfollow] at hchain
        show (surveyChain target slot limit limit (some first) _ >>= fun usage => _) = _
        refine (congrArg (· >>= _) hchain).trans ?_
        cases hcounts : countsFrom target slot limit limit slot with
        | error fault => rfl
        | ok counts =>
          have hne := countsFrom_ne_nil (Value.follow_eq_some_iff_leadsTo.mp hfollow) hcounts
          show surveySlots _ _ _ _ _ _ _ = surveySlots _ _ _ _ _ _ _
          rw [usageAt, if_neg hne]
          rfl

/-- **A survey works through the slots** and adds up what is in use. -/
theorem surveySlots_eq (report : Report) :
    surveySlots target limit directory count position index report =
      ((indicesFrom index count).mapM (slotCounts target limit directory)).map fun chains =>
        (usagesFrom position chains).foldl Report.add report := by
  induction count generalizing position index report with
  | zero => rfl
  | succ count ih =>
    rw [surveySlots_succ, indicesFrom, List.mapM_cons]
    cases slotCounts target limit directory index with
    | error fault => rfl
    | ok counts =>
      show surveySlots _ _ _ _ _ _ _ = _
      rw [ih]
      show _ = Except.map _ ((indicesFrom (index + 1) count).mapM _ >>= fun chains => _)
      cases (indicesFrom (index + 1) count).mapM (slotCounts target limit directory) with
      | error fault => rfl
      | ok chains =>
        show _ = Except.ok (List.foldl Report.add report (_ ++ usagesFrom (position + 1) chains))
        rw [List.foldl_append]
        rfl

section

variable {element : String}
  (hdirectory : target.evaluate config.bucketDirectorySymbol = .ok directory)
  (harray : directory.layout.kind = .array element low high)
include hdirectory harray

theorem surveyAllocator_eq : surveyAllocator target config =
    ((indicesFrom low (high - low + 1).toNat).mapM
      (slotCounts target config.maxChainNodes directory)).map fun chains =>
        (usagesFrom 0 chains).foldl Report.add .empty := by
  rw [← surveySlots_eq, surveyAllocator, hdirectory]
  show (directory.layout.range >>= fun bounds => _) = _
  rw [Layout.range, harray]
  rfl

/-- **A survey gives a report** if every slot has a chain. -/
theorem surveyAllocator_eq_ok {report : Report} : surveyAllocator target config = .ok report ↔
    ∃ chains : List (List UInt64),
      (indicesFrom low (high - low + 1).toNat).map
        (slotCounts target config.maxChainNodes directory) = chains.map .ok ∧
      (usagesFrom 0 chains).foldl Report.add .empty = report := by
  rw [surveyAllocator_eq hdirectory harray, map_eq_ok]
  simp only [mapM_eq_ok]

/-- **A survey gives the fault of a slot** if all slots before it have chains. -/
theorem surveyAllocator_eq_error : surveyAllocator target config = .error fault ↔
    ∃ index, (low ≤ index ∧ index ≤ high) ∧
      (∀ earlier, low ≤ earlier → earlier < index →
        ∃ counts, SlotChain target config.maxChainNodes directory earlier counts) ∧
      SlotFails target config.maxChainNodes directory index fault := by
  rw [surveyAllocator_eq hdirectory harray, map_eq_error, mapM_eq_error, firstFault_indicesFrom]
  simp only [slotCounts_eq_ok, slotCounts_eq_error]
  refine exists_congr fun index => and_congr_left fun _ => ?_
  omega

end

end KernelProbe
