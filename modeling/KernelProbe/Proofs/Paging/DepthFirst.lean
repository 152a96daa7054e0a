import KernelProbe.Proofs.Paging.Recursion

/-!
# Depth-first order

The tables and leaves of a page table are met in depth-first order. This order does not depend on
faults, if tables that cannot be read are passed (`Walk.visits`). In it the walk finds the leaves
before the first such table, then the fault of that table; and a leaf that it finds depends on
nothing but the tables met before it.

* `Walk.visits` -- all that is met, in depth-first order;
* `Walk.Follows` -- what is met in two kernels, as long as their tables agree;
* `Walk.stream_found` -- the walk gives what the recursion finds.
-/

namespace KernelProbe

namespace Walk

/-! ## 1. What is met -/

/-- What is met under a table: tables, whether they can be read or not, and leaves. -/
inductive Visit where
  | table (address : PAddr)
  | leaf (mapping : Mapping)

namespace Visit

/-- The mapping of a leaf. -/
def mapping? : Visit → Option Mapping
  | .table _ => none
  | .leaf mapping => some mapping

/-- The item that comes of it: the mapping of a leaf, and the fault of a table that cannot be
    read. -/
def item? (target : Target) : Visit → Option (Except Fault Mapping)
  | .table address =>
    match Table.read target address with
    | .ok _ => none
    | .error fault => some (.error fault)
  | .leaf mapping => some (.ok mapping)

end Visit

/-- What is met under an entry. -/
def visitsUnder (below : PAddr → VAddr → List Visit) (level : Nat) (start : VAddr) :
    Entry.Kind → List Visit
  | .invalid => []
  | .leaf physical flags => [.leaf ⟨start, start.plus (levelSpan level - 1), physical, flags⟩]
  | .table inner => below inner start

/-- **All that is met under a table, in depth-first order**, with so many levels to go: the table,
    then what is met under its entries. Tables that cannot be read are passed. -/
def visits (target : Target) : (levels : Nat) → PAddr → VAddr → List Visit
  | 0, _, _ => []
  | level + 1, address, base =>
    .table address ::
      match Table.read target address with
      | .error _ => []
      | .ok table => (List.finRange entriesPerTable).flatMap fun index =>
        visitsUnder (visits target level) level (base.withPageNumber level index.val)
          (table.entries.get index).kind

theorem visits_read {target : Target} {address : PAddr} {table : Table}
    (h : Table.read target address = .ok table) (level : Nat) (base : VAddr) :
    visits target (level + 1) address base =
      .table address :: (List.finRange entriesPerTable).flatMap fun index =>
        visitsUnder (visits target level) level (base.withPageNumber level index.val)
          (table.entries.get index).kind := by
  rw [visits, h]

theorem visits_fault {target : Target} {address : PAddr} {fault : Fault}
    (h : Table.read target address = .error fault) (level : Nat) (base : VAddr) :
    visits target (level + 1) address base = [.table address] := by
  rw [visits, h]

/-- **The tree in terms of what is met**: the leaves, and the faults in place of the tables that
    cannot be read. -/
theorem tree_eq (target : Target) (levels : Nat) (address : PAddr) (base : VAddr) :
    tree target levels address base =
      (visits target levels address base).filterMap (Visit.item? target) := by
  induction levels generalizing address base with
  | zero => rfl
  | succ level ih =>
    cases hread : Table.read target address with
    | error fault =>
      rw [tree_fault hread, visits_fault hread, List.filterMap_cons]
      simp only [Visit.item?, hread, List.filterMap_nil]
    | ok table =>
      have hentry : ∀ (cursor : Cursor) (kind : Entry.Kind), cursor.level = level →
          row (tree target level) cursor kind =
            (visitsUnder (visits target level) level cursor.start kind).filterMap
              (Visit.item? target) := by
        rintro cursor kind rfl
        cases kind with
        | invalid => rfl
        | leaf physical flags => rfl
        | table inner => exact ih inner cursor.start
      rw [tree_read hread, visits_read hread, List.filterMap_cons, rows_eq_flatMap,
        List.filterMap_flatMap]
      rw [show (Cursor.atStart table level base).next = 0 from rfl, List.drop_zero]
      simp only [Visit.item?, hread]
      congr 1
      funext index
      exact hentry ⟨table, level, index.val, base⟩ _ rfl

theorem reached_of_mem {target : Target} {root : PAddr} {levels : Nat} {address : PAddr}
    {base : VAddr} (h : ∀ level, levels = level + 1 → Reached target root level address)
    {inner : PAddr} (hmem : .table inner ∈ visits target levels address base) :
    ∃ level, Reached target root level inner := by
  induction levels generalizing address base with
  | zero => cases hmem
  | succ level ih =>
    have hreached := h level rfl
    cases hread : Table.read target address with
    | error fault =>
      rw [visits_fault hread] at hmem
      cases List.mem_singleton.mp hmem
      exact ⟨level, hreached⟩
    | ok table =>
      rw [visits_read hread] at hmem
      rcases List.mem_cons.mp hmem with heq | hmem
      · cases heq
        exact ⟨level, hreached⟩
      · obtain ⟨index, -, hmem⟩ := List.mem_flatMap.mp hmem
        cases hkind : (table.entries.get index).kind with
        | invalid =>
          rw [hkind] at hmem
          cases hmem
        | leaf physical flags =>
          rw [hkind] at hmem
          cases List.mem_singleton.mp hmem
        | table next =>
          rw [hkind] at hmem
          refine ih (fun below hlevel => ?_) hmem
          subst hlevel
          exact .pointer hreached hread index hkind

/-- What is met under a table that can be reached is met in all. -/
theorem visits_subset {target : Target} {root : PAddr} {level : Nat} {address : PAddr}
    (h : Reached target root level address) :
    ∃ base, visits target (level + 1) address base ⊆ visits target tableLevels root ⟨0⟩ := by
  induction h with
  | root => exact ⟨⟨0⟩, fun _ h => h⟩
  | @pointer level address inner table _ hread index hkind ih =>
    obtain ⟨base, hsubset⟩ := ih
    refine ⟨base.withPageNumber (level + 1) index.val, fun visit hmem => hsubset ?_⟩
    rw [visits_read hread]
    refine List.mem_cons_of_mem _ (List.mem_flatMap.mpr ⟨index, List.mem_finRange index, ?_⟩)
    rw [hkind]
    exact hmem

/-- **The tables that are met are those that can be reached.** -/
theorem table_mem_visits {target : Target} {root address : PAddr} :
    .table address ∈ visits target tableLevels root ⟨0⟩ ↔
      ∃ level, Reached target root level address := by
  constructor
  · refine reached_of_mem fun level hlevel => ?_
    obtain rfl : 2 = level := Nat.succ.inj hlevel
    exact .root
  · rintro ⟨level, h⟩
    obtain ⟨base, hsubset⟩ := visits_subset h
    exact hsubset (by rw [visits]; exact List.mem_cons_self)

/-! ## 2. Up to the first table that cannot be read -/

/-- The mappings of the leaves that are met. -/
def leaves (met : List Visit) : List Mapping :=
  met.filterMap Visit.mapping?

/-- All tables among what is met can be read. -/
def AllRead (target : Target) (met : List Visit) : Prop :=
  ∀ address, .table address ∈ met → ∃ table, Table.read target address = .ok table

theorem allRead_nil {target : Target} : AllRead target [] :=
  fun _ hmem => absurd hmem List.not_mem_nil

theorem AllRead.leaf {target : Target} {met : List Visit} (h : AllRead target met)
    (mapping : Mapping) : AllRead target (.leaf mapping :: met) := by
  intro address hmem
  rcases List.mem_cons.mp hmem with heq | hmem
  · cases heq
  · exact h address hmem

theorem AllRead.table {target : Target} {met : List Visit} (h : AllRead target met)
    {address : PAddr} {table : Table} (hread : Table.read target address = .ok table) :
    AllRead target (.table address :: met) := by
  intro other hmem
  rcases List.mem_cons.mp hmem with heq | hmem
  · cases heq
    exact ⟨table, hread⟩
  · exact h other hmem

theorem AllRead.of_cons {target : Target} {visit : Visit} {met : List Visit}
    (h : AllRead target (visit :: met)) : AllRead target met :=
  fun address hmem => h address (List.mem_cons_of_mem _ hmem)

/-- As long as the tables can be read, the leaves are found. -/
theorem upToFault_items {target : Target} {before : List Visit} (h : AllRead target before)
    (after : List Visit) :
    upToFault ((before ++ after).filterMap (Visit.item? target)) =
      (leaves before).map .ok ++ upToFault (after.filterMap (Visit.item? target)) := by
  induction before with
  | nil => rfl
  | cons visit before ih =>
    have ih := ih h.of_cons
    cases visit with
    | leaf mapping => exact congrArg (.ok mapping :: ·) ih
    | table address =>
      obtain ⟨table, hread⟩ := h address List.mem_cons_self
      rw [List.cons_append, List.filterMap_cons_none (by simp only [Visit.item?, hread])]
      exact ih

theorem fault_of_read {target : Target} {address : PAddr} {fault : Fault}
    (h : Table.read target address = .error fault) :
    fault = .memoryUnavailable address.bits 4096 := by
  cases hmemory : target.memory? address.bits pageSize with
  | none =>
    simp only [Table.read, Target.memory, demand, hmemory] at h
    exact (Except.error.inj h).symm
  | some page =>
    simp only [Table.read, Target.memory, demand, hmemory] at h
    cases h

/-- Of the tables that cannot be read one is met first. -/
theorem exists_first {target : Target} {met : List Visit} {address : PAddr} {fault : Fault}
    (hmem : .table address ∈ met) (hfault : Table.read target address = .error fault) :
    ∃ before first after, met = before ++ .table first :: after ∧ AllRead target before ∧
      Table.read target first = .error (.memoryUnavailable first.bits 4096) := by
  induction met with
  | nil => cases hmem
  | cons visit met ih =>
    cases visit with
    | leaf mapping =>
      obtain ⟨before, first, after, rfl, hbefore, hfirst⟩ :=
        ih ((List.mem_cons.mp hmem).resolve_left nofun)
      exact ⟨.leaf mapping :: before, first, after, rfl, hbefore.leaf mapping, hfirst⟩
    | table other =>
      cases hread : Table.read target other with
      | error fault' =>
        rw [fault_of_read hread] at hread
        exact ⟨[], other, met, rfl, allRead_nil, hread⟩
      | ok table =>
        have hne : Visit.table address ≠ .table other := by
          rintro heq
          cases heq
          rw [hfault] at hread
          cases hread
        obtain ⟨before, first, after, rfl, hbefore, hfirst⟩ :=
          ih ((List.mem_cons.mp hmem).resolve_left hne)
        exact ⟨.table other :: before, first, after, rfl, hbefore.table hread, hfirst⟩

/-- **A table that cannot be read ends what is found.** -/
theorem upToFault_first {target : Target} {before : List Visit} (h : AllRead target before)
    {first : PAddr} {fault : Fault} (hfault : Table.read target first = .error fault)
    (after : List Visit) :
    upToFault ((before ++ .table first :: after).filterMap (Visit.item? target)) =
      (leaves before).map .ok ++ [.error fault] := by
  rw [upToFault_items h, List.filterMap_cons]
  simp only [Visit.item?, hfault]
  rfl

/-! ## 3. What the found mappings depend on -/

/-- **A mapping is found behind the leaves met before it**, and all tables met before it can be
    read. -/
theorem exists_leaf_of_found {target : Target} {met : List Visit} {first : List Mapping}
    {mapping : Mapping} {rest : List (Except Fault Mapping)}
    (h : upToFault (met.filterMap (Visit.item? target)) = first.map .ok ++ .ok mapping :: rest) :
    ∃ before after, met = before ++ .leaf mapping :: after ∧ leaves before = first ∧
      AllRead target before := by
  induction met generalizing first with
  | nil => cases first <;> cases h
  | cons visit met ih =>
    cases visit with
    | leaf found =>
      rw [List.filterMap_cons] at h
      cases first with
      | nil =>
        cases h
        exact ⟨[], met, rfl, rfl, allRead_nil⟩
      | cons one first =>
        obtain ⟨hfirst, hrest⟩ := List.cons.inj h
        cases hfirst
        obtain ⟨before, after, rfl, rfl, hbefore⟩ := ih hrest
        exact ⟨.leaf found :: before, after, rfl, rfl, hbefore.leaf found⟩
    | table address =>
      cases hread : Table.read target address with
      | error fault =>
        simp only [List.filterMap_cons, Visit.item?, hread, upToFault] at h
        cases first <;> cases h
      | ok table =>
        rw [List.filterMap_cons_none (by simp only [Visit.item?, hread])] at h
        obtain ⟨before, after, rfl, rfl, hbefore⟩ := ih h
        exact ⟨.table address :: before, after, rfl, rfl, hbefore.table hread⟩

/-- What is met in one kernel goes on as in another, as long as the tables that are met agree. -/
inductive Follows (Agree : PAddr → Prop) : List Visit → List Visit → Prop where
  | nil : Follows Agree [] []
  | leaf (mapping : Mapping) {met others : List Visit} (h : Follows Agree met others) :
      Follows Agree (.leaf mapping :: met) (.leaf mapping :: others)
  | table (address : PAddr) {met others : List Visit}
      (h : Agree address → Follows Agree met others) :
      Follows Agree (.table address :: met) (.table address :: others)

theorem Follows.append {Agree : PAddr → Prop} {met others later otherLater : List Visit}
    (h : Follows Agree met others) (hlater : Follows Agree later otherLater) :
    Follows Agree (met ++ later) (others ++ otherLater) := by
  induction h with
  | nil => exact hlater
  | leaf mapping _ ih => exact .leaf mapping ih
  | table address _ ih => exact .table address ih

theorem Follows.flatMap {Agree : PAddr → Prop} {α : Type} {met others : α → List Visit}
    (h : ∀ index, Follows Agree (met index) (others index)) (indices : List α) :
    Follows Agree (indices.flatMap met) (indices.flatMap others) := by
  induction indices with
  | nil => exact .nil
  | cons index indices ih => exact (h index).append ih

/-- Behind tables that agree the same leaf is met. -/
theorem Follows.leaf_of_agree {Agree : PAddr → Prop} {before after others : List Visit}
    {mapping : Mapping} (h : Follows Agree (before ++ .leaf mapping :: after) others)
    (hagree : ∀ address, .table address ∈ before → Agree address) :
    ∃ after', others = before ++ .leaf mapping :: after' := by
  induction before generalizing others with
  | nil =>
    cases h with
    | leaf _ h => exact ⟨_, rfl⟩
  | cons visit before ih =>
    have hrest : ∀ address, .table address ∈ before → Agree address :=
      fun address hmem => hagree address (List.mem_cons_of_mem _ hmem)
    cases h with
    | leaf found h =>
      obtain ⟨after', rfl⟩ := ih h hrest
      exact ⟨after', rfl⟩
    | table address h =>
      obtain ⟨after', rfl⟩ := ih (h (hagree address List.mem_cons_self)) hrest
      exact ⟨after', rfl⟩

/-- **What is met depends on the tables met before it.** -/
theorem visits_follow (target target' : Target) (levels : Nat) (address : PAddr) (base : VAddr) :
    Follows (fun address => Table.read target' address = Table.read target address)
      (visits target levels address base) (visits target' levels address base) := by
  induction levels generalizing address base with
  | zero => exact .nil
  | succ level ih =>
    rw [visits, visits]
    refine .table address fun hagree => ?_
    rw [hagree]
    cases Table.read target address with
    | error fault => exact .nil
    | ok table =>
      refine Follows.flatMap (fun index => ?_) _
      cases (table.entries.get index).kind with
      | invalid => exact .nil
      | leaf physical flags => exact .leaf _ .nil
      | table inner => exact ih inner _

/-! ## 4. The walk -/

/-- **A walk is the recursion given piece by piece**, whatever of the page table can be read. Its
    items are what the recursion finds, and every pull behind them gives none. If a table can be
    reached that cannot be read, there is a first one among all that is met, and the items are the
    leaves before it and its fault. A kernel whose tables agree as far as they are met before a leaf
    gives the same items up to that leaf. -/
theorem stream_found (target : Target) (root : PAddr) :
    Traversal.stream target (Walk.unread root) = found target root ∧
    (∀ count, Traversal.pulls (List.replicate count target) (Walk.unread root) =
      ((found target root).map some ++ List.replicate count none).take count) ∧
    (∀ address, .table address ∈ visits target tableLevels root ⟨0⟩ ↔
      ∃ level, Reached target root level address) ∧
    (∀ level address fault, Reached target root level address →
      Table.read target address = .error fault →
      ∃ before first after,
        visits target tableLevels root ⟨0⟩ = before ++ .table first :: after ∧
        AllRead target before ∧
        Table.read target first = .error (.memoryUnavailable first.bits 4096) ∧
        found target root =
          (leaves before).map .ok ++ [.error (.memoryUnavailable first.bits 4096)]) ∧
    (∀ first mapping rest, found target root = first.map .ok ++ .ok mapping :: rest →
      ∃ before after,
        visits target tableLevels root ⟨0⟩ = before ++ .leaf mapping :: after ∧
        leaves before = first ∧
        ∀ target', (∀ address, .table address ∈ before →
            Table.read target' address = Table.read target address) →
          ∃ rest', found target' root = first.map .ok ++ .ok mapping :: rest') := by
  have hfound : ∀ target, found target root =
      upToFault ((visits target tableLevels root ⟨0⟩).filterMap (Visit.item? target)) :=
    fun target => by rw [found_eq, tree_eq]
  have hstream : Traversal.stream target (Walk.unread root) = found target root := by
    rw [stream_eq, found_eq]
    rfl
  refine ⟨hstream, fun count => ?_, fun _ => table_mem_visits, ?_, ?_⟩
  · rw [Traversal.pulls_replicate, hstream]
  · intro level address fault hreached hfault
    obtain ⟨before, first, after, hmet, hbefore, hfirst⟩ :=
      exists_first (table_mem_visits.mpr ⟨level, hreached⟩) hfault
    refine ⟨before, first, after, hmet, hbefore, hfirst, ?_⟩
    rw [hfound, hmet, upToFault_first hbefore hfirst]
  · intro first mapping rest h
    rw [hfound] at h
    obtain ⟨before, after, hmet, rfl, hbefore⟩ := exists_leaf_of_found h
    refine ⟨before, after, hmet, rfl, fun target' hagree => ?_⟩
    obtain ⟨after', hmet'⟩ :=
      (hmet ▸ visits_follow target target' tableLevels root ⟨0⟩).leaf_of_agree hagree
    have hbefore' : AllRead target' before := fun address hmem => by
      rw [hagree address hmem]
      exact hbefore address hmem
    exact ⟨_, by rw [hfound, hmet', upToFault_items hbefore']; rfl⟩

end Walk

/-- A kernel with one table, at 0x1000: its first entry is a leaf, and its second points to a table
    that is not there. -/
def Target.torn : Target :=
  let whole := Target.ofTables fun _ index =>
    if index = 0 then 0xCF else if index = 1 then 0x1401 else 0
  { whole with
    memory? := fun address length =>
      if address = 0x1000 then whole.memory? address length else none }

namespace Walk

/-- The walk of a page table with a table missing ends with the fault of that table. -/
theorem stream_found_torn :
    Reached .torn ⟨0x1000⟩ 1 ⟨0x5000⟩ ∧
      Table.read .torn ⟨0x5000⟩ = .error (.memoryUnavailable 0x5000 4096) ∧
      ∃ before first after,
        visits .torn tableLevels ⟨0x1000⟩ ⟨0⟩ = before ++ .table first :: after ∧
        Traversal.stream .torn (Walk.unread ⟨0x1000⟩) =
          (leaves before).map .ok ++ [.error (.memoryUnavailable first.bits 4096)] := by
  obtain ⟨table, hread, hentries⟩ := read_ofTables
    (fun _ index => if index = 0 then 0xCF else if index = 1 then 0x1401 else 0) ⟨0x1000⟩
  have hkind : (table.entries.get ⟨1, by decide⟩).kind = .table ⟨0x5000⟩ := by
    rw [hentries]
    decide
  have hreached : Reached .torn ⟨0x1000⟩ 1 ⟨0x5000⟩ := .pointer .root hread ⟨1, by decide⟩ hkind
  have hfault : Table.read .torn ⟨0x5000⟩ = .error (.memoryUnavailable 0x5000 4096) := rfl
  obtain ⟨hstream, -, -, hfirst, -⟩ := stream_found .torn ⟨0x1000⟩
  obtain ⟨before, first, after, hmet, -, -, hfound⟩ := hfirst 1 ⟨0x5000⟩ _ hreached hfault
  exact ⟨hreached, hfault, before, first, after, hmet, hstream.trans hfound⟩

end Walk

end KernelProbe
