import KernelProbe.Proofs.Paging.Steps
import KernelProbe.Proofs.Traversal.Pulls

/-!
# A walk goes forward

What a walk has already read of a kernel may be out of date, and the tables may point in circles.
The order of the mappings comes from the open tables alone: each lies under the entry last dealt
with of the table around it (`Walk.Nested`), so there is one virtual address up to which the walk
has come (`Walk.position`), and a step never goes back behind it.

* `Walk.Nested` -- the invariant of the open tables;
* `Walk.step_nested` -- what a step does to it and to the position;
* `Walk.pulls_ordered` -- the items of a walk under any changes of the kernel.
-/

namespace KernelProbe

/-- **A mapping that fills one entry of a level**: it begins at a multiple of the entry's span,
    covers that span, and lies below bit 39. -/
def Mapping.FillsEntry (mapping : Mapping) : Prop :=
  ∃ level, level ≤ 2 ∧ mapping.start.bits.toNat % 2 ^ levelShift level = 0 ∧
    mapping.last.bits.toNat = mapping.start.bits.toNat + 2 ^ levelShift level - 1 ∧
    mapping.last.bits.toNat < 2 ^ 39

/-- The second mapping lies behind the first. -/
def Mapping.Before (mapping next : Mapping) : Prop :=
  mapping.last.bits.toNat < next.start.bits.toNat

namespace Walk

/-! ## 1. Nested tables -/

/-- The virtual address up to which the walk has come: where the innermost table stands, and the end
    of the address space when no table is open. -/
def position : List Cursor → Nat
  | [] => 2 ^ 39
  | cursor :: _ => cursor.low

/-- The table of `cursor` lies under the entry last dealt with of the table around it. -/
structure Under (outer : List Cursor) (cursor : Cursor) : Prop where
  placed : Placed (cursor.level + 1) cursor.base
  next_le : cursor.next ≤ entriesPerTable
  depth : cursor.level + outer.length = 2
  covered : cursor.limit = position outer

/-- **The invariant of the open tables**: each lies under the table around it. -/
def Nested : List Cursor → Prop
  | [] => True
  | cursor :: outer => Under outer cursor ∧ Nested outer

theorem nested_root (table : Table) : Nested [.atStart table (tableLevels - 1) ⟨0⟩] :=
  ⟨⟨.root, Nat.zero_le _, rfl, Nat.zero_add _⟩, trivial⟩

/-- Nested tables stand in the order of their levels, the lowest level innermost. -/
theorem levels_of_nested {cursors : List Cursor} (h : Nested cursors) :
    (cursors.map Cursor.level).reverse <+: [2, 1, 0] := by
  match cursors, h with
  | [], _ => exact List.nil_prefix
  | [_], ⟨h₁, _⟩ =>
    have := h₁.depth
    simp_all
  | [_, _], ⟨h₁, h₂, _⟩ =>
    have := h₁.depth
    have := h₂.depth
    simp_all
  | [_, _, _], ⟨h₁, h₂, h₃, _⟩ =>
    have := h₁.depth
    have := h₂.depth
    have := h₃.depth
    simp_all
  | _ :: _ :: _ :: _ :: _, ⟨h₁, _⟩ =>
    have := h₁.depth
    simp at this
    omega

/-! ## 2. A step goes forward -/

theorem Under.passed {outer : List Cursor} {cursor : Cursor} (h : Under outer cursor)
    (hnext : cursor.next < entriesPerTable) : Under outer cursor.passed :=
  ⟨h.placed, hnext, h.depth, h.covered⟩

/-- **Every step keeps the open tables nested.** -/
theorem step_nested {target : Target} {cursors rest : List Cursor}
    {item : Option (Except Fault Mapping)} (hstep : Step target cursors item rest)
    (h : Nested cursors) : Nested rest := by
  cases hstep with
  | closes cursor outer hend => exact h.2
  | passes cursor outer hnext hkind => exact ⟨h.1.passed hnext, h.2⟩
  | maps cursor outer hnext physical flags hkind => exact ⟨h.1.passed hnext, h.2⟩
  | opens cursor outer hnext address inner below hlevel hkind hread =>
    have hplaced := h.1.placed.inner hnext
    rw [hlevel] at hplaced
    have hdepth := h.1.depth
    refine ⟨⟨hplaced, Nat.zero_le _, ?_, ?_⟩, h.1.passed hnext, h.2⟩
    · simp only [Cursor.atStart, List.length_cons]
      omega
    · rw [position, Cursor.low_passed, ← h.1.placed.toNat_start hnext, hlevel]
      rfl
  | fails => trivial

theorem nested_of_opened {root : PAddr} {cursors : List Cursor} (h : Opened root cursors) :
    Nested cursors := by
  induction h with
  | closed => trivial
  | root => exact nested_root _
  | step _ hstep ih => exact step_nested hstep ih

/-- A step without an item does not go back. -/
theorem position_quiet {target : Target} {cursors rest : List Cursor}
    (hstep : Step target cursors none rest) (h : Nested cursors) :
    position cursors ≤ position rest := by
  cases hstep with
  | closes cursor outer hend =>
    rw [← h.1.covered]
    exact Cursor.low_le_limit h.1.next_le
  | passes cursor outer hnext hkind =>
    rw [position, position, Cursor.low_passed]
    exact Nat.le_add_right _ _
  | opens cursor outer hnext address inner below hlevel hkind hread =>
    rw [position, position, Cursor.low_atStart]
    exact Nat.le_of_eq (h.1.placed.toNat_start hnext).symm

/-! ## 3. Pulls go forward -/

/-- Where a walk has come to; before its first pull, to address zero. -/
def upTo : Walk → Nat
  | .unread _ => 0
  | .inside cursors => position cursors

/-- The invariant of a walk. -/
def Sound : Walk → Prop
  | .unread _ => True
  | .inside cursors => Nested cursors

/-- What an item says of a walk that was at `low` before it and has `rest` open after it: a mapping
    lies between the two positions, and with anything else no table is left open. -/
def Given (low : Nat) (rest : List Cursor) : Option (Except Fault Mapping) → Prop
  | some (.ok mapping) =>
    low ≤ mapping.start.bits.toNat ∧ mapping.FillsEntry ∧
      mapping.last.bits.toNat < position rest
  | _ => rest = []

theorem Given.mono {low low' : Nat} {rest : List Cursor} {item : Option (Except Fault Mapping)}
    (h : Given low rest item) (hle : low' ≤ low) : Given low' rest item := by
  match item, h with
  | none, h => exact h
  | some (.error _), h => exact h
  | some (.ok mapping), ⟨hstart, hrest⟩ => exact ⟨Nat.le_trans hle hstart, hrest⟩

/-- The mapping of the next entry begins where the walk has come to and ends right before where it
    then comes to. -/
theorem mapping_given {outer : List Cursor} {cursor : Cursor} (h : Nested (cursor :: outer))
    (hnext : cursor.next < entriesPerTable) (physical : PAddr) (flags : Flags) :
    Given cursor.low (cursor.passed :: outer) (some (.ok (cursor.mapping physical flags))) := by
  obtain ⟨hunder, houter⟩ := h
  obtain ⟨hstart, hlast⟩ := hunder.placed.mapping hnext physical flags
  have hpassed := Cursor.low_passed cursor
  have hlimit := (hunder.placed.inner hnext).limit_le
  rw [hunder.placed.toNat_start hnext] at hlimit
  have hpos : 0 < 2 ^ levelShift cursor.level := Nat.two_pow_pos _
  have hlevel : cursor.level ≤ 2 := Nat.le_of_succ_le_succ hunder.placed.levels_le
  refine ⟨Nat.le_of_eq hstart.symm, ⟨cursor.level, hlevel, ?_, ?_, ?_⟩, ?_⟩
  · rw [hstart]
    exact hunder.placed.low_aligned
  · omega
  · omega
  · rw [position]
    omega

theorem step_given {target : Target} {cursors rest : List Cursor} {item : Except Fault Mapping}
    (hstep : Step target cursors (some item) rest) (h : Nested cursors) :
    Given (position cursors) rest (some item) := by
  cases hstep with
  | maps cursor outer hnext physical flags hkind => exact mapping_given h hnext physical flags
  | fails => rfl

/-- **What a pull keeps and gives**: the open tables stay nested, and a mapping lies ahead of where
    the walk was and behind where it then is. -/
theorem runs_given {target : Target} {count : Nat} {walk : Walk}
    {item : Option (Except Fault Mapping)} {rest : List Cursor}
    (hruns : Runs target count walk item rest) (h : Sound walk) :
    Nested rest ∧ Given (upTo walk) rest item := by
  induction hruns with
  | unreadable => exact ⟨trivial, rfl⟩
  | starts hread _ ih =>
    obtain ⟨hnested, hgiven⟩ := ih (nested_root _)
    exact ⟨hnested, hgiven.mono (Nat.zero_le _)⟩
  | ends => exact ⟨trivial, rfl⟩
  | gives hstep => exact ⟨step_nested hstep h, step_given hstep h⟩
  | quiet hstep _ ih =>
    obtain ⟨hnested, hgiven⟩ := ih (step_nested hstep h)
    exact ⟨hnested, hgiven.mono (position_quiet hstep h)⟩

/-- The answers after the last mapping: none at all, or one fault and then none. -/
def Ending (answers : List (Option (Except Fault Mapping))) : Prop :=
  (∃ count, answers = List.replicate count none) ∨
    ∃ fault count, answers = some (.error fault) :: List.replicate count none

/-- **The answers to all pulls**, with a kernel of its own at each: mappings one behind the other
    from where the walk is, then an ending. -/
theorem pulls_ordered (targets : List Target) (walk : Walk) (h : Sound walk) :
    ∃ (mappings : List Mapping) (ending : List (Option (Except Fault Mapping))),
      Traversal.pulls targets walk = mappings.map (some ∘ .ok) ++ ending ∧ Ending ending ∧
      mappings.Pairwise Mapping.Before ∧
      ∀ mapping ∈ mappings, upTo walk ≤ mapping.start.bits.toNat ∧ mapping.FillsEntry := by
  induction targets generalizing walk with
  | nil => exact ⟨[], [], rfl, .inl ⟨0, rfl⟩, .nil, fun _ h => absurd h List.not_mem_nil⟩
  | cons target later ih =>
    obtain ⟨count, rest, _, hruns, hrest⟩ := runs_pull target walk
    obtain ⟨hnested, hgiven⟩ := runs_given hruns h
    -- with no table open nothing more can come
    have hclosed : rest = [] →
        Traversal.pulls later (pull target walk).rest = List.replicate later.length none := by
      intro hnil
      rw [hrest, hnil]
      exact Traversal.pulls_ended rfl later
    rw [show Traversal.pulls (target :: later) walk =
      (pull target walk).item :: Traversal.pulls later (pull target walk).rest from rfl]
    match hitem : (pull target walk).item with
    | none =>
      rw [hitem] at hgiven
      refine ⟨[], _, rfl, .inl ⟨later.length + 1, ?_⟩, .nil, fun _ h => absurd h List.not_mem_nil⟩
      rw [hclosed hgiven]
      rfl
    | some (.error fault) =>
      rw [hitem] at hgiven
      refine ⟨[], _, rfl, .inr ⟨fault, later.length, ?_⟩, .nil,
        fun _ h => absurd h List.not_mem_nil⟩
      rw [hclosed hgiven]
    | some (.ok mapping) =>
      rw [hitem] at hgiven
      obtain ⟨hstart, hfills, hlast⟩ := hgiven
      obtain ⟨mappings, ending, hpulls, hending, hordered, hall⟩ := ih (.inside rest) hnested
      refine ⟨mapping :: mappings, ending, ?_, hending, List.pairwise_cons.mpr ⟨?_, hordered⟩, ?_⟩
      · rw [hrest, hpulls]
        rfl
      · intro next hnext
        exact Nat.lt_of_lt_of_le hlast (hall next hnext).1
      · intro other hother
        rcases List.mem_cons.mp hother with rfl | hother
        · exact ⟨hstart, hfills⟩
        · obtain ⟨hfrom, hother⟩ := hall other hother
          obtain ⟨level, _, _, hend, _⟩ := hfills
          have hpos : 0 < 2 ^ levelShift level := Nat.two_pow_pos _
          exact ⟨by simp only [upTo] at hfrom; omega, hother⟩

/-- Under one kernel, the mappings of a walk that meets no fault come in ascending order. -/
theorem stream_ordered {target : Target} {walk : Walk} (h : Sound walk) {mappings : List Mapping}
    (hstream : Traversal.stream target walk = mappings.map .ok) :
    mappings.Pairwise Mapping.Before ∧ ∀ mapping ∈ mappings, mapping.FillsEntry := by
  obtain ⟨given, ending, hpulls, hending, hordered, hall⟩ :=
    pulls_ordered (List.replicate (Traversal.bound walk) target) walk h
  have hitems := Traversal.items_pulls target (Nat.le_refl (Traversal.bound walk))
  rw [hpulls, hstream, List.filterMap_append, List.filterMap_map] at hitems
  have hgiven : given.filterMap (id ∘ some ∘ .ok) = (given.map .ok : List (Except Fault Mapping)) :=
    congrFun List.filterMap_eq_map given
  have hnone : ∀ count : Nat,
      (List.replicate count (none : Option (Except Fault Mapping))).filterMap id = [] := by simp
  rw [hgiven] at hitems
  have hend : ending.filterMap id = [] := by
    rcases hending with ⟨count, rfl⟩ | ⟨fault, count, rfl⟩
    · exact hnone count
    · -- a fault is no mapping
      have hmem : .error fault ∈ mappings.map (Except.ok : Mapping → Except Fault Mapping) := by
        rw [← hitems]
        exact List.mem_append_right _ List.mem_cons_self
      obtain ⟨_, _, h⟩ := List.mem_map.mp hmem
      cases h
  rw [hend, List.append_nil] at hitems
  obtain rfl : given = mappings := (List.map_inj_right fun _ _ => Except.ok.inj).mp hitems
  exact ⟨hordered, fun mapping hmem => (hall mapping hmem).2⟩

/-! ## 4. All pulls of a walk -/

/-- Mappings one behind the other take up at least a page each. -/
theorem length_mappings_le {mappings : List Mapping} {low : Nat} (hlow : low ≤ 2 ^ 39)
    (hordered : mappings.Pairwise Mapping.Before)
    (hall : ∀ mapping ∈ mappings, low ≤ mapping.start.bits.toNat ∧ mapping.FillsEntry) :
    4096 * mappings.length + low ≤ 2 ^ 39 := by
  induction mappings generalizing low with
  | nil => simpa using hlow
  | cons mapping later ih =>
    obtain ⟨hbefore, hordered⟩ := List.pairwise_cons.mp hordered
    obtain ⟨hstart, level, -, -, hend, hlast⟩ := hall mapping List.mem_cons_self
    have hpage : 4096 ≤ 2 ^ levelShift level := by
      rw [levelShift_eq, Nat.pow_add]
      exact Nat.le_mul_of_pos_right _ (Nat.two_pow_pos _)
    have hlater := @ih (mapping.last.bits.toNat + 1) (by omega) hordered fun next hnext =>
      ⟨hbefore next hnext, (hall next (List.mem_cons_of_mem _ hnext)).2⟩
    rw [List.length_cons]
    omega

/-- **A walk under a kernel that changes in any way.** The open tables never number more than three
    and have the levels 2, 1, 0 from the outermost on, at every step of every pull; each pull ends
    after a bounded number of steps; and the answers to all pulls are mappings in strictly ascending
    order, apart from each other, each filling one entry of its level, at most `512 ^ 3` of them,
    then at most one fault, then none. -/
theorem ordered_under_changes (root : PAddr) (targets : List Target) :
    (∀ cursors, Opened root cursors →
      cursors.length ≤ 3 ∧ (cursors.map Cursor.level).reverse <+: [2, 1, 0]) ∧
    Within root (Traversal.after targets (Walk.unread root)) ∧
    (∀ target, ∃ count rest, count ≤ bound (.unread root) + 1 ∧
      Runs target count (Traversal.after targets (Walk.unread root))
        (Traversal.pull target (Traversal.after targets (Walk.unread root))).item rest ∧
      (Traversal.pull target (Traversal.after targets (Walk.unread root))).rest = .inside rest) ∧
    ∃ (mappings : List Mapping) (ending : List (Option (Except Fault Mapping))),
      Traversal.pulls targets (Walk.unread root) = mappings.map (some ∘ .ok) ++ ending ∧
      Ending ending ∧ mappings.Pairwise Mapping.Before ∧
      (∀ mapping ∈ mappings, mapping.FillsEntry) ∧ mappings.length ≤ 512 ^ 3 := by
  refine ⟨fun cursors h => ?_, within_after (.unread root) rfl targets, fun target => ?_, ?_⟩
  · have hlevels := levels_of_nested (nested_of_opened h)
    exact ⟨by simpa using hlevels.length_le, hlevels⟩
  · obtain ⟨count, rest, hcount, hruns, hrest⟩ :=
      runs_pull target (Traversal.after targets (Walk.unread root))
    have hbound := Traversal.bound_after targets (Walk.unread root)
    exact ⟨count, rest, Nat.le_trans hcount (Nat.succ_le_succ hbound), hruns, hrest⟩
  · obtain ⟨mappings, ending, hpulls, hending, hordered, hall⟩ :=
      pulls_ordered targets (.unread root) trivial
    have hlength := length_mappings_le (Nat.zero_le _) hordered hall
    exact ⟨mappings, ending, hpulls, hending, hordered, fun mapping h => (hall mapping h).2,
      by omega⟩

end Walk

end KernelProbe
