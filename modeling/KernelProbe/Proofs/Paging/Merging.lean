import KernelProbe.Paging.Range
import KernelProbe.Proofs.Address.PageNumbers
import KernelProbe.Proofs.Traversal.Pulls

/-!
# Merging neighbouring ranges

A `Joining` holds one range back while it reads on. What it gives in all is a plain recursion on the
items of its source (`Joining.output`); of mappings without a fault among them it is `Range.merge`.
Merging never changes where an address is sent, and of two ranges in its result the second does not
go on from the first.

* `Joining.stream_eq` -- the ranges given, as a recursion on the items of the source;
* `Range.Sends` -- the physical byte and the permission that a range has for an address;
* `Range.Continues` -- when one range goes on from another, in natural numbers;
* `Range.merge_spec` -- merging keeps what is sent, and leaves nothing to merge.
-/

namespace KernelProbe

/-! ## 1. The ranges as a list -/

namespace Joining

/-- What is given for these items of the source, with a range held back. -/
def output : Option Range → List (Except Fault Mapping) → List (Except Fault Range)
  | held, [] => (held.map .ok).toList
  | _, .error fault :: rest => .error fault :: output none rest
  | none, .ok mapping :: rest => output (some mapping.range) rest
  | some range, .ok mapping :: rest =>
    match range.join? mapping.range with
    | some joined => output (some joined) rest
    | none => .ok range :: output (some mapping.range) rest

variable {σ : Type} [Traversal σ Mapping]

theorem gather_output (target : Target) (events : Array Event) (held : Option Range) (source : σ) :
    output held (Traversal.stream target source) =
      (gather target events held source).item.toList ++
        output (gather target events held source).rest.held
          (Traversal.stream target (gather target events held source).rest.source) := by
  fun_induction gather target events held source with
  | case1 events held source seen rest hpull =>
    have hnone : (Traversal.pull target source).item = none := by rw [hpull]
    have hbound := Traversal.bound_end target source hnone
    rw [hpull] at hbound
    rw [Traversal.stream_of_none hnone, Traversal.stream_of_none (Traversal.item_eq_none hbound)]
    cases held <;> rfl
  | case2 events held source seen fault rest hpull =>
    have hitem : (Traversal.pull target source).item = some (.error fault) := by rw [hpull]
    rw [Traversal.stream_of_some hitem, hpull]
    cases held <;> rfl
  | case3 events source seen mapping rest hpull ih =>
    have hitem : (Traversal.pull target source).item = some (.ok mapping) := by rw [hpull]
    rw [Traversal.stream_of_some hitem, hpull]
    exact ih
  | case4 events source seen mapping rest hpull range joined hjoin ih =>
    have hitem : (Traversal.pull target source).item = some (.ok mapping) := by rw [hpull]
    rw [Traversal.stream_of_some hitem, hpull, output, hjoin]
    exact ih
  | case5 events source seen mapping rest hpull range hjoin =>
    have hitem : (Traversal.pull target source).item = some (.ok mapping) := by rw [hpull]
    rw [Traversal.stream_of_some hitem, hpull, output, hjoin]
    rfl

/-- With nothing more to come there is no range held back and nothing left in the source. -/
theorem output_ended {target : Target} {joining : Joining σ} (h : bound joining = 0) :
    output joining.held (Traversal.stream target joining.source) = [] := by
  have hsource : Traversal.bound joining.source = 0 := Nat.eq_zero_of_add_eq_zero_right h
  have hheld := Nat.eq_zero_of_add_eq_zero_left h
  rw [Traversal.stream_of_none (Traversal.item_eq_none hsource)]
  cases hrange : joining.held with
  | none => rfl
  | some range =>
    rw [hrange] at hheld
    cases hheld

/-- **The stream of a joining**, by the stream of its source. -/
theorem stream_eq (target : Target) (joining : Joining σ) :
    Traversal.stream target joining =
      output joining.held (Traversal.stream target joining.source) := by
  rw [gather_output target #[]]
  show _ = (Traversal.pull target joining).item.toList ++
    output (Traversal.pull target joining).rest.held
      (Traversal.stream target (Traversal.pull target joining).rest.source)
  cases hitem : (Traversal.pull target joining).item with
  | none =>
    rw [Traversal.stream_of_none hitem, output_ended (Traversal.bound_end target joining hitem)]
    rfl
  | some item =>
    rw [Traversal.stream_of_some hitem, stream_eq target (Traversal.pull target joining).rest]
    rfl
termination_by Traversal.bound joining
decreasing_by exact Traversal.bound_lt target joining hitem

end Joining

/-! ## 2. Ranges in natural numbers -/

namespace Range

/-- A range that begins before it ends, lies below bit 39 and does not wrap physically. -/
structure Sound (range : Range) : Prop where
  start_le : range.start.bits.toNat ≤ range.last.bits.toNat
  last_lt : range.last.bits.toNat < 2 ^ 39
  physical_lt :
    range.physical.bits.toNat + (range.last.bits.toNat - range.start.bits.toNat) < 2 ^ 57

/-- A range that begins before it ends, and behind which there is another address. -/
structure Proper (range : Range) : Prop where
  start_le : range.start.bits.toNat ≤ range.last.bits.toNat
  last_lt : range.last.bits.toNat < 2 ^ 64 - 1

theorem Sound.proper {range : Range} (h : range.Sound) : range.Proper :=
  ⟨h.start_le, Nat.lt_of_lt_of_le h.last_lt (by decide)⟩

/-- What a range has for an address: the physical byte behind it, and the permission. -/
def Sends (range : Range) (va : Nat) (byte : Nat × Nat) : Prop :=
  range.start.bits.toNat ≤ va ∧ va ≤ range.last.bits.toNat ∧
    byte = (range.physical.bits.toNat + (va - range.start.bits.toNat),
      range.permission.bits.toNat)

/-- **The second range continues the first**: it begins right after it, in virtual and in physical
    addresses, with the same permission. -/
structure Continues (range next : Range) : Prop where
  adjacent : range.last.bits.toNat + 1 = next.start.bits.toNat
  permission : range.permission = next.permission
  physical : range.physical.bits.toNat + (range.last.bits.toNat - range.start.bits.toNat + 1) =
    next.physical.bits.toNat

instance (range next : Range) : Decidable (range.Continues next) :=
  decidable_of_iff (_ ∧ _ ∧ _) ⟨fun ⟨h₁, h₂, h₃⟩ => ⟨h₁, h₂, h₃⟩, fun ⟨h₁, h₂, h₃⟩ => ⟨h₁, h₂, h₃⟩⟩

theorem toNat_span {range : Range} (h : range.Proper) :
    range.span.toNat = range.last.bits.toNat - range.start.bits.toNat + 1 := by
  have hstart := h.start_le
  have hlast := h.last_lt
  rw [span, UInt64.toNat_add, UInt64.toNat_sub_of_le _ _ (UInt64.le_iff_toNat_le.mpr hstart),
    UInt64.toNat_one, Nat.mod_eq_of_lt (by omega)]

/-- **When one proper range goes on from another.** -/
theorem goesOn_iff {range next : Range} (h : range.Proper) :
    range.goesOn next = true ↔ range.Continues next := by
  simp only [goesOn, decide_eq_true_eq, advance?_eq_some_iff, toNat_span h]
  exact ⟨fun ⟨h₁, h₂, h₃⟩ => ⟨h₁, h₂, h₃⟩, fun ⟨h₁, h₂, h₃⟩ => ⟨h₁, h₂, h₃⟩⟩

theorem join?_eq_some {range next joined : Range} (h : range.join? next = some joined) :
    range.goesOn next = true ∧ joined = { range with last := next.last } := by
  rw [join?] at h
  split at h
  next hgoes =>
    cases h
    exact ⟨hgoes, rfl⟩
  next => cases h

theorem join?_eq_none {range next : Range} (h : range.join? next = none) :
    ¬ range.goesOn next = true := by
  rw [join?] at h
  split at h
  next => cases h
  next hgoes => exact hgoes

section Join

variable {range next : Range} (hgoes : range.goesOn next = true) (h : range.Proper)
  (hnext : next.Proper)

include hgoes h hnext

theorem proper_joined : Proper { range with last := next.last } := by
  have hadjacent := ((goesOn_iff h).mp hgoes).adjacent
  obtain ⟨hstart, _⟩ := h
  obtain ⟨hstart', hlast'⟩ := hnext
  refine ⟨?_, hlast'⟩
  show range.start.bits.toNat ≤ next.last.bits.toNat
  omega

theorem sends_joined (va : Nat) (byte : Nat × Nat) :
    Sends { range with last := next.last } va byte ↔ range.Sends va byte ∨ next.Sends va byte := by
  obtain ⟨hadjacent, hpermission, hphysical⟩ := (goesOn_iff h).mp hgoes
  obtain ⟨hstart, hlast⟩ := h
  obtain ⟨hstart', hlast'⟩ := hnext
  unfold Sends
  rw [← hpermission, ← hphysical, ← hadjacent]
  constructor
  · rintro ⟨hlow, hhigh, rfl⟩
    by_cases hva : va ≤ range.last.bits.toNat
    · exact .inl ⟨hlow, hva, rfl⟩
    · refine .inr ⟨by omega, hhigh, Prod.ext ?_ rfl⟩
      dsimp only at hlow ⊢
      omega
  · rintro (⟨hlow, hhigh, rfl⟩ | ⟨hlow, hhigh, rfl⟩)
    · refine ⟨hlow, ?_, rfl⟩
      dsimp only
      omega
    · refine ⟨?_, hhigh, Prod.ext ?_ rfl⟩
      · dsimp only
        omega
      · dsimp only
        omega

end Join

/-! ## 3. Merging a list -/

/-- A range with what goes on from it merged into it, and the others behind it likewise. -/
def mergeInto (held : Range) : List Range → List Range
  | [] => [held]
  | next :: rest =>
    match held.join? next with
    | some joined => mergeInto joined rest
    | none => held :: mergeInto next rest

/-- Ranges with neighbours merged wherever one goes on from another. -/
def merge : List Range → List Range
  | [] => []
  | range :: rest => mergeInto range rest

/-- The second range lies behind the first. -/
def Before (range next : Range) : Prop :=
  range.last.bits.toNat < next.start.bits.toNat

/-- It does, and it does not go on from the first. -/
def Apart (range next : Range) : Prop :=
  range.Before next ∧ ¬ range.goesOn next = true

section Merge

variable {held : Range} {ranges : List Range}

/-- Every range of the result is one of the given ranges, perhaps made longer. -/
theorem exists_head_of_mem {range : Range} (h : range ∈ mergeInto held ranges) :
    ∃ head ∈ held :: ranges, range = { head with last := range.last } := by
  fun_induction mergeInto held ranges with
  | case1 held =>
    obtain rfl := List.mem_singleton.mp h
    exact ⟨range, List.mem_singleton_self _, rfl⟩
  | case2 held next rest joined hjoin ih =>
    obtain ⟨-, rfl⟩ := join?_eq_some hjoin
    obtain ⟨head, hmem, hhead⟩ := ih h
    rcases List.mem_cons.mp hmem with rfl | hmem
    · exact ⟨held, List.mem_cons_self, hhead⟩
    · exact ⟨head, List.mem_cons_of_mem _ (List.mem_cons_of_mem _ hmem), hhead⟩
  | case3 held next rest hjoin ih =>
    rcases List.mem_cons.mp h with rfl | h
    · exact ⟨range, List.mem_cons_self, rfl⟩
    · obtain ⟨head, hmem, hhead⟩ := ih h
      exact ⟨head, List.mem_cons_of_mem _ hmem, hhead⟩

section Property

/- What holds of all ranges before merging holds after it, if joining two ranges keeps it. -/

variable {P : Range → Prop} (hjoin : ∀ {range next : Range}, range.goesOn next = true →
  P range → P next → P { range with last := next.last })

include hjoin

theorem forall_cons_joined {next : Range} (hgoes : held.goesOn next = true)
    (h : ∀ range ∈ held :: next :: ranges, P range) :
    ∀ range ∈ { held with last := next.last } :: ranges, P range := by
  intro range hmem
  rcases List.mem_cons.mp hmem with rfl | hmem
  · exact hjoin hgoes (h held List.mem_cons_self)
      (h next (List.mem_cons_of_mem _ List.mem_cons_self))
  · exact h range (List.mem_cons_of_mem _ (List.mem_cons_of_mem _ hmem))

theorem forall_mergeInto (h : ∀ range ∈ held :: ranges, P range) :
    ∀ range ∈ mergeInto held ranges, P range := by
  fun_induction mergeInto held ranges with
  | case1 held => exact h
  | case2 held next rest joined hjoined ih =>
    obtain ⟨hgoes, rfl⟩ := join?_eq_some hjoined
    exact ih (forall_cons_joined hjoin hgoes h)
  | case3 held next rest _ ih =>
    intro range hmem
    rcases List.mem_cons.mp hmem with rfl | hmem
    · exact h range List.mem_cons_self
    · exact ih (fun other hother => h other (List.mem_cons_of_mem _ hother)) range hmem

theorem forall_merge (h : ∀ range ∈ ranges, P range) : ∀ range ∈ merge ranges, P range := by
  cases ranges with
  | nil => exact h
  | cons range rest => exact forall_mergeInto hjoin h

end Property

variable (hproper : ∀ range ∈ held :: ranges, range.Proper)

include hproper

/-- **Merging keeps what is sent.** -/
theorem sends_mergeInto (va : Nat) (byte : Nat × Nat) :
    (∃ range ∈ mergeInto held ranges, range.Sends va byte) ↔
      ∃ range ∈ held :: ranges, range.Sends va byte := by
  fun_induction mergeInto held ranges with
  | case1 held => exact Iff.rfl
  | case2 held next rest joined hjoin ih =>
    obtain ⟨hgoes, rfl⟩ := join?_eq_some hjoin
    have hheld := hproper held List.mem_cons_self
    have hnext := hproper next (List.mem_cons_of_mem _ List.mem_cons_self)
    rw [ih (forall_cons_joined proper_joined hgoes hproper)]
    simp only [List.mem_cons, or_and_right, exists_or, exists_eq_left,
      sends_joined hgoes hheld hnext, or_assoc]
  | case3 held next rest hjoin ih =>
    have hrest := ih fun range hmem => hproper range (List.mem_cons_of_mem _ hmem)
    simp only [List.mem_cons, or_and_right, exists_or, exists_eq_left] at hrest ⊢
    rw [hrest]

/-- **Merging leaves nothing to merge.** -/
theorem apart_mergeInto (hordered : (held :: ranges).Pairwise Before) :
    (mergeInto held ranges).Pairwise Apart := by
  fun_induction mergeInto held ranges with
  | case1 held => exact List.pairwise_singleton _ _
  | case2 held next rest joined hjoin ih =>
    obtain ⟨hgoes, rfl⟩ := join?_eq_some hjoin
    obtain ⟨-, hordered⟩ := List.pairwise_cons.mp hordered
    obtain ⟨hbefore, hordered⟩ := List.pairwise_cons.mp hordered
    -- the joined range ends where the second one did
    exact ih (forall_cons_joined proper_joined hgoes hproper)
      (List.pairwise_cons.mpr ⟨hbefore, hordered⟩)
  | case3 held next rest hjoin ih =>
    obtain ⟨hbefore, hordered⟩ := List.pairwise_cons.mp hordered
    have hheld := hproper held List.mem_cons_self
    have hnext := hproper next (List.mem_cons_of_mem _ List.mem_cons_self)
    refine List.pairwise_cons.mpr ⟨fun range hmem => ?_,
      ih (fun range hmem => hproper range (List.mem_cons_of_mem _ hmem)) hordered⟩
    obtain ⟨head, hhead, hrange⟩ := exists_head_of_mem hmem
    rw [hrange]
    refine ⟨hbefore head hhead, ?_⟩
    rcases List.mem_cons.mp hhead with rfl | hhead
    · show ¬ held.goesOn head = true
      exact join?_eq_none hjoin
    · -- a range further on does not even touch the one held back
      intro hgoes
      have hadjacent : held.last.bits.toNat + 1 = head.start.bits.toNat :=
        ((goesOn_iff hheld).mp hgoes).adjacent
      have hfirst : held.last.bits.toNat < next.start.bits.toNat :=
        hbefore next List.mem_cons_self
      have hsecond : next.last.bits.toNat < head.start.bits.toNat :=
        (List.pairwise_cons.mp hordered).1 head hhead
      have := hnext.start_le
      omega

end Merge

/-- **What merging does to proper ranges in ascending order.** -/
theorem merge_spec {ranges : List Range} (hproper : ∀ range ∈ ranges, range.Proper)
    (hordered : ranges.Pairwise Before) :
    (∀ range ∈ merge ranges, range.Proper) ∧ (merge ranges).Pairwise Apart ∧
      ∀ va byte, (∃ range ∈ merge ranges, range.Sends va byte) ↔
        ∃ range ∈ ranges, range.Sends va byte := by
  cases ranges with
  | nil => exact ⟨hproper, .nil, fun _ _ => Iff.rfl⟩
  | cons range rest =>
    exact ⟨forall_mergeInto proper_joined hproper, apart_mergeInto hproper hordered,
      sends_mergeInto hproper⟩

end Range

namespace Joining

theorem output_mapInto (held : Range) (mappings : List Mapping) :
    output (some held) (mappings.map .ok) =
      (held.mergeInto (mappings.map Mapping.range)).map .ok := by
  induction mappings generalizing held with
  | nil => rfl
  | cons mapping rest ih =>
    rw [List.map_cons, List.map_cons, output, Range.mergeInto]
    cases held.join? mapping.range with
    | some joined => exact ih joined
    | none => exact congrArg _ (ih mapping.range)

/-- **Of mappings without a fault the joining gives their ranges, merged.** -/
theorem output_map (mappings : List Mapping) :
    output none (mappings.map .ok) =
      ((Range.merge (mappings.map Mapping.range)).map .ok : List (Except Fault Range)) := by
  cases mappings with
  | nil => rfl
  | cons mapping rest => exact output_mapInto mapping.range rest

end Joining

end KernelProbe
