import KernelProbe.Proofs.Paging.Coverage
import KernelProbe.Proofs.Paging.Merging
import KernelProbe.Proofs.Paging.Order

/-!
# The ranges are a normal form of the translation

Which leaves a page table is made of, where its tables lie and which flags are set beside the
permission cannot be seen in the ranges that a walk is shown as: they are the longest intervals of
addresses that are sent to physical memory in one piece with one permission. Two page tables with
the same translation are shown alike.

* `Uniform`, `Maximal` -- an interval that is sent in one piece, and one that cannot be made longer;
* `Canonical` -- the ranges are the maximal intervals, in order;
* `canonical_of_apart` -- ranges that do not go on from each other are canonical;
* `joined_walk_canonical` -- the ranges of a walk.
-/

namespace KernelProbe

/-! ## 1. Maximal intervals -/

/-- **An interval that is sent in one piece**: every address from `s` to `e`, both included, has a
    byte behind it, at the same distance from the address and with the same permission. -/
def Uniform (τ : Nat → Option (Nat × Nat)) (s e : Nat) : Prop :=
  s ≤ e ∧ ∃ (distance : Int) (permission : Nat), ∀ va, s ≤ va → va ≤ e →
    ∃ byte : Nat, τ va = some (byte, permission) ∧ (byte : Int) - va = distance

/-- Such an interval that lies in no other one. -/
def Maximal (τ : Nat → Option (Nat × Nat)) (s e : Nat) : Prop :=
  Uniform τ s e ∧ ∀ s' e', s' ≤ s → e ≤ e' → Uniform τ s' e' → s' = s ∧ e' = e

/-- **A normal form**: the ranges are the maximal intervals, each once and in ascending order, with
    the byte and the permission behind their first address. -/
structure Canonical (τ : Nat → Option (Nat × Nat)) (ranges : List Range) : Prop where
  ascending : ranges.Pairwise Range.Before
  maximal : ∀ s e, Maximal τ s e ↔
    ∃ range ∈ ranges, range.start.bits.toNat = s ∧ range.last.bits.toNat = e
  sent : ∀ range ∈ ranges, τ range.start.bits.toNat =
    some (range.physical.bits.toNat, range.permission.bits.toNat)

variable {τ : Nat → Option (Nat × Nat)}

/-- Two uniform intervals with an address in common are uniform together. -/
theorem Uniform.union {s e s' e' va : Nat} (h : Uniform τ s e) (h' : Uniform τ s' e')
    (hva : s ≤ va ∧ va ≤ e) (hva' : s' ≤ va ∧ va ≤ e') : Uniform τ (min s s') (max e e') := by
  obtain ⟨_, distance, permission, hall⟩ := h
  obtain ⟨_, distance', permission', hall'⟩ := h'
  obtain ⟨byte, hbyte, hdistance⟩ := hall va hva.1 hva.2
  obtain ⟨byte', hbyte', hdistance'⟩ := hall' va hva'.1 hva'.2
  rw [hbyte] at hbyte'
  cases hbyte'
  rw [hdistance] at hdistance'
  subst hdistance'
  refine ⟨by omega, distance, permission, fun other hlow hhigh => ?_⟩
  by_cases hother : s ≤ other ∧ other ≤ e
  · exact hall other hother.1 hother.2
  · exact hall' other (by omega) (by omega)

/-! ## 2. Ranges that do not go on from each other -/

theorem Range.eq_of_toNat {range other : Range}
    (hstart : range.start.bits.toNat = other.start.bits.toNat)
    (hlast : range.last.bits.toNat = other.last.bits.toNat)
    (hphysical : range.physical.bits.toNat = other.physical.bits.toNat)
    (hpermission : range.permission.bits.toNat = other.permission.bits.toNat) : range = other := by
  cases range
  cases other
  rw [Range.mk.injEq]
  exact ⟨VAddr.eq_of_toNat hstart, VAddr.eq_of_toNat hlast, PAddr.eq_of_toNat hphysical,
    Flags.eq_of_toNat hpermission⟩

section Apart

variable {ranges : List Range} (hproper : ∀ range ∈ ranges, range.Proper)
  (hapart : ranges.Pairwise Range.Apart)
  (hsends : ∀ va byte, τ va = some byte ↔ ∃ range ∈ ranges, range.Sends va byte)

include hapart in
/-- Of two ranges one lies behind the other. -/
theorem apart_cases {range other : Range} (h : range ∈ ranges) (h' : other ∈ ranges) :
    range = other ∨ range.Apart other ∨ other.Apart range :=
  List.Pairwise.forall_of_forall_of_flip (R := fun range other =>
    range = other ∨ range.Apart other ∨ other.Apart range) (fun _ _ => .inl rfl)
    (hapart.imp fun h => .inr (.inl h)) (hapart.imp fun h => .inr (.inr h)) h h'

include hsends in
/-- Where a range sends its addresses, there the translation does. -/
theorem translation_of_mem {range : Range} (h : range ∈ ranges) {va : Nat}
    (hlow : range.start.bits.toNat ≤ va) (hhigh : va ≤ range.last.bits.toNat) :
    τ va = some (range.physical.bits.toNat + (va - range.start.bits.toNat),
      range.permission.bits.toNat) :=
  (hsends va _).mpr ⟨range, h, hlow, hhigh, rfl⟩

include hproper hapart hsends

/-- **A uniform interval does not pass from one range to another.** -/
theorem eq_of_uniform {s e va : Nat} (h : Uniform τ s e) (hs : s ≤ va) (he : va + 1 ≤ e)
    {range other : Range} (hmem : range ∈ ranges) (hmem' : other ∈ ranges)
    (hva : range.start.bits.toNat ≤ va ∧ va ≤ range.last.bits.toNat)
    (hnext : other.start.bits.toNat ≤ va + 1 ∧ va + 1 ≤ other.last.bits.toNat) :
    range = other := by
  obtain ⟨_, distance, permission, hall⟩ := h
  obtain ⟨byte, hbyte, hdistance⟩ := hall va hs (by omega)
  obtain ⟨byte', hbyte', hdistance'⟩ := hall (va + 1) (by omega) he
  rw [translation_of_mem hsends hmem hva.1 hva.2] at hbyte
  rw [translation_of_mem hsends hmem' hnext.1 hnext.2] at hbyte'
  simp only [Option.some.injEq, Prod.mk.injEq] at hbyte hbyte'
  rcases apart_cases hapart hmem hmem' with heq | ⟨hbefore, hgoes⟩ | ⟨hbefore, _⟩
  · exact heq
  · -- the second range would go on from the first
    have hbefore : range.last.bits.toNat < other.start.bits.toNat := hbefore
    refine absurd ((Range.goesOn_iff (hproper range hmem)).mpr ⟨by omega, ?_, by omega⟩) hgoes
    exact Flags.eq_of_toNat (hbyte.2.trans hbyte'.2.symm)
  · have hbefore : other.last.bits.toNat < range.start.bits.toNat := hbefore
    omega

theorem maximal_of_mem {range : Range} (hmem : range ∈ ranges) :
    Maximal τ range.start.bits.toNat range.last.bits.toNat := by
  have hstart := (hproper range hmem).start_le
  refine ⟨⟨hstart, (range.physical.bits.toNat : Int) - range.start.bits.toNat,
    range.permission.bits.toNat, fun va hlow hhigh =>
      ⟨_, translation_of_mem hsends hmem hlow hhigh, by omega⟩⟩, fun s e hs he h => ⟨?_, ?_⟩⟩
  · -- an address further down would be in the same range
    refine Nat.le_antisymm hs (Nat.le_of_not_lt fun hlt => ?_)
    obtain ⟨_, distance, permission, hall⟩ := id h
    obtain ⟨byte, hbyte, _⟩ := hall (range.start.bits.toNat - 1) (by omega) (by omega)
    obtain ⟨other, hother, hlow, hhigh, _⟩ := (hsends _ _).mp hbyte
    obtain rfl := eq_of_uniform hproper hapart hsends h
      (show s ≤ range.start.bits.toNat - 1 by omega) (by omega) hother hmem ⟨hlow, hhigh⟩ (by omega)
    omega
  · refine Nat.le_antisymm (Nat.le_of_not_lt fun hlt => ?_) he
    obtain ⟨_, distance, permission, hall⟩ := id h
    obtain ⟨byte, hbyte, _⟩ := hall (range.last.bits.toNat + 1) (by omega) (by omega)
    obtain ⟨other, hother, hlow, hhigh, _⟩ := (hsends _ _).mp hbyte
    obtain rfl := eq_of_uniform hproper hapart hsends h (show s ≤ range.last.bits.toNat by omega)
      (by omega) hmem hother (by omega) ⟨hlow, hhigh⟩
    omega

/-- **Proper ranges that do not go on from each other are the normal form** of what they send. -/
theorem canonical_of_apart : Canonical τ ranges where
  ascending := hapart.imp And.left
  maximal s e := by
    constructor
    · intro h
      obtain ⟨hse, distance, permission, hall⟩ := h.1
      obtain ⟨byte, hbyte, _⟩ := hall s (Nat.le_refl s) hse
      obtain ⟨range, hmem, hlow, hhigh, _⟩ := (hsends _ _).mp hbyte
      have hrange := maximal_of_mem hproper hapart hsends hmem
      have hunion := h.1.union hrange.1 ⟨Nat.le_refl s, hse⟩ ⟨hlow, hhigh⟩
      -- neither of the two can be made longer, so they are the same
      obtain ⟨hmin, hmax⟩ := h.2 _ _ (Nat.min_le_left _ _) (Nat.le_max_left _ _) hunion
      obtain ⟨hmin', hmax'⟩ := hrange.2 _ _ (Nat.min_le_right _ _) (Nat.le_max_right _ _) hunion
      exact ⟨range, hmem, hmin'.symm.trans hmin, hmax'.symm.trans hmax⟩
    · rintro ⟨range, hmem, rfl, rfl⟩
      exact maximal_of_mem hproper hapart hsends hmem
  sent range hmem := by
    have hfirst := translation_of_mem hsends hmem (Nat.le_refl _) (hproper range hmem).start_le
    rwa [Nat.sub_self, Nat.add_zero] at hfirst

end Apart

/-! ## 3. There is one normal form -/

theorem Canonical.start_le {ranges : List Range} (h : Canonical τ ranges) {range : Range}
    (hmem : range ∈ ranges) : range.start.bits.toNat ≤ range.last.bits.toNat :=
  ((h.maximal _ _).mpr ⟨range, hmem, rfl, rfl⟩).1.1

theorem Canonical.nodup {ranges : List Range} (h : Canonical τ ranges) : ranges.Nodup := by
  refine h.ascending.imp_of_mem fun {range other} hmem _ hbefore heq => ?_
  subst heq
  have hbefore : range.last.bits.toNat < range.start.bits.toNat := hbefore
  have := h.start_le hmem
  omega

theorem Canonical.subset {ranges others : List Range} (h : Canonical τ ranges)
    (h' : Canonical τ others) {range : Range} (hmem : range ∈ ranges) : range ∈ others := by
  obtain ⟨other, hmem', hstart, hlast⟩ :=
    (h'.maximal _ _).mp ((h.maximal _ _).mpr ⟨range, hmem, rfl, rfl⟩)
  have hsent := h'.sent other hmem'
  rw [hstart, h.sent range hmem] at hsent
  simp only [Option.some.injEq, Prod.mk.injEq] at hsent
  rwa [Range.eq_of_toNat hstart.symm hlast.symm hsent.1 hsent.2]

/-- **A translation has one normal form.** -/
theorem Canonical.unique {ranges others : List Range} (h : Canonical τ ranges)
    (h' : Canonical τ others) : ranges = others := by
  have hperm : ranges.Perm others :=
    (List.perm_ext_iff_of_nodup h.nodup h'.nodup).mpr fun _ => ⟨h.subset h', h'.subset h⟩
  refine hperm.eq_of_pairwise (fun range other hmem hmem' hbefore hafter => ?_) h.ascending
    h'.ascending
  -- two ranges cannot each lie behind the other
  have hbefore : range.last.bits.toNat < other.start.bits.toNat := hbefore
  have hafter : other.last.bits.toNat < range.start.bits.toNat := hafter
  have := h.start_le hmem
  have := h'.start_le hmem'
  omega

/-! ## 4. The ranges of a walk -/

theorem lookup_physical_lt {target : Target} {va levels : Nat} {address : PAddr} {leaf : Leaf}
    (h : lookup target va levels address = some leaf) : leaf.physical < 2 ^ 56 := by
  induction levels generalizing address with
  | zero => cases h
  | succ level ih =>
    rw [lookup] at h
    split at h
    next => cases h
    next table hread =>
      dsimp only at h
      split at h
      next => cases h
      next =>
        split at h
        next => exact ih h
        next =>
          cases h
          simp only [wordAddress]
          omega

/-- What the range of a mapping sends. -/
theorem Mapping.sends_range (mapping : Mapping) (va : Nat) (byte : Nat × Nat) :
    mapping.range.Sends va byte ↔ mapping.covers va = true ∧
      byte = (mapping.physical.bits.toNat + (va - mapping.start.bits.toNat),
        mapping.flags.bits.toNat % 2 ^ 5) := by
  rw [← Flags.toNat_permission, covers, decide_eq_true_eq, and_assoc]
  exact Iff.rfl

section Mappings

variable {target : Target} {root : PAddr} {mappings : List Mapping}
  (htree : Walk.tree target tableLevels root ⟨0⟩ = mappings.map .ok)

include htree

/-- A mapping that covers an address is the one of the leaf that its look-up ends in. -/
theorem exists_leaf_of_covers {mapping : Mapping} (hmem : mapping ∈ mappings) {va : Nat}
    (hva : va < 2 ^ 39) (hcovers : mapping.covers va = true) :
    ∃ leaf, translate target root va = some leaf ∧ leaf.Maps va mapping := by
  have hfilter : mapping ∈ mappings.filter (Mapping.covers va) :=
    List.mem_filter.mpr ⟨hmem, hcovers⟩
  have hshows := Walk.filter_covers htree hva
  cases htranslate : translate target root va with
  | none =>
    rw [htranslate] at hshows
    rw [List.map_eq_nil_iff.mp hshows] at hfilter
    cases hfilter
  | some leaf =>
    rw [htranslate] at hshows
    obtain ⟨found, hmap, hleaf⟩ := hshows
    obtain ⟨other, hother, hfound⟩ := List.map_eq_singleton_iff.mp hmap
    rw [hother] at hfilter
    cases List.mem_singleton.mp hfilter
    cases hfound
    exact ⟨leaf, rfl, hleaf⟩

/-- **The translation is what the ranges of the mappings send.** -/
theorem translation_eq_some_iff
    (hbelow : ∀ mapping ∈ mappings, mapping.last.bits.toNat < 2 ^ 39) (va : Nat)
    (byte : Nat × Nat) :
    translation target root va = some byte ↔
      ∃ range ∈ mappings.map Mapping.range, range.Sends va byte := by
  constructor
  · intro h
    unfold translation at h
    split at h
    next hva =>
      obtain ⟨leaf, htranslate, hbyte⟩ := Option.map_eq_some_iff.mp h
      have hshows := Walk.filter_covers htree hva
      rw [htranslate] at hshows
      obtain ⟨found, hmap, hleaf⟩ := hshows
      obtain ⟨mapping, hfilter, hfound⟩ := List.map_eq_singleton_iff.mp hmap
      obtain rfl := Except.ok.inj hfound
      obtain ⟨hmem, hcovers⟩ := List.mem_filter.mp (hfilter ▸ List.mem_singleton_self mapping)
      refine ⟨mapping.range, List.mem_map_of_mem hmem,
        (mapping.sends_range va byte).mpr ⟨hcovers, ?_⟩⟩
      have hle := Nat.mod_le va leaf.span
      rw [← hbyte, hleaf.physical, hleaf.start, hleaf.flags, Nat.sub_sub_self hle]
      rfl
    next => cases h
  · rintro ⟨range, hrange, hsends⟩
    obtain ⟨mapping, hmem, rfl⟩ := List.mem_map.mp hrange
    obtain ⟨hcovers, rfl⟩ := (mapping.sends_range va byte).mp hsends
    have hva : va < 2 ^ 39 := by
      have hlast := hbelow mapping hmem
      simp only [Mapping.covers, decide_eq_true_eq] at hcovers
      omega
    obtain ⟨leaf, htranslate, hleaf⟩ := exists_leaf_of_covers htree hmem hva hcovers
    have hle := Nat.mod_le va leaf.span
    rw [translation, if_pos hva, htranslate, hleaf.physical, hleaf.start, hleaf.flags,
      Nat.sub_sub_self hle]
    rfl

theorem sound_range {mapping : Mapping} (hmem : mapping ∈ mappings) (hfills : mapping.FillsEntry) :
    mapping.range.Sound := by
  obtain ⟨level, _, _, hlast, hbelow⟩ := hfills
  have hpos : 0 < 2 ^ levelShift level := Nat.two_pow_pos _
  have hstart : mapping.start.bits.toNat ≤ mapping.last.bits.toNat := by omega
  obtain ⟨leaf, htranslate, hleaf⟩ := exists_leaf_of_covers htree hmem
    (show mapping.start.bits.toNat < 2 ^ 39 by omega)
    (by simp only [Mapping.covers, decide_eq_true_eq]; omega)
  have hphysical := lookup_physical_lt htranslate
  refine ⟨hstart, hbelow, ?_⟩
  show mapping.physical.bits.toNat + (mapping.last.bits.toNat - mapping.start.bits.toNat) < 2 ^ 57
  rw [hleaf.physical]
  omega

end Mappings

/-- The ranges of a page table that can be read are the normal form of its translation. -/
theorem canonical_stream {target : Target} {root : PAddr} (hreadable : Readable target root) :
    ∃ ranges : List Range,
      Traversal.stream target (Joining.of (Walk.unread root)) = ranges.map .ok ∧
      Canonical (translation target root) ranges := by
  obtain ⟨mappings, htree, hstream⟩ := Walk.stream_readable hreadable
  obtain ⟨hordered, hfills⟩ :=
    Walk.stream_ordered (show Walk.Sound (.unread root) from trivial) hstream
  have hbelow : ∀ mapping ∈ mappings, mapping.last.bits.toNat < 2 ^ 39 := fun mapping hmem => by
    obtain ⟨_, _, _, _, hlast⟩ := hfills mapping hmem
    exact hlast
  have hproper : ∀ range ∈ mappings.map Mapping.range, range.Proper := fun range hrange => by
    obtain ⟨mapping, hmem, rfl⟩ := List.mem_map.mp hrange
    exact (sound_range htree hmem (hfills mapping hmem)).proper
  obtain ⟨hproper, hapart, hsends⟩ :=
    Range.merge_spec hproper (List.pairwise_map.mpr (hordered.imp fun h => h))
  refine ⟨Range.merge (mappings.map Mapping.range), ?_,
    canonical_of_apart hproper hapart fun va byte => ?_⟩
  · rw [Joining.stream_eq, Joining.of, hstream, Joining.output_map]
  · rw [translation_eq_some_iff htree hbelow, hsends]

/-- **The ranges of a walk are a normal form of the translation.** Of a page table that can all be
    read, the ranges given are the maximal intervals of addresses that are sent in one piece with
    one permission, each once and in ascending order; and any other page table with the same
    translation gives the same ranges. -/
theorem joined_walk_canonical (target : Target) (root : PAddr) (hreadable : Readable target root) :
    ∃ ranges : List Range,
      Traversal.stream target (Joining.of (Walk.unread root)) = ranges.map .ok ∧
      Canonical (translation target root) ranges ∧
      ∀ (target' : Target) (root' : PAddr), Readable target' root' →
        (∀ va, va < 2 ^ 39 → translation target' root' va = translation target root va) →
        Traversal.stream target' (Joining.of (Walk.unread root')) = ranges.map .ok := by
  obtain ⟨ranges, hstream, hcanonical⟩ := canonical_stream hreadable
  refine ⟨ranges, hstream, hcanonical, fun target' root' hreadable' hsame => ?_⟩
  obtain ⟨ranges', hstream', hcanonical'⟩ := canonical_stream hreadable'
  have heq : translation target' root' = translation target root := by
    funext va
    by_cases hva : va < 2 ^ 39
    · exact hsame va hva
    · rw [translation, translation, if_neg hva, if_neg hva]
  rw [heq] at hcanonical'
  rw [hstream', hcanonical'.unique hcanonical]

/-- The flags A and D of the leaf do not show in the translation. -/
theorem translation_mirrored (va : Nat) :
    translation (.mirrored 0x0F) ⟨0x1000⟩ va = translation (.mirrored 0xCF) ⟨0x1000⟩ va := by
  simp only [translation, translate, Target.mirrored, lookup_ofTables]
  rcases h₂ : (pageIndex 2 va).val with _ | _ | _
  · simp [Leaf.permission, Leaf.span, wordAddress]
  · rcases h₁ : (pageIndex 1 va).val with _ | _ | _
    · simp [Leaf.permission, Leaf.span, wordAddress]
    · rcases h₀ : (pageIndex 0 va).val with _ | _ | _
      · simp [Leaf.permission, Leaf.span, wordAddress]
      · simp [lookup]
      · simp
    · simp
  · simp

/-- Tables that all point at themselves are shown as one normal form, whatever the flags A and D of
    their leaf. -/
theorem joined_mirrored_canonical :
    Readable (.mirrored 0xCF) ⟨0x1000⟩ ∧ Readable (.mirrored 0x0F) ⟨0x1000⟩ ∧
      translation (.mirrored 0xCF) ⟨0x1000⟩ 0x40200123 = some (0x123, 0xF) ∧
      ∃ ranges : List Range,
        Traversal.stream (.mirrored 0xCF) (Joining.of (Walk.unread ⟨0x1000⟩)) = ranges.map .ok ∧
        Canonical (translation (.mirrored 0xCF) ⟨0x1000⟩) ranges ∧
        Traversal.stream (.mirrored 0x0F) (Joining.of (Walk.unread ⟨0x1000⟩)) = ranges.map .ok := by
  have hreadable : Readable (.mirrored 0xCF) ⟨0x1000⟩ := readable_ofTables _ _
  have hreadable' : Readable (.mirrored 0x0F) ⟨0x1000⟩ := readable_ofTables _ _
  obtain ⟨ranges, hstream, hcanonical, hunique⟩ :=
    joined_walk_canonical (.mirrored 0xCF) ⟨0x1000⟩ hreadable
  refine ⟨hreadable, hreadable', ?_, ranges, hstream, hcanonical,
    hunique _ _ hreadable' fun va _ => translation_mirrored va⟩
  simp only [translation, translate, Target.mirrored, lookup_ofTables]
  rfl

end KernelProbe
