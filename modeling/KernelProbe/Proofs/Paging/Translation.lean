import KernelProbe.Paging.Walk
import KernelProbe.Proofs.Address.PageNumbers

/-!
# Address translation, one address at a time

What the hardware does with one virtual address, said without the walk: three page numbers are cut
out of the address by division, each picks a word of the table at its level, and the word decides by
its own bits whether the look-up fails, goes on in another table or ends in a leaf. Everything here
is a natural number except for the address at which a table is read.

* `lookup`, `translate` -- the look-up, and the leaf that it ends in;
* `translation` -- the physical byte behind a virtual one, with its permission;
* `Readable` -- no table that pointers lead to is unreadable;
* `Entry.kind_eq` -- what an entry says, by its bits;
* `Target.ofTables` -- kernels whose memory consists of tables.
-/

namespace KernelProbe

/-! ## 1. The look-up -/

/-- The page number of one level in an address, as an index. -/
def pageIndex (level va : Nat) : Fin entriesPerTable :=
  ⟨va / 2 ^ (12 + 9 * level) % 512, Nat.mod_lt _ (by decide)⟩

/-- The word of an entry. -/
def Table.word (table : Table) (index : Fin entriesPerTable) : Nat :=
  (table.entries.get index).bits.toNat

/-- A leaf that a look-up ends in: its level, the physical address in its word, and the flags. -/
structure Leaf where
  level : Nat
  physical : Nat
  flags : Nat
  deriving DecidableEq

/-- The physical address in the word of an entry. -/
def wordAddress (word : Nat) : Nat :=
  word / 2 ^ 10 % 2 ^ 44 * 2 ^ 12

/-- **The look-up of `va`** in the table at `address`, with so many levels to go: it fails at a word
    without V (bit 0) and when the levels run out, goes on in another table at a word without R, W
    and X (bits 1 to 3), and ends at any other. -/
def lookup (target : Target) (va : Nat) : (levels : Nat) → (address : PAddr) → Option Leaf
  | 0, _ => none
  | level + 1, address =>
    match Table.read target address with
    | .error _ => none
    | .ok table =>
      let word := table.word (pageIndex level va)
      if word % 2 = 0 then none
      else if word / 2 % 8 = 0 then lookup target va level ⟨.ofNat (wordAddress word)⟩
      else some ⟨level, wordAddress word, word % 2 ^ 10⟩

/-- The look-up of `va` from the root. -/
def translate (target : Target) (root : PAddr) (va : Nat) : Option Leaf :=
  lookup target va 3 root

namespace Leaf

/-- The bytes that a leaf maps. -/
def span (leaf : Leaf) : Nat :=
  2 ^ (12 + 9 * leaf.level)

/-- The flags V, R, W, X and U. -/
def permission (leaf : Leaf) : Nat :=
  leaf.flags % 2 ^ 5

end Leaf

/-- **The translation**: the physical byte behind a virtual one below bit 39, and its permission. -/
def translation (target : Target) (root : PAddr) (va : Nat) : Option (Nat × Nat) :=
  if va < 2 ^ 39 then
    (translate target root va).map fun leaf => (leaf.physical + va % leaf.span, leaf.permission)
  else none

/-! ## 2. Tables that can be reached -/

/-- The tables to which pointers lead from the root, each with its level. -/
inductive Reached (target : Target) (root : PAddr) : (level : Nat) → PAddr → Prop where
  | root : Reached target root 2 root
  | pointer {level : Nat} {address inner : PAddr} {table : Table}
      (h : Reached target root (level + 1) address) (hread : Table.read target address = .ok table)
      (index : Fin entriesPerTable) (hkind : (table.entries.get index).kind = .table inner) :
      Reached target root level inner

/-- Every table to which pointers lead can be read. -/
def Readable (target : Target) (root : PAddr) : Prop :=
  ∀ level address, Reached target root level address →
    ∃ table, Table.read target address = .ok table

/-! ## 3. Entries by their bits -/

theorem Flags.eq_of_toNat {flags other : Flags} (h : flags.bits.toNat = other.bits.toNat) :
    flags = other :=
  congrArg Flags.mk (BitVec.eq_of_toNat_eq h)

theorem getLsbD_flags (entry : Entry) {i : Nat} (h : i < 10) :
    entry.flags.bits.getLsbD i = decide (entry.bits.toNat / 2 ^ i % 2 = 1) := by
  rw [← Nat.testBit_eq_decide_div_mod_eq]
  simp only [Entry.flags, Flags.ofWord, flagBits, BitVec.getLsbD_setWidth, h, decide_true,
    Bool.true_and]
  rfl

theorem Entry.toNat_flags (entry : Entry) :
    entry.flags.bits.toNat = entry.bits.toNat % 2 ^ 10 :=
  BitVec.toNat_setWidth _ _

theorem Entry.toNat_address (entry : Entry) :
    entry.address.bits.toNat = wordAddress entry.bits.toNat := by
  rw [address, PAddr.toNat_ofPageNumber]
  show (entry.bits.toBitVec.extractLsb' 10 44).toNat * 2 ^ 12 = _
  rw [BitVec.extractLsb'_toNat, Nat.shiftRight_eq_div_pow]
  rfl

/-- **What an entry says**, by its bits. -/
theorem Entry.kind_eq (entry : Entry) :
    entry.kind =
      if entry.bits.toNat % 2 = 0 then .invalid
      else if entry.bits.toNat / 2 % 8 = 0 then .table ⟨.ofNat (wordAddress entry.bits.toNat)⟩
      else .leaf entry.address entry.flags := by
  have haddress : entry.address = ⟨.ofNat (wordAddress entry.bits.toNat)⟩ := by
    rw [← toNat_address, UInt64.ofNat_toNat]
  unfold kind Flags.grantsAccess Flags.valid Flags.readable Flags.writable Flags.executable
  simp only [getLsbD_flags entry (show 0 < 10 by decide),
    getLsbD_flags entry (show 1 < 10 by decide), getLsbD_flags entry (show 2 < 10 by decide),
    getLsbD_flags entry (show 3 < 10 by decide),
    Bool.or_eq_true, decide_eq_true_eq]
  by_cases hvalid : entry.bits.toNat % 2 = 0
  · rw [if_neg (by omega), if_pos hvalid]
  · rw [if_pos (by omega), if_neg hvalid]
    by_cases haccess : entry.bits.toNat / 2 % 8 = 0
    · rw [if_neg (by omega), if_pos haccess, haddress]
    · rw [if_pos (by omega), if_neg haccess]

/-- **A leaf** has V, and one of R, W and X at least; it maps its own address with its own flags. -/
theorem Entry.kind_eq_leaf {entry : Entry} {physical : PAddr} {flags : Flags} :
    entry.kind = .leaf physical flags ↔
      (entry.bits.toNat % 2 = 1 ∧ entry.bits.toNat / 2 % 8 ≠ 0) ∧
        entry.address = physical ∧ entry.flags = flags := by
  rw [kind_eq]
  split
  next hvalid => exact iff_of_false (fun h => nomatch h) fun h => by omega
  next hvalid =>
    split
    next haccess => exact iff_of_false (fun h => nomatch h) fun h => h.1.2 haccess
    next haccess =>
      rw [Kind.leaf.injEq]
      exact (and_iff_right ⟨by omega, haccess⟩).symm

theorem Flags.toNat_permission (flags : Flags) :
    flags.permission.bits.toNat = flags.bits.toNat % 2 ^ 5 := by
  rw [← Nat.and_two_pow_sub_one_eq_mod]
  rfl

/-! ## 4. Kernels made of tables -/

/-- A kernel whose memory consists of page tables: `words` gives the entries of the table at an
    address. -/
def Target.ofTables (words : UInt64 → Nat → UInt64) : Target where
  register? _ := none
  memory? address _ :=
    some (.ofFn fun k => .ofNat ((words address (k.val / 8)).toNat / 256 ^ (k.val % 8)))
  symbol? _ := none
  layout? _ := none

theorem get_ofFn {α : Type} {n : Nat} (f : Fin n → α) (k : Fin n) :
    (Vector.ofFn f).get k = f k := by
  rw [Vector.get]
  simp only [Vector.toArray_ofFn, Array.getElem_ofFn]
  rfl

theorem sum_bytes (word : UInt64) :
    Fin.foldr 8 (fun k rest => (UInt8.ofNat (word.toNat / 256 ^ k.val)).toUInt64 + 256 * rest) 0 =
      word := by
  refine UInt64.toNat_inj.mp ?_
  have := word.toNat_lt
  simp [Fin.foldr, Fin.foldr.loop]
  omega

theorem read_ofTables (words : UInt64 → Nat → UInt64) (address : PAddr) :
    ∃ table, Table.read (.ofTables words) address = .ok table ∧
      ∀ index, table.entries.get index = ⟨words address.bits index⟩ := by
  refine ⟨_, rfl, fun index => ?_⟩
  have hquot : ∀ k : Fin entrySize, (entrySize * index.val + k.val) / 8 = index.val := fun k => by
    have : k.val < 8 := k.isLt
    simp only [entrySize]
    omega
  have hrem : ∀ k : Fin entrySize, (entrySize * index.val + k.val) % 8 = k.val := fun k => by
    have : k.val < 8 := k.isLt
    simp only [entrySize]
    omega
  rw [Table.ofPage, get_ofFn, Table.wordAt]
  simp only [get_ofFn, hquot, hrem]
  rw [sum_bytes]

theorem readable_ofTables (words : UInt64 → Nat → UInt64) (root : PAddr) :
    Readable (.ofTables words) root := fun _ address _ =>
  let ⟨table, hread, _⟩ := read_ofTables words address
  ⟨table, hread⟩

theorem lookup_ofTables (words : UInt64 → Nat → UInt64) (va level : Nat) (address : PAddr) :
    lookup (.ofTables words) va (level + 1) address =
      let word := (words address.bits (pageIndex level va)).toNat
      if word % 2 = 0 then none
      else if word / 2 % 8 = 0 then lookup (.ofTables words) va level ⟨.ofNat (wordAddress word)⟩
      else some ⟨level, wordAddress word, word % 2 ^ 10⟩ := by
  obtain ⟨table, hread, hentries⟩ := read_ofTables words address
  rw [lookup, hread]
  simp only [Table.word, hentries]

/-- A kernel in which every page is the same table: its first entry is a leaf with the page number
    zero and these flags, its second points to the page at 0x1000, and the others are not valid. -/
def Target.mirrored (flags : UInt64) : Target :=
  .ofTables fun _ index => if index = 0 then flags else if index = 1 then 0x401 else 0

end KernelProbe
