import Mathlib.Data.Nat.Digits.Lemmas
import KernelProbe.Paging.Table
import KernelProbe.Proofs.Value.Elements
import KernelProbe.Proofs.Value.Numbers

/-!
# Ways to read memory

Bytes of memory are taken as they are, as one number, or as a page of entries. Each of these ways
has a reader of its own; here they are shown to read the same. A number is the sum of its bytes,
each times a power of 256, and can be read exactly where its bytes can. An entry of a page table is
the number of its eight bytes, and if no region of memory starts inside another one, it can be read
alone as well.

* `toNat_littleEndian` -- the number that bytes stand for;
* `Value.word_eq_map` -- a number is read where its bytes are;
* `Table.wordAt_eq` -- an entry is the number of its bytes;
* `Value.readings_agree` -- all three ways together.
-/

namespace KernelProbe

variable {target : Target} {bytes : List UInt8} {length : Nat}

/-! ## 1. The number that bytes stand for -/

/-- The number of bytes as a sum. Of more than eight bytes only the first eight count. -/
theorem toNat_littleEndian_mod (bytes : List UInt8) :
    (littleEndian bytes).toNat = Nat.ofDigits 256 (bytes.map UInt8.toNat) % 2 ^ 64 := by
  induction bytes with
  | nil => rfl
  | cons byte rest ih =>
    rw [littleEndian, UInt64.toNat_add, UInt64.toNat_mul, ih, List.map_cons, Nat.ofDigits_cons,
      UInt8.toNat_toUInt64, show (256 : UInt64).toNat = 256 from rfl, Nat.mul_mod_mod,
      Nat.add_mod_mod]

theorem ofDigits_bytes_lt (bytes : List UInt8) :
    Nat.ofDigits 256 (bytes.map UInt8.toNat) < 2 ^ (8 * bytes.length) := by
  have hdigits : ∀ digit ∈ bytes.map UInt8.toNat, digit < 256 := fun digit hdigit => by
    obtain ⟨byte, -, rfl⟩ := List.mem_map.mp hdigit
    exact byte.toNat_lt
  have hlt := Nat.ofDigits_lt_base_pow_length (by decide : 1 < 256) hdigits
  rwa [List.length_map, show 256 = 2 ^ 8 from rfl, ← Nat.pow_mul] at hlt

/-- **The number that bytes stand for**, if there are eight of them at the most. -/
theorem toNat_littleEndian (h : bytes.length ≤ 8) :
    (littleEndian bytes).toNat = Nat.ofDigits 256 (bytes.map UInt8.toNat) := by
  rw [toNat_littleEndian_mod]
  refine Nat.mod_eq_of_lt (Nat.lt_of_lt_of_le (ofDigits_bytes_lt bytes) ?_)
  exact Nat.pow_le_pow_right (by decide) (by omega)

theorem littleEndian_ofFn {count : Nat} (byteAt : Fin count → UInt8) :
    littleEndian (List.ofFn byteAt) =
      Fin.foldr count (fun k rest => (byteAt k).toUInt64 + 256 * rest) 0 := by
  induction count with
  | zero => rfl
  | succ count ih => rw [List.ofFn_succ, littleEndian, ih, Fin.foldr_succ]

/-! ## 2. Numbers and their bytes -/

theorem Layout.Numeric.size_le {layout : Layout} (h : layout.Numeric) : layout.size.toNat ≤ 8 := by
  rcases h.width with h | h | h | h <;> rw [h] <;> decide

namespace Value

variable {value : Value}

theorem length_of_bytes (h : value.bytes target = .ok bytes) :
    bytes.length = value.layout.size.toNat := by
  obtain ⟨read, -, rfl⟩ := bytes_eq_ok.mp h
  exact Vector.length_toList

/-- **A number is read where its bytes are**, and fails where they do. -/
theorem word_eq_map (h : value.layout.Numeric) :
    value.word target = (value.bytes target).map littleEndian := by
  rw [word_of_numeric h, Value.bytes]
  cases target.memory value.address value.layout.size.toNat <;> rfl

theorem word_eq_ok_iff_bytes (h : value.layout.Numeric) {word : UInt64} :
    value.word target = .ok word ↔ ∃ bytes, value.bytes target = .ok bytes ∧
      word.toNat = Nat.ofDigits 256 (bytes.map UInt8.toNat) := by
  rw [word_eq_map h, map_eq_ok]
  refine exists_congr fun bytes => and_congr_right fun hbytes => ?_
  have hlength : bytes.length ≤ 8 := by
    rw [length_of_bytes hbytes]
    exact h.size_le
  rw [← UInt64.toNat_inj, toNat_littleEndian hlength, eq_comm]

theorem word_lt (h : value.layout.Numeric) {word : UInt64} (hword : value.word target = .ok word) :
    word.toNat < 2 ^ (8 * value.layout.size.toNat) := by
  obtain ⟨bytes, hbytes, hvalue⟩ := (word_eq_ok_iff_bytes h).mp hword
  rw [hvalue, ← length_of_bytes hbytes]
  exact ofDigits_bytes_lt bytes

end Value

/-! ## 3. Entries and their bytes -/

namespace Table

variable {address : PAddr} {table : Table}

theorem read_eq_ok : Table.read target address = .ok table ↔
    ∃ page, target.memory? address.bits pageSize = some page ∧ ofPage address page = table := by
  unfold Table.read Target.memory
  simp only [bind_eq_ok, demand_eq_ok]
  exact exists_congr fun page => and_congr_right fun _ => ⟨Except.ok.inj, congrArg _⟩

/-- The bytes of an entry, among those of its page. -/
def entryBytes (bytes : List UInt8) (index : Fin entriesPerTable) : List UInt8 :=
  (bytes.drop (entrySize * index.val)).take entrySize

/-- **An entry is the number of its bytes.** -/
theorem wordAt_eq (page : Vector UInt8 pageSize) (index : Fin entriesPerTable) :
    wordAt page index = littleEndian (entryBytes page.toList index) := by
  have hbytes : entryBytes page.toList index =
      List.ofFn fun k : Fin entrySize => page.get ⟨_, byte_lt index k⟩ := by
    refine List.ext_getElem ?_ fun k hk hk' => ?_
    · have hindex := index.isLt
      rw [entryBytes, List.length_take, List.length_drop, Vector.length_toList, List.length_ofFn]
      simp only [entriesPerTable, pageSize, entrySize] at *
      omega
    · simp only [entryBytes, List.getElem_take, List.getElem_drop, List.getElem_ofFn,
        Vector.getElem_toList]
      rfl
  rw [hbytes, littleEndian_ofFn, wordAt]

theorem get_ofPage (address : PAddr) (page : Vector UInt8 pageSize) (index : Fin entriesPerTable) :
    (ofPage address page).entries.get index = ⟨littleEndian (entryBytes page.toList index)⟩ := by
  rw [← wordAt_eq]
  exact Vector.getElem_ofFn index.isLt

variable {memory : Memory}

/-- **An entry can be read alone** where its table can, and is the same number. -/
theorem word_of_read (hmemory : target.memory? = memory.read?) (hapart : memory.Apart)
    (hread : Table.read target address = .ok table) (index : Fin entriesPerTable) {place : Value}
    (hnumeric : place.layout.Numeric) (hsize : place.layout.size.toNat = entrySize)
    (hplace : place.address.toNat = address.bits.toNat + entrySize * index.val) :
    place.word target = .ok (table.entries.get index).bits := by
  obtain ⟨page, hpage, rfl⟩ := read_eq_ok.mp hread
  rw [hmemory] at hpage
  have hinside : entrySize * index.val + place.layout.size.toNat ≤ pageSize := by
    have hlast := byte_lt index ⟨entrySize - 1, by decide⟩
    rw [hsize]
    simp only [entrySize] at hlast ⊢
    omega
  obtain ⟨piece, hpiece, hsame⟩ := Memory.read?_part hapart hpage hplace hinside fun hzero => by
    rw [hsize] at hzero
    exact nomatch hzero
  have hbytes : place.bytes target = .ok (entryBytes page.toList index) := by
    refine Value.bytes_eq_ok.mpr ⟨piece, by rw [hmemory, hpiece], ?_⟩
    rw [hsame, hsize, entryBytes]
  rw [Value.word_eq_map hnumeric, hbytes, get_ofPage]
  rfl

/-- **An entry is the number of its bytes** in the page that is read as a table. -/
theorem toNat_entry_of_read (hread : Table.read target address = .ok table) {page : Value}
    (haddress : page.address = address.bits) (hsize : page.layout.size.toNat = pageSize) :
    ∃ bytes, page.bytes target = .ok bytes ∧ ∀ index, (table.entries.get index).bits.toNat =
      Nat.ofDigits 256 ((entryBytes bytes index).map UInt8.toNat) := by
  obtain ⟨read, hmemory, rfl⟩ := read_eq_ok.mp hread
  refine ⟨read.toList, ?_, fun index => ?_⟩
  · rw [Value.bytes, haddress, hsize, Target.memory, hmemory]
    rfl
  · rw [get_ofPage]
    exact toNat_littleEndian (List.length_take_le _ _)

end Table

namespace Value

/-- **However memory is read, it is read the same.** Where no region of memory starts inside another
    one: a scalar or pointer of one, two, four or eight bytes can be read as a number exactly where
    its bytes can, fails with the same fault where they cannot, and is their number, the lowest byte
    first, so that it has no more bits than they. Nothing else is read as a number, whatever the
    memory holds. And every entry of a table that can be read is the number that can be read at the
    place of the entry alone, and the number of the eight bytes there among those of the page. -/
theorem readings_agree {memory : Memory} (hmemory : target.memory? = memory.read?)
    (hapart : memory.Apart) :
    (∀ value : Value, value.layout.Numeric →
      (∀ fault, value.word target = .error fault ↔ value.bytes target = .error fault) ∧
      (∀ word, value.word target = .ok word ↔ ∃ bytes, value.bytes target = .ok bytes ∧
        word.toNat = Nat.ofDigits 256 (bytes.map UInt8.toNat)) ∧
      ∀ word, value.word target = .ok word → word.toNat < 2 ^ (8 * value.layout.size.toNat)) ∧
    (∀ value : Value, ¬ value.layout.Numeric → ∀ other : Target,
      value.word other = .error (.unsupportedWidth value.type value.layout.size)) ∧
    (∀ (address : PAddr) (table : Table), Table.read target address = .ok table →
      (∀ (index : Fin entriesPerTable) (place : Value), place.layout.Numeric →
        place.layout.size.toNat = entrySize →
        place.address.toNat = address.bits.toNat + entrySize * index.val →
          place.word target = .ok (table.entries.get index).bits) ∧
      ∀ page : Value, page.address = address.bits → page.layout.size.toNat = pageSize →
        ∃ bytes, page.bytes target = .ok bytes ∧ ∀ index, (table.entries.get index).bits.toNat =
          Nat.ofDigits 256 ((Table.entryBytes bytes index).map UInt8.toNat)) := by
  refine ⟨fun value h => ⟨fun fault => ?_, fun word => word_eq_ok_iff_bytes h,
      fun word hword => word_lt h hword⟩,
    fun value h other => word_of_not_numeric h,
    fun address table hread => ⟨fun index place hnumeric hsize hplace => ?_,
      fun page haddress hsize => Table.toNat_entry_of_read hread haddress hsize⟩⟩
  · rw [word_eq_map h, map_eq_error]
  · exact Table.word_of_read hmemory hapart hread index hnumeric hsize hplace

/-- A memory that consists of some bytes. -/
def onlyBytes (bytes : List UInt8) : Memory :=
  ⟨[⟨0x1000, bytes.toArray⟩]⟩

theorem read?_onlyBytes (h : bytes.length = length) :
    (onlyBytes bytes).read? 0x1000 length = some ⟨bytes.toArray, h⟩ := by
  have hstart : ((0x1000 : UInt64) - 0x1000).toNat = 0 := by decide
  refine Memory.read?_eq_some.mpr ⟨⟨0x1000, bytes.toArray⟩, rfl, ?_⟩
  simp only [hstart, Nat.zero_add, List.drop_zero, List.size_toArray, h, Nat.le_refl, true_and]
  exact (List.take_of_length_le (Nat.le_of_eq h)).symm

/-- Four bytes before the end of a page there is no word. -/
theorem read?_onlyBytes_end (h : bytes.length = pageSize) :
    (onlyBytes bytes).read? 0x1FFC 8 = none := by
  refine Option.eq_none_iff_forall_ne_some.mpr fun read hread => ?_
  obtain ⟨region, hregion, hfits, -⟩ := Memory.read?_eq_some.mp hread
  obtain rfl : ⟨0x1000, bytes.toArray⟩ = region := Option.some.inj hregion
  have hdistance : ((0x1FFC : UInt64) - 0x1000).toNat = 4092 := by decide
  simp only [hdistance, List.size_toArray, h] at hfits
  exact absurd hfits (by decide)

/-- The bytes of a page whose last entry alone is not zero. -/
@[irreducible] def lastEntryBytes : List UInt8 :=
  List.replicate 4088 0 ++ [1, 2, 3, 4, 5, 6, 7, 8]

theorem length_lastEntryBytes : lastEntryBytes.length = pageSize := by
  rw [lastEntryBytes, List.length_append, List.length_replicate]
  rfl

theorem entryBytes_lastEntry :
    Table.entryBytes lastEntryBytes ⟨511, by decide⟩ = [1, 2, 3, 4, 5, 6, 7, 8] := by
  have hfirst : entrySize * (⟨511, by decide⟩ : Fin entriesPerTable).val = 4088 := rfl
  rw [Table.entryBytes, hfirst, lastEntryBytes, List.drop_left' List.length_replicate]
  rfl

/-- A kernel whose memory is this page. -/
def lastEntry : Target where
  register? _ := none
  memory? := (onlyBytes lastEntryBytes).read?
  symbol? _ := none
  layout? _ := none

/-- The last entry of the page can be read alone, and behind its fourth byte nothing is read. -/
theorem readings_agree_lastEntry :
    (∃ table, Table.read lastEntry ⟨0x1000⟩ = .ok table ∧
      (Value.mk 0x1FF8 (.scalar "word" 8)).word lastEntry =
        .ok (table.entries.get ⟨511, by decide⟩).bits ∧
      table.entries.get ⟨511, by decide⟩ = ⟨0x0807060504030201⟩) ∧
      (Value.mk 0x1FFC (.scalar "word" 8)).word lastEntry =
        .error (.memoryUnavailable 0x1FFC 8) := by
  have hnumeric : (Layout.scalar "word" 8).Numeric := ⟨.inl rfl, .inr (.inr (.inr rfl))⟩
  have hmemory : lastEntry.memory? = (onlyBytes lastEntryBytes).read? := rfl
  have hpage := read?_onlyBytes length_lastEntryBytes
  have hread : Table.read lastEntry ⟨0x1000⟩ =
      .ok (Table.ofPage ⟨0x1000⟩ ⟨lastEntryBytes.toArray, length_lastEntryBytes⟩) :=
    Table.read_eq_ok.mpr ⟨_, by rw [hmemory, hpage], rfl⟩
  have hbytes : (Value.mk 0x1FFC (.scalar "word" 8)).bytes lastEntry =
      .error (.memoryUnavailable 0x1FFC 8) := by
    have hend : lastEntry.memory? 0x1FFC 8 = none := by
      rw [hmemory, read?_onlyBytes_end length_lastEntryBytes]
    show (lastEntry.memory 0x1FFC 8 >>= fun read => .ok read.toList) = _
    rw [Target.memory, hend]
    rfl
  obtain ⟨hnumbers, -, htables⟩ := readings_agree hmemory (Memory.apart_single _)
  have hword := (htables _ _ hread).1 ⟨511, by decide⟩ ⟨0x1FF8, .scalar "word" 8⟩ hnumeric rfl
    (by decide)
  refine ⟨⟨_, hread, hword, ?_⟩, ((hnumbers _ hnumeric).1 _).mpr hbytes⟩
  rw [Table.get_ofPage]
  exact congrArg (fun bytes => Entry.mk (littleEndian bytes)) entryBytes_lastEntry

end Value

end KernelProbe
