import KernelProbe.Proofs.Image.Regions
import KernelProbe.Proofs.Image.Samples
import KernelProbe.Proofs.Value.Rows

/-!
# Elements of an array

How large an array is was said when it was declared, with the size of an element. Where an element
lies is said by the layout that the name of its type has. If both are of the same size, the elements
lie one behind the other in the order of their indices, none of them over another one, and fill the
array from its first byte to its last. What can be read of the array as a whole can then be read
element by element, and gives the same bytes.

* `Value.Occupies`, `Value.Before` -- the addresses of a value, and the order of two values;
* `Value.IsArrayOf` -- an array whose elements have the size that it was declared with;
* `Value.elementBytes` -- the bytes of an element, among those of the array;
* `Value.elements_fill_array` -- where the elements lie, and what their bytes are.
-/

namespace KernelProbe

namespace Value

/-- **The addresses of a value's bytes.** -/
def Occupies (value : Value) (address : UInt64) : Prop :=
  value.address ≤ address ∧ address.toNat < value.address.toNat + value.layout.size.toNat

/-- **One value ends before another begins**, or where it begins. -/
def Before (place later : Value) : Prop :=
  place.address.toNat + place.layout.size.toNat ≤ later.address.toNat

/-- **An array whose elements have the size that it was declared with.** Neither its size nor its
    end lies beyond the address space. -/
structure IsArrayOf (target : Target) (array : Value) (element : Layout) (low high : Int) :
    Prop where
  declared : ∃ name type, array.layout = .array name type element.size low high ∧
    target.layout? type = some element
  fits : element.size.toNat * (high - low + 1).toNat < 2 ^ 64
  ends : array.address.toNat + array.layout.size.toNat ≤ 2 ^ 64

variable {target : Target} {array place later : Value} {element : Layout}
  {low high index other : Int} {address : UInt64} {bytes : List UInt8}

/-! ## 1. Where the elements lie -/

/-- Two values one behind the other have no address in common. -/
theorem Before.apart (h : place.Before later) :
    ¬ (place.Occupies address ∧ later.Occupies address) := by
  intro ⟨hplace, hlater⟩
  have hbegin := UInt64.le_iff_toNat_le.mp hlater.1
  have hend := hplace.2
  unfold Before at h
  omega

/-- From one index to a greater one the offset grows by a whole element at least. -/
theorem offset_succ_le (size : Nat) (hlow : low ≤ index) (h : index < other) :
    (index - low).toNat * size + size ≤ (other - low).toNat * size := by
  calc (index - low).toNat * size + size
    _ = ((index - low).toNat + 1) * size := (Nat.succ_mul _ _).symm
    _ ≤ (other - low).toNat * size := Nat.mul_le_mul_right size (by omega)

namespace IsArrayOf

theorem size_eq (h : array.IsArrayOf target element low high) :
    array.layout.size.toNat = (high + 1 - low).toNat * element.size.toNat := by
  obtain ⟨name, type, hlayout, -⟩ := h.declared
  have hcount : high + 1 - low = high - low + 1 := by omega
  calc array.layout.size.toNat
    _ = (element.size * .ofNat (high - low + 1).toNat).toNat := by rw [hlayout]; rfl
    _ = element.size.toNat * (high - low + 1).toNat := by
        rw [UInt64.toNat_mul, UInt64.toNat_ofNat', Nat.mul_mod_mod, Nat.mod_eq_of_lt h.fits]
    _ = (high + 1 - low).toNat * element.size.toNat := by rw [hcount, Nat.mul_comm]

/-- **An element** lies behind the start of the array by the elements before it. -/
theorem index_eq_ok (h : array.IsArrayOf target element low high) :
    array.index target index = .ok place ↔ (low ≤ index ∧ index ≤ high) ∧
      place.layout = element ∧
        place.address.toNat = array.address.toNat + (index - low).toNat * element.size.toNat := by
  obtain ⟨name, type, hlayout, htype⟩ := h.declared
  rw [Value.index_eq_ok, hlayout]
  refine ⟨fun ⟨type', low', high', hkind, hbounds, hplace, haddress⟩ => ?_,
    fun ⟨hbounds, hplace, haddress⟩ => ?_⟩
  · cases hkind
    cases hplace.symm.trans htype
    exact ⟨hbounds, rfl, haddress.symm⟩
  · subst hplace
    exact ⟨type, low, high, rfl, hbounds, htype, haddress.symm⟩

/-- An element ends where the array does, or before. -/
theorem offset_le (h : array.IsArrayOf target element low high) (hlow : low ≤ index)
    (hhigh : index ≤ high) :
    (index - low).toNat * element.size.toNat + element.size.toNat ≤ array.layout.size.toNat := by
  rw [h.size_eq]
  exact offset_succ_le element.size.toNat hlow (by omega)

theorem index_isOk (h : array.IsArrayOf target element low high) :
    (∃ place, array.index target index = .ok place) ↔ low ≤ index ∧ index ≤ high := by
  refine ⟨fun ⟨place, hplace⟩ => (h.index_eq_ok.mp hplace).1, fun ⟨hlow, hhigh⟩ => ?_⟩
  have hoffset := h.offset_le hlow hhigh
  have hend := h.ends
  have hstart := array.address.toNat_lt
  -- Only elements without bytes could begin at the very end, and all of them lie at the start.
  have hlt : array.address.toNat + (index - low).toNat * element.size.toNat < 2 ^ 64 := by
    rcases Nat.eq_zero_or_pos element.size.toNat with hzero | hpos
    · rw [hzero, Nat.mul_zero]
      exact hstart
    · omega
  exact ⟨⟨.ofNat _, element⟩,
    h.index_eq_ok.mpr ⟨⟨hlow, hhigh⟩, rfl, UInt64.toNat_ofNat_of_lt' hlt⟩⟩

theorem before (h : array.IsArrayOf target element low high) (hlt : index < other)
    (hplace : array.index target index = .ok place)
    (hlater : array.index target other = .ok later) : place.Before later := by
  obtain ⟨hbounds, hlayout, haddress⟩ := h.index_eq_ok.mp hplace
  obtain ⟨-, -, haddress'⟩ := h.index_eq_ok.mp hlater
  have hoffset := offset_succ_le element.size.toNat hbounds.1 hlt
  unfold Before
  rw [hlayout]
  omega

/-- **The elements fill the array.** -/
theorem occupies_iff (h : array.IsArrayOf target element low high) :
    array.Occupies address ↔
      ∃ index place, array.index target index = .ok place ∧ place.Occupies address := by
  constructor
  · intro ⟨hle, hlt⟩
    rw [UInt64.le_iff_toNat_le] at hle
    rw [h.size_eq] at hlt
    -- The index is found by division of the distance from the start of the array.
    obtain ⟨before, hdef⟩ : ∃ before, before =
        (address.toNat - array.address.toNat) / element.size.toNat := ⟨_, rfl⟩
    have hbefore : before < (high + 1 - low).toNat :=
      hdef ▸ Nat.div_lt_of_lt_mul (by rw [Nat.mul_comm]; omega)
    have hpos : 0 < element.size.toNat := by
      refine Nat.pos_of_ne_zero fun hzero => ?_
      rw [hzero] at hlt
      omega
    have hbelow : before * element.size.toNat ≤ address.toNat - array.address.toNat :=
      hdef ▸ Nat.div_mul_le_self _ _
    have habove : address.toNat - array.address.toNat <
        before * element.size.toNat + element.size.toNat := hdef ▸ Nat.lt_div_mul_add hpos
    have hindex : (low + before - low).toNat = before := by omega
    obtain ⟨place, hplace⟩ := h.index_isOk.mpr (by omega : low ≤ low + before ∧ low + before ≤ high)
    obtain ⟨-, hlayout, haddress⟩ := h.index_eq_ok.mp hplace
    rw [hindex] at haddress
    refine ⟨low + before, place, hplace, UInt64.le_iff_toNat_le.mpr (by omega), ?_⟩
    rw [hlayout]
    omega
  · intro ⟨index, place, hplace, hle, hlt⟩
    obtain ⟨⟨hlow, hhigh⟩, hlayout, haddress⟩ := h.index_eq_ok.mp hplace
    have hoffset := h.offset_le hlow hhigh
    rw [UInt64.le_iff_toNat_le] at hle
    rw [hlayout] at hlt
    exact ⟨UInt64.le_iff_toNat_le.mpr (by omega), by omega⟩

end IsArrayOf

/-! ## 2. The bytes of the elements -/

theorem bytes_eq_ok {value : Value} : value.bytes target = .ok bytes ↔
    ∃ read, target.memory? value.address value.layout.size.toNat = some read ∧
      read.toList = bytes := by
  unfold Value.bytes Target.memory
  simp only [bind_eq_ok, demand_eq_ok]
  exact exists_congr fun read => and_congr_right fun _ => ⟨Except.ok.inj, congrArg _⟩

/-- The bytes of an element, among those of its array. -/
def elementBytes (bytes : List UInt8) (size : Nat) (low index : Int) : List UInt8 :=
  (bytes.drop ((index - low).toNat * size)).take size

/-- **The bytes of elements one after the other** are the bytes that begin with the first one. -/
theorem flatten_elementBytes (bytes : List UInt8) (size count : Nat) (hlow : low ≤ index) :
    ((indicesFrom index count).map (elementBytes bytes size low)).flatten =
      (bytes.drop ((index - low).toNat * size)).take (count * size) := by
  induction count generalizing index with
  | zero => rw [Nat.zero_mul, List.take_zero]; rfl
  | succ count ih =>
    have hnext : (index + 1 - low).toNat * size = (index - low).toNat * size + size := by
      rw [← Nat.succ_mul]
      congr 1
      omega
    rw [indicesFrom, List.map_cons, List.flatten_cons, ih (by omega), hnext, ← List.drop_drop,
      Nat.succ_mul, Nat.add_comm (count * size), List.take_add, elementBytes]

namespace IsArrayOf

variable {memory : Memory}

/-- **An element can be read where its array can**, and has its bytes. -/
theorem bytes_of_index (h : array.IsArrayOf target element low high)
    (hmemory : target.memory? = memory.read?) (hapart : memory.Apart)
    (hbytes : array.bytes target = .ok bytes) (hplace : array.index target index = .ok place) :
    place.bytes target = .ok (elementBytes bytes element.size.toNat low index) := by
  obtain ⟨⟨hlow, hhigh⟩, rfl, haddress⟩ := h.index_eq_ok.mp hplace
  obtain ⟨read, hread, rfl⟩ := bytes_eq_ok.mp hbytes
  rw [hmemory] at hread
  obtain ⟨piece, hpiece, hsame⟩ :=
    Memory.read?_part hapart hread haddress (h.offset_le hlow hhigh) fun hzero => by
      rw [hzero, Nat.mul_zero]
  exact bytes_eq_ok.mpr ⟨piece, by rw [hmemory, hpiece], hsame⟩

/-- The bytes of all elements in a row are those of the array. -/
theorem flatten_eq (h : array.IsArrayOf target element low high)
    (hbytes : array.bytes target = .ok bytes) :
    ((indicesFrom low (high - low + 1).toNat).map
      (elementBytes bytes element.size.toNat low)).flatten = bytes := by
  obtain ⟨read, -, rfl⟩ := bytes_eq_ok.mp hbytes
  have hcount : high - low + 1 = high + 1 - low := by omega
  rw [flatten_elementBytes _ _ _ (Int.le_refl low), Int.sub_self, hcount, ← h.size_eq,
    Int.toNat_zero, Nat.zero_mul, List.drop_zero]
  exact List.take_of_length_le (Nat.le_of_eq Vector.length_toList)

/-- **The bytes of the array** are read element by element, too. -/
theorem bytes_of_elements (h : array.IsArrayOf target element low high)
    (hmemory : target.memory? = memory.read?) (hapart : memory.Apart)
    (hbytes : array.bytes target = .ok bytes) :
    ∃ parts, (indicesFrom low (high - low + 1).toNat).mapM (fun index =>
        array.index target index >>= Value.bytes target) = .ok parts ∧ parts.flatten = bytes := by
  refine ⟨_, mapM_eq_ok.mpr ?_, h.flatten_eq hbytes⟩
  rw [List.map_map]
  refine List.map_congr_left fun index hindex => ?_
  rw [mem_indicesFrom] at hindex
  obtain ⟨place, hplace⟩ := h.index_isOk.mpr (by omega : low ≤ index ∧ index ≤ high)
  exact bind_eq_ok.mpr ⟨place, hplace, h.bytes_of_index hmemory hapart hbytes hplace⟩

end IsArrayOf

/-- **The elements of an array are its parts in order.** There is one for each index within the
    bounds and for no other index; an element ends before one with a greater index begins, and the
    elements of two indices have no address in common; together they occupy what the array occupies.
    If no region of memory starts inside another one and the bytes of the array can be read, those
    of all elements can be read, and are in a row those of the array. -/
theorem elements_fill_array (h : array.IsArrayOf target element low high) :
    (∀ index, (∃ place, array.index target index = .ok place) ↔ low ≤ index ∧ index ≤ high) ∧
    (∀ index other place later, array.index target index = .ok place →
      array.index target other = .ok later →
        (index < other → place.Before later) ∧
        (index ≠ other → ∀ address, ¬ (place.Occupies address ∧ later.Occupies address))) ∧
    (∀ address, array.Occupies address ↔
      ∃ index place, array.index target index = .ok place ∧ place.Occupies address) ∧
    (∀ memory : Memory, target.memory? = memory.read? → memory.Apart →
      ∀ bytes, array.bytes target = .ok bytes →
        ∃ parts, (indicesFrom low (high - low + 1).toNat).mapM (fun index =>
          array.index target index >>= Value.bytes target) = .ok parts ∧
            parts.flatten = bytes) := by
  refine ⟨fun index => h.index_isOk, fun index other place later hplace hlater =>
    ⟨fun hlt => h.before hlt hplace hlater, fun hne address => ?_⟩, fun address => h.occupies_iff,
    fun memory hmemory hapart bytes hbytes => h.bytes_of_elements hmemory hapart hbytes⟩
  rcases Int.lt_or_gt_of_ne hne with hlt | hgt
  · exact (h.before hlt hplace hlater).apart
  · rw [and_comm]
    exact (h.before hgt hlater hplace).apart

/-- A memory that ends with four words, and the layout of one of them. -/
def lastWords : Target where
  register? _ := none
  memory? := Memory.read? ⟨[wordsAt 0xFFFFFFFFFFFFFFE0 [2, 3, 5, 7]]⟩
  symbol? _ := none
  layout? name := if name = "word" then some (.scalar "word" 8) else none

/-- The array of these words, with indices from -2 on. -/
def lastArray : Value :=
  ⟨0xFFFFFFFFFFFFFFE0, .array "word[4]" "word" 8 (-2) 1⟩

/-- The last byte of memory is in an element, and the bytes of the four elements are in a row those
    of the array. -/
theorem elements_fill_array_lastWords :
    lastArray.IsArrayOf lastWords (.scalar "word" 8) (-2) 1 ∧
      (∃ index place, lastArray.index lastWords index = .ok place ∧
        place.Occupies 0xFFFFFFFFFFFFFFFF) ∧
      ∃ parts, (indicesFrom (-2) 4).mapM (fun index =>
        lastArray.index lastWords index >>= Value.bytes lastWords) = .ok parts ∧
          parts.flatten = [2, 3, 5, 7].flatMap Memory.wordBytes := by
  have h : lastArray.IsArrayOf lastWords (.scalar "word" 8) (-2) 1 :=
    ⟨⟨"word[4]", "word", rfl, rfl⟩, by decide, by decide⟩
  obtain ⟨-, -, hoccupies, hbytes⟩ := elements_fill_array h
  have hapart : Memory.Apart ⟨[wordsAt 0xFFFFFFFFFFFFFFE0 [2, 3, 5, 7]]⟩ := by
    intro outer houter inner hinner hinside
    rw [List.mem_singleton.mp houter, List.mem_singleton.mp hinner] at hinside
    exact Nat.lt_irrefl _ (UInt64.lt_iff_toNat_lt.mp hinside.1)
  exact ⟨h, (hoccupies _).mp ⟨by decide, by decide⟩, hbytes _ rfl hapart _ rfl⟩

end Value

end KernelProbe
