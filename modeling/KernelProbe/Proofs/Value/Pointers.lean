import KernelProbe.Proofs.Value.Numbers

/-!
# Pointers and elements

Where a step from one place to another one leads is said by the layouts and the bytes in memory: a
pointer leads to the address that it holds, read as the type that it points to, and the null pointer
leads nowhere; an element of an array lies behind the start of the array by the sizes of the
elements before it. A step that fails does so for the types and the bytes of the place alone.

* `Value.Contains` -- the number in memory at a place;
* `Value.LeadsTo`, `Value.IsNull` -- where a pointer leads;
* `Value.Element` -- the place of an element;
* `Fault.ofPlace` -- the faults of places; a step has no others.
-/

namespace KernelProbe

/-- **The faults of places**: a type, a field or bytes that are missing, or a layout of the wrong
    kind. -/
def Fault.ofPlace : Fault → Bool
  | .noType _ | .noField _ _ | .indexOutOfRange _ _ _ _ | .notAStructure _ | .notAPointer _
  | .notAnArray _ | .unsupportedWidth _ _ | .memoryUnavailable _ _ => true
  | _ => false

namespace Value

variable {target : Target} {value pointer object : Value} {name : String} {index : Int}
  {fault : Fault}

/-! ## 1. Where pointers and elements are -/

/-- **The number in memory at a place.** The layout is that of a number, and the bytes of the place,
    the lowest first, are the number. -/
def Contains (target : Target) (value : Value) (word : UInt64) : Prop :=
  value.layout.Numeric ∧
    ∃ bytes, target.memory? value.address value.layout.size.toNat = some bytes ∧
      littleEndian bytes.toList = word

/-- **A pointer that leads to an object**: it contains the address of the object, which is not zero,
    and the type that it points to has the layout of the object. -/
def LeadsTo (target : Target) (pointer object : Value) : Prop :=
  ∃ pointee, pointer.layout.kind = .pointer pointee ∧ pointer.Contains target object.address ∧
    object.address ≠ 0 ∧ target.layout? pointee = some object.layout

/-- **The null pointer** leads nowhere. Nothing need be known of the type that it points to. -/
def IsNull (target : Target) (pointer : Value) : Prop :=
  (∃ pointee, pointer.layout.kind = .pointer pointee) ∧ pointer.Contains target 0

/-- **The element of an array.** It lies behind the start of the array by the sizes of the elements
    from the low bound on, without wrap-around. -/
def Element (target : Target) (array : Value) (index : Int) (place : Value) : Prop :=
  ∃ element low high, array.layout.kind = .array element low high ∧
    (low ≤ index ∧ index ≤ high) ∧ target.layout? element = some place.layout ∧
    array.address.toNat + (index - low).toNat * place.layout.size.toNat = place.address.toNat

theorem word_eq_ok_iff_contains {word : UInt64} :
    value.word target = .ok word ↔ value.Contains target word :=
  word_eq_ok

theorem index_eq_ok_iff_element {place : Value} :
    value.index target index = .ok place ↔ value.Element target index place :=
  index_eq_ok

theorem follow_eq_some_iff_leadsTo :
    pointer.follow target = .ok (some object) ↔ pointer.LeadsTo target object := by
  simp only [follow_eq_some, LeadsTo, word_eq_ok_iff_contains]

theorem follow_eq_none_iff_isNull :
    pointer.follow target = .ok none ↔ pointer.IsNull target := by
  unfold follow IsNull
  cases pointer.layout.kind with
  | pointer pointee =>
    simp only [bind_eq_ok, ← word_eq_ok_iff_contains, Kind.pointer.injEq, exists_eq', true_and]
    refine ⟨fun ⟨address, hword, h⟩ => ?_, fun hword => ⟨0, hword, if_pos rfl⟩⟩
    by_cases hzero : address = 0
    · exact hzero ▸ hword
    · rw [if_neg hzero] at h
      obtain ⟨place, -, h⟩ := bind_eq_ok.mp h
      cases h
  | _ => simp

/-- A pointer leads to one object only. -/
theorem LeadsTo.unique {other : Value} (h : pointer.LeadsTo target object)
    (hother : pointer.LeadsTo target other) : object = other := by
  rw [← follow_eq_some_iff_leadsTo] at h hother
  cases h.symm.trans hother
  rfl

/-- A pointer that leads somewhere contains an address. -/
theorem LeadsTo.contains (h : pointer.LeadsTo target object) :
    pointer.Contains target object.address := by
  obtain ⟨pointee, -, hcontains, -, -⟩ := h
  exact hcontains

/-! ## 2. The faults of steps -/

theorem ofPlace_of_word (h : value.word target = .error fault) : fault.ofPlace = true := by
  by_cases hnumeric : value.layout.Numeric
  · rw [word_of_numeric hnumeric, map_eq_error, Target.memory, demand_eq_error] at h
    obtain ⟨-, rfl⟩ := h
    rfl
  · rw [word_of_not_numeric hnumeric] at h
    cases h
    rfl

theorem ofPlace_of_field (h : value.field target name = .error fault) :
    fault.ofPlace = true := by
  unfold Value.field Layout.field inside unavailable at h
  simp only [bind_eq_error, demand_eq_error, Target.valueAt_eq_error] at h
  rcases h with h | ⟨_, -, ⟨-, rfl⟩ | ⟨_, -, -, rfl⟩⟩
  · split at h
    · split at h <;> cases h
      rfl
    · cases h
      rfl
  · rfl
  · rfl

theorem ofPlace_of_fieldWord (h : value.fieldWord target name = .error fault) :
    fault.ofPlace = true := by
  rcases bind_eq_error.mp h with h | ⟨place, -, h⟩
  · exact ofPlace_of_field h
  · exact ofPlace_of_word h

theorem ofPlace_of_follow (h : pointer.follow target = .error fault) :
    fault.ofPlace = true := by
  unfold follow at h
  split at h
  · rcases bind_eq_error.mp h with h | ⟨address, -, h⟩
    · exact ofPlace_of_word h
    · split at h
      · cases h
      · rcases bind_eq_error.mp h with h | ⟨place, -, h⟩
        · obtain ⟨-, rfl⟩ := Target.valueAt_eq_error.mp h
          rfl
        · cases h
  · cases h
    rfl

theorem ofPlace_of_index (h : value.index target index = .error fault) :
    fault.ofPlace = true := by
  unfold Value.index inside unavailable Target.layout at h
  split at h
  · split at h
    · cases h
      rfl
    · simp only [bind_eq_error, demand_eq_error] at h
      rcases h with ⟨-, rfl⟩ | ⟨_, -, ⟨-, rfl⟩ | ⟨_, -, h⟩⟩
      · rfl
      · rfl
      · cases h
  · cases h
    rfl

end Value

end KernelProbe
