import KernelProbe.Proofs.Intrusive.Places

/-!
# Numbers in members

What number a place in memory holds is said by its layout and by the bytes: the layout must be that
of a number, the bytes must be readable, and they are taken lowest first. A member of a structure
lies where the first field of its name says; its width and its distance from the start come from
the layouts alone.

* `Layout.Numeric` -- the layouts of numbers;
* `Value.Member` -- the place of a member;
* `Value.Holds` -- the number that a member holds;
* `Value.fieldWord_eq_ok` -- this is the number that is read.
-/

namespace KernelProbe

/-- **The layouts of numbers**: scalars and pointers of one, two, four or eight bytes. -/
structure Layout.Numeric (layout : Layout) : Prop where
  kind : layout.kind = .scalar ∨ ∃ pointee, layout.kind = .pointer pointee
  width : layout.size = 1 ∨ layout.size = 2 ∨ layout.size = 4 ∨ layout.size = 8

namespace Value

variable {target : Target} {value : Value} {name : String} {word : UInt64}

theorem word_of_numeric (h : value.layout.Numeric) : value.word target =
    (target.memory value.address value.layout.size.toNat).map fun bytes =>
      littleEndian bytes.toList := by
  unfold Value.word
  rcases h.kind with hkind | ⟨pointee, hkind⟩
  all_goals
    rw [hkind]
    dsimp only
    rw [if_pos h.width]
    cases target.memory value.address value.layout.size.toNat <;> rfl

/-- Nothing else is read as a number, whatever the memory holds. -/
theorem word_of_not_numeric (h : ¬ value.layout.Numeric) :
    value.word target = .error (.unsupportedWidth value.type value.layout.size) := by
  unfold Value.word
  dsimp only
  split
  next hkind => exact if_neg fun hwidth => h ⟨.inl hkind, hwidth⟩
  next pointee hkind => exact if_neg fun hwidth => h ⟨.inr ⟨pointee, hkind⟩, hwidth⟩
  next => rfl

theorem word_eq_ok : value.word target = .ok word ↔ value.layout.Numeric ∧
    ∃ bytes, target.memory? value.address value.layout.size.toNat = some bytes ∧
      littleEndian bytes.toList = word := by
  constructor
  · intro h
    have hnumeric : value.layout.Numeric := by
      refine Classical.byContradiction fun hother => ?_
      rw [word_of_not_numeric hother] at h
      cases h
    rw [word_of_numeric hnumeric] at h
    obtain ⟨bytes, hbytes, h⟩ := map_eq_ok.mp h
    exact ⟨hnumeric, bytes, demand_eq_ok.mp hbytes, h⟩
  · intro ⟨hnumeric, bytes, hbytes, h⟩
    rw [word_of_numeric hnumeric]
    exact map_eq_ok.mpr ⟨bytes, demand_eq_ok.mpr hbytes, h⟩

/-- **The member of a structure.** The first field of its name says how far behind the start of the
    structure it lies, without wrap-around, and what its type is. -/
def Member (target : Target) (value : Value) (name : String) (place : Value) : Prop :=
  ∃ (fields : List Field) (field : Field),
    value.layout.kind = .structure fields ∧ fields.find? (·.name == name) = some field ∧
    value.address.toNat + field.offset.toNat = place.address.toNat ∧
    target.layout? field.type = some place.layout

theorem field_eq_ok_iff_member {place : Value} :
    value.field target name = .ok place ↔ value.Member target name place := by
  unfold Member
  simp only [field_eq_ok, Layout.field_eq_ok]
  constructor
  · intro ⟨field, ⟨fields, hkind, hfind⟩, haddress, hlayout⟩
    exact ⟨fields, field, hkind, hfind, haddress, hlayout⟩
  · intro ⟨fields, field, hkind, hfind, haddress, hlayout⟩
    exact ⟨field, ⟨fields, hkind, hfind⟩, haddress, hlayout⟩

/-- **The number that a member holds.** The type of the member is that of a number, and the bytes of
    the member, the lowest first, are the number. -/
def Holds (target : Target) (value : Value) (name : String) (word : UInt64) : Prop :=
  ∃ (place : Value) (bytes : Vector UInt8 place.layout.size.toNat),
    value.Member target name place ∧ place.layout.Numeric ∧
    target.memory? place.address place.layout.size.toNat = some bytes ∧
    littleEndian bytes.toList = word

/-- **The number that is read from a member** is the one that the member holds. -/
theorem fieldWord_eq_ok :
    value.fieldWord target name = .ok word ↔ value.Holds target name word := by
  unfold fieldWord Holds
  simp only [bind_eq_ok, field_eq_ok_iff_member, word_eq_ok]
  constructor
  · intro ⟨place, hplace, hnumeric, bytes, hbytes, h⟩
    exact ⟨place, bytes, hplace, hnumeric, hbytes, h⟩
  · intro ⟨place, bytes, hplace, hnumeric, hbytes, h⟩
    exact ⟨place, hplace, hnumeric, bytes, hbytes, h⟩

end Value

end KernelProbe
