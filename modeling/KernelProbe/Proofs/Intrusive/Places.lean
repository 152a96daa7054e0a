import KernelProbe.Intrusive.Embedding
import KernelProbe.Proofs.Address.PageNumbers

/-!
# Members and what is read there

A step from a place in memory to another one is a chain of look-ups, each of which can fail. Here
every such step is read once as the list of what it has found: the field, its address as a sum
without wrap-around, the layout of its type.

* `bind_eq_ok` -- an operation that succeeds has done so part by part;
* `Value.field_eq_ok`, `Value.index_eq_ok` -- the member of a structure, the element of an array;
* `Value.follow_field` -- following a pointer that is a member.
-/

namespace KernelProbe

theorem bind_eq_ok {α β : Type} {x : Except Fault α} {f : α → Except Fault β} {b : β} :
    x >>= f = .ok b ↔ ∃ a, x = .ok a ∧ f a = .ok b := by
  cases x with
  | error fault =>
    constructor
    · intro h
      cases h
    · rintro ⟨a, h, _⟩
      cases h
  | ok a =>
    constructor
    · intro h
      exact ⟨a, rfl, h⟩
    · rintro ⟨a', h, hf⟩
      cases h
      exact hf

theorem bind_eq_error {α β : Type} {x : Except Fault α} {f : α → Except Fault β} {fault : Fault} :
    x >>= f = .error fault ↔ x = .error fault ∨ ∃ a, x = .ok a ∧ f a = .error fault := by
  cases x with
  | error met =>
    constructor
    · intro h
      cases h
      exact .inl rfl
    · intro h
      rcases h with h | ⟨a, h, _⟩
      · cases h
        rfl
      · cases h
  | ok a =>
    constructor
    · intro h
      exact .inr ⟨a, rfl, h⟩
    · intro h
      rcases h with h | ⟨a', h, hf⟩
      · cases h
      · cases h
        exact hf

theorem map_eq_ok {α β : Type} {x : Except Fault α} {f : α → β} {b : β} :
    x.map f = .ok b ↔ ∃ a, x = .ok a ∧ f a = b := by
  cases x with
  | error fault =>
    constructor
    · intro h
      cases h
    · intro ⟨a, h, _⟩
      cases h
  | ok a =>
    constructor
    · intro h
      exact ⟨a, rfl, Except.ok.inj h⟩
    · intro ⟨a', h, hf⟩
      cases h
      exact congrArg _ hf

theorem map_eq_error {α β : Type} {x : Except Fault α} {f : α → β} {fault : Fault} :
    x.map f = .error fault ↔ x = .error fault := by
  cases x with
  | error met =>
    refine ⟨fun h => ?_, fun h => ?_⟩
    · cases h
      rfl
    · cases h
      rfl
  | ok a => exact iff_of_false (fun h => nomatch h) (fun h => nomatch h)

theorem demand_eq_ok {α : Type} {answer : Option α} {fault : Fault} {a : α} :
    demand answer fault = .ok a ↔ answer = some a := by
  cases answer with
  | none =>
    constructor
    · intro h
      cases h
    · intro h
      cases h
  | some a' =>
    exact ⟨fun h => congrArg some (Except.ok.inj h), fun h => congrArg _ (Option.some.inj h)⟩

theorem demand_eq_error {α : Type} {answer : Option α} {fault met : Fault} :
    demand answer fault = .error met ↔ answer = none ∧ met = fault := by
  cases answer with
  | none => exact ⟨fun h => ⟨rfl, (Except.error.inj h).symm⟩, fun h => congrArg _ h.2.symm⟩
  | some a =>
    constructor
    · intro h
      cases h
    · intro ⟨h, _⟩
      cases h

theorem Target.valueAt_eq_ok {target : Target} {address : UInt64} {type : String} {place : Value} :
    target.valueAt address type = .ok place ↔
      place.address = address ∧ target.layout? type = some place.layout := by
  unfold valueAt Target.layout
  rw [bind_eq_ok]
  constructor
  · rintro ⟨layout, hlayout, h⟩
    cases h
    exact ⟨rfl, demand_eq_ok.mp hlayout⟩
  · rintro ⟨rfl, hlayout⟩
    exact ⟨place.layout, demand_eq_ok.mpr hlayout, rfl⟩

theorem Target.valueAt_eq_error {target : Target} {address : UInt64} {type : String}
    {fault : Fault} : target.valueAt address type = .error fault ↔
      target.layout? type = none ∧ fault = .noType type := by
  unfold valueAt Target.layout
  rw [bind_eq_error, demand_eq_error]
  constructor
  · intro h
    rcases h with h | ⟨layout, -, h⟩
    · exact h
    · cases h
  · exact .inl

theorem Layout.field_eq_ok {layout : Layout} {name : String} {field : Field} :
    layout.field name = .ok field ↔
      ∃ fields, layout.kind = .structure fields ∧
        fields.find? (·.name == name) = some field := by
  unfold Layout.field
  split
  next fields hkind =>
    cases hfind : fields.find? (·.name == name) with
    | none =>
      constructor
      · intro h
        cases h
      · rintro ⟨fields', hfields, h⟩
        cases hkind.symm.trans hfields
        cases hfind.symm.trans h
    | some found =>
      constructor
      · intro h
        cases h
        exact ⟨fields, hkind, hfind⟩
      · rintro ⟨fields', hfields, h⟩
        cases hkind.symm.trans hfields
        cases hfind.symm.trans h
        rfl
  next hother =>
    constructor
    · intro h
      cases h
    · rintro ⟨fields, hfields, _⟩
      exact absurd hfields (hother fields)

theorem Embedding.ofMember_iff {target : Target} {owner member : String} {embedding : Embedding} :
    Embedding.ofMember target owner member = .ok embedding ↔
      ∃ field, target.layout? owner = some embedding.layout ∧
        embedding.layout.field member = .ok field ∧ embedding.member = member ∧
        field.type = embedding.memberType ∧ field.offset = embedding.offset := by
  unfold Embedding.ofMember Target.layout
  simp only [bind_eq_ok, demand_eq_ok]
  constructor
  · rintro ⟨layout, hlayout, field, hfield, h⟩
    cases h
    exact ⟨field, hlayout, hfield, rfl, rfl, rfl⟩
  · obtain ⟨layout, member', memberType, offset⟩ := embedding
    rintro ⟨field, hlayout, hfield, rfl, rfl, rfl⟩
    exact ⟨layout, hlayout, field, hfield, rfl⟩

namespace Value

variable {target : Target} {value : Value} {name : String}

theorem field_eq_ok {place : Value} :
    value.field target name = .ok place ↔
      ∃ field, value.layout.field name = .ok field ∧
        value.address.toNat + field.offset.toNat = place.address.toNat ∧
        target.layout? field.type = some place.layout := by
  unfold field inside
  simp only [bind_eq_ok, demand_eq_ok, advance?_eq_some_iff, Target.valueAt_eq_ok]
  constructor
  · rintro ⟨field, hfield, address, haddress, rfl, hlayout⟩
    exact ⟨field, hfield, haddress, hlayout⟩
  · rintro ⟨field, hfield, haddress, hlayout⟩
    exact ⟨field, hfield, place.address, haddress, rfl, hlayout⟩

/-- A member whose field is known lies so many bytes behind the start, or outside memory. -/
theorem field_of_layout {field : Field} (hfield : value.layout.field name = .ok field) :
    value.field target name =
      if 2 ^ 64 ≤ value.address.toNat + field.offset.toNat then .error value.unavailable
      else (target.layout field.type).map fun layout =>
        ⟨.ofNat (value.address.toNat + field.offset.toNat), layout⟩ := by
  unfold Value.field inside
  rw [hfield]
  show (demand (advance? value.address field.offset.toNat) _ >>= fun address => _) = _
  by_cases h : 2 ^ 64 ≤ value.address.toNat + field.offset.toNat
  · rw [if_pos h, advance?_of_le h]
    rfl
  · rw [if_neg h, advance?_of_lt (Nat.lt_of_not_le h)]
    show target.valueAt _ field.type = _
    unfold Target.valueAt
    cases target.layout field.type <;> rfl

theorem index_eq_ok {index : Int} {place : Value} :
    value.index target index = .ok place ↔
      ∃ element low high, value.layout.kind = .array element low high ∧
        (low ≤ index ∧ index ≤ high) ∧ target.layout? element = some place.layout ∧
        value.address.toNat + (index - low).toNat * place.layout.size.toNat =
          place.address.toNat := by
  unfold Value.index
  cases value.layout.kind with
  | array element low high =>
    by_cases hrange : index < low ∨ high < index
    · simp only [if_pos hrange]
      refine iff_of_false (fun h => nomatch h) fun ⟨_, _, _, hkind, hbounds, _⟩ => ?_
      cases hkind
      omega
    · simp only [if_neg hrange, bind_eq_ok, inside, demand_eq_ok, advance?_eq_some_iff,
        Target.layout]
      refine ⟨fun ⟨layout, hlayout, address, haddress, hplace⟩ => ?_,
        fun ⟨_, _, _, hkind, hbounds, hlayout, haddress⟩ => ?_⟩
      · cases hplace
        exact ⟨element, low, high, rfl, by omega, hlayout, haddress⟩
      · cases hkind
        exact ⟨place.layout, hlayout, place.address, haddress, rfl⟩
  | _ => exact iff_of_false (fun h => nomatch h) fun ⟨_, _, _, hkind, _⟩ => nomatch hkind

/-- **A pointer that leads somewhere**: it holds an address other than zero, and there is a layout
    for what it points to. -/
theorem follow_eq_some {object : Value} :
    value.follow target = .ok (some object) ↔
      ∃ pointee, value.layout.kind = .pointer pointee ∧ value.word target = .ok object.address ∧
        object.address ≠ 0 ∧ target.layout? pointee = some object.layout := by
  unfold follow
  cases value.layout.kind with
  | pointer pointee =>
    dsimp only
    rw [bind_eq_ok]
    constructor
    · rintro ⟨address, hword, h⟩
      split at h
      next => cases h
      next hne =>
        obtain ⟨place, hplace, h⟩ := bind_eq_ok.mp h
        cases h
        obtain ⟨rfl, hlayout⟩ := Target.valueAt_eq_ok.mp hplace
        exact ⟨pointee, rfl, hword, hne, hlayout⟩
    · rintro ⟨pointee', hkind, hword, hne, hlayout⟩
      cases hkind
      refine ⟨object.address, hword, ?_⟩
      rw [if_neg hne]
      exact bind_eq_ok.mpr ⟨object, Target.valueAt_eq_ok.mpr ⟨rfl, hlayout⟩, rfl⟩
  | _ =>
    constructor
    · intro h
      cases h
    · rintro ⟨pointee, hkind, _⟩
      cases hkind

/-- The member of that name is a pointer to values of the layout `pointee`. -/
def PointerField (target : Target) (layout : Layout) (name : String) (pointee : Layout) : Prop :=
  ∃ field pointer type, layout.field name = .ok field ∧ target.layout? field.type = some pointer ∧
    pointer.kind = .pointer type ∧ target.layout? type = some pointee

/-- **Following a pointer that is a member** leads to the address that the member holds. -/
theorem follow_field {pointee : Layout} {address : UInt64}
    (hpointer : PointerField target value.layout name pointee)
    (hword : value.fieldWord target name = .ok address) :
    ∃ place, value.field target name = .ok place ∧
      place.follow target = .ok (if address = 0 then none else some ⟨address, pointee⟩) := by
  obtain ⟨field, pointer, type, hfield, hlayout, hkind, hpointee⟩ := hpointer
  obtain ⟨place, hplace, hread⟩ := bind_eq_ok.mp hword
  refine ⟨place, hplace, ?_⟩
  obtain ⟨field', hfield', -, hlayout'⟩ := field_eq_ok.mp hplace
  rw [hfield] at hfield'
  cases hfield'
  rw [hlayout] at hlayout'
  cases hlayout'
  unfold follow
  rw [hkind]
  show (place.word target >>= fun address => _) = _
  rw [hread]
  by_cases hzero : address = 0
  · rw [if_pos hzero]
    exact if_pos hzero
  · have hvalue : target.valueAt address type = .ok ⟨address, pointee⟩ :=
      Target.valueAt_eq_ok.mpr ⟨rfl, hpointee⟩
    rw [if_neg hzero]
    refine (if_neg hzero).trans ?_
    rw [hvalue]
    rfl

end Value

end KernelProbe
