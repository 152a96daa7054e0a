import KernelProbe.Image.Basic
import KernelProbe.Proofs.Intrusive.Places

/-!
# Owners and their members

To take a member of an object and to find the owner of a member are inverse to each other, up to
the ends of the address space: an owner is given exactly where the member is of the declared type
and not nearer to zero than it lies behind its owner's start.

The type of a member is compared by name. A name under which a kernel has a layout of another name
never matches, and a member declared with it has no owner. So from an owner to its member and back
the names must agree, and from a member to its owner and back the layouts.

* `Embedding.owner_eq_ok`, `Embedding.owner_eq_error` -- all that comes of asking for an owner;
* `Embedding.member_of_owner` -- members of one owner are one member;
* `Embedding.field_at` -- the member of an object of the owner's layout;
* `Embedding.owner_inverts_field` -- owner and member are inverse.
-/

namespace KernelProbe

namespace Embedding

variable {embedding : Embedding}

/-! ## 1. What is found -/

/-- **The owner of a member** is of the owner's layout, and lies before the member by its offset. -/
theorem owner_eq_ok {place object : Value} : embedding.owner place = .ok object ↔
    place.type = embedding.memberType ∧ object.layout = embedding.layout ∧
      object.address.toNat + embedding.offset.toNat = place.address.toNat := by
  unfold owner
  by_cases htype : place.type = embedding.memberType
  · rw [if_pos htype, bind_eq_ok]
    simp only [demand_eq_ok, retreat?_eq_some_iff]
    constructor
    · intro ⟨address, haddress, hobject⟩
      cases hobject
      exact ⟨htype, rfl, haddress⟩
    · intro ⟨_, hlayout, haddress⟩
      exact ⟨object.address, haddress, by rw [← hlayout]; rfl⟩
  · rw [if_neg htype]
    exact iff_of_false (fun h => nomatch h) (fun h => htype h.1)

/-- **A member without an owner** is of another type, or lies nearer to zero than its offset. -/
theorem owner_eq_error {place : Value} {fault : Fault} : embedding.owner place = .error fault ↔
    (place.type ≠ embedding.memberType ∧
      fault = .typeMismatch embedding.memberType place.type) ∨
    (place.type = embedding.memberType ∧ place.address < embedding.offset ∧
      fault = .memoryUnavailable place.address embedding.layout.size.toNat) := by
  unfold owner
  by_cases htype : place.type = embedding.memberType
  · rw [if_pos htype, bind_eq_error, demand_eq_error, retreat?_eq_none_iff, UInt64.lt_iff_toNat_lt]
    constructor
    · intro h
      rcases h with hnear | ⟨address, -, h⟩
      · exact .inr ⟨htype, hnear⟩
      · cases h
    · intro h
      rcases h with ⟨hother, -⟩ | ⟨-, hnear⟩
      · exact absurd htype hother
      · exact .inl hnear
  · rw [if_neg htype]
    constructor
    · intro h
      cases h
      exact .inl ⟨htype, rfl⟩
    · intro h
      rcases h with ⟨-, rfl⟩ | ⟨hsame, -⟩
      · rfl
      · exact absurd hsame htype

/-- Members of one owner are one member. -/
theorem member_of_owner {member other object object' : Value}
    (h : embedding.owner member = .ok object) (hother : embedding.owner other = .ok object')
    (hsame : object.address = object'.address) : member.address = other.address := by
  have haddress := (owner_eq_ok.mp h).2.2
  rw [hsame, (owner_eq_ok.mp hother).2.2] at haddress
  exact (UInt64.toNat_inj.mp haddress).symm

/-! ## 2. There and back -/

section

variable {made : Target} {owner member : String}

/-- The owner at an address, as the target gives it for which the embedding was made. -/
theorem valueAt_owner (h : Embedding.ofMember made owner member = .ok embedding)
    (address : UInt64) : made.valueAt address owner = .ok ⟨address, embedding.layout⟩ := by
  obtain ⟨field, hlayout, -⟩ := ofMember_iff.mp h
  exact Target.valueAt_eq_ok.mpr ⟨rfl, hlayout⟩

/-- **The member of an object of the owner's layout**: the first one of that name, of which the
    embedding has noted type and offset. The layout of the type is looked up when it is taken. -/
theorem field_at (h : Embedding.ofMember made owner member = .ok embedding) {target : Target}
    {object place : Value} (hobject : object.layout = embedding.layout) :
    object.field target member = .ok place ↔
      object.address.toNat + embedding.offset.toNat = place.address.toNat ∧
        target.layout? embedding.memberType = some place.layout := by
  obtain ⟨field, -, hfield, -, htype, hoffset⟩ := ofMember_iff.mp h
  rw [Value.field_eq_ok, hobject, ← htype, ← hoffset]
  constructor
  · intro ⟨field', hfield', hplace⟩
    cases hfield.symm.trans hfield'
    exact hplace
  · intro hplace
    exact ⟨field, hfield, hplace⟩

/-- **Owner and member are inverse.** The owner of a member of an object is that object, if the
    member's layout has the declared name. The owner of a place is an object of the owner type that
    lies before it by the offset, and its member is that place, with the same bytes, if the
    declared name stands for the layout of the place. There is no owner exactly where the type has
    another name, wherever the place is, and else where it lies nearer to zero than the offset. -/
theorem owner_inverts_field (h : Embedding.ofMember made owner member = .ok embedding) :
    (∀ address object, made.valueAt address owner = .ok object →
      ∀ target place, object.field target member = .ok place →
        place.type = embedding.memberType → embedding.owner place = .ok object) ∧
    (∀ place object, embedding.owner place = .ok object →
      made.valueAt object.address owner = .ok object ∧
      object.address.toNat + embedding.offset.toNat = place.address.toNat ∧
      ∀ target,
        (object.field target member = .ok place ↔
          target.layout? embedding.memberType = some place.layout) ∧
        (target.layout? embedding.memberType = some place.layout →
          (object.field target member >>= Value.bytes target) = place.bytes target)) ∧
    ∀ place fault, embedding.owner place = .error fault ↔
      (place.type ≠ embedding.memberType ∧
        fault = .typeMismatch embedding.memberType place.type) ∨
      (place.type = embedding.memberType ∧ place.address < embedding.offset ∧
        fault = .memoryUnavailable place.address embedding.layout.size.toNat) := by
  refine ⟨?_, ?_, fun place fault => owner_eq_error⟩
  · intro address object hobject target place hplace htype
    cases (valueAt_owner h address).symm.trans hobject
    have haddress := ((field_at h rfl).mp hplace).1
    exact owner_eq_ok.mpr ⟨htype, rfl, haddress⟩
  · intro place object hobject
    obtain ⟨-, hlayout, haddress⟩ := owner_eq_ok.mp hobject
    have howner : made.valueAt object.address owner = .ok object := by
      rw [valueAt_owner h, ← hlayout]
    have hback (target : Target) : object.field target member = .ok place ↔
        target.layout? embedding.memberType = some place.layout :=
      (field_at h hlayout).trans (and_iff_right haddress)
    refine ⟨howner, haddress, fun target => ⟨hback target, fun hmember => ?_⟩⟩
    rw [(hback target).mpr hmember]
    rfl

end

end Embedding

/-! ## 3. A type of two names -/

/-- The layout of a link that also goes by the name `hook_t`. -/
def hookLayout : Layout :=
  .record "struct hook" 8 [⟨"next", 0, "void *"⟩]

/-- An owner of two members of one name, and of one that is declared with the other name. -/
def taskLayout : Layout :=
  .record "struct task" 48
    [⟨"hook", 16, "struct hook"⟩, ⟨"hook", 24, "hook_t"⟩, ⟨"spare", 32, "hook_t"⟩]

/-- A kernel with these layouts. -/
def hooked : Target :=
  Image.view (.ofLayouts
    [("struct hook", hookLayout), ("hook_t", hookLayout), ("struct task", taskLayout)])

/-- The first member of the two is meant. A task is found up to the end of the address space, and
    none before its beginning; from the member declared with the other name none is found. -/
theorem Embedding.owner_inverts_field_hooked :
    let hook : Embedding := ⟨taskLayout, "hook", "struct hook", 16⟩
    let spare : Embedding := ⟨taskLayout, "spare", "hook_t", 32⟩
    let last : Value := ⟨0xffffffffffffffff, hookLayout⟩
    Embedding.ofMember hooked "struct task" "hook" = .ok hook ∧
    hook.owner last = .ok ⟨0xffffffffffffffef, taskLayout⟩ ∧
    Value.field hooked ⟨0xffffffffffffffef, taskLayout⟩ "hook" = .ok last ∧
    hook.owner ⟨15, hookLayout⟩ = .error (.memoryUnavailable 15 48) ∧
    hook.owner ⟨15, taskLayout⟩ = .error (.typeMismatch "struct hook" "struct task") ∧
    Embedding.ofMember hooked "struct task" "spare" = .ok spare ∧
    Value.field hooked ⟨0, taskLayout⟩ "spare" = .ok ⟨32, hookLayout⟩ ∧
    spare.owner ⟨32, hookLayout⟩ = .error (.typeMismatch "hook_t" "struct hook") := by
  intro hook spare last
  have hhook : Embedding.ofMember hooked "struct task" "hook" = .ok hook := rfl
  have hspare : Embedding.ofMember hooked "struct task" "spare" = .ok spare := rfl
  obtain ⟨hback, hthere, hnone⟩ := owner_inverts_field hhook
  obtain ⟨-, -, hnoneSpare⟩ := owner_inverts_field hspare
  have howner : hook.owner last = .ok ⟨0xffffffffffffffef, taskLayout⟩ :=
    hback 0xffffffffffffffef ⟨0xffffffffffffffef, taskLayout⟩ rfl hooked last rfl rfl
  have hfield := ((hthere last _ howner).2.2 hooked).1.mpr rfl
  have hnear := (hnone ⟨15, hookLayout⟩ (.memoryUnavailable 15 48)).mpr
    (.inr ⟨rfl, by decide, rfl⟩)
  have hother := (hnone ⟨15, taskLayout⟩ (.typeMismatch "struct hook" "struct task")).mpr
    (.inl ⟨by decide, rfl⟩)
  have hnamed := (hnoneSpare ⟨32, hookLayout⟩ (.typeMismatch "hook_t" "struct hook")).mpr
    (.inl ⟨by decide, rfl⟩)
  exact ⟨hhook, howner, hfield, hnear, hother, hspare, rfl, hnamed⟩

end KernelProbe
