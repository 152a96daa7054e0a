import KernelProbe.Intrusive.Catalogue
import KernelProbe.Proofs.Image.Samples
import KernelProbe.Proofs.Intrusive.Places

/-!
# Registrations

Whether a registration succeeds, and what it stores, depends on the request alone: the kernel and
the settings at that moment, the value, and the names of the owner and its member. What is stored is
a description that no later change of the kernel can touch. So the catalogue after any run of
requests is told by the requests: an address has the record that the last request granted it.

* `Means`, `KindOf` -- the object that a value stands for, and the kinds of containers;
* `Request.Grants` -- a request that is in order, with the record that it calls for;
* `Catalogue.answer_eq_ok` -- these are the requests that succeed;
* `Catalogue.last_granted_wins` -- the catalogue after a run of requests.
-/

namespace KernelProbe

/-! ## 1. Requests that are in order -/

/-- **The object that a value stands for**: a pointer stands for what it points to, any other value
    for itself. -/
inductive Means (target : Target) : Value → Value → Prop where
  | itself {value : Value} (hkind : ∀ pointee, value.layout.kind ≠ .pointer pointee) :
      Means target value value
  | pointee {value object : Value} {pointee : String} (hkind : value.layout.kind = .pointer pointee)
      (hword : value.word target = .ok object.address) (hne : object.address ≠ 0)
      (hlayout : target.layout? pointee = some object.layout) : Means target value object

/-- **The kinds of containers**, by the type of the object, with the type of the nodes. Where the
    settings name one type for both kinds of objects, it is that of lists. -/
inductive KindOf (config : Config) : (type : String) → Container.Kind → (nodeType : String) → Prop
    where
  | list : KindOf config config.listNodeType .list config.listNodeType
  | hashTable (hne : config.hashTableType ≠ config.listNodeType) :
      KindOf config config.hashTableType .hashTable config.hashNodeType

theorem Catalogue.object_eq_ok {target : Target} {value object : Value} :
    Catalogue.object target value = .ok object ↔ Means target value object := by
  unfold Catalogue.object
  cases hkind : value.layout.kind with
  | pointer pointee =>
    dsimp only
    rw [bind_eq_ok]
    constructor
    · rintro ⟨next, hfollow, hnext⟩
      rw [demand_eq_ok.mp hnext] at hfollow
      obtain ⟨pointee', hkind', hword, hne, hlayout⟩ := Value.follow_eq_some.mp hfollow
      exact .pointee hkind' hword hne hlayout
    · intro h
      cases h with
      | itself hother => exact absurd hkind (hother pointee)
      | pointee hkind' hword hne hlayout =>
        exact ⟨some object, Value.follow_eq_some.mpr ⟨_, hkind', hword, hne, hlayout⟩, rfl⟩
  | _ =>
    have hother : ∀ pointee, value.layout.kind ≠ .pointer pointee := by
      intro pointee h
      cases hkind.symm.trans h
    constructor
    · intro h
      cases h
      exact .itself hother
    · intro h
      cases h with
      | itself => rfl
      | pointee hkind' => exact absurd hkind' (hother _)

theorem Catalogue.kindOf_iff {config : Config} {type nodeType : String} {kind : Container.Kind} :
    kindOf config type = .ok (kind, nodeType) ↔ KindOf config type kind nodeType := by
  unfold kindOf
  constructor
  · intro h
    split at h
    next htype =>
      cases h
      subst htype
      exact .list
    next hne =>
      split at h
      next htype =>
        cases h
        subst htype
        exact .hashTable hne
      next => cases h
  · intro h
    cases h with
    | list => exact if_pos rfl
    | hashTable hne => rw [if_neg hne, if_pos rfl]

/-- A registration that is asked for: the kernel and the settings at that moment, the value that is
    or points to the container, and the member of the owner type that links its elements. -/
structure Request where
  target : Target
  config : Config
  value : Value
  owner : String
  member : String

/-- **A request that is in order**, for the object at an address: the type of the object tells the
    kind of the container, and in the layout that the owner type has at that moment the first field
    of the member's name is of the type of the nodes of that kind. The record holds that layout, and
    the name, the type and the offset of that field. -/
structure Request.Grants (request : Request) (address : UInt64) (container : Container) : Prop where
  object : ∃ object, Means request.target request.value object ∧ object.address = address ∧
    KindOf request.config object.type container.kind container.embedding.memberType
  layout : request.target.layout? request.owner = some container.embedding.layout
  field : ∃ fields field, container.embedding.layout.kind = .structure fields ∧
    fields.find? (·.name == request.member) = some field ∧
    field.type = container.embedding.memberType ∧ field.offset = container.embedding.offset
  member : container.embedding.member = request.member

/-- The member of the owner type that such a request names. -/
theorem Request.Grants.ofMember_eq_ok {request : Request} {address : UInt64} {container : Container}
    (h : request.Grants address container) :
    Embedding.ofMember request.target request.owner request.member =
      .ok container.embedding := by
  obtain ⟨fields, field, hstructure, hfind, htype, hoffset⟩ := h.field
  exact Embedding.ofMember_iff.mpr ⟨field, h.layout,
    Layout.field_eq_ok.mpr ⟨fields, hstructure, hfind⟩, h.member, htype, hoffset⟩

/-! ## 2. Requests that succeed -/

namespace Catalogue

/-- What comes of a request. -/
def answer (catalogue : Catalogue) (request : Request) : Except Fault Registration :=
  catalogue.register request.target request.config request.value request.owner request.member

/-- **The requests that succeed are those that are in order**, whatever is in the catalogue. -/
theorem answer_eq_ok {catalogue : Catalogue} {request : Request} {registration : Registration} :
    catalogue.answer request = .ok registration ↔
      request.Grants registration.address registration.container ∧
        registration.replaced = catalogue.find? registration.address ∧
        registration.catalogue =
          catalogue.put registration.address registration.container := by
  unfold answer register
  constructor
  · intro h
    obtain ⟨object, hobject, h⟩ := bind_eq_ok.mp h
    obtain ⟨⟨kind, nodeType⟩, hkind, h⟩ := bind_eq_ok.mp h
    obtain ⟨embedding, hembedding, h⟩ := bind_eq_ok.mp h
    dsimp only at h
    split at h
    next htype =>
      cases h
      subst htype
      obtain ⟨field, hlayout, hfield, hmember, htype, hoffset⟩ :=
        Embedding.ofMember_iff.mp hembedding
      obtain ⟨fields, hstructure, hfind⟩ := Layout.field_eq_ok.mp hfield
      exact ⟨⟨⟨object, object_eq_ok.mp hobject, rfl, kindOf_iff.mp hkind⟩, hlayout,
        ⟨fields, field, hstructure, hfind, htype, hoffset⟩, hmember⟩, rfl, rfl⟩
    next => cases h
  · obtain ⟨address, ⟨kind, embedding⟩, replaced, after⟩ := registration
    rintro ⟨hgrants, hreplaced, hafter⟩
    dsimp only at hgrants hreplaced hafter
    subst hreplaced hafter
    obtain ⟨object, hobject, rfl, hkind⟩ := hgrants.object
    refine bind_eq_ok.mpr ⟨object, object_eq_ok.mpr hobject, ?_⟩
    refine bind_eq_ok.mpr ⟨(kind, embedding.memberType), kindOf_iff.mpr hkind, ?_⟩
    refine bind_eq_ok.mpr ⟨embedding, hgrants.ofMember_eq_ok, ?_⟩
    exact if_pos rfl

/-- The catalogue after a request. One that fails changes nothing. -/
def accept (catalogue : Catalogue) (request : Request) : Catalogue :=
  match catalogue.answer request with
  | .ok registration => registration.catalogue
  | .error _ => catalogue

/-- The catalogue after requests in order. -/
def acceptAll (catalogue : Catalogue) : List Request → Catalogue
  | [] => catalogue
  | request :: later => (catalogue.accept request).acceptAll later

theorem acceptAll_append (catalogue : Catalogue) (requests later : List Request) :
    catalogue.acceptAll (requests ++ later) = (catalogue.acceptAll requests).acceptAll later := by
  induction requests generalizing catalogue with
  | nil => rfl
  | cons request requests ih => exact ih (catalogue.accept request)

variable {catalogue : Catalogue} {request : Request} {address : UInt64} {container : Container}

theorem answer_of_grants (h : request.Grants address container) :
    catalogue.answer request =
      .ok ⟨address, container, catalogue.find? address, catalogue.put address container⟩ :=
  answer_eq_ok.mpr ⟨h, rfl, rfl⟩

theorem accept_of_grants (h : request.Grants address container) :
    catalogue.accept request = catalogue.put address container := by
  unfold accept
  rw [answer_of_grants h]

theorem accept_of_error {fault : Fault} (h : catalogue.answer request = .error fault) :
    catalogue.accept request = catalogue := by
  unfold accept
  rw [h]

theorem accept_of_not_grants (h : ∀ address container, ¬ request.Grants address container) :
    catalogue.accept request = catalogue := by
  cases hanswer : catalogue.answer request with
  | error fault => exact accept_of_error hanswer
  | ok registration => exact absurd (answer_eq_ok.mp hanswer).1 (h _ _)

end Catalogue

/-- A request grants one record for one address. -/
theorem Request.Grants.unique {request : Request} {address other : UInt64}
    {container record : Container} (h : request.Grants address container)
    (h' : request.Grants other record) : address = other ∧ container = record := by
  have hsame := (Catalogue.empty.answer_of_grants h).symm.trans (Catalogue.answer_of_grants h')
  cases hsame
  exact ⟨rfl, rfl⟩

/-! ## 3. Records of addresses -/

namespace Catalogue

variable {catalogue : Catalogue} {address other : UInt64} {container : Container}

theorem lookup_filter_ne (records : List (UInt64 × Container)) (h : other ≠ address) :
    (records.filter (·.1 != address)).lookup other = records.lookup other := by
  induction records with
  | nil => rfl
  | cons record records ih =>
    obtain ⟨key, stored⟩ := record
    by_cases hkey : key = address
    · have hother : (other == key) = false := beq_false_of_ne (hkey ▸ h)
      rw [List.filter_cons_of_neg (by simp [hkey]), ih, List.lookup_cons, hother]
    · rw [List.filter_cons_of_pos (by simp [hkey]), List.lookup_cons, List.lookup_cons, ih]

theorem find?_put (catalogue : Catalogue) (address : UInt64) (container : Container) :
    (catalogue.put address container).find? address = some container := by
  unfold find? put
  exact List.lookup_cons_self

theorem find?_put_of_ne (h : other ≠ address) :
    (catalogue.put address container).find? other = catalogue.find? other := by
  have hother : (other == address) = false := beq_false_of_ne h
  unfold find? put
  rw [List.lookup_cons, hother]
  exact lookup_filter_ne catalogue.records h

/-- The addresses that have a record. -/
def addresses (catalogue : Catalogue) : List UInt64 :=
  catalogue.records.map Prod.fst

theorem mem_addresses : address ∈ catalogue.addresses ↔ ∃ container,
    catalogue.find? address = some container := by
  unfold addresses find?
  rw [← Option.isSome_iff_exists, List.lookup_isSome_iff, List.mem_map]
  constructor
  · rintro ⟨record, hmem, rfl⟩
    exact ⟨record, hmem, BEq.rfl⟩
  · rintro ⟨record, hmem, heq⟩
    exact ⟨record, hmem, (eq_of_beq heq).symm⟩

/-- Every address has at most one record. -/
theorem nodup_put (h : catalogue.addresses.Nodup) :
    (catalogue.put address container).addresses.Nodup := by
  unfold addresses put
  rw [List.map_cons, List.nodup_cons]
  constructor
  · intro hmem
    obtain ⟨record, hrecord, heq⟩ := List.mem_map.mp hmem
    have hne := (List.mem_filter.mp hrecord).2
    simp [heq] at hne
  · exact h.sublist (List.Sublist.map _ List.filter_sublist)

end Catalogue

/-! ## 4. Runs of requests -/

section Runs

variable {requests later : List Request} {address : UInt64} {container : Container}

/-- None of the requests is in order for an address. -/
def NoneGranted (requests : List Request) (address : UInt64) : Prop :=
  ∀ request ∈ requests, ∀ container, ¬ request.Grants address container

/-- **The last request that is in order for an address** calls for this record. -/
def LastGranted (requests : List Request) (address : UInt64) (container : Container) : Prop :=
  ∃ before request after, requests = before ++ request :: after ∧
    request.Grants address container ∧ NoneGranted after address

theorem lastGranted_cons {request : Request} :
    LastGranted (request :: later) address container ↔
      LastGranted later address container ∨
        request.Grants address container ∧ NoneGranted later address := by
  constructor
  · rintro ⟨before, granting, after, hsplit, hgrants, hafter⟩
    cases before with
    | nil =>
      cases hsplit
      exact .inr ⟨hgrants, hafter⟩
    | cons first before =>
      cases hsplit
      exact .inl ⟨before, granting, after, rfl, hgrants, hafter⟩
  · rintro (⟨before, granting, after, rfl, hgrants, hafter⟩ | ⟨hgrants, hlater⟩)
    · exact ⟨request :: before, granting, after, rfl, hgrants, hafter⟩
    · exact ⟨[], request, later, rfl, hgrants, hlater⟩

theorem noneGranted_cons {request : Request} :
    NoneGranted (request :: later) address ↔
      (∀ container, ¬ request.Grants address container) ∧ NoneGranted later address :=
  List.forall_mem_cons

/-- Of the requests that are in order for an address one is the last. -/
theorem exists_lastGranted (h : ¬ NoneGranted requests address) :
    ∃ container, LastGranted requests address container := by
  induction requests with
  | nil => exact absurd (fun request hmem => absurd hmem List.not_mem_nil) h
  | cons request later ih =>
    by_cases hlater : NoneGranted later address
    · obtain ⟨container, hgrants⟩ : ∃ container, request.Grants address container :=
        Classical.byContradiction fun hnone =>
          h (noneGranted_cons.mpr ⟨not_exists.mp hnone, hlater⟩)
      exact ⟨container, lastGranted_cons.mpr (.inr ⟨hgrants, hlater⟩)⟩
    · obtain ⟨container, hlast⟩ := ih hlater
      exact ⟨container, lastGranted_cons.mpr (.inl hlast)⟩

theorem LastGranted.not_noneGranted (h : LastGranted requests address container) :
    ¬ NoneGranted requests address := by
  obtain ⟨before, request, after, rfl, hgrants, -⟩ := h
  exact fun hnone => hnone request (List.mem_append_right before List.mem_cons_self) _ hgrants

namespace Catalogue

variable {catalogue : Catalogue}

/-- **One request changes the record of at most one address.** -/
theorem find?_accept {request : Request} :
    (catalogue.accept request).find? address = some container ↔
      request.Grants address container ∨
        (∀ record, ¬ request.Grants address record) ∧
          catalogue.find? address = some container := by
  by_cases hnone : ∀ address container, ¬ request.Grants address container
  · rw [accept_of_not_grants hnone]
    constructor
    · exact fun h => .inr ⟨hnone address, h⟩
    · rintro (h | ⟨-, h⟩)
      · exact absurd h (hnone _ _)
      · exact h
  · obtain ⟨key, record, hgrants⟩ : ∃ key record, request.Grants key record := by
      simpa only [Classical.not_forall, Classical.not_not] using hnone
    rw [accept_of_grants hgrants]
    by_cases hkey : address = key
    · subst hkey
      rw [find?_put]
      constructor
      · intro h
        cases h
        exact .inl hgrants
      · rintro (h | ⟨h, -⟩)
        · rw [(hgrants.unique h).2]
        · exact absurd hgrants (h record)
    · rw [find?_put_of_ne hkey]
      have hother : ∀ record, ¬ request.Grants address record :=
        fun _ h => hkey (h.unique hgrants).1
      constructor
      · exact fun h => .inr ⟨hother, h⟩
      · rintro (h | ⟨-, h⟩)
        · exact absurd h (hother _)
        · exact h

/-- **The record of an address after a run** is the one that was granted last, or the one from
    before the run if none was. -/
theorem find?_acceptAll :
    (catalogue.acceptAll requests).find? address = some container ↔
      LastGranted requests address container ∨
        NoneGranted requests address ∧ catalogue.find? address = some container := by
  induction requests generalizing catalogue with
  | nil =>
    constructor
    · exact fun h => .inr ⟨fun _ hmem => absurd hmem List.not_mem_nil, h⟩
    · rintro (⟨before, request, after, hsplit, -⟩ | ⟨-, h⟩)
      · exact absurd hsplit.symm (List.append_ne_nil_of_right_ne_nil before (List.cons_ne_nil _ _))
      · exact h
  | cons request later ih =>
    rw [acceptAll, ih, find?_accept, lastGranted_cons, noneGranted_cons]
    constructor
    · rintro (h | ⟨hlater, h | ⟨hnone, h⟩⟩)
      · exact .inl (.inl h)
      · exact .inl (.inr ⟨h, hlater⟩)
      · exact .inr ⟨⟨hnone, hlater⟩, h⟩
    · rintro ((h | ⟨h, hlater⟩) | ⟨⟨hnone, hlater⟩, h⟩)
      · exact .inl h
      · exact .inr ⟨hlater, .inl h⟩
      · exact .inr ⟨hlater, .inr ⟨hnone, h⟩⟩

theorem nodup_acceptAll (h : catalogue.addresses.Nodup) :
    (catalogue.acceptAll requests).addresses.Nodup := by
  induction requests generalizing catalogue with
  | nil => exact h
  | cons request later ih =>
    refine ih ?_
    unfold accept
    split
    next registration hanswer =>
      rw [(answer_eq_ok.mp hanswer).2.2]
      exact nodup_put h
    next => exact h

/-- The catalogue after requests, with nothing in it before. -/
def ofRequests (requests : List Request) : Catalogue :=
  Catalogue.empty.acceptAll requests

theorem find?_ofRequests :
    (ofRequests requests).find? address = some container ↔
      LastGranted requests address container := by
  unfold ofRequests
  rw [find?_acceptAll]
  constructor
  · rintro (h | ⟨-, h⟩)
    · exact h
    · cases h
  · exact .inl

theorem find?_ofRequests_eq_none :
    (ofRequests requests).find? address = none ↔ NoneGranted requests address := by
  constructor
  · intro hnone
    refine Classical.byContradiction fun h => ?_
    obtain ⟨container, hlast⟩ := exists_lastGranted h
    cases hnone.symm.trans (find?_ofRequests.mpr hlast)
  · intro hnone
    cases hfind : (ofRequests requests).find? address with
    | none => rfl
    | some container => exact absurd hnone (find?_ofRequests.mp hfind).not_noneGranted

theorem ofRequests_snoc (requests : List Request) (request : Request) :
    ofRequests (requests ++ [request]) = (ofRequests requests).accept request :=
  acceptAll_append _ _ _

/-- **The catalogue after any run of requests.** An address has the record that the last request in
    order for it called for, and none if there was no such request; so it keeps its record whatever
    becomes of the kernel. The size is the number of addresses for which a request was in order. A
    further request succeeds if and only if it is in order; then it gives the earlier record of its
    address, and changes no other one. If it fails, the catalogue stays as it is. -/
theorem last_granted_wins (requests : List Request) :
    (∀ address container, (ofRequests requests).find? address = some container ↔
      LastGranted requests address container) ∧
    (∀ address, (ofRequests requests).find? address = none ↔ NoneGranted requests address) ∧
    (∃ addresses : List UInt64, addresses.Nodup ∧
      (∀ address, address ∈ addresses ↔ ¬ NoneGranted requests address) ∧
      (ofRequests requests).size = addresses.length) ∧
    (∀ later address, NoneGranted later address →
      (ofRequests (requests ++ later)).find? address = (ofRequests requests).find? address) ∧
    ∀ request : Request,
      (∀ address container, request.Grants address container ↔
        ∃ registration, (ofRequests requests).answer request = .ok registration ∧
          registration.address = address ∧ registration.container = container) ∧
      (∀ registration, (ofRequests requests).answer request = .ok registration →
        registration.replaced = (ofRequests requests).find? registration.address ∧
        registration.catalogue = ofRequests (requests ++ [request]) ∧
        registration.catalogue.find? registration.address = some registration.container ∧
        ∀ other, other ≠ registration.address →
          registration.catalogue.find? other = (ofRequests requests).find? other) ∧
      ∀ fault, (ofRequests requests).answer request = .error fault →
        ofRequests (requests ++ [request]) = ofRequests requests := by
  refine ⟨fun _ _ => find?_ofRequests, fun _ => find?_ofRequests_eq_none, ?_, ?_, ?_⟩
  · have hnodup : (ofRequests requests).addresses.Nodup := nodup_acceptAll List.nodup_nil
    refine ⟨_, hnodup, fun address => ?_, (List.length_map _).symm⟩
    rw [mem_addresses, ← find?_ofRequests_eq_none, ← Option.isSome_iff_exists,
      Option.isSome_iff_ne_none]
  · intro later address hlater
    refine Option.ext fun container => ?_
    unfold ofRequests
    rw [acceptAll_append, find?_acceptAll]
    constructor
    · rintro (h | ⟨-, h⟩)
      · exact absurd hlater h.not_noneGranted
      · exact h
    · exact fun h => .inr ⟨hlater, h⟩
  · intro request
    refine ⟨fun address container => ⟨fun h => ?_, ?_⟩, fun registration hanswer => ?_,
      fun fault hanswer => ?_⟩
    · exact ⟨_, answer_of_grants h, rfl, rfl⟩
    · rintro ⟨registration, hanswer, rfl, rfl⟩
      exact (answer_eq_ok.mp hanswer).1
    · obtain ⟨hgrants, hreplaced, hafter⟩ := answer_eq_ok.mp hanswer
      rw [ofRequests_snoc, accept_of_grants hgrants, hafter]
      exact ⟨hreplaced, rfl, find?_put _ _ _, fun other hne => find?_put_of_ne hne⟩
    · rw [ofRequests_snoc, accept_of_error hanswer]

end Catalogue

end Runs

/-! ## 5. One address registered twice -/

namespace Catalogue

/-- The teaching kernel with a pointer at 0x2000 to the head of a list at 0x1000. -/
def pointed : Target :=
  Image.view { Image.kernel with memory := ⟨[⟨0x2000, (Memory.wordBytes 0x1000).toArray⟩]⟩ }

/-- The list holds processes, so it is said: the head itself is named, with this member. -/
def directRequest (member : String) : Request :=
  ⟨pointed, {}, ⟨0x1000, kernelLayout "struct linked_list_node"⟩, "struct proc", member⟩

/-- The same of what the pointer leads to. -/
def pointerRequest : Request :=
  ⟨pointed, {}, ⟨0x2000, kernelLayout "struct linked_list_node *"⟩, "struct proc", "list"⟩

/-- A request with the wrong member fails; the same list named through the pointer is found under
    the address of its head. -/
theorem last_granted_wins_pointed :
    ∃ fault registration,
      (ofRequests [directRequest "list"]).answer (directRequest "pid") = .error fault ∧
      ofRequests [directRequest "list", directRequest "pid"] =
        ofRequests [directRequest "list"] ∧
      (ofRequests [directRequest "list", directRequest "pid"]).answer pointerRequest =
        .ok registration ∧
      registration.address = 0x1000 ∧
      registration.replaced =
        (ofRequests [directRequest "list", directRequest "pid"]).find? 0x1000 ∧
      registration.replaced = some registration.container ∧
      registration.catalogue =
        ofRequests [directRequest "list", directRequest "pid", pointerRequest] := by
  have hfails : (ofRequests [directRequest "list"]).answer (directRequest "pid") =
      .error _ := rfl
  have hanswer : (ofRequests [directRequest "list", directRequest "pid"]).answer pointerRequest =
      .ok _ := rfl
  obtain ⟨-, -, -, -, hfirst⟩ := last_granted_wins [directRequest "list"]
  obtain ⟨-, -, -, -, hsecond⟩ :=
    last_granted_wins [directRequest "list", directRequest "pid"]
  obtain ⟨hreplaced, hcatalogue, -, -⟩ := (hsecond pointerRequest).2.1 _ hanswer
  exact ⟨_, _, hfails, (hfirst _).2.2 _ hfails, hanswer, rfl, hreplaced, rfl, hcatalogue⟩

end Catalogue

end KernelProbe
