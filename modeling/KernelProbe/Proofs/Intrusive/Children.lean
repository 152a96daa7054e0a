import KernelProbe.Intrusive.Listing
import KernelProbe.Proofs.Intrusive.Buckets

/-!
# What is shown of the elements

A container is shown by its elements, each under the label of its number, without those that are
faults of type. The numbers are positions among all items, so an item that is left out leaves a gap
in the labels, and the numbers still rise. Any other fault takes the place of the whole list, and
the first such fault is the one that is told. Of the value that is shown only the address counts,
since it is read anew as the object of the container.

* `Listing.elements` -- the elements among items, with their numbers;
* `Listing.result_children_eq_ok`, `Listing.result_children_eq_error` -- what becomes of the items;
* `Listing.number_eq_position` -- numbers are positions;
* `Listing.children_filter_entries` -- what is shown, by the entries.
-/

namespace KernelProbe

/-! ## 1. The items that are left out or shown -/

section Breaks

variable {α : Type}

/-- **Nothing breaks off but a fault**, and a fault of type does not. -/
theorem breaks_eq_false_iff {item : Except Fault α} : breaks item = false ↔
    (∃ a, item = .ok a) ∨ ∃ expected found, item = .error (.typeMismatch expected found) := by
  cases item with
  | ok a => exact iff_of_true rfl (.inl ⟨a, rfl⟩)
  | error fault =>
    cases fault with
    | typeMismatch expected found => exact iff_of_true rfl (.inr ⟨expected, found, rfl⟩)
    | _ => simp [breaks]

theorem breaks_error_iff {fault : Fault} : breaks (.error fault : Except Fault α) = true ↔
    ∀ expected found, fault ≠ .typeMismatch expected found := by
  cases fault with
  | typeMismatch expected found => exact iff_of_false nofun fun h => h expected found rfl
  | _ => exact iff_of_true rfl nofun

/-- The items up to the first fault that breaks off. -/
theorem exists_first_break (items : List (Except Fault α)) :
    (∀ item ∈ items, breaks item = false) ∨
      ∃ before fault later, items = before ++ .error fault :: later ∧
        (∀ item ∈ before, breaks item = false) ∧
        breaks (.error fault : Except Fault α) = true := by
  induction items with
  | nil => exact .inl (List.forall_mem_nil _)
  | cons item rest ih =>
    by_cases hitem : breaks item = false
    · rcases ih with hrest | ⟨before, fault, later, rfl, hbefore, hfault⟩
      · exact .inl (List.forall_mem_cons.mpr ⟨hitem, hrest⟩)
      · exact .inr ⟨item :: before, fault, later, rfl, List.forall_mem_cons.mpr ⟨hitem, hbefore⟩,
          hfault⟩
    · cases item with
      | ok a => exact absurd rfl hitem
      | error fault =>
        exact .inr ⟨[], fault, rest, rfl, List.forall_mem_nil _, by simpa using hitem⟩

end Breaks

namespace Listing

/-- The elements among items, with their numbers. -/
def elements (items : List (Except Fault (Nat × Value))) : List (Nat × Value) :=
  items.filterMap Except.toOption

/-- Elements under their numbers, each in brackets. -/
def underLabels (elements : List (Nat × Value)) : Array (String × Value) :=
  (elements.map fun (number, element) => ("[" ++ toString number ++ "]", element)).toArray

theorem foldlM_passed {items : List (Except Fault (Nat × Value))}
    (h : ∀ item ∈ items, breaks item = false) (shown : Array (String × Value)) :
    items.foldlM (fun shown item => (addChild shown item).result) shown =
      .ok (shown ++ underLabels (elements items)) := by
  induction items generalizing shown with
  | nil => exact congrArg Except.ok Array.append_empty.symm
  | cons item rest ih =>
    obtain ⟨hitem, hrest⟩ := List.forall_mem_cons.mp h
    rcases breaks_eq_false_iff.mp hitem with ⟨⟨number, element⟩, rfl⟩ | ⟨expected, found, rfl⟩
    · refine (ih hrest (shown.push (label number, element))).trans (congrArg Except.ok ?_)
      exact Array.ext' (by simp [elements, underLabels, label, Except.toOption])
    · exact ih hrest shown

theorem addChild_of_breaks {fault : Fault}
    (h : breaks (.error fault : Except Fault (Nat × Value)) = true)
    (shown : Array (String × Value)) : (addChild shown (.error fault)).result = .error fault := by
  cases fault with
  | typeMismatch expected found => cases h
  | _ => rfl

theorem foldlM_broken {before later : List (Except Fault (Nat × Value))} {fault : Fault}
    (hbefore : ∀ item ∈ before, breaks item = false)
    (hfault : breaks (.error fault : Except Fault (Nat × Value)) = true)
    (shown : Array (String × Value)) :
    (before ++ .error fault :: later).foldlM
      (fun shown item => (addChild shown item).result) shown = .error fault := by
  rw [List.foldlM_append, foldlM_passed hbefore]
  refine bind_eq_error.mpr (.inr ⟨_, rfl, ?_⟩)
  rw [List.foldlM_cons, addChild_of_breaks hfault]
  rfl

/-! ## 2. What becomes of the items -/

section Children

variable {target : Target} {config : Config} {listing : Listing} {entries : Entries Nodes}
  (h : listing.entries target config = .ok entries)

include h

theorem result_children_of_entries :
    (listing.children target config).result = (Traversal.stream target entries).foldlM
      (fun shown item => (addChild shown item).result) #[] := by
  unfold children
  rw [h]
  exact Traversal.result_fold target addChild #[] #[] entries

/-- **A list is shown exactly when no item breaks off**, and then it is that of all elements. -/
theorem result_children_eq_ok {children : Array (String × Value)} :
    (listing.children target config).result = .ok children ↔
      (∀ item ∈ Traversal.stream target entries, breaks item = false) ∧
        children = underLabels (elements (Traversal.stream target entries)) := by
  rw [result_children_of_entries h]
  rcases exists_first_break (Traversal.stream target entries) with
    hpassed | ⟨before, fault, later, hitems, hbefore, hfault⟩
  · rw [foldlM_passed hpassed, Array.empty_append, Except.ok.injEq, and_iff_right hpassed]
    exact eq_comm
  · rw [hitems, foldlM_broken hbefore hfault]
    refine iff_of_false nofun fun hshown => ?_
    have hpassed := hshown.1 (.error fault) (by simp)
    rw [hfault] at hpassed
    cases hpassed

/-- **A fault is told exactly when it is the first that breaks off.** -/
theorem result_children_eq_error {fault : Fault} :
    (listing.children target config).result = .error fault ↔
      ∃ before later, Traversal.stream target entries = before ++ .error fault :: later ∧
        (∀ item ∈ before, breaks item = false) ∧
        breaks (.error fault : Except Fault (Nat × Value)) = true := by
  rw [result_children_of_entries h]
  refine ⟨fun hresult => ?_, fun ⟨before, later, hitems, hbefore, hfault⟩ => ?_⟩
  · rcases exists_first_break (Traversal.stream target entries) with
      hpassed | ⟨before, first, later, hitems, hbefore, hfirst⟩
    · rw [foldlM_passed hpassed] at hresult
      cases hresult
    · rw [hitems, foldlM_broken hbefore hfirst] at hresult
      cases hresult
      exact ⟨before, later, hitems, hbefore, hfirst⟩
  · rw [hitems, foldlM_broken hbefore hfault]

/-! ## 3. Numbers -/

/-- **The number of an element is its position** among all items. -/
theorem number_eq_position {position number : Nat} {element : Value}
    (hitem : (Traversal.stream target entries)[position]? = some (.ok (number, element))) :
    number = position := by
  obtain ⟨nodes, -, hentries⟩ := bind_eq_ok.mp h
  cases hentries
  rw [Entries.stream_numbered, Embedding.numbered, List.getElem?_map, List.getElem?_zipIdx] at hitem
  obtain ⟨⟨node, place⟩, hplace, howner⟩ := Option.map_eq_some_iff.mp hitem
  obtain ⟨_, _, hnumber⟩ := Option.map_eq_some_iff.mp hplace
  cases hnumber
  obtain ⟨_, _, howner⟩ := bind_eq_ok.mp howner
  obtain ⟨_, _, hfound⟩ := map_eq_ok.mp howner
  cases hfound
  exact Nat.zero_add position

/-- An element is among those shown if it stands at the place of its number. -/
theorem mem_elements {number : Nat} {element : Value} :
    (number, element) ∈ elements (Traversal.stream target entries) ↔
      (Traversal.stream target entries)[number]? = some (.ok (number, element)) := by
  unfold elements
  rw [List.mem_filterMap]
  refine ⟨fun ⟨item, hitem, hfound⟩ => ?_, fun hitem => ?_⟩
  · obtain ⟨position, hposition⟩ := List.mem_iff_getElem?.mp hitem
    cases item with
    | error fault => cases hfound
    | ok found =>
      cases hfound
      obtain rfl := number_eq_position h hposition
      exact hposition
  · exact ⟨_, List.mem_of_getElem? hitem, rfl⟩

/-- The numbers of the elements rise. -/
theorem numbers_rise :
    (elements (Traversal.stream target entries)).Pairwise fun earlier later =>
      earlier.1 < later.1 := by
  have hnumber : ∀ (position : Nat) (hlt : position < (Traversal.stream target entries).length)
      (found : Nat × Value), (Traversal.stream target entries)[position].toOption = some found →
        found.1 = position := fun position hlt found hfound => by
    cases hitem : (Traversal.stream target entries)[position] with
    | error fault =>
      rw [hitem] at hfound
      cases hfound
    | ok other =>
      rw [hitem] at hfound
      cases hfound
      exact number_eq_position h ((List.getElem?_eq_getElem hlt).trans (congrArg some hitem))
  unfold elements
  rw [List.pairwise_filterMap, List.pairwise_iff_getElem]
  intro first second hfirst hsecond hlt earlier hearlier later hlater
  rw [hnumber first hfirst earlier hearlier, hnumber second hsecond later hlater]
  exact hlt

end Children

/-! ## 4. What is shown -/

/-- Of the value that is shown only the address is read. -/
theorem entries_congr {listing other : Listing}
    (hvalue : other.value.address = listing.value.address)
    (hcontainer : other.container = listing.container) (target : Target) (config : Config) :
    other.entries target config = listing.entries target config := by
  have hcast : ∀ layout, other.value.cast layout = listing.value.cast layout := fun layout => by
    rw [Value.cast, Value.cast, hvalue]
  unfold entries nodes object
  simp only [hcast, hcontainer]

theorem children_congr {listing other : Listing}
    (hvalue : other.value.address = listing.value.address)
    (hcontainer : other.container = listing.container) (target : Target) (config : Config) :
    other.children target config = listing.children target config := by
  unfold children
  rw [entries_congr hvalue hcontainer]

theorem listing?_eq_some {catalogue : Catalogue} {value : Value} {listing : Listing} :
    catalogue.listing? value = some listing ↔
      catalogue.find? value.address = some listing.container ∧ listing.value = value := by
  obtain ⟨shown, container⟩ := listing
  rw [Catalogue.listing?, Option.map_eq_some_iff]
  constructor
  · rintro ⟨found, hfound, hlisting⟩
    cases hlisting
    exact ⟨hfound, rfl⟩
  · rintro ⟨hfound, rfl⟩
    exact ⟨container, hfound, rfl⟩

/-- **What is shown of a container, by its entries.** If there are no entries to go through the
    fault of that is told. Otherwise a list is shown exactly when every item is an element or a
    fault of type: it is that of the elements in order, each under the label of its number, which is
    its position among all items, so that the numbers rise and an item left out leaves a gap. If
    there is another fault among the items, the first such fault is told and nothing is shown. Any
    value at the same address, of whatever type, is shown as the same container, with the same entries
    and elements. -/
theorem children_filter_entries {catalogue : Catalogue} {value : Value} {listing : Listing}
    (hlisting : catalogue.listing? value = some listing) (target : Target) (config : Config) :
    (∀ fault, listing.entries target config = .error fault →
      (listing.children target config).result = .error fault) ∧
    (∀ entries, listing.entries target config = .ok entries →
      (∀ children, (listing.children target config).result = .ok children ↔
        (∀ item ∈ Traversal.stream target entries, (∃ element, item = .ok element) ∨
          ∃ expected found, item = .error (.typeMismatch expected found)) ∧
        children = underLabels (elements (Traversal.stream target entries))) ∧
      (∀ fault, (listing.children target config).result = .error fault ↔
        ∃ before later, Traversal.stream target entries = before ++ .error fault :: later ∧
          (∀ item ∈ before, (∃ element, item = .ok element) ∨
            ∃ expected found, item = .error (.typeMismatch expected found)) ∧
          ∀ expected found, fault ≠ .typeMismatch expected found) ∧
      ((elements (Traversal.stream target entries)).Pairwise fun earlier later =>
        earlier.1 < later.1) ∧
      ∀ number element, (number, element) ∈ elements (Traversal.stream target entries) ↔
        (Traversal.stream target entries)[number]? = some (.ok (number, element))) ∧
    ∀ other : Value, other.address = value.address → ∃ shown,
      catalogue.listing? other = some shown ∧ shown.value = other ∧
        shown.container = listing.container ∧
        shown.entries target config = listing.entries target config ∧
        shown.children target config = listing.children target config := by
  refine ⟨fun fault h => ?_, fun entries h => ⟨fun children => ?_, fun fault => ?_,
    numbers_rise h, fun number element => mem_elements h⟩, fun other hother => ?_⟩
  · unfold children
    rw [h]
    rfl
  · simp only [result_children_eq_ok h, breaks_eq_false_iff]
  · simp only [result_children_eq_error h, breaks_eq_false_iff, breaks_error_iff]
  · obtain ⟨hfound, hvalue⟩ := listing?_eq_some.mp hlisting
    have hsame : (Listing.mk other listing.container).value.address = listing.value.address :=
      hother.trans (congrArg Value.address hvalue.symm)
    exact ⟨⟨other, listing.container⟩, listing?_eq_some.mpr ⟨hother ▸ hfound, rfl⟩, rfl, rfl,
      entries_congr hsame rfl target config, children_congr hsame rfl target config⟩

/-- The kernel with two names for the type of links, with a list of three processes in its memory,
    whose head is at 0x1000. -/
def alternating : Target :=
  { torn with memory? := Memory.read? ⟨[
      wordsAt 0x1000 [0, 0x2008], wordsAt 0x2000 [7, 0, 0x3008, 0, 0],
      wordsAt 0x3000 [8, 0, 0x4008, 0, 0], wordsAt 0x4000 [9, 0, 0x1000, 0, 0]]⟩ }

/-- The list of that kernel, where a number is said to lie. -/
def processes : Listing :=
  ⟨⟨0x1000, .scalar "uint64_t" 8⟩, .list, tornLayout "struct proc", "list",
    "struct linked_list_node", 8⟩

/-- Where a number lies at the address of the list, the second process is shown under its number;
    the links of the first and the third go by the other name. -/
theorem children_filter_entries_alternating :
    Catalogue.listing? ⟨[(0x1000, processes.container)]⟩ ⟨0x1000, .scalar "uint64_t" 8⟩ =
        some processes ∧
      (processes.children alternating {}).result =
        .ok #[("[1]", ⟨0x3000, tornLayout "struct proc"⟩)] := by
  have hlisting : Catalogue.listing? ⟨[(0x1000, processes.container)]⟩
      ⟨0x1000, .scalar "uint64_t" 8⟩ = some processes := rfl
  have hentries : processes.entries alternating {} = .ok (.of
      (.ring (.of ⟨0x1000, tornLayout "struct linked_list_node"⟩ 0x100000))
      processes.container.embedding) := rfl
  have hstream : Traversal.stream alternating (Entries.of
      (.ring (.of ⟨0x1000, tornLayout "struct linked_list_node"⟩ 0x100000))
      processes.container.embedding : Entries Nodes) =
        [.error (.typeMismatch "struct linked_list_node" "list_t"),
          .ok (1, ⟨0x3000, tornLayout "struct proc"⟩),
          .error (.typeMismatch "struct linked_list_node" "list_t")] := by
    rw [Traversal.stream_of_some rfl, Traversal.stream_of_some rfl, Traversal.stream_of_some rfl,
      Traversal.stream_of_none rfl]
    rfl
  obtain ⟨-, hshown, -⟩ := children_filter_entries hlisting alternating {}
  refine ⟨hlisting, ((hshown _ hentries).1 _).mpr ?_⟩
  rw [hstream]
  refine ⟨?_, rfl⟩
  simp

end Listing

end KernelProbe
