import KernelProbe.Intrusive.Listing
import KernelProbe.Proofs.Intrusive.Children
import KernelProbe.Proofs.Intrusive.Registrations
import KernelProbe.Proofs.Intrusive.Sweeps

/-!
# A container is shown with its owners

From a registration to the labelled elements on the screen: the catalogue remembers how the links of
a container are embedded in their owners, the traversal gives the nodes, each node leads to its
owner, and the owners are numbered in the order of the nodes. For a ring or a hash table that is
whole in memory, the elements shown are its owners and nothing else.

* `Catalogue.register_eq_ok` -- what a registration that succeeds has checked and stored;
* `Entries.stream_eq` -- the numbered owners of nodes;
* `Listing.result_children` -- owners without a fault among them, under the labels they are shown by;
* `Registration.shows_owners` -- a list and a hash table that are whole are shown with their owners.
-/

namespace KernelProbe

/-! ## 1. Registrations -/

namespace Catalogue

/-- **A registration that succeeds**: the kind follows from the type of the object, and the member
    is a node of that kind of container. -/
theorem register_eq_ok {target : Target} {config : Config} {catalogue : Catalogue} {value : Value}
    {owner member : String} {registration : Registration}
    (h : catalogue.register target config value owner member = .ok registration) :
    ∃ object kind embedding, Catalogue.object target value = .ok object ∧
      kindOf config object.type = .ok (kind, embedding.memberType) ∧
      Embedding.ofMember target owner member = .ok embedding ∧
      registration.address = object.address ∧ registration.container = ⟨kind, embedding⟩ ∧
      registration.catalogue = catalogue.put object.address ⟨kind, embedding⟩ := by
  have hanswer : catalogue.answer ⟨target, config, value, owner, member⟩ = .ok registration := h
  obtain ⟨hgrants, -, hcatalogue⟩ := answer_eq_ok.mp hanswer
  obtain ⟨object, hobject, haddress, hkind⟩ := hgrants.object
  rw [← haddress] at hcatalogue
  exact ⟨object, _, _, object_eq_ok.mpr hobject, kindOf_iff.mpr hkind, hgrants.ofMember_eq_ok,
    haddress.symm, rfl, hcatalogue⟩

/-- The type of nodes that goes with a kind. -/
theorem kindOf_eq_ok {config : Config} {type nodeType : String} {kind : Container.Kind}
    (h : kindOf config type = .ok (kind, nodeType)) :
    nodeType = match kind with
      | .list => config.listNodeType
      | .hashTable => config.hashNodeType := by
  cases kindOf_iff.mp h with
  | list => rfl
  | hashTable => rfl

end Catalogue

theorem Embedding.ofMember_eq_ok {target : Target} {owner member : String} {embedding : Embedding}
    {layout : Layout} {field : Field} (h : ofMember target owner member = .ok embedding)
    (hlayout : target.layout? owner = some layout) (hfield : layout.field member = .ok field) :
    embedding = ⟨layout, member, field.type, field.offset⟩ := by
  obtain ⟨found, hlayout', hfound, rfl, htype, hoffset⟩ := ofMember_iff.mp h
  cases hlayout.symm.trans hlayout'
  cases hfield.symm.trans hfound
  rw [htype, hoffset]

/-! ## 2. Numbered owners -/

theorem Embedding.numbered_of_owners {embedding : Embedding} {nodes owners : List Value}
    (howners : nodes.map embedding.owner = owners.map .ok) (number : Nat) :
    embedding.numbered number (nodes.map .ok) =
      (owners.zipIdx number).map fun (owner, number) => .ok (number, owner) := by
  induction nodes generalizing owners number with
  | nil =>
    obtain rfl := List.map_eq_nil_iff.mp howners.symm
    rfl
  | cons node rest ih =>
    cases owners with
    | nil => cases howners
    | cons owner others =>
      obtain ⟨howner, howners⟩ := List.cons.inj howners
      have hfirst : (embedding.owner node).map (fun owner => (number, owner)) =
          .ok (number, owner) := by
        rw [howner]
        rfl
      exact (congrArg (· :: _) hfirst).trans (congrArg _ (ih howners (number + 1)))

/-- **The numbered owners of nodes**, where every node has its owner. -/
theorem Entries.stream_eq {σ : Type} [Traversal σ Value] {target : Target} {entries : Entries σ}
    {nodes owners : List Value} (hnodes : Traversal.stream target entries.nodes = nodes.map .ok)
    (howners : nodes.map entries.embedding.owner = owners.map .ok) :
    Traversal.stream target entries =
      (owners.zipIdx entries.number).map fun (owner, number) => .ok (number, owner) := by
  rw [stream_numbered, hnodes, Embedding.numbered_of_owners howners]

namespace Listing

/-- The elements under their numbers from zero on, each in brackets. -/
def labelled (elements : List Value) : List (String × Value) :=
  elements.zipIdx.map fun (element, number) => ("[" ++ toString number ++ "]", element)

/-- Numbered elements without a fault among them, under their labels. -/
theorem underLabels_numbered (elements : List Value) :
    underLabels (Listing.elements (elements.zipIdx.map fun (element, number) =>
      .ok (number, element))) = (labelled elements).toArray := by
  have hkept : Listing.elements (elements.zipIdx.map fun (element, number) =>
      .ok (number, element)) = elements.zipIdx.map Prod.swap := by
    rw [Listing.elements, List.filterMap_map]
    exact congrFun List.filterMap_eq_map _
  rw [hkept, underLabels, List.map_map]
  rfl

/-- **Where every node has its owner, the owners are shown**, under their numbers. -/
theorem result_children {target : Target} {config : Config} {listing : Listing} {nodes : Nodes}
    {places owners : List Value} (hnodes : listing.nodes target config = .ok nodes)
    (hplaces : Traversal.stream target nodes = places.map .ok)
    (howners : places.map listing.container.embedding.owner = owners.map .ok) :
    (listing.children target config).result = .ok (labelled owners).toArray := by
  have hentries : listing.entries target config = .ok (.of nodes listing.container.embedding) := by
    unfold entries
    rw [hnodes]
    rfl
  have hstream : Traversal.stream target (Entries.of nodes listing.container.embedding) =
      owners.zipIdx.map fun (owner, number) => .ok (number, owner) :=
    Entries.stream_eq hplaces howners
  refine (result_children_eq_ok hentries).mpr ⟨fun item hitem => ?_, ?_⟩
  · rw [hstream] at hitem
    obtain ⟨_, -, rfl⟩ := List.mem_map.mp hitem
    rfl
  · rw [hstream]
    exact (underLabels_numbered owners).symm

/-- Where the type of the container is found, the value is read by its layout. -/
theorem object_eq_ok {target : Target} {config : Config} {listing : Listing} {layout : Layout}
    (h : target.layout? (listing.container.kind.objectType config) = some layout) :
    listing.object target config = .ok ⟨listing.value.address, layout⟩ :=
  bind_eq_ok.mpr ⟨layout, demand_eq_ok.mpr h, rfl⟩

end Listing

/-! ## 3. Containers that are whole -/

/-- **A list in memory**: the head is that of a ring through the links of the owners, which lie
    `offset` bytes behind them. -/
structure ListHolds (target : Target) (config : Config) (head offset : UInt64)
    (owners : List UInt64) : Prop where
  ring : ∃ layout, NodeType target config.listNodeType layout ∧
    Closes target layout head (membersOf offset owners)
  fits : ∀ owner ∈ owners, owner.toNat + offset.toNat < 2 ^ 64
  limited : owners.length ≤ config.maxChainNodes

/-- **What is shown where a container was registered**, of whatever value lies there: these elements
    and no others, numbered from zero on. -/
def Registration.Shows (target : Target) (config : Config) (registration : Registration)
    (elements : List Value) : Prop :=
  ∀ value : Value, value.address = registration.address →
    ∃ listing, registration.catalogue.listing? value = some listing ∧
      (listing.children target config).result = .ok (Listing.labelled elements).toArray

theorem list_shows {target : Target} {config : Config} {value : Value} {embedding : Embedding}
    {owners : List UInt64} (htype : embedding.memberType = config.listNodeType)
    (h : ListHolds target config value.address embedding.offset owners) :
    (Listing.children target config ⟨value, .list, embedding⟩).result =
      .ok (Listing.labelled (placesAt embedding.layout owners)).toArray := by
  obtain ⟨⟨layout, hnode, hcloses⟩, hfits, hlimited⟩ := h
  have hlength : (membersOf embedding.offset owners).length ≤ config.maxChainNodes := by
    rwa [membersOf, List.length_map]
  have hnodes : Listing.nodes target config ⟨value, .list, embedding⟩ =
      .ok (.ring (.of ⟨value.address, layout⟩ config.maxChainNodes)) :=
    bind_eq_ok.mpr ⟨⟨value.address, layout⟩, Listing.object_eq_ok hnode.found, rfl⟩
  refine Listing.result_children hnodes ?_
    (Embedding.owners_of_members (hnode.named.trans htype.symm) hfits)
  rw [Nodes.stream_ring]
  exact Ring.stream_of_closes hnode.next hcloses hlength

theorem table_shows {target : Target} {config : Config} {value : Value} {embedding : Embedding}
    {address : UInt64} (haddress : value.address = address)
    (shape : HashTableShape target config address) {buckets : List (List UInt64)}
    (htype : embedding.memberType = config.hashNodeType)
    (h : shape.Holds embedding.offset buckets) :
    (Listing.children target config ⟨value, .hashTable, embedding⟩).result =
      .ok (Listing.labelled (placesAt embedding.layout buckets.flatten)).toArray := by
  subst haddress
  have hnodes : Listing.nodes target config ⟨value, .hashTable, embedding⟩ =
      .ok (.sweep (.of shape.table)) :=
    bind_eq_ok.mpr ⟨⟨value.address, shape.object⟩, Listing.object_eq_ok shape.object_found,
      bind_eq_ok.mpr ⟨shape.table, shape.read_eq_ok, rfl⟩⟩
  refine Listing.result_children hnodes ?_
    (Embedding.owners_of_members (shape.hashNode_named.trans htype.symm) fun owner hmem => ?_)
  · rw [Nodes.stream_sweep]
    exact shape.stream_sweep h
  · obtain ⟨owners, howners, hmem⟩ := List.mem_flatten.mp hmem
    obtain ⟨number, hnumber, rfl⟩ := List.getElem_of_mem howners
    have hfit := (h.bucket number hnumber).fits owner hmem
    omega

/-- **A container that is whole is shown with its owners.** After a registration that succeeded, a
    value at the registered address is shown as that container, whatever type it has: a list with
    the owners on its ring, in the order of the links; a hash table with the owners in all its
    buckets, bucket by bucket and in the order of the links within each, numbered throughout. The
    number of an owner stands in brackets, from `[0]` on. -/
theorem registered_shows_owners {target : Target} {config : Config} {catalogue : Catalogue}
    {value : Value} {owner member : String} {registration : Registration} {layout : Layout}
    {field : Field}
    (hregister : catalogue.register target config value owner member = .ok registration)
    (hlayout : target.layout? owner = some layout) (hfield : layout.field member = .ok field) :
    (registration.container.kind = .list → ∀ owners : List UInt64,
      ListHolds target config registration.address field.offset owners →
      registration.Shows target config (placesAt layout owners)) ∧
    (registration.container.kind = .hashTable →
      ∀ (shape : HashTableShape target config registration.address) (buckets : List (List UInt64)),
        shape.Holds field.offset buckets →
        registration.Shows target config (placesAt layout buckets.flatten)) := by
  obtain ⟨object, kind, embedding, -, hkind, hembedding, haddress, hcontainer, hcatalogue⟩ :=
    Catalogue.register_eq_ok hregister
  have htype := Catalogue.kindOf_eq_ok hkind
  obtain rfl := Embedding.ofMember_eq_ok hembedding hlayout hfield
  have hlisting : ∀ shown : Value, shown.address = registration.address →
      registration.catalogue.listing? shown = some ⟨shown, registration.container⟩ := by
    intro shown hshown
    refine Listing.listing?_eq_some.mpr ⟨?_, rfl⟩
    rw [hcatalogue, hshown, haddress, Catalogue.find?_put, hcontainer]
  constructor
  · intro hlist owners hholds shown hshown
    refine ⟨_, hlisting shown hshown, ?_⟩
    rw [hcontainer] at hlist ⊢
    cases hlist
    exact list_shows htype (hshown ▸ hholds)
  · intro htable shape buckets hholds shown hshown
    refine ⟨_, hlisting shown hshown, ?_⟩
    rw [hcontainer] at htable ⊢
    cases htable
    exact table_shows hshown shape htype hholds

/-! ## 4. A kernel with two containers -/

/-- The teaching kernel with a list of two processes, whose head is at 0x1000, and at 0x4000 a hash
    table of two buckets, the second of which holds one inode. -/
def furnished : Target :=
  Image.view { Image.kernel with memory := ⟨[
    wordsAt 0x1000 [0, 0x2008], wordsAt 0x2000 [7, 0, 0x3008, 0, 0],
    wordsAt 0x3000 [8, 0, 0x1000, 0, 0], wordsAt 0x4000 [2, 0, 0, 0x5000],
    wordsAt 0x5000 [0, 0x5000, 0, 0x6008], wordsAt 0x6000 [9, 0, 0x5010, 0]]⟩ }

theorem furnished_nodeType :
    NodeType furnished "struct linked_list_node" (kernelLayout "struct linked_list_node") where
  found := rfl
  named := rfl
  next := ⟨⟨"next", 8, "struct linked_list_node *"⟩,
    .pointer "struct linked_list_node *" "struct linked_list_node", "struct linked_list_node",
    rfl, rfl, rfl, rfl⟩

/-- The hash table of that kernel. -/
def furnishedTable : HashTableShape furnished {} 0x4000 where
  object := kernelLayout "struct hash_table"
  object_found := rfl
  count := 2
  count_read := rfl
  first := 0x5000
  first_ne := by decide
  first_read := rfl
  bucket := kernelLayout "struct hash_table_node"
  buffer_pointer := ⟨⟨"buffer", 24, "struct hash_table_node *"⟩,
    .pointer "struct hash_table_node *" "struct hash_table_node", "struct hash_table_node",
    rfl, rfl, rfl, rfl⟩
  hashNode := kernelLayout "struct hash_table_node"
  hashNode_found := rfl
  hashNode_named := rfl
  chain := ⟨"confliced_list", 0, "struct linked_list_node"⟩
  chain_found := rfl
  link := kernelLayout "struct linked_list_node"
  link_type := furnished_nodeType

theorem furnished_list : ListHolds furnished {} 0x1000 8 [0x2000, 0x3000] where
  ring := by
    refine ⟨_, furnished_nodeType, by decide, ?_, rfl, rfl, rfl⟩
    exact List.forall_mem_cons.mpr ⟨by decide, List.forall_mem_singleton.mpr (by decide)⟩
  fits := List.forall_mem_cons.mpr ⟨by decide, List.forall_mem_singleton.mpr (by decide)⟩
  limited := by decide

theorem furnished_table : furnishedTable.Holds 8 [[], [0x6000]] := by
  have hfirst : furnishedTable.Bucket 8 0 [] :=
    ⟨⟨0x5000, rfl, by decide, List.forall_mem_nil _, rfl⟩, List.forall_mem_nil _, by decide⟩
  have hsecond : furnishedTable.Bucket 8 1 [0x6000] :=
    ⟨⟨0x5010, rfl, by decide, List.forall_mem_singleton.mpr (by decide), rfl, rfl⟩,
      List.forall_mem_singleton.mpr (by decide), by decide⟩
  refine ⟨rfl, fun number h => ?_⟩
  match number, h with
  | 0, _ => exact hfirst
  | 1, _ => exact hsecond

/-- Both containers of that kernel are shown with their owners, whatever is said to lie there. -/
theorem furnished_shows_owners :
    (∃ registration,
      Catalogue.empty.register furnished {} ⟨0x1000, kernelLayout "struct linked_list_node"⟩
        "struct proc" "list" = .ok registration ∧
      ∀ value : Value, value.address = 0x1000 → ∃ listing,
        registration.catalogue.listing? value = some listing ∧
          (listing.children furnished {}).result =
            .ok #[("[0]", ⟨0x2000, kernelLayout "struct proc"⟩),
              ("[1]", ⟨0x3000, kernelLayout "struct proc"⟩)]) ∧
    ∃ registration,
      Catalogue.empty.register furnished {} ⟨0x4000, kernelLayout "struct hash_table"⟩
        "struct inode" "hash" = .ok registration ∧
      ∀ value : Value, value.address = 0x4000 → ∃ listing,
        registration.catalogue.listing? value = some listing ∧
          (listing.children furnished {}).result =
            .ok #[("[0]", ⟨0x6000, kernelLayout "struct inode"⟩)] := by
  have hprocs : Catalogue.empty.register furnished {}
      ⟨0x1000, kernelLayout "struct linked_list_node"⟩ "struct proc" "list" = .ok _ := rfl
  have hinodes : Catalogue.empty.register furnished {} ⟨0x4000, kernelLayout "struct hash_table"⟩
      "struct inode" "hash" = .ok _ := rfl
  have hlist : (kernelLayout "struct proc").field "list" =
      .ok ⟨"list", 8, "struct linked_list_node"⟩ := rfl
  have hhash : (kernelLayout "struct inode").field "hash" =
      .ok ⟨"hash", 8, "struct hash_table_node"⟩ := rfl
  refine ⟨⟨_, hprocs, ?_⟩, ⟨_, hinodes, ?_⟩⟩
  · exact (registered_shows_owners hprocs rfl hlist).1 rfl _ furnished_list
  · exact (registered_shows_owners hinodes rfl hhash).2 rfl furnishedTable _ furnished_table

end KernelProbe
