import KernelProbe.Proofs.Intrusive.Buckets
import KernelProbe.Proofs.Intrusive.Owners
import KernelProbe.Proofs.Intrusive.Rings

/-!
# Hash tables in memory

What it means that memory holds a hash table: the words in its head, and in every bucket the ring
of the elements there. No bucket of such a table has a fault in it, so nothing is cut off from what
the sweep over the table gives: the hash nodes of all elements, one bucket after the other.

* `Embedding.owners_of_members` -- the owners of a list of members;
* `Sweep.stream_buckets` -- buckets without a fault, one after the other;
* `HashTableShape` -- what memory holds where a hash table lies;
* `HashTableShape.stream_sweep` -- the sweep over such a table.
-/

namespace KernelProbe

/-! ## 1. Owners of members -/

/-- The addresses `offset` bytes behind those of the owners. -/
def membersOf (offset : UInt64) (owners : List UInt64) : List UInt64 :=
  owners.map (· + offset)

theorem toNat_member {owner offset : UInt64} (h : owner.toNat + offset.toNat < 2 ^ 64) :
    (owner + offset).toNat = owner.toNat + offset.toNat := by
  rw [UInt64.toNat_add, Nat.mod_eq_of_lt h]

namespace Embedding

variable {embedding : Embedding} {layout : Layout}

theorem owner_of_member {owner : UInt64} (htype : layout.name = embedding.memberType)
    (h : owner.toNat + embedding.offset.toNat < 2 ^ 64) :
    embedding.owner ⟨owner + embedding.offset, layout⟩ = .ok ⟨owner, embedding.layout⟩ :=
  owner_eq_ok.mpr ⟨htype, rfl, (toNat_member h).symm⟩

/-- **The owners of members** of the declared type are found where they lie. -/
theorem owners_of_members (htype : layout.name = embedding.memberType) {owners : List UInt64}
    (h : ∀ owner ∈ owners, owner.toNat + embedding.offset.toNat < 2 ^ 64) :
    (placesAt layout (membersOf embedding.offset owners)).map embedding.owner =
      (placesAt embedding.layout owners).map .ok := by
  unfold placesAt membersOf
  rw [List.map_map, List.map_map, List.map_map]
  refine List.map_congr_left fun owner hmem => ?_
  exact owner_of_member htype (h owner hmem)

end Embedding

/-! ## 2. Buckets without a fault -/

namespace Sweep

variable {target : Target} {table : HashTable}

/-- A ring whose nodes all have their hash nodes. -/
theorem hashNodes_of_owners {ring : Ring} {nodes hashNodes : List Value}
    (hring : Traversal.stream target ring = nodes.map .ok)
    (howners : nodes.map table.chain.owner = hashNodes.map .ok) :
    table.hashNodes target ring = hashNodes.map .ok := by
  unfold HashTable.hashNodes
  rw [hring, List.map_map]
  exact howners

/-- **Buckets without a fault are given in their order**, each with the nodes of its ring. -/
theorem stream_buckets {chains : List (List Value)} (hcount : chains.length = table.length)
    (hrings : ∀ (index : Nat) (h : index < chains.length),
      table.given target (table.ring target index) = chains[index].map .ok) :
    Traversal.stream target (Sweep.of table) = chains.flatten.map .ok := by
  have hitems : (List.range table.length).flatMap
      (fun number => table.given target (table.ring target number)) = chains.flatten.map .ok := by
    rw [List.flatMap_def, List.map_flatten]
    refine congrArg List.flatten (List.ext_getElem ?_ fun index h h' => ?_)
    · rw [List.length_map, List.length_map, List.length_range, hcount]
    · rw [List.length_map] at h'
      rw [List.getElem_map, List.getElem_map, List.getElem_range]
      exact hrings index h'
  rw [stream_eq, remaining_of, hitems]
  refine upToBreak_of_forall fun item hmem => ?_
  obtain ⟨node, -, rfl⟩ := List.mem_map.mp hmem
  rfl

end Sweep

/-! ## 3. Hash tables in memory -/

/-- **What memory holds where a hash table lies**: the number of its buckets and the address of the
    first one, in an object of the type that the settings name; and how a bucket, which is a hash
    node, holds the head of a ring. -/
structure HashTableShape (target : Target) (config : Config) (address : UInt64) where
  object : Layout
  object_found : target.layout? config.hashTableType = some object
  count : UInt64
  count_read : Value.fieldWord target ⟨address, object⟩ config.hashLengthField = .ok count
  first : UInt64
  first_ne : first ≠ 0
  first_read : Value.fieldWord target ⟨address, object⟩ config.hashBufferField = .ok first
  bucket : Layout
  buffer_pointer : Value.PointerField target object config.hashBufferField bucket
  hashNode : Layout
  hashNode_found : target.layout? config.hashNodeType = some hashNode
  hashNode_named : hashNode.name = config.hashNodeType
  chain : Field
  chain_found : hashNode.field config.hashChainField = .ok chain
  link : Layout
  link_type : NodeType target chain.type link

namespace HashTableShape

variable {target : Target} {config : Config} {address : UInt64}
  (shape : HashTableShape target config address)

/-- **A bucket in memory**: its link, at the place that its number gives, is the head of a ring
    through the links of the owners, whose hash nodes lie `offset` bytes behind them. -/
structure Bucket (offset : UInt64) (number : Nat) (owners : List UInt64) : Prop where
  ring : ∃ head : UInt64, head.toNat =
      shape.first.toNat + number * shape.hashNode.size.toNat + shape.chain.offset.toNat ∧
    Closes target shape.link head (membersOf shape.chain.offset (membersOf offset owners))
  fits : ∀ owner ∈ owners, owner.toNat + offset.toNat + shape.chain.offset.toNat < 2 ^ 64
  limited : owners.length ≤ config.maxChainNodes

/-- **The buckets of the table in memory**, each with the owners on its ring. -/
structure Holds (offset : UInt64) (buckets : List (List UInt64)) : Prop where
  count : buckets.length = shape.count.toNat
  bucket : ∀ (number : Nat) (h : number < buckets.length),
    shape.Bucket offset number buckets[number]

/-- The table as its head describes it. -/
def table : HashTable :=
  ⟨shape.first, shape.count.toNat,
    ⟨shape.hashNode, config.hashChainField, shape.chain.type, shape.chain.offset⟩,
    config.maxChainNodes⟩

theorem read_eq_ok : HashTable.read target config ⟨address, shape.object⟩ = .ok shape.table := by
  obtain ⟨place, hplace, hfollow⟩ := Value.follow_field shape.buffer_pointer shape.first_read
  rw [if_neg shape.first_ne] at hfollow
  have hchain : Embedding.ofMember target config.hashNodeType config.hashChainField =
      .ok shape.table.chain :=
    Embedding.ofMember_iff.mpr
      ⟨shape.chain, shape.hashNode_found, shape.chain_found, rfl, rfl, rfl⟩
  rw [HashTable.read_of_buffer shape.count_read hplace hfollow, hchain]
  rfl

/-- The ring of a bucket begins at the link of that bucket. -/
theorem ring_eq_ok {number : Nat} {head : UInt64}
    (hhead : head.toNat =
      shape.first.toNat + number * shape.hashNode.size.toNat + shape.chain.offset.toNat) :
    shape.table.ring target number = .ok (.of ⟨head, shape.link⟩ config.maxChainNodes) := by
  have hlt := head.toNat_lt
  obtain ⟨bucket, hbucket⟩ : ∃ bucket : UInt64,
      shape.first.toNat + number * shape.hashNode.size.toNat = bucket.toNat :=
    ⟨.ofNat _, (UInt64.toNat_ofNat_of_lt' (by simp only [UInt64.size]; omega)).symm⟩
  unfold HashTable.ring
  refine bind_eq_ok.mpr ⟨bucket, demand_eq_ok.mpr (advance?_eq_some_iff.mpr hbucket), ?_⟩
  refine bind_eq_ok.mpr ⟨⟨head, shape.link⟩, Value.field_eq_ok.mpr ?_, rfl⟩
  exact ⟨shape.chain, shape.chain_found, by rw [hhead, hbucket], shape.link_type.found⟩

/-- **The sweep over a table in memory** gives the hash nodes of its owners, bucket by bucket. -/
theorem stream_sweep {offset : UInt64} {buckets : List (List UInt64)}
    (h : shape.Holds offset buckets) :
    Traversal.stream target (Sweep.of shape.table) =
      (placesAt shape.hashNode (membersOf offset buckets.flatten)).map .ok := by
  have hchains :
      (buckets.map fun owners => placesAt shape.hashNode (membersOf offset owners)).flatten =
      placesAt shape.hashNode (membersOf offset buckets.flatten) := by
    unfold placesAt membersOf
    rw [List.map_flatten, List.map_flatten, List.map_map]
    rfl
  rw [← hchains]
  refine Sweep.stream_buckets ?_ fun number hnumber => ?_
  · rw [List.length_map]
    exact h.count
  · rw [List.length_map] at hnumber
    obtain ⟨⟨head, hhead, hcloses⟩, hfits, hlimited⟩ := h.bucket number hnumber
    have hlength : (membersOf shape.chain.offset (membersOf offset buckets[number])).length ≤
        config.maxChainNodes := by
      simpa only [membersOf, List.length_map] using hlimited
    have howners : (placesAt shape.link
        (membersOf shape.table.chain.offset (membersOf offset buckets[number]))).map
          shape.table.chain.owner =
        (placesAt shape.hashNode (membersOf offset buckets[number])).map .ok := by
      refine Embedding.owners_of_members shape.link_type.named fun node hnode => ?_
      obtain ⟨owner, hmem, rfl⟩ := List.mem_map.mp hnode
      have hfit := hfits owner hmem
      rw [toNat_member (by omega)]
      exact hfit
    rw [List.getElem_map, shape.ring_eq_ok hhead]
    exact Sweep.hashNodes_of_owners
      (Ring.stream_of_closes shape.link_type.next hcloses hlength) howners

end HashTableShape

end KernelProbe
