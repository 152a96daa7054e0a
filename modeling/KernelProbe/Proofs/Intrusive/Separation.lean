import KernelProbe.Proofs.Intrusive.Circuits
import KernelProbe.Proofs.Intrusive.Owners
import Mathlib.Data.List.Nodup

/-!
# Elements of different buckets

A sweep keeps no record of the hash nodes it has given. Where it comes to its end without a fault,
every bucket has been gone round, from its head back to its head. So no hash node has come twice:
not within a bucket, where the ring would not have closed, and not in two buckets, since from a node
on both chains the links lead to one of the two heads first, and that head would be a node of the
other chain.

* `HashTable.chainHead_eq_ok` -- where the chain of a bucket has its head;
* `HashTable.Chained` -- a bucket that gives no fault;
* `HashTable.completed_gives_once` -- a sweep without a fault gives no hash node twice.
-/

namespace KernelProbe

/-- What is given without a fault up to its end is not cut off. -/
theorem eq_of_upToBreak {α : Type} {items : List (Except Fault α)} {given : List α}
    (h : upToBreak items = given.map .ok) : items = given.map .ok := by
  induction items generalizing given with
  | nil => exact h
  | cons item rest ih =>
    cases given with
    | nil => cases h
    | cons first given =>
      rw [upToBreak, List.map_cons, List.cons.injEq] at h
      obtain ⟨rfl, hrest⟩ := h
      rw [ih hrest, List.map_cons]

namespace HashTable

variable {target : Target} {table : HashTable} {bucket : Nat}

/-! ## 1. Heads of chains -/

theorem chainHead_eq_ok {head : Value} : table.chainHead target bucket = .ok head ↔
    table.buckets.toNat + bucket * table.chain.layout.size.toNat + table.chain.offset.toNat =
        head.address.toNat ∧
      target.layout? table.chain.memberType = some head.layout := by
  obtain ⟨address, layout⟩ := head
  have hlt := address.toNat_lt
  unfold chainHead Target.layout
  dsimp only
  constructor
  · intro h
    split at h
    next => cases h
    next =>
      split at h
      next => cases h
      next hfits =>
        obtain ⟨found, hfound, h⟩ := map_eq_ok.mp h
        cases h
        exact ⟨(UInt64.toNat_ofNat_of_lt' (Nat.lt_of_not_le hfits)).symm, demand_eq_ok.mp hfound⟩
  · intro ⟨haddress, hlayout⟩
    rw [if_neg (by omega), if_neg (by omega), demand_eq_ok.mpr hlayout, haddress,
      UInt64.ofNat_toNat]
    rfl

/-- Different buckets have different heads, as long as hash nodes have a size. -/
theorem chainHead_inj {bucket' : Nat} {head head' : Value}
    (hsize : table.chain.layout.size ≠ 0) (h : table.chainHead target bucket = .ok head)
    (h' : table.chainHead target bucket' = .ok head') (hsame : head.address = head'.address) :
    bucket = bucket' := by
  obtain ⟨haddress, -⟩ := chainHead_eq_ok.mp h
  obtain ⟨haddress', -⟩ := chainHead_eq_ok.mp h'
  have hpos : 0 < table.chain.layout.size.toNat :=
    Nat.pos_of_ne_zero fun hzero => hsize (UInt64.toNat_inj.mp hzero)
  refine Nat.eq_of_mul_eq_mul_right hpos ?_
  rw [hsame] at haddress
  omega

/-! ## 2. Buckets without a fault -/

/-- **A bucket that gives no fault**: its head, at the address `head`, is that of a ring of the
    nodes, and each of these is the link of a hash node. -/
structure Chained (target : Target) (table : HashTable) (bucket : Nat) (link : Layout)
    (head : UInt64) (nodes : List UInt64) : Prop where
  chainHead : table.chainHead target bucket = .ok ⟨head, link⟩
  closes : Closes target link head nodes
  stream : Traversal.stream target (Ring.of ⟨head, link⟩ table.limit) =
    (placesAt link nodes).map .ok
  owners : ∀ node ∈ nodes, ∃ hashNode, table.chain.owner ⟨node, link⟩ = .ok hashNode

/-- The member `next` of the links in the chains is a pointer to such links. -/
def LinksToItself (target : Target) (table : HashTable) : Prop :=
  ∀ link, target.layout? table.chain.memberType = some link →
    Value.PointerField target link "next" link

/-- A bucket that gives hash nodes only is gone round. -/
theorem exists_chained (htype : table.LinksToItself target)
    (h : ∀ item ∈ table.items target bucket, ∃ hashNode, item = .ok hashNode) :
    ∃ link head nodes, table.Chained target bucket link head nodes := by
  unfold items at h
  cases hhead : table.chainHead target bucket with
  | error fault =>
    rw [hhead] at h
    obtain ⟨hashNode, hitem⟩ := h (.error fault) List.mem_cons_self
    cases hitem
  | ok head =>
    obtain ⟨address, link⟩ := head
    rw [hhead] at h
    have hgiven : ∀ node ∈ Traversal.stream target (Ring.of ⟨address, link⟩ table.limit),
        ∃ hashNode, node.bind table.chain.owner = .ok hashNode :=
      fun node hmem => h _ (List.mem_map_of_mem hmem)
    obtain ⟨-, hlink⟩ := chainHead_eq_ok.mp hhead
    obtain ⟨nodes, -, hnodes, hends⟩ :=
      Ring.stream_cases (Ring.of ⟨address, link⟩ table.limit) address (htype link hlink) rfl
    rcases hends with ⟨hne, hleads, hstream⟩ | ⟨fault, hstream⟩
    · rw [hstream] at hgiven
      refine ⟨link, address, nodes, hhead, ⟨hne, hnodes, hleads⟩, hstream, fun node hmem => ?_⟩
      exact hgiven (.ok ⟨node, link⟩) (List.mem_map_of_mem (List.mem_map_of_mem hmem))
    · rw [hstream] at hgiven
      obtain ⟨hashNode, hitem⟩ :=
        hgiven (.error fault) (List.mem_append_right _ List.mem_cons_self)
      cases hitem

namespace Chained

variable {link : Layout} {head : UInt64} {nodes : List UInt64}

/-- The bucket gives the hash nodes of its nodes. -/
theorem items_eq (h : table.Chained target bucket link head nodes) :
    table.items target bucket = nodes.map fun node => table.chain.owner ⟨node, link⟩ := by
  unfold items
  rw [h.chainHead]
  show (Traversal.stream target (Ring.of ⟨head, link⟩ table.limit)).map _ = _
  rw [h.stream]
  unfold placesAt
  rw [List.map_map, List.map_map]
  rfl

/-- An item of the bucket is the hash node of one of its nodes. -/
theorem exists_node (h : table.Chained target bucket link head nodes)
    {item : Except Fault Value} (hmem : item ∈ table.items target bucket) :
    ∃ node ∈ nodes, ∃ hashNode, item = .ok hashNode ∧
      table.chain.owner ⟨node, link⟩ = .ok hashNode := by
  rw [h.items_eq] at hmem
  obtain ⟨node, hnode, rfl⟩ := List.mem_map.mp hmem
  obtain ⟨hashNode, howner⟩ := h.owners node hnode
  exact ⟨node, hnode, hashNode, howner, howner⟩

/-- **A bucket without a fault gives no hash node twice.** -/
theorem nodup (h : table.Chained target bucket link head nodes) :
    ((table.items target bucket).map (·.map Value.address)).Nodup := by
  rw [h.items_eq, List.map_map]
  refine List.Nodup.map_on (fun node hnode other hother hsame => ?_) h.closes.nodup
  obtain ⟨hashNode, howner⟩ := h.owners node hnode
  obtain ⟨hashNode', howner'⟩ := h.owners other hother
  have hsame : (table.chain.owner ⟨node, link⟩).map Value.address =
    (table.chain.owner ⟨other, link⟩).map Value.address := hsame
  rw [howner, howner'] at hsame
  exact Embedding.member_of_owner howner howner' (Except.ok.inj hsame)

end Chained

/-! ## 3. Sweeps without a fault -/

/-- A node is met in the chain of a bucket. -/
def Visits (target : Target) (table : HashTable) (bucket : Nat) (node : Value) : Prop :=
  ∃ head, table.chainHead target bucket = .ok head ∧
    .ok node ∈ Traversal.stream target (Ring.of head table.limit)

/-- **No node that is met in a chain is the head of a bucket.** -/
def HeadsApart (target : Target) (table : HashTable) : Prop :=
  ∀ bucket < table.length, ∀ other < table.length, ∀ node head,
    table.Visits target bucket node → table.chainHead target other = .ok head →
      node.address ≠ head.address

theorem Chained.visits_iff {link : Layout} {head : UInt64} {nodes : List UInt64} {node : Value}
    (h : table.Chained target bucket link head nodes) :
    table.Visits target bucket node ↔ node ∈ placesAt link nodes := by
  unfold Visits
  constructor
  · intro ⟨head', hhead', hmem⟩
    obtain rfl := Except.ok.inj (h.chainHead.symm.trans hhead')
    rw [h.stream] at hmem
    obtain ⟨node', hmem, hsame⟩ := List.mem_map.mp hmem
    exact Except.ok.inj hsame ▸ hmem
  · intro hmem
    refine ⟨_, h.chainHead, ?_⟩
    rw [h.stream]
    exact List.mem_map_of_mem hmem

/-- **Two buckets without a fault give no hash node in common.** -/
theorem Chained.disjoint {bucket' : Nat} {link link' : Layout} {head head' : UInt64}
    {nodes nodes' : List UInt64} (h : table.Chained target bucket link head nodes)
    (h' : table.Chained target bucket' link' head' nodes') (hbucket : bucket < table.length)
    (hbucket' : bucket' < table.length) (hne : bucket ≠ bucket')
    (hsize : table.chain.layout.size ≠ 0) (hapart : table.HeadsApart target) :
    List.Disjoint ((table.items target bucket).map (·.map Value.address))
      ((table.items target bucket').map (·.map Value.address)) := by
  obtain rfl : link = link' := by
    obtain ⟨-, hlink⟩ := chainHead_eq_ok.mp h.chainHead
    obtain ⟨-, hlink'⟩ := chainHead_eq_ok.mp h'.chainHead
    exact Option.some.inj (hlink.symm.trans hlink')
  have hheads : head ≠ head' := fun hsame =>
    hne (chainHead_inj hsize h.chainHead h'.chainHead hsame)
  have hhead : head ∉ nodes' := fun hmem =>
    hapart bucket' hbucket' bucket hbucket _ _ (h'.visits_iff.mpr (List.mem_map_of_mem hmem))
      h.chainHead rfl
  have hhead' : head' ∉ nodes := fun hmem =>
    hapart bucket hbucket bucket' hbucket' _ _ (h.visits_iff.mpr (List.mem_map_of_mem hmem))
      h'.chainHead rfl
  refine List.disjoint_left.mpr fun address hmem hmem' => ?_
  obtain ⟨item, hitem, rfl⟩ := List.mem_map.mp hmem
  obtain ⟨item', hitem', hsame⟩ := List.mem_map.mp hmem'
  obtain ⟨node, hnode, hashNode, rfl, howner⟩ := h.exists_node hitem
  obtain ⟨node', hnode', hashNode', rfl, howner'⟩ := h'.exists_node hitem'
  have hnodes : node = node' :=
    Embedding.member_of_owner howner howner' (Except.ok.inj hsame).symm
  exact h.closes.disjoint h'.closes hheads hhead hhead' node hnode (hnodes ▸ hnode')

/-- **A sweep that ends without a fault gives no hash node twice.** The table may be corrupt in any
    way; its links are pointers to their own type, and hash nodes have a size, so that no two
    buckets lie at one address. If the sweep over all buckets gives hash nodes only, and no node
    that is met in the chain of a bucket is the head of a bucket, its own or another one, then all
    the hash nodes have different addresses. -/
theorem completed_gives_once {config : Config} {object : Value}
    (hread : HashTable.read target config object = .ok table)
    (htype : table.LinksToItself target) (hsize : table.chain.layout.size ≠ 0)
    {hashNodes : List Value}
    (hclean : Traversal.stream target (Sweep.of table) = hashNodes.map .ok)
    (hapart : table.HeadsApart target) : (hashNodes.map Value.address).Nodup := by
  have hitems : (List.range table.length).flatMap (table.items target) = hashNodes.map .ok := by
    refine eq_of_upToBreak ?_
    rw [← hclean, Sweep.stream_eq, Sweep.remaining_of]
    unfold items
    simp only [(read_iff.mp hread).ring_eq]
  have hchained : ∀ bucket ∈ List.range table.length,
      ∃ link head nodes, table.Chained target bucket link head nodes := by
    intro bucket hbucket
    refine exists_chained htype fun item hitem => ?_
    have hmem : item ∈ hashNodes.map .ok := hitems ▸ List.mem_flatMap.mpr ⟨bucket, hbucket, hitem⟩
    obtain ⟨hashNode, -, hsame⟩ := List.mem_map.mp hmem
    exact ⟨hashNode, hsame.symm⟩
  have hnodup : (((List.range table.length).flatMap (table.items target)).map
      (·.map Value.address)).Nodup := by
    rw [List.map_flatMap, List.nodup_flatMap]
    refine ⟨fun bucket hbucket => ?_, ?_⟩
    · obtain ⟨link, head, nodes, h⟩ := hchained bucket hbucket
      exact h.nodup
    · refine List.pairwise_lt_range.imp_of_mem fun {bucket bucket'} hbucket hbucket' hlt => ?_
      obtain ⟨link, head, nodes, h⟩ := hchained bucket hbucket
      obtain ⟨link', head', nodes', h'⟩ := hchained bucket' hbucket'
      exact h.disjoint h' (List.mem_range.mp hbucket) (List.mem_range.mp hbucket')
        (Nat.ne_of_lt hlt) hsize hapart
  rw [hitems, List.map_map] at hnodup
  refine List.Nodup.of_map (Except.ok : UInt64 → Except Fault UInt64) ?_
  rw [List.map_map]
  exact hnodup

end HashTable

/-! ## 4. A table with three buckets -/

/-- The teaching kernel with a hash table of three buckets at 0x4000. Two inodes are in the first
    bucket and one is in the last; nothing has been written to the links back. -/
def shelved : Target :=
  Image.view { Image.kernel with memory := ⟨[
    wordsAt 0x4000 [3, 0, 0, 0x5000], wordsAt 0x5000 [0, 0x6008, 0, 0x5010, 0, 0x8008],
    wordsAt 0x6000 [8, 0, 0x7008, 0], wordsAt 0x7000 [9, 0, 0x5000, 0],
    wordsAt 0x8000 [10, 0, 0x5020, 0]]⟩ }

/-- The hash table of this kernel. -/
def shelvedTable : HashTable where
  buckets := 0x5000
  length := 3
  chain := ⟨kernelLayout "struct hash_table_node", "confliced_list", "struct linked_list_node", 0⟩
  limit := 0x100000

/-- The links of the inodes in each bucket. -/
def shelvedLinks : Nat → List UInt64
  | 0 => [0x6008, 0x7008]
  | 2 => [0x8008]
  | _ => []

theorem shelved_chained (bucket : Nat) (h : bucket < 3) :
    shelvedTable.Chained shelved bucket (kernelLayout "struct linked_list_node")
      (0x5000 + 16 * .ofNat bucket) (shelvedLinks bucket) := by
  have hcloses : Closes shelved (kernelLayout "struct linked_list_node")
      (0x5000 + 16 * .ofNat bucket) (shelvedLinks bucket) := by
    match bucket, h with
    | 0, _ => exact ⟨by decide, by simp [shelvedLinks], rfl, rfl, rfl⟩
    | 1, _ => exact ⟨by decide, by simp [shelvedLinks], rfl⟩
    | 2, _ => exact ⟨by decide, by simp [shelvedLinks], rfl, rfl⟩
  have hlength : (shelvedLinks bucket).length ≤ shelvedTable.limit := by
    match bucket, h with
    | 0, _ | 1, _ | 2, _ => decide
  refine ⟨?_, hcloses, Ring.stream_of_closes (Image.kernel_next _) hcloses hlength, ?_⟩
  · match bucket, h with
    | 0, _ | 1, _ | 2, _ => rfl
  · match bucket, h with
    | 0, _ => exact List.forall_mem_cons.mpr ⟨⟨_, rfl⟩, List.forall_mem_singleton.mpr ⟨_, rfl⟩⟩
    | 1, _ => exact List.forall_mem_nil _
    | 2, _ => exact List.forall_mem_singleton.mpr ⟨_, rfl⟩

/-- The hash nodes of the three inodes are given, and no two of them are the same. -/
theorem HashTable.completed_gives_once_shelved :
    HashTable.read shelved {} ⟨0x4000, kernelLayout "struct hash_table"⟩ = .ok shelvedTable ∧
      shelvedTable.LinksToItself shelved ∧ shelvedTable.chain.layout.size ≠ 0 ∧
      Traversal.stream shelved (Sweep.of shelvedTable) =
        (placesAt (kernelLayout "struct hash_table_node") [0x6008, 0x7008, 0x8008]).map .ok ∧
      shelvedTable.HeadsApart shelved ∧ [(0x6008 : UInt64), 0x7008, 0x8008].Nodup := by
  have hread : HashTable.read shelved {} ⟨0x4000, kernelLayout "struct hash_table"⟩ =
      .ok shelvedTable := rfl
  have htype : shelvedTable.LinksToItself shelved := by
    intro link hlink
    cases hlink
    exact Image.kernel_next _
  have hclean : Traversal.stream shelved (Sweep.of shelvedTable) =
      (placesAt (kernelLayout "struct hash_table_node") [0x6008, 0x7008, 0x8008]).map .ok := by
    have hgiven : ∀ bucket < 3, shelvedTable.given shelved (shelvedTable.ring shelved bucket) =
        (placesAt (kernelLayout "struct hash_table_node") (shelvedLinks bucket)).map .ok := by
      intro bucket hbucket
      rw [(read_iff.mp hread).ring_eq]
      refine (shelved_chained bucket hbucket).items_eq.trans ?_
      match bucket, hbucket with
      | 0, _ | 1, _ | 2, _ => rfl
    have hrange : List.range shelvedTable.length = [0, 1, 2] := rfl
    rw [Sweep.stream_eq, Sweep.remaining_of, hrange, List.flatMap_cons, List.flatMap_cons,
      List.flatMap_cons, hgiven 0 (by decide), hgiven 1 (by decide), hgiven 2 (by decide)]
    rfl
  have hapart : shelvedTable.HeadsApart shelved := by
    intro bucket hbucket other hother node head hvisits hhead
    have hmem := (shelved_chained bucket hbucket).visits_iff.mp hvisits
    obtain ⟨link, hlink, rfl⟩ := List.mem_map.mp hmem
    cases (shelved_chained other hother).chainHead.symm.trans hhead
    have haway : ∀ bucket < 3, ∀ other < 3, 0x5000 + 16 * .ofNat other ∉ shelvedLinks bucket := by
      decide
    intro hsame
    have hsame : link = 0x5000 + 16 * .ofNat other := hsame
    exact haway bucket hbucket other hother (hsame ▸ hlink)
  exact ⟨hread, htype, by decide, hclean, hapart,
    completed_gives_once hread htype (by decide) hclean hapart⟩

end KernelProbe
