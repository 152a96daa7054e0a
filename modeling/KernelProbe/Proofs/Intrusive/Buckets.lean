import KernelProbe.Intrusive.Entries
import KernelProbe.Proofs.Image.Samples
import KernelProbe.Proofs.Traversal.Pulls
import KernelProbe.Proofs.Value.Pointers

/-!
# What a sweep gives

A bucket by itself gives the hash nodes of its ring, or the one fault with which it could not be
opened. A sweep gives these lists one behind the other, up to the first fault that is not one of
type. What it still has to give is the rest of the open ring and the buckets behind it
(`Sweep.remaining`), and a pull takes the front of that.

* `upToBreak` -- the items up to a fault that ends a sweep;
* `HashTable.items` -- what a bucket gives by itself;
* `Sweep.stream_eq` -- a sweep gives what it has to give, up to such a fault;
* `Entries.stream_numbered` -- numbered owners, one for each node or fault;
* `HashTable.read_iff` -- what the head of a table says;
* `HashTable.traversal_exact` -- all of this for a table in memory.
-/

namespace KernelProbe

/-! ## 1. Faults that end a sweep -/

/-- Whether an item ends a sweep: a fault does, unless it is one of type. -/
def breaks {α : Type} : Except Fault α → Bool
  | .ok _ => false
  | .error (.typeMismatch _ _) => false
  | .error _ => true

/-- **The items up to the first one that ends a sweep**, with that one. -/
def upToBreak {α : Type} : List (Except Fault α) → List (Except Fault α)
  | [] => []
  | item :: rest => item :: if breaks item then [] else upToBreak rest

section

variable {α : Type} {items : List (Except Fault α)}

/-- Where nothing ends a sweep nothing is cut off. -/
theorem upToBreak_of_forall (h : ∀ item ∈ items, breaks item = false) :
    upToBreak items = items := by
  induction items with
  | nil => rfl
  | cons item rest ih =>
    rw [upToBreak, if_neg (Bool.eq_false_iff.mp (h item List.mem_cons_self)),
      ih fun other hmem => h other (List.mem_cons_of_mem item hmem)]

/-- The fault of a place ends a sweep. -/
theorem breaks_of_ofPlace {fault : Fault} (h : fault.ofPlace = true) :
    breaks (.error fault : Except Fault α) = true := by
  cases fault with
  | typeMismatch expected found => cases h
  | _ => rfl

end

/-! ## 2. What a bucket gives by itself -/

namespace HashTable

variable {target : Target} {table : HashTable} {bucket : Nat}

/-- The hash nodes of a ring. -/
def hashNodes (target : Target) (table : HashTable) (ring : Ring) : List (Except Fault Value) :=
  (Traversal.stream target ring).map (·.bind table.chain.owner)

/-- What a bucket gives by its ring, if it could be opened. -/
def given (target : Target) (table : HashTable) : Except Fault Ring → List (Except Fault Value)
  | .error fault => [.error fault]
  | .ok ring => table.hashNodes target ring

/-- **The head of the ring of a bucket**, at the place that the numbers give: so many hash nodes
    behind the first bucket, and within that one at the place of the link. -/
def chainHead (target : Target) (table : HashTable) (bucket : Nat) : Except Fault Value :=
  let size := table.chain.layout.size.toNat
  let hashNode := table.buckets.toNat + bucket * size
  let link := hashNode + table.chain.offset.toNat
  if 2 ^ 64 ≤ hashNode then .error (.memoryUnavailable table.buckets size)
  else if 2 ^ 64 ≤ link then .error (.memoryUnavailable (.ofNat hashNode) size)
  else (target.layout table.chain.memberType).map fun layout => ⟨.ofNat link, layout⟩

/-- **What a bucket gives by itself.** -/
def items (target : Target) (table : HashTable) (bucket : Nat) : List (Except Fault Value) :=
  table.given target ((table.chainHead target bucket).map (Ring.of · table.limit))

/-- The ring of a bucket starts at that head. -/
theorem ring_eq {field : Field} (hfield : table.chain.layout.field table.chain.member = .ok field)
    (htype : field.type = table.chain.memberType) (hoffset : field.offset = table.chain.offset) :
    table.ring target bucket = (table.chainHead target bucket).map (Ring.of · table.limit) := by
  unfold HashTable.ring chainHead
  dsimp only
  by_cases hnode : 2 ^ 64 ≤ table.buckets.toNat + bucket * table.chain.layout.size.toNat
  · rw [if_pos hnode, advance?_of_le hnode]
    rfl
  · have hlt := Nat.lt_of_not_le hnode
    rw [if_neg hnode, advance?_of_lt hlt]
    show (Value.field target ⟨_, table.chain.layout⟩ table.chain.member >>= fun head => _) = _
    rw [Value.field_of_layout hfield, htype, hoffset, UInt64.toNat_ofNat_of_lt' hlt]
    split
    · rfl
    · cases target.layout table.chain.memberType <;> rfl

/-- A bucket that cannot be opened ends the sweep. -/
theorem breaks_of_ring {fault : Fault} (h : table.ring target bucket = .error fault) {α : Type} :
    breaks (.error fault : Except Fault α) = true := by
  rcases bind_eq_error.mp h with haddress | ⟨address, _, h⟩
  · rw [(demand_eq_error.mp haddress).2]
    rfl
  rcases bind_eq_error.mp h with hhead | ⟨head, _, h⟩
  · exact breaks_of_ofPlace (Value.ofPlace_of_field hhead)
  · cases h

end HashTable

/-! ## 3. What a sweep gives -/

namespace Sweep

variable {target : Target} {table : HashTable}

/-- What the buckets from one on give. -/
def bucketsFrom (target : Target) (table : HashTable) (bucket : Nat) : List (Except Fault Value) :=
  (List.range' bucket (table.length - bucket)).flatMap fun number =>
    table.given target (table.ring target number)

/-- What the open ring still gives. -/
def ringRest (target : Target) (table : HashTable) : Option Ring → List (Except Fault Value)
  | none => []
  | some ring => table.hashNodes target ring

/-- **What a sweep still has to give.** -/
def remaining (target : Target) (sweep : Sweep) : List (Except Fault Value) :=
  ringRest target sweep.table sweep.ring ++ bucketsFrom target sweep.table sweep.bucket

/-- How an item stands at the front of what there was to give, with `after` to give behind it. -/
def AtFront (before after : List (Except Fault Value)) : Option (Except Fault Value) → Prop
  | none => before = []
  | some item => ∃ later, before = item :: later ∧ after = if breaks item then [] else later

theorem bucketsFrom_end {bucket : Nat} (h : table.length ≤ bucket) :
    bucketsFrom target table bucket = [] := by
  unfold bucketsFrom
  rw [Nat.sub_eq_zero_of_le h]
  rfl

theorem bucketsFrom_next {bucket : Nat} (h : bucket < table.length) :
    bucketsFrom target table bucket =
      table.given target (table.ring target bucket) ++ bucketsFrom target table (bucket + 1) := by
  unfold bucketsFrom
  rw [show table.length - bucket = (table.length - (bucket + 1)) + 1 by omega, List.range'_succ,
    List.flatMap_cons]

theorem remaining_closed : remaining target (closed table) = [] :=
  bucketsFrom_end (Nat.le_refl _)

/-- A ring that gives nothing is at its end. -/
theorem hashNodes_of_none {ring : Ring} (h : (ring.pull target).item = none) :
    table.hashNodes target ring = [] := by
  unfold HashTable.hashNodes
  rw [Traversal.stream_of_none h]
  rfl

theorem hashNodes_of_some {ring : Ring} {node : Except Fault Value}
    (h : (ring.pull target).item = some node) :
    table.hashNodes target ring =
      node.bind table.chain.owner :: table.hashNodes target (ring.pull target).rest := by
  unfold HashTable.hashNodes
  rw [Traversal.stream_of_some h]
  rfl

/-- The pull that gives a node of a ring takes the node from the front. -/
theorem give_front (bucket : Nat) (node : Except Fault Value) (ring : Ring) :
    AtFront (node.bind table.chain.owner ::
        (table.hashNodes target ring ++ bucketsFrom target table bucket))
      (remaining target (give table bucket node ring).rest) (give table bucket node ring).item := by
  unfold give
  cases node.bind table.chain.owner with
  | ok hashNode => exact ⟨_, rfl, rfl⟩
  | error fault =>
    cases fault with
    | typeMismatch expected found => exact ⟨_, rfl, rfl⟩
    | _ => exact ⟨_, rfl, remaining_closed⟩

/-- **Opening buckets** takes an item from the front of what they give. -/
theorem openFrom_front (target : Target) (table : HashTable) (bucket : Nat) :
    AtFront (bucketsFrom target table bucket) (remaining target (openFrom target table bucket).rest)
      (openFrom target table bucket).item := by
  fun_induction openFrom target table bucket with
  | case1 bucket hlt fault hring =>
    refine ⟨bucketsFrom target table (bucket + 1), ?_, ?_⟩
    · rw [bucketsFrom_next hlt, hring]
      rfl
    · rw [if_pos (HashTable.breaks_of_ring hring), remaining_closed]
  | case2 bucket hlt ring hring seen node rest hpull =>
    have hnodes : table.hashNodes target ring = _ := hashNodes_of_some (congrArg Pull.item hpull)
    rw [bucketsFrom_next hlt, hring, HashTable.given, hnodes, List.cons_append, hpull]
    exact give_front (bucket + 1) node rest
  | case3 bucket hlt ring hring seen rest hpull ih =>
    -- An empty bucket adds nothing to what there is to give.
    have hnodes : table.hashNodes target ring = [] := hashNodes_of_none (congrArg Pull.item hpull)
    rw [bucketsFrom_next hlt, hring, HashTable.given, hnodes, List.nil_append]
    exact ih
  | case4 bucket hend => exact bucketsFrom_end (Nat.not_lt.mp hend)

/-- **A pull takes its item from the front of what there is to give.** -/
theorem pull_front (target : Target) (sweep : Sweep) :
    AtFront (remaining target sweep) (remaining target (sweep.pull target).rest)
      (sweep.pull target).item := by
  obtain ⟨table, bucket, opened⟩ := sweep
  unfold Sweep.pull remaining
  cases opened with
  | none => exact openFrom_front target table bucket
  | some ring =>
    dsimp only
    split
    next seen node rest hpull =>
      have hnodes : table.hashNodes target ring = _ := hashNodes_of_some (congrArg Pull.item hpull)
      rw [ringRest, hnodes, List.cons_append, hpull]
      exact give_front bucket node rest
    next seen rest hpull =>
      have hnodes : table.hashNodes target ring = [] :=
        hashNodes_of_none (congrArg Pull.item hpull)
      rw [ringRest, hnodes, List.nil_append]
      exact openFrom_front target table bucket

/-- **A sweep gives what it has to give**, up to the first fault that is not one of type. -/
theorem stream_eq (target : Target) (sweep : Sweep) :
    Traversal.stream target sweep = upToBreak (remaining target sweep) := by
  have hfront := pull_front target sweep
  match hitem : (sweep.pull target).item with
  | none =>
    rw [hitem] at hfront
    rw [Traversal.stream_of_none hitem, show remaining target sweep = [] from hfront]
    rfl
  | some item =>
    rw [hitem] at hfront
    obtain ⟨later, hbefore, hafter⟩ := hfront
    rw [Traversal.stream_of_some hitem, stream_eq target (Traversal.pull target sweep).rest,
      show remaining target (Traversal.pull target sweep).rest = _ from hafter, hbefore, upToBreak]
    split <;> rfl
termination_by Traversal.bound sweep
decreasing_by exact Traversal.bound_lt target sweep hitem

/-- A sweep over all buckets has all of them to give. -/
theorem remaining_of (target : Target) (table : HashTable) :
    remaining target (.of table) = (List.range table.length).flatMap fun number =>
      table.given target (table.ring target number) := by
  rw [List.range_eq_range']
  rfl

end Sweep

/-! ## 4. Numbered owners -/

/-- Items under their numbers from `number` on, with the owners in the place of the nodes. -/
def Embedding.numbered (embedding : Embedding) (number : Nat) (items : List (Except Fault Value)) :
    List (Except Fault (Nat × Value)) :=
  (items.zipIdx number).map fun (item, number) =>
    item.bind fun node => (embedding.owner node).map fun owner => (number, owner)

/-- **Every item of the nodes takes a number**, also one that is a fault or has no owner. -/
theorem Entries.stream_numbered {σ : Type} [Traversal σ Value] {target : Target}
    (entries : Entries σ) :
    Traversal.stream target entries =
      entries.embedding.numbered entries.number (Traversal.stream target entries.nodes) := by
  generalize hitems : Traversal.stream target entries.nodes = items
  induction items generalizing entries with
  | nil =>
    refine Traversal.stream_of_none ?_
    show (Traversal.pull target entries.nodes).item.map entries.entry = none
    rw [Traversal.stream_eq_nil hitems]
    rfl
  | cons item rest ih =>
    obtain ⟨hitem, hrest⟩ := Traversal.stream_eq_cons hitems
    have hgiven : (Traversal.pull target entries).item = some (entries.entry item) := by
      show (Traversal.pull target entries.nodes).item.map entries.entry = _
      rw [hitem]
      rfl
    rw [Traversal.stream_of_some hgiven]
    exact congrArg _ (ih (Traversal.pull target entries).rest hrest)

theorem Nodes.stream_ring (target : Target) (ring : Ring) :
    Traversal.stream target (Nodes.ring ring) = Traversal.stream target ring :=
  Traversal.stream_lift Nodes.ring (fun _ => rfl) (fun _ => rfl) ring

theorem Nodes.stream_sweep (target : Target) (sweep : Sweep) :
    Traversal.stream target (Nodes.sweep sweep) = Traversal.stream target sweep :=
  Traversal.stream_lift Nodes.sweep (fun _ => rfl) (fun _ => rfl) sweep

/-! ## 5. From the head of a table on -/

namespace HashTable

variable {target : Target} {config : Config} {object : Value} {table : HashTable}

/-- **What the head of a table says**: the number of buckets; where the first one lies, or nowhere
    if there are none; and how a hash node holds its link. -/
structure Describes (target : Target) (config : Config) (object : Value) (table : HashTable) :
    Prop where
  length : ∃ count, object.fieldWord target config.hashLengthField = .ok count ∧
    count.toNat = table.length
  buckets : ∃ place buffer, object.field target config.hashBufferField = .ok place ∧
    place.follow target = .ok buffer ∧
    match buffer with
    | some first => first.address = table.buckets
    | none => table.buckets = 0 ∧ table.length = 0
  chain : Embedding.ofMember target config.hashNodeType config.hashChainField = .ok table.chain
  limit : config.maxChainNodes = table.limit

/-- A table whose pointer to its buckets is null can have no buckets. -/
theorem read_of_null {count : UInt64} {place : Value}
    (hcount : object.fieldWord target config.hashLengthField = .ok count)
    (hplace : object.field target config.hashBufferField = .ok place)
    (hnull : place.follow target = .ok none) :
    HashTable.read target config object =
      if count = 0 then
        (Embedding.ofMember target config.hashNodeType config.hashChainField).map fun chain =>
          ⟨0, 0, chain, config.maxChainNodes⟩
      else .error (.memoryUnavailable 0 count.toNat) := by
  unfold HashTable.read
  rw [hcount, hplace]
  show (place.follow target >>= fun buffer => _) = _
  rw [hnull]
  by_cases hzero : count = 0
  · subst hzero
    rw [if_pos rfl]
    cases Embedding.ofMember target config.hashNodeType config.hashChainField <;> rfl
  · rw [if_neg hzero, if_neg hzero]
    rfl

theorem read_of_buffer {count : UInt64} {place first : Value}
    (hcount : object.fieldWord target config.hashLengthField = .ok count)
    (hplace : object.field target config.hashBufferField = .ok place)
    (hfirst : place.follow target = .ok (some first)) :
    HashTable.read target config object =
      (Embedding.ofMember target config.hashNodeType config.hashChainField).map fun chain =>
        ⟨first.address, count.toNat, chain, config.maxChainNodes⟩ := by
  unfold HashTable.read
  rw [hcount, hplace]
  show (place.follow target >>= fun buffer => _) = _
  rw [hfirst]
  cases Embedding.ofMember target config.hashNodeType config.hashChainField <;> rfl

/-- **The head of a table is read** as it describes the table. -/
theorem read_iff : HashTable.read target config object = .ok table ↔
    Describes target config object table := by
  constructor
  · intro h
    have hread := h
    unfold HashTable.read at h
    obtain ⟨count, hcount, h⟩ := bind_eq_ok.mp h
    obtain ⟨place, hplace, h⟩ := bind_eq_ok.mp h
    obtain ⟨buffer, hbuffer, -⟩ := bind_eq_ok.mp h
    cases buffer with
    | some first =>
      rw [read_of_buffer hcount hplace hbuffer] at hread
      obtain ⟨chain, hchain, rfl⟩ := map_eq_ok.mp hread
      exact ⟨⟨count, hcount, rfl⟩, ⟨place, _, hplace, hbuffer, rfl⟩, hchain, rfl⟩
    | none =>
      rw [read_of_null hcount hplace hbuffer] at hread
      split at hread
      next hzero =>
        subst hzero
        obtain ⟨chain, hchain, rfl⟩ := map_eq_ok.mp hread
        exact ⟨⟨0, hcount, rfl⟩, ⟨place, _, hplace, hbuffer, rfl, rfl⟩, hchain, rfl⟩
      next => cases hread
  · obtain ⟨buckets, length, chain, limit⟩ := table
    intro h
    obtain ⟨count, hcount, hlength⟩ := h.length
    obtain ⟨place, buffer, hplace, hbuffer, hbuckets⟩ := h.buckets
    have hchain := h.chain
    have hlimit := h.limit
    dsimp only at hlength hbuckets hchain hlimit
    subst hlength hlimit
    cases buffer with
    | some first =>
      rw [read_of_buffer hcount hplace hbuffer, hchain, ← hbuckets]
      rfl
    | none =>
      obtain ⟨rfl, hnone⟩ := hbuckets
      have hzero : count = 0 := UInt64.toNat_inj.mp hnone
      rw [read_of_null hcount hplace hbuffer, if_pos hzero, hchain, hnone]
      rfl

/-- The buckets of a table that was read start where its numbers say. -/
theorem Describes.ring_eq (h : Describes target config object table) (bucket : Nat) :
    table.ring target bucket = (table.chainHead target bucket).map (Ring.of · table.limit) := by
  obtain ⟨field, -, hfield, hmember, htype, hoffset⟩ := Embedding.ofMember_iff.mp h.chain
  rw [← hmember] at hfield
  exact HashTable.ring_eq hfield htype hoffset

/-- **The traversal of a hash table, item by item.** Reading the head of a table gives the number of
    its buckets, the address of the first one, and the link within a hash node. The traversal then
    gives the items of all buckets, one bucket after the other, up to the first fault that is not
    one of type: for each node of the ring that starts at the link of the bucket its hash node, or
    the fault that stands in its place, or for the whole bucket the fault with which it could not be
    opened. The elements are the same items under their positions, with each hash node taken to its
    owner, and a hash node without an owner ends nothing. Without buckets nothing is read and
    nothing comes, whatever the kernel holds by then; a null pointer to the buckets is a fault
    unless there are none. -/
theorem traversal_exact (target : Target) (config : Config) (object : Value) :
    (∀ table, HashTable.read target config object = .ok table ↔
      Describes target config object table) ∧
    (∀ table, HashTable.read target config object = .ok table →
      Traversal.stream target (Sweep.of table) =
        upToBreak ((List.range table.length).flatMap (table.items target)) ∧
      (∀ member : Embedding,
        Traversal.stream target (Entries.of (Sweep.of table) member) =
          member.numbered 0 (Traversal.stream target (Sweep.of table)) ∧
        Traversal.stream target (Entries.of (Nodes.sweep (.of table)) member) =
          member.numbered 0 (Traversal.stream target (Sweep.of table))) ∧
      (table.length = 0 → ∀ later : Target,
        Traversal.pull later (Sweep.of table) = ⟨#[], none, Sweep.closed table⟩)) ∧
    ∀ count place, object.fieldWord target config.hashLengthField = .ok count →
      object.field target config.hashBufferField = .ok place →
      place.follow target = .ok none →
      HashTable.read target config object =
        if count = 0 then
          (Embedding.ofMember target config.hashNodeType config.hashChainField).map fun chain =>
            ⟨0, 0, chain, config.maxChainNodes⟩
        else .error (.memoryUnavailable 0 count.toNat) := by
  refine ⟨fun table => read_iff, fun table hread => ⟨?_, fun member => ⟨?_, ?_⟩, ?_⟩, ?_⟩
  · have hrings := (read_iff.mp hread).ring_eq
    rw [Sweep.stream_eq, Sweep.remaining_of]
    unfold items
    simp only [hrings]
  · exact Entries.stream_numbered _
  · rw [Entries.stream_numbered, ← Nodes.stream_sweep]
    rfl
  · intro hnone later
    show Sweep.openFrom later table 0 = _
    rw [Sweep.openFrom, if_neg (by omega)]
  · intro count place hcount hplace hnull
    exact read_of_null hcount hplace hnull

end HashTable

/-! ## 6. A chain with links of two types -/

/-- The teaching kernel with two names by turns for the type of links, and at 0x4000 a hash table of
    three buckets. Two inodes are in the first bucket, the link of the first one being of the other
    type; the chain of the second bucket is torn. -/
def torn : Target :=
  Image.view { Image.kernel with
    layouts := [
      ("struct linked_list_node", .record "struct linked_list_node" 16
        [⟨"prev", 0, "list_t *"⟩, ⟨"next", 8, "list_t *"⟩]),
      ("list_t", .record "list_t" 16
        [⟨"prev", 0, "struct linked_list_node *"⟩, ⟨"next", 8, "struct linked_list_node *"⟩]),
      ("list_t *", .pointer "list_t *" "list_t")] ++ Image.kernel.layouts
    memory := ⟨[
      wordsAt 0x4000 [3, 0, 0, 0x5000], wordsAt 0x5000 [0, 0x6008, 0, 0, 0, 0x5020],
      wordsAt 0x6000 [8, 0, 0x7008, 0], wordsAt 0x7000 [9, 0, 0x5000, 0]]⟩ }

/-- The layout that this kernel has for a name. -/
def tornLayout (name : String) : Layout :=
  (torn.layout? name).getD (.scalar name 0)

/-- The hash table of this kernel. -/
def tornTable : HashTable where
  buckets := 0x5000
  length := 3
  chain := ⟨tornLayout "struct hash_table_node", "confliced_list", "struct linked_list_node", 0⟩
  limit := 0x100000

/-- How inodes are linked. -/
def tornMember : Embedding :=
  ⟨tornLayout "struct inode", "hash", "struct hash_table_node", 8⟩

/-- The second inode keeps its number, and the third bucket is not looked at. -/
theorem HashTable.traversal_exact_torn :
    HashTable.read torn {} ⟨0x4000, tornLayout "struct hash_table"⟩ = .ok tornTable ∧
      Traversal.stream torn (Entries.of (Sweep.of tornTable) tornMember) =
        [.error (.typeMismatch "struct linked_list_node" "list_t"),
          .ok (1, ⟨0x7000, tornLayout "struct inode"⟩), .error (.memoryUnavailable 0 16)] := by
  have hread : HashTable.read torn {} ⟨0x4000, tornLayout "struct hash_table"⟩ =
      .ok tornTable := rfl
  refine ⟨hread, ?_⟩
  obtain ⟨-, hexact, -⟩ := traversal_exact torn {} ⟨0x4000, tornLayout "struct hash_table"⟩
  obtain ⟨hsweep, hentries, -⟩ := hexact tornTable hread
  have hfirst : Traversal.stream torn
      (Ring.of ⟨0x5000, tornLayout "struct linked_list_node"⟩ 0x100000) =
      [.ok ⟨0x6008, tornLayout "list_t"⟩, .ok ⟨0x7008, tornLayout "struct linked_list_node"⟩] := by
    rw [Traversal.stream_of_some rfl, Traversal.stream_of_some rfl, Traversal.stream_of_none rfl]
    rfl
  have hzero : tornTable.items torn 0 = [.error (.typeMismatch "struct linked_list_node" "list_t"),
      .ok ⟨0x7008, tornLayout "struct hash_table_node"⟩] := by
    refine (congrArg (List.map _) hfirst).trans ?_
    rfl
  have hone : tornTable.items torn 1 = [.error (.memoryUnavailable 0 16)] := by
    have hsecond : Traversal.stream torn
        (Ring.of ⟨0x5010, tornLayout "struct linked_list_node"⟩ 0x100000) =
        [.error (.memoryUnavailable 0 16)] := by
      rw [Traversal.stream_of_some rfl, Traversal.stream_of_none rfl]
      rfl
    refine (congrArg (List.map _) hsecond).trans ?_
    rfl
  rw [(hentries tornMember).1, hsweep,
    show List.range tornTable.length = [0, 1, 2] from rfl, List.flatMap_cons, List.flatMap_cons,
    hzero, hone]
  rfl

end KernelProbe
