import KernelProbe.Proofs.Intrusive.Buckets
import KernelProbe.Proofs.Intrusive.Owners

/-!
# Places are computed without wrapping around

Offsets, element sizes and indices come from layouts and from memory that may be corrupt. The place
that a step leads to is computed in whole numbers: where that is an address the step leads there,
and where it is none, or a product or sum on the way is none, the step fails and names the place
that the offset was to be applied to. There is never a place at another address.

* `IsAddress` -- the whole numbers that are addresses;
* `LandsAt` -- a step that leads to a whole number;
* `Value.landsAt_field`, `Value.landsAt_index`, `Embedding.landsAt_owner` -- members, elements and
  owners;
* `HashTable.Opens` -- how a bucket is opened;
* `places_never_wrap` -- all of them.
-/

namespace KernelProbe

/-! ## 1. Whole numbers that are addresses -/

/-- A whole number that is an address. -/
def IsAddress (place : Int) : Prop :=
  0 ≤ place ∧ place < (2 ^ 64 : Nat)

instance (place : Int) : Decidable (IsAddress place) :=
  inferInstanceAs (Decidable (_ ∧ _))

theorem isAddress_toNat (address : UInt64) : IsAddress address.toNat := by
  have hlt := address.toNat_lt
  unfold IsAddress
  omega

/-- **A step that leads to the place `place`**, computed in whole numbers: its answer is that
    address, and `fault` where it is none. -/
structure LandsAt (answer : Except Fault UInt64) (place : Int) (fault : Fault) : Prop where
  inside : IsAddress place → ∃ address, answer = .ok address ∧ (address.toNat : Int) = place
  outside : ¬ IsAddress place → answer = .error fault

theorem landsAt_advance (base : UInt64) (offset : Nat) (fault : Fault) :
    LandsAt (demand (advance? base offset) fault) (base.toNat + offset) fault := by
  refine ⟨fun h => ?_, fun h => ?_⟩
  · obtain ⟨-, hlt⟩ := h
    have hfits : base.toNat + offset < 2 ^ 64 := by omega
    rw [advance?_of_lt hfits]
    refine ⟨_, rfl, ?_⟩
    rw [UInt64.toNat_ofNat_of_lt' hfits]
    omega
  · unfold IsAddress at h
    rw [advance?_of_le (by omega)]
    rfl

theorem landsAt_retreat (base : UInt64) (offset : Nat) (fault : Fault) :
    LandsAt (demand (retreat? base offset) fault) (base.toNat - offset) fault := by
  refine ⟨fun h => ?_, fun h => ?_⟩
  · obtain ⟨hle, hlt⟩ := h
    have hbase := base.toNat_lt
    have hplace : (UInt64.ofNat (base.toNat - offset)).toNat + offset = base.toNat := by
      rw [UInt64.toNat_ofNat_of_lt' (Nat.lt_of_le_of_lt (Nat.sub_le _ _) hbase)]
      omega
    rw [retreat?_eq_some_iff.mpr hplace]
    exact ⟨_, rfl, by omega⟩
  · unfold IsAddress at h
    have hbase := base.toNat_lt
    rw [retreat?_eq_none_iff.mpr (by omega)]
    rfl

/-! ## 2. Members, elements and owners -/

section Steps

variable {target : Target} {value : Value}

/-- Once the field and the layout of its type are found, what is left of the step is a sum. -/
theorem Value.landsAt_field {name : String} {field : Field} {layout : Layout}
    (hfield : value.layout.field name = .ok field)
    (hlayout : target.layout? field.type = some layout) :
    LandsAt ((value.field target name).map Value.address)
      (value.address.toNat + field.offset.toNat) value.unavailable := by
  have hstep : (value.field target name).map Value.address = value.inside field.offset.toNat := by
    unfold Value.field
    rw [hfield]
    show (value.inside field.offset.toNat >>= fun address => _).map Value.address = _
    cases value.inside field.offset.toNat with
    | error fault => rfl
    | ok address =>
      have hplace : target.valueAt address field.type = .ok ⟨address, layout⟩ :=
        Target.valueAt_eq_ok.mpr ⟨rfl, hlayout⟩
      show (target.valueAt address field.type).map Value.address = _
      rw [hplace]
      rfl
  rw [hstep]
  exact landsAt_advance _ _ _

/-- Once the index is found within the bounds, and the layout of the elements is found, what is left
    of the step is a sum, the distance from the lower bound times the size of an element. -/
theorem Value.landsAt_index {index low high : Int} {element : String} {layout : Layout}
    (hkind : value.layout.kind = .array element low high) (hlow : low ≤ index)
    (hhigh : index ≤ high) (hlayout : target.layout? element = some layout) :
    LandsAt ((value.index target index).map Value.address)
      (value.address.toNat + (index - low) * layout.size.toNat) value.unavailable := by
  have hrange : ¬ (index < low ∨ high < index) := by omega
  have hfound : target.layout element = .ok layout := demand_eq_ok.mpr hlayout
  have hstep : (value.index target index).map Value.address =
      value.inside ((index - low).toNat * layout.size.toNat) := by
    unfold Value.index
    rw [hkind]
    dsimp only
    rw [if_neg hrange, hfound]
    show (value.inside _ >>= fun address => _).map Value.address = _
    cases value.inside ((index - low).toNat * layout.size.toNat) <;> rfl
  have hdistance : (((index - low).toNat * layout.size.toNat : Nat) : Int) =
      (index - low) * layout.size.toNat := by
    rw [Int.natCast_mul, Int.toNat_of_nonneg (by omega)]
  rw [hstep, ← hdistance]
  exact landsAt_advance _ _ _

/-- Once the type is the declared one, what is left of the step is a difference. -/
theorem Embedding.landsAt_owner {embedding : Embedding}
    (htype : value.type = embedding.memberType) :
    LandsAt ((embedding.owner value).map Value.address)
      (value.address.toNat - embedding.offset.toNat)
      (.memoryUnavailable value.address embedding.layout.size.toNat) := by
  have hstep : (embedding.owner value).map Value.address =
      demand (retreat? value.address embedding.offset.toNat)
        (.memoryUnavailable value.address embedding.layout.size.toNat) := by
    unfold Embedding.owner
    rw [if_pos htype]
    cases retreat? value.address embedding.offset.toNat <;> rfl
  rw [hstep]
  exact landsAt_retreat _ _ _

end Steps

/-! ## 3. Buckets -/

namespace HashTable

/-- **How a bucket is opened**, with hash nodes of the layout `node` that hold their link in the
    field `link`. -/
structure Opens (target : Target) (table : HashTable) (node : Layout) (link : Field)
    (bucket : Nat) : Prop where
  /-- The ring starts where the numbers say. -/
  head : ∀ ring, table.ring target bucket = .ok ring →
    (ring.head.toNat : Int) =
        table.buckets.toNat + bucket * node.size.toNat + link.offset.toNat ∧
      IsAddress (table.buckets.toNat + bucket * node.size.toNat + link.offset.toNat)
  /-- A hash node outside the address space is missed from the first bucket. -/
  outside : ¬ IsAddress (bucket * node.size.toNat) ∨
      ¬ IsAddress (table.buckets.toNat + bucket * node.size.toNat) →
    table.ring target bucket = .error (.memoryUnavailable table.buckets node.size.toNat)
  /-- From a hash node inside it the link is a step like any other. -/
  inside : ∀ (base : UInt64) (layout : Layout),
    (base.toNat : Int) = table.buckets.toNat + bucket * node.size.toNat →
    target.layout? link.type = some layout →
      LandsAt ((table.ring target bucket).map Ring.head) (base.toNat + link.offset.toNat)
        (.memoryUnavailable base node.size.toNat)
  /-- With a bucket that cannot be opened the sweep ends. -/
  stops : ∀ fault, table.ring target bucket = .error fault → bucket < table.length →
    Traversal.stream target (Sweep.mk table bucket none) = [.error fault]

variable {target : Target} {table : HashTable} {link : Field}

theorem head_of_ring (hlink : table.chain.layout.field table.chain.member = .ok link)
    {bucket : Nat} {ring : Ring} (h : table.ring target bucket = .ok ring) :
    ring.head.toNat =
      table.buckets.toNat + bucket * table.chain.layout.size.toNat + link.offset.toNat := by
  unfold HashTable.ring at h
  obtain ⟨base, hbase, h⟩ := bind_eq_ok.mp h
  obtain ⟨head, hhead, h⟩ := bind_eq_ok.mp h
  cases h
  obtain ⟨field, hfield, haddress, -⟩ := Value.field_eq_ok.mp hhead
  cases hlink.symm.trans hfield
  have hsum := advance?_eq_some_iff.mp (demand_eq_ok.mp hbase)
  show head.address.toNat = _
  rw [hsum, ← haddress]

/-- The ring of a bucket whose hash node lies at `base` starts at the link in there. -/
theorem ring_of_base {bucket : Nat} {base : UInt64}
    (hbase : table.buckets.toNat + bucket * table.chain.layout.size.toNat = base.toNat) :
    (table.ring target bucket).map Ring.head =
      (Value.field target ⟨base, table.chain.layout⟩ table.chain.member).map Value.address := by
  unfold HashTable.ring
  dsimp only
  rw [advance?_eq_some_iff.mpr hbase]
  show (Value.field target ⟨base, table.chain.layout⟩ table.chain.member >>= fun head => _).map
    Ring.head = _
  cases Value.field target ⟨base, table.chain.layout⟩ table.chain.member <;> rfl

/-- A sweep at a bucket that cannot be opened. -/
theorem stream_of_ring_error {bucket : Nat} {fault : Fault}
    (h : table.ring target bucket = .error fault) (hlt : bucket < table.length) :
    Traversal.stream target (Sweep.mk table bucket none) = [.error fault] := by
  have hbreaks : breaks (.error fault : Except Fault Value) = true := breaks_of_ring h
  rw [Sweep.stream_eq]
  show upToBreak (Sweep.bucketsFrom target table bucket) = _
  rw [Sweep.bucketsFrom_next hlt, h, given, List.singleton_append, upToBreak, if_pos hbreaks]

/-- **Buckets are opened without wrapping around.** -/
theorem opens_of_link (hlink : table.chain.layout.field table.chain.member = .ok link)
    (bucket : Nat) : Opens target table table.chain.layout link bucket where
  head ring h := by
    have hhead : (ring.head.toNat : Int) = table.buckets.toNat +
        bucket * table.chain.layout.size.toNat + link.offset.toNat := by
      exact_mod_cast head_of_ring hlink h
    exact ⟨hhead, hhead ▸ isAddress_toNat ring.head⟩
  outside h := by
    have hcast : ((bucket * table.chain.layout.size.toNat : Nat) : Int) =
      bucket * table.chain.layout.size.toNat := Int.natCast_mul _ _
    rw [← hcast] at h
    unfold IsAddress at h
    unfold HashTable.ring
    dsimp only
    rw [advance?_of_le (by omega)]
    rfl
  inside base layout hbase hlayout := by
    have hsum : table.buckets.toNat + bucket * table.chain.layout.size.toNat = base.toNat := by
      exact_mod_cast hbase.symm
    rw [ring_of_base hsum]
    exact Value.landsAt_field hlink hlayout
  stops fault h hlt := stream_of_ring_error h hlt

end HashTable

/-! ## 4. All of them -/

/-- **Places are computed without wrapping around.** Where a member, an element, an owner or the
    head of a bucket's ring is given, it lies at the whole number that its offsets add up to, which
    is an address. With the look-ups and the type in order, and the index within the bounds, a step
    to a whole number that is no address fails with the memory that the offset was to be applied to,
    and so does an element whose distance, or a bucket whose place, is none on the way. -/
theorem places_never_wrap (target : Target) :
    (∀ (value : Value) (name : String),
      (∀ place, value.field target name = .ok place →
        ∃ field, value.layout.field name = .ok field ∧
          (place.address.toNat : Int) = value.address.toNat + field.offset.toNat ∧
          IsAddress (value.address.toNat + field.offset.toNat)) ∧
      ∀ field layout, value.layout.field name = .ok field →
        target.layout? field.type = some layout →
          LandsAt ((value.field target name).map Value.address)
            (value.address.toNat + field.offset.toNat)
            (.memoryUnavailable value.address value.layout.size.toNat)) ∧
    (∀ (value : Value) (index : Int),
      (∀ place, value.index target index = .ok place →
        ∃ element low high, value.layout.kind = .array element low high ∧
          target.layout? element = some place.layout ∧
          (place.address.toNat : Int) =
            value.address.toNat + (index - low) * place.layout.size.toNat ∧
          IsAddress (value.address.toNat + (index - low) * place.layout.size.toNat)) ∧
      ∀ element low high layout, value.layout.kind = .array element low high →
        low ≤ index → index ≤ high → target.layout? element = some layout →
          LandsAt ((value.index target index).map Value.address)
            (value.address.toNat + (index - low) * layout.size.toNat)
            (.memoryUnavailable value.address value.layout.size.toNat) ∧
          (¬ IsAddress ((index - low) * layout.size.toNat) →
            value.index target index =
              .error (.memoryUnavailable value.address value.layout.size.toNat))) ∧
    (∀ (embedding : Embedding) (member : Value),
      (∀ object, embedding.owner member = .ok object →
        (object.address.toNat : Int) = member.address.toNat - embedding.offset.toNat ∧
          IsAddress (member.address.toNat - embedding.offset.toNat)) ∧
      (member.type = embedding.memberType →
        LandsAt ((embedding.owner member).map Value.address)
          (member.address.toNat - embedding.offset.toNat)
          (.memoryUnavailable member.address embedding.layout.size.toNat))) ∧
    ∀ (made : Target) (config : Config) (object : Value) (table : HashTable),
      HashTable.read made config object = .ok table →
        ∃ node link, made.layout? config.hashNodeType = some node ∧
          node.field config.hashChainField = .ok link ∧
          ∀ bucket, table.Opens target node link bucket := by
  refine ⟨fun value name => ⟨fun place h => ?_, fun field layout => Value.landsAt_field⟩,
    fun value index => ⟨fun place h => ?_,
      fun element low high layout hkind hlow hhigh hlayout => ?_⟩,
    fun embedding member => ⟨fun object h => ?_, Embedding.landsAt_owner⟩,
    fun made config object table h => ?_⟩
  · obtain ⟨field, hfield, haddress, -⟩ := Value.field_eq_ok.mp h
    have hplace : (place.address.toNat : Int) = value.address.toNat + field.offset.toNat := by
      omega
    exact ⟨field, hfield, hplace, hplace ▸ isAddress_toNat place.address⟩
  · obtain ⟨element, low, high, hkind, hbounds, hlayout, haddress⟩ := Value.index_eq_ok.mp h
    have hplace : (place.address.toNat : Int) =
        value.address.toNat + (index - low) * place.layout.size.toNat := by
      rw [← haddress, Int.natCast_add, Int.natCast_mul, Int.toNat_of_nonneg (by omega)]
    exact ⟨element, low, high, hkind, hlayout, hplace, hplace ▸ isAddress_toNat place.address⟩
  · have hlands := Value.landsAt_index hkind hlow hhigh hlayout
    refine ⟨hlands, fun hdistance => ?_⟩
    -- the distance is not negative, so the place would lie even further on
    have hnonneg : 0 ≤ (index - low) * (layout.size.toNat : Int) :=
      Int.mul_nonneg (by omega) (Int.natCast_nonneg _)
    have hplace : ¬ IsAddress (value.address.toNat + (index - low) * layout.size.toNat) := by
      unfold IsAddress at hdistance ⊢
      omega
    exact map_eq_error.mp (hlands.outside hplace)
  · obtain ⟨-, -, haddress⟩ := Embedding.owner_eq_ok.mp h
    have hobject : (object.address.toNat : Int) =
        member.address.toNat - embedding.offset.toNat := by
      omega
    exact ⟨hobject, hobject ▸ isAddress_toNat object.address⟩
  · obtain ⟨field, hlayout, hfield, hmember, -⟩ :=
      Embedding.ofMember_iff.mp (HashTable.read_iff.mp h).chain
    refine ⟨table.chain.layout, field, hlayout, hfield, fun bucket => ?_⟩
    rw [← hmember] at hfield
    exact HashTable.opens_of_link hfield bucket

/-! ## 5. The end of the address space -/

/-- The teaching kernel with a number in front of the link of a hash node, and at 0x4000 a hash
    table of three buckets, the first of them 28 bytes before the end of the address space. -/
def brink : Target :=
  Image.view { Image.kernel with
    layouts := ("struct hash_table_node", .record "struct hash_table_node" 24
      [⟨"hash", 0, "uint64_t"⟩, ⟨"confliced_list", 8, "struct linked_list_node"⟩]) ::
        Image.kernel.layouts
    memory := ⟨[wordsAt 0x4000 [3, 0, 0, 0xffffffffffffffe4]]⟩ }

/-- The layout that this kernel has for a name. -/
def brinkLayout (name : String) : Layout :=
  (brink.layout? name).getD (.scalar name 0)

/-- The hash table of this kernel. -/
def brinkTable : HashTable where
  buckets := 0xffffffffffffffe4
  length := 3
  chain := ⟨brinkLayout "struct hash_table_node", "confliced_list", "struct linked_list_node", 8⟩
  limit := 0x100000

/-- The first bucket can be opened; of the second the link and of the third the hash node would lie
    behind the end. So would the last slots of a directory, and the owner of a link at 4 would lie
    before the beginning. -/
theorem places_never_wrap_brink :
    let directory : Value := ⟨0xffffffffffffffef, brinkLayout "struct bucket_desc *[9]"⟩
    let procs : Embedding := ⟨brinkLayout "struct proc", "list", "struct linked_list_node", 8⟩
    (∃ address, (directory.index brink 2).map Value.address = .ok address ∧
      (address.toNat : Int) = 0xffffffffffffffff) ∧
    (directory.index brink 3).map Value.address =
      .error (.memoryUnavailable 0xffffffffffffffef 72) ∧
    (procs.owner ⟨4, brinkLayout "struct linked_list_node"⟩).map Value.address =
      .error (.memoryUnavailable 4 40) ∧
    HashTable.read brink {} ⟨0x4000, brinkLayout "struct hash_table"⟩ = .ok brinkTable ∧
    (∃ address, (brinkTable.ring brink 0).map Ring.head = .ok address ∧
      (address.toNat : Int) = 0xffffffffffffffec) ∧
    (brinkTable.ring brink 1).map Ring.head = .error (.memoryUnavailable 0xfffffffffffffffc 24) ∧
    brinkTable.ring brink 2 = .error (.memoryUnavailable 0xffffffffffffffe4 24) := by
  intro directory procs
  obtain ⟨-, hindex, howner, htable⟩ := places_never_wrap brink
  have hread : HashTable.read brink {} ⟨0x4000, brinkLayout "struct hash_table"⟩ =
      .ok brinkTable := rfl
  have hsecond := ((hindex directory 2).2 "struct bucket_desc *" 0 8
    (brinkLayout "struct bucket_desc *") rfl (by decide) (by decide) rfl).1
  have hthird := ((hindex directory 3).2 "struct bucket_desc *" 0 8
    (brinkLayout "struct bucket_desc *") rfl (by decide) (by decide) rfl).1
  obtain ⟨node, link, hnode, hlink, hopens⟩ := htable brink {} _ brinkTable hread
  obtain rfl : brinkLayout "struct hash_table_node" = node := Option.some.inj hnode
  obtain rfl : (⟨"confliced_list", 8, "struct linked_list_node"⟩ : Field) = link :=
    Except.ok.inj hlink
  have hopen (bucket : Nat) (base : UInt64) (hbase : (base.toNat : Int) =
      brinkTable.buckets.toNat + bucket * (brinkLayout "struct hash_table_node").size.toNat) :=
    (hopens bucket).inside base (brinkLayout "struct linked_list_node") hbase rfl
  refine ⟨hsecond.inside (by decide), hthird.outside (by decide),
    ((howner procs ⟨4, brinkLayout "struct linked_list_node"⟩).2 rfl).outside (by decide), hread,
    ?_, ?_, ?_⟩
  · exact (hopen 0 0xffffffffffffffe4 (by decide)).inside (by decide)
  · exact (hopen 1 0xfffffffffffffffc (by decide)).outside (by decide)
  · exact (hopens 2).outside (.inr (by decide))

end KernelProbe
