import KernelProbe.Config
import KernelProbe.Intrusive.Embedding
import KernelProbe.Intrusive.Ring

/-!
# Chained hash tables

A hash table counts its buckets and points to an array of them. A bucket is a hash node, and so is
every node embedded in an element: a hash node has one member, a link, and the link of a bucket is
the head of a ring through the links of the elements in that bucket.

A `Sweep` opens the buckets by rising index and gives the hash nodes of each ring in the order of
its links. A link whose type is not the declared one is given as a fault, and the sweep goes on
behind it; every other fault ends the sweep.

* `HashTable.read` -- reads the head of a table;
* `Sweep` -- the traversal of the hash nodes.
-/

namespace KernelProbe

/-- A hash table as its head describes it. -/
structure HashTable where
  /-- The address of the first bucket. -/
  buckets : UInt64
  /-- The number of buckets. -/
  length : Nat
  /-- The link within a hash node. -/
  chain : Embedding
  /-- The most nodes that the ring of a bucket may have. -/
  limit : Nat
  deriving DecidableEq

namespace HashTable

/-- Reads the head of the table at `table`. A table without buckets may have a null pointer to
    them. -/
def read (target : Target) (config : Config) (table : Value) : Except Fault HashTable := do
  let length ← table.fieldWord target config.hashLengthField
  let buffer ← (← table.field target config.hashBufferField).follow target
  let buckets ← match buffer with
    | some first => pure first.address
    | none => if length = 0 then pure 0 else throw (.memoryUnavailable 0 length.toNat)
  let chain ← Embedding.ofMember target config.hashNodeType config.hashChainField
  return ⟨buckets, length.toNat, chain, config.maxChainNodes⟩

/-- The ring of a bucket. -/
def ring (target : Target) (table : HashTable) (bucket : Nat) : Except Fault Ring := do
  let size := table.chain.layout.size.toNat
  let address ← demand (advance? table.buckets (bucket * size))
    (.memoryUnavailable table.buckets size)
  let head ← Value.field target ⟨address, table.chain.layout⟩ table.chain.member
  return .of head table.limit

theorem bound_of_ring {target : Target} {table : HashTable} {bucket : Nat} {ring : Ring}
    (h : table.ring target bucket = .ok ring) : ring.bound = table.limit + 1 := by
  simp only [HashTable.ring, bind, Except.bind, pure, Except.pure] at h
  split at h
  · cases h
  · split at h
    · cases h
    · cases h
      rfl

end HashTable

/-- A traversal of the hash nodes of a table. -/
structure Sweep where
  table : HashTable
  /-- The next bucket to open. -/
  bucket : Nat
  /-- The ring of the bucket opened last, while it lasts. -/
  ring : Option Ring
  deriving DecidableEq

namespace Sweep

/-- The sweep over all buckets of a table. -/
def of (table : HashTable) : Sweep :=
  ⟨table, 0, none⟩

/-- A sweep at its end. -/
def closed (table : HashTable) : Sweep :=
  ⟨table, table.length, none⟩

/-- The pull that gives a node of a ring: its hash node, or the fault, after which the sweep goes on
    only if it is one of type. -/
def give (table : HashTable) (bucket : Nat) (node : Except Fault Value) (ring : Ring) :
    Pull Sweep Value :=
  match node.bind table.chain.owner with
  | .ok hashNode => ⟨#[], some (.ok hashNode), ⟨table, bucket, some ring⟩⟩
  | .error (.typeMismatch expected found) =>
    ⟨#[], some (.error (.typeMismatch expected found)), ⟨table, bucket, some ring⟩⟩
  | .error fault => ⟨#[], some (.error fault), closed table⟩

/-- Opens buckets from `bucket` on, up to one whose ring gives something. -/
def openFrom (target : Target) (table : HashTable) (bucket : Nat) : Pull Sweep Value :=
  if bucket < table.length then
    match table.ring target bucket with
    | .error fault => ⟨#[], some (.error fault), closed table⟩
    | .ok ring =>
      match ring.pull target with
      | ⟨_, some node, rest⟩ => give table (bucket + 1) node rest
      | ⟨_, none, _⟩ => openFrom target table (bucket + 1)
  else ⟨#[], none, closed table⟩
termination_by table.length - bucket

/-- One pull: the next node of the open ring, or the first one of a later bucket. -/
def pull (target : Target) (sweep : Sweep) : Pull Sweep Value :=
  match sweep.ring with
  | none => openFrom target sweep.table sweep.bucket
  | some ring =>
    match ring.pull target with
    | ⟨_, some node, rest⟩ => give sweep.table sweep.bucket node rest
    | ⟨_, none, _⟩ => openFrom target sweep.table sweep.bucket

/-- What the open ring can give, and for each bucket to come its full ring with one fault. -/
def bound (sweep : Sweep) : Nat :=
  (sweep.table.length - sweep.bucket) * (sweep.table.limit + 1) +
    (sweep.ring.map Ring.bound).getD 0

@[simp]
theorem bound_closed (table : HashTable) : (closed table).bound = 0 := by
  simp [bound, closed]

theorem bound_give (table : HashTable) (bucket : Nat) (node : Except Fault Value) (ring : Ring) :
    bound (give table bucket node ring).rest ≤
      (table.length - bucket) * (table.limit + 1) + ring.bound := by
  rw [give]
  split
  · exact Nat.le_refl _
  · exact Nat.le_refl _
  · simp

theorem item_give (table : HashTable) (bucket : Nat) (node : Except Fault Value) (ring : Ring) :
    (give table bucket node ring).item.toList.length = 1 := by
  rw [give]
  split <;> rfl

theorem item_give_ne_none (table : HashTable) (bucket : Nat) (node : Except Fault Value)
    (ring : Ring) : (give table bucket node ring).item ≠ none := by
  rw [give]
  split <;> simp

/-- What one bucket to come adds to the bound. -/
theorem bound_bucket {table : HashTable} {bucket : Nat} (h : bucket < table.length) :
    (table.length - bucket) * (table.limit + 1) =
      (table.length - (bucket + 1)) * (table.limit + 1) + (table.limit + 1) := by
  rw [← Nat.succ_mul]
  congr 1
  omega

theorem bound_openFrom (target : Target) (table : HashTable) (bucket : Nat) :
    bound (openFrom target table bucket).rest + (openFrom target table bucket).item.toList.length ≤
      (table.length - bucket) * (table.limit + 1) := by
  fun_induction openFrom target table bucket with
  | case1 bucket hlt fault hring =>
    have := bound_bucket hlt
    simp
    omega
  | case2 bucket hlt ring hring seen node rest hpull =>
    have hbucket := bound_bucket hlt
    have hbound := HashTable.bound_of_ring hring
    have hrest := Traversal.bound_pull target ring
    have hgive := bound_give table (bucket + 1) node rest
    have hitem := item_give table (bucket + 1) node rest
    change (ring.pull target).rest.bound + (ring.pull target).item.toList.length ≤ ring.bound
      at hrest
    rw [hpull] at hrest
    simp at hrest
    omega
  | case3 bucket hlt ring hring seen rest hpull ih =>
    have := bound_bucket hlt
    omega
  | case4 bucket hlt => simp

theorem bound_openFrom_end (target : Target) (table : HashTable) (bucket : Nat)
    (h : (openFrom target table bucket).item = none) :
    bound (openFrom target table bucket).rest = 0 := by
  fun_induction openFrom target table bucket with
  | case1 => simp at h
  | case2 => exact absurd h (item_give_ne_none _ _ _ _)
  | case3 bucket hlt ring hring seen rest hpull ih => exact ih h
  | case4 => simp

end Sweep

instance : Traversal Sweep Value where
  pull := Sweep.pull
  bound := Sweep.bound
  bound_pull target sweep := by
    obtain ⟨table, bucket, ring⟩ := sweep
    cases ring with
    | none => simpa [Sweep.pull, Sweep.bound] using Sweep.bound_openFrom target table bucket
    | some ring =>
      simp only [Sweep.pull]
      split
      next seen node rest hpull =>
        have hrest := Traversal.bound_pull target ring
        have hgive := Sweep.bound_give table bucket node rest
        have hitem := Sweep.item_give table bucket node rest
        change (ring.pull target).rest.bound + (ring.pull target).item.toList.length ≤ ring.bound
          at hrest
        rw [hpull] at hrest
        simp [Sweep.bound] at hrest hgive ⊢
        omega
      next =>
        have := Sweep.bound_openFrom target table bucket
        simp [Sweep.bound] at this ⊢
        omega
  bound_end target sweep h := by
    obtain ⟨table, bucket, ring⟩ := sweep
    cases ring with
    | none => exact Sweep.bound_openFrom_end target table bucket h
    | some ring =>
      simp only [Sweep.pull] at h ⊢
      split at h
      · exact absurd h (Sweep.item_give_ne_none _ _ _ _)
      · exact Sweep.bound_openFrom_end target table bucket h

end KernelProbe
