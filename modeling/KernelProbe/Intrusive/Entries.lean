import KernelProbe.Intrusive.HashTable

/-!
# The elements of a container

The elements of a container are the owners of its nodes, numbered in the order in which the nodes
come. A node whose owner cannot be found takes its number with it, so a number is a position among
all nodes.

* `Nodes` -- the traversal of the nodes of either kind of container;
* `Entries` -- the traversal of numbered owners over one of nodes.
-/

namespace KernelProbe

/-- The nodes of a container. -/
inductive Nodes where
  | ring (ring : Ring)
  | sweep (sweep : Sweep)
  deriving DecidableEq

instance : Traversal Nodes Value where
  pull target
    | .ring ring =>
      let pull := Traversal.pull target ring
      ⟨pull.events, pull.item, .ring pull.rest⟩
    | .sweep sweep =>
      let pull := Traversal.pull target sweep
      ⟨pull.events, pull.item, .sweep pull.rest⟩
  bound
    | .ring ring => Traversal.bound ring
    | .sweep sweep => Traversal.bound sweep
  bound_pull target nodes := by
    cases nodes with
    | ring ring => exact Traversal.bound_pull target ring
    | sweep sweep => exact Traversal.bound_pull target sweep
  bound_end target nodes h := by
    cases nodes with
    | ring ring => exact Traversal.bound_end target ring h
    | sweep sweep => exact Traversal.bound_end target sweep h

/-- The owners of the nodes that another traversal gives, numbered from `number` on. -/
structure Entries (σ : Type) where
  nodes : σ
  embedding : Embedding
  number : Nat

/-- The owners of all nodes. -/
def Entries.of {σ : Type} (nodes : σ) (embedding : Embedding) : Entries σ :=
  ⟨nodes, embedding, 0⟩

/-- The numbered owner of a node. -/
def Entries.entry {σ : Type} (entries : Entries σ) (node : Except Fault Value) :
    Except Fault (Nat × Value) := do
  let owner ← entries.embedding.owner (← node)
  return (entries.number, owner)

instance {σ : Type} [Traversal σ Value] : Traversal (Entries σ) (Nat × Value) where
  pull target entries :=
    let pull := Traversal.pull target entries.nodes
    ⟨pull.events, pull.item.map entries.entry,
      ⟨pull.rest, entries.embedding, entries.number + 1⟩⟩
  bound entries := Traversal.bound entries.nodes
  bound_pull target entries := by
    have h := Traversal.bound_pull target entries.nodes
    cases hitem : (Traversal.pull target entries.nodes).item <;> simp_all
  bound_end target entries h := by
    simp only [Option.map_eq_none_iff] at h
    exact Traversal.bound_end target entries.nodes h

end KernelProbe
