import KernelProbe.Traversal
import KernelProbe.Value

/-!
# Rings of linked nodes

A kernel list is a ring: from a head, which is itself a node but belongs to no element, the `next`
links lead through the nodes of the elements and back to the head. The ring of an empty list is the
head alone.

A `Ring` follows the links and gives the nodes without the head. Memory may be corrupt, so there is
a limit on the nodes; a ring that has not come back by then counts as broken. Every fault ends the
traversal.

* `Ring.link` -- the node after a node;
* `Ring` -- the traversal of the nodes.
-/

namespace KernelProbe

/-- A traversal of the ring that starts at the node at `head`. -/
structure Ring where
  head : UInt64
  /-- The most nodes that the ring may have. -/
  limit : Nat
  /-- The node last reached; none after the end. -/
  reached : Option Value
  /-- How many of the allowed nodes are not used up. -/
  left : Nat
  deriving DecidableEq

namespace Ring

/-- The ring from a head, with at most `limit` nodes. -/
def of (head : Value) (limit : Nat) : Ring :=
  ⟨head.address, limit, some head, limit⟩

/-- The node that the link of a node leads to. In a ring no link is null. -/
def link (target : Target) (node : Value) : Except Fault Value := do
  let next ← (← node.field target "next").follow target
  demand next (.memoryUnavailable 0 node.layout.size.toNat)

/-- The ring at its end. -/
def closed (ring : Ring) : Ring :=
  { ring with reached := none }

/-- One pull: follows one link. -/
def pull (target : Target) (ring : Ring) : Pull Ring Value :=
  match ring.reached with
  | none => ⟨#[], none, ring⟩
  | some node =>
    match link target node with
    | .error fault => ⟨#[], some (.error fault), ring.closed⟩
    | .ok next =>
      if next.address = ring.head then ⟨#[], none, ring.closed⟩
      else
        match ring.left with
        | 0 => ⟨#[], some (.error (.chainTooLong ring.head ring.limit)), ring.closed⟩
        | left + 1 => ⟨#[], some (.ok next), { ring with reached := some next, left := left }⟩

/-- The nodes still allowed, and one fault. -/
def bound (ring : Ring) : Nat :=
  if ring.reached.isSome then ring.left + 1 else 0

@[simp]
theorem bound_closed (ring : Ring) : ring.closed.bound = 0 := rfl

@[simp]
theorem bound_of (head : Value) (limit : Nat) : (of head limit).bound = limit + 1 := rfl

end Ring

instance : Traversal Ring Value where
  pull := Ring.pull
  bound := Ring.bound
  bound_pull target ring := by
    rw [Ring.pull]
    split
    next => simp
    next node hnode =>
      have hbound : ring.bound = ring.left + 1 := by simp [Ring.bound, hnode]
      split
      · simp [hbound]
      · split
        · simp
        · split
          · simp [hbound]
          next left hleft => simp [Ring.bound, hnode, hleft]
  bound_end target ring h := by
    rw [Ring.pull] at h ⊢
    split at h
    next hnode => simp [Ring.bound, hnode]
    next =>
      split at h
      · simp at h
      · split at h
        next hhead => rw [if_pos hhead]; simp
        next => split at h <;> simp at h

end KernelProbe
