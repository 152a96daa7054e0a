import KernelProbe.Intrusive.Ring
import KernelProbe.Proofs.Intrusive.Places
import KernelProbe.Proofs.Traversal.Pulls

/-!
# Rings in memory

What it means that memory holds a ring of nodes is said by the words in it: the member `next` of the
head holds the address of the first node, that of the first the address of the second, and so on,
and that of the last node holds the address of the head again. Nothing is said of the member
`prev`, nor of anything else in a node.

* `NodeType` -- a type whose `next` is a pointer to the type itself;
* `Leads`, `Closes` -- links that lead through given nodes, and such links that form a ring;
* `Ring.pull_of_link` and the others -- what one pull does, by what the link gives;
* `Ring.stream_of_closes` -- a traversal of the ring gives these nodes.
-/

namespace KernelProbe

/-! ## 1. Links -/

/-- **A type of nodes**: a name stands for it that is also its own, and its member `next` is a
    pointer to the type itself. -/
structure NodeType (target : Target) (name : String) (layout : Layout) : Prop where
  found : target.layout? name = some layout
  named : layout.name = name
  next : Value.PointerField target layout "next" layout

/-- The member `next` of the node at `node` holds the address `next`. -/
def Linked (target : Target) (layout : Layout) (node next : UInt64) : Prop :=
  Value.fieldWord target ⟨node, layout⟩ "next" = .ok next

/-- **Links that lead** from one node through the given ones to a last one. -/
def Leads (target : Target) (layout : Layout) : UInt64 → List UInt64 → UInt64 → Prop
  | first, [], last => Linked target layout first last
  | first, node :: rest, last =>
    Linked target layout first node ∧ Leads target layout node rest last

/-- **A ring**: links lead from the head through the nodes back to the head. No node is null or the
    head itself. -/
structure Closes (target : Target) (layout : Layout) (head : UInt64)
    (nodes : List UInt64) : Prop where
  head_ne : head ≠ 0
  nodes_ne : ∀ node ∈ nodes, node ≠ 0 ∧ node ≠ head
  leads : Leads target layout head nodes head

/-- The values of one layout at these addresses. -/
def placesAt (layout : Layout) (addresses : List UInt64) : List Value :=
  addresses.map fun address => ⟨address, layout⟩

/-! ## 2. One pull -/

namespace Ring

section

variable {target : Target} {ring : Ring} {node next : Value}

/-- A pull at a link that cannot be followed. -/
theorem pull_of_link_error {fault : Fault} (hreached : ring.reached = some node)
    (hlink : link target node = .error fault) :
    ring.pull target = ⟨#[], some (.error fault), ring.closed⟩ := by
  unfold pull
  rw [hreached]
  dsimp only
  rw [hlink]

/-- A pull at a link that leads back to the head. -/
theorem pull_of_link_head (hreached : ring.reached = some node)
    (hlink : link target node = .ok next) (hhead : next.address = ring.head) :
    ring.pull target = ⟨#[], none, ring.closed⟩ := by
  unfold pull
  rw [hreached]
  dsimp only
  rw [hlink]
  exact if_pos hhead

/-- A pull at a link that leads to one node too many. -/
theorem pull_of_link_beyond (hreached : ring.reached = some node)
    (hlink : link target node = .ok next) (hhead : next.address ≠ ring.head)
    (hleft : ring.left = 0) :
    ring.pull target =
      ⟨#[], some (.error (.chainTooLong ring.head ring.limit)), ring.closed⟩ := by
  unfold pull
  rw [hreached]
  dsimp only
  rw [hlink]
  dsimp only
  rw [if_neg hhead, hleft]

/-- A pull at a link that leads to one more allowed node. -/
theorem pull_of_link {left : Nat} (hreached : ring.reached = some node)
    (hlink : link target node = .ok next) (hhead : next.address ≠ ring.head)
    (hleft : ring.left = left + 1) :
    ring.pull target =
      ⟨#[], some (.ok next), { ring with reached := some next, left := left }⟩ := by
  unfold pull
  rw [hreached]
  dsimp only
  rw [hlink]
  dsimp only
  rw [if_neg hhead, hleft]

end

/-! ## 3. The traversal of a ring -/

variable {target : Target} {layout : Layout}

theorem link_of_linked {node next : UInt64}
    (htype : Value.PointerField target layout "next" layout) (h : Linked target layout node next)
    (hnext : next ≠ 0) : link target ⟨node, layout⟩ = .ok ⟨next, layout⟩ := by
  obtain ⟨place, hplace, hfollow⟩ := Value.follow_field htype h
  rw [if_neg hnext] at hfollow
  unfold link
  rw [hplace]
  show (place.follow target >>= fun next => _) = _
  rw [hfollow]
  rfl

/-- One pull from a node whose link leads to another one. -/
theorem pull_of_linked {ring : Ring} {node next : UInt64} {left : Nat}
    (htype : Value.PointerField target layout "next" layout) (h : Linked target layout node next)
    (hnext : next ≠ 0) (hhead : next ≠ ring.head) (hreached : ring.reached = some ⟨node, layout⟩)
    (hleft : ring.left = left + 1) :
    ring.pull target =
      ⟨#[], some (.ok ⟨next, layout⟩),
        { ring with reached := some ⟨next, layout⟩, left := left }⟩ :=
  pull_of_link hreached (link_of_linked htype h hnext) hhead hleft

/-- One pull from the node whose link leads back to the head. -/
theorem pull_of_linked_head {ring : Ring} {node : UInt64}
    (htype : Value.PointerField target layout "next" layout)
    (h : Linked target layout node ring.head) (hhead : ring.head ≠ 0)
    (hreached : ring.reached = some ⟨node, layout⟩) :
    ring.pull target = ⟨#[], none, ring.closed⟩ :=
  pull_of_link_head hreached (link_of_linked htype h hhead) rfl

/-- **From any node on a traversal gives the nodes still ahead.** -/
theorem stream_of_leads (htype : Value.PointerField target layout "next" layout) {ring : Ring}
    (hhead : ring.head ≠ 0) {first : UInt64} {nodes : List UInt64}
    (hnodes : ∀ node ∈ nodes, node ≠ 0 ∧ node ≠ ring.head)
    (hleads : Leads target layout first nodes ring.head)
    (hreached : ring.reached = some ⟨first, layout⟩) (hlimit : nodes.length ≤ ring.left) :
    Traversal.stream target ring = (placesAt layout nodes).map .ok := by
  induction nodes generalizing ring first with
  | nil =>
    refine Traversal.stream_of_none ?_
    show (ring.pull target).item = none
    rw [pull_of_linked_head htype hleads hhead hreached]
  | cons node rest ih =>
    obtain ⟨hlinked, hleads⟩ := hleads
    obtain ⟨hzero, hother⟩ := hnodes node List.mem_cons_self
    obtain ⟨left, hleft⟩ : ∃ left, ring.left = left + 1 :=
      ⟨ring.left - 1, by rw [List.length_cons] at hlimit; omega⟩
    have hpull := pull_of_linked htype hlinked hzero hother hreached hleft
    have hitem : (Traversal.pull target ring).item = some (.ok ⟨node, layout⟩) := by
      show (ring.pull target).item = _
      rw [hpull]
    rw [Traversal.stream_of_some hitem, show Traversal.pull target ring = _ from hpull]
    have hothers := fun other h => hnodes other (List.mem_cons_of_mem node h)
    refine congrArg _ (ih hhead hothers hleads rfl ?_)
    rw [List.length_cons, hleft] at hlimit
    exact Nat.le_of_succ_le_succ hlimit

/-- **A traversal of a ring gives its nodes**, in the order of the links and without the head. -/
theorem stream_of_closes (htype : Value.PointerField target layout "next" layout) {head : UInt64}
    {nodes : List UInt64} (h : Closes target layout head nodes) {limit : Nat}
    (hlimit : nodes.length ≤ limit) :
    Traversal.stream target (Ring.of ⟨head, layout⟩ limit) = (placesAt layout nodes).map .ok :=
  stream_of_leads htype h.head_ne h.nodes_ne h.leads rfl hlimit

end Ring

end KernelProbe
