import KernelProbe.Proofs.Intrusive.Circuits
import Mathlib.Logic.ExistsUnique

/-!
# How a traversal of a ring ends

From a head on the links lead to a first node, a second one, and so on, as far as they can be
followed; the layout of each node is the one that its link names. A traversal gives these nodes, and
there are three ways for it to end: a link leads back to the head, a link cannot be followed, or
there are more nodes than are allowed. Which one it is is decided at the first link that does not
lead to one more allowed node. That link is followed before it is compared with the head, and
compared before the nodes are counted; so behind the last allowed node the head still ends the ring
well, and a torn link is still reported as such.

* `Ring.LinksTo` -- the node that a link leads to;
* `Ring.nodeAt`, `Ring.Ends` -- the nodes in the order of the links, and how they end;
* `Ring.stream_goesOn` -- as long as the links go on, a traversal gives their nodes;
* `Ring.three_endings` -- each traversal has one of the three endings.
-/

namespace KernelProbe

namespace Ring

variable {target : Target} {head node next : Value} {limit count nodes : Nat} {fault : Fault}

/-! ## 1. One link -/

/-- **The node that a link leads to**: the member `next` lies within the address space and is a
    pointer; it holds an address other than zero, and there is a layout for what it points to. -/
def LinksTo (target : Target) (node next : Value) : Prop :=
  ∃ (field : Field) (place : Value) (pointee : String), node.layout.field "next" = .ok field ∧
    node.address.toNat + field.offset.toNat = place.address.toNat ∧
    target.layout? field.type = some place.layout ∧ place.layout.kind = .pointer pointee ∧
    place.word target = .ok next.address ∧ next.address ≠ 0 ∧
    target.layout? pointee = some next.layout

/-- **The fault of a link**: that of the member, that of the pointer in it, or of memory at address
    zero. -/
def LinkFails (target : Target) (node : Value) (fault : Fault) : Prop :=
  node.field target "next" = .error fault ∨
    ∃ place, node.field target "next" = .ok place ∧
      (place.follow target = .error fault ∨ place.follow target = .ok none ∧
        fault = .memoryUnavailable 0 node.layout.size.toNat)

theorem link_eq_ok : link target node = .ok next ↔ LinksTo target node next := by
  unfold link LinksTo
  simp only [bind_eq_ok, demand_eq_ok]
  constructor
  · rintro ⟨place, hplace, followed, hfollow, rfl⟩
    obtain ⟨field, hfield, haddress, hlayout⟩ := Value.field_eq_ok.mp hplace
    obtain ⟨pointee, hkind, hword, hne, hpointee⟩ := Value.follow_eq_some.mp hfollow
    exact ⟨field, place, pointee, hfield, haddress, hlayout, hkind, hword, hne, hpointee⟩
  · rintro ⟨field, place, pointee, hfield, haddress, hlayout, hkind, hword, hne, hpointee⟩
    exact ⟨place, Value.field_eq_ok.mpr ⟨field, hfield, haddress, hlayout⟩, some next,
      Value.follow_eq_some.mpr ⟨pointee, hkind, hword, hne, hpointee⟩, rfl⟩

theorem link_eq_error : link target node = .error fault ↔ LinkFails target node fault := by
  unfold link LinkFails
  rw [bind_eq_error]
  refine or_congr_right (exists_congr fun place => and_congr_right fun _ => ?_)
  simp only [bind_eq_error, demand_eq_error]
  refine or_congr_right ⟨?_, fun ⟨hnull, hfault⟩ => ⟨none, hnull, rfl, hfault⟩⟩
  rintro ⟨_, hnull, rfl, hfault⟩
  exact ⟨hnull, hfault⟩

/-! ## 2. The nodes in the order of the links -/

/-- **The node after so many links** from a head. -/
def nodeAt (target : Target) (head : Value) : Nat → Except Fault Value
  | 0 => .ok head
  | number + 1 => nodeAt target head number >>= link target

/-- What the first links lead to. -/
def nodesTo (target : Target) (head : Value) (count : Nat) : List (Except Fault Value) :=
  (List.range count).map fun number => nodeAt target head (number + 1)

/-- **So many links lead on**, each of them to a node elsewhere than the head. -/
def GoesOn (target : Target) (head : Value) (count : Nat) : Prop :=
  ∀ number < count, ∃ node, nodeAt target head (number + 1) = .ok node ∧
    node.address ≠ head.address

/-- **A ring of so many nodes**: behind them the link leads to the head, for the first time. -/
def Returns (target : Target) (head : Value) (nodes : Nat) : Prop :=
  GoesOn target head nodes ∧
    ∃ node, nodeAt target head (nodes + 1) = .ok node ∧ node.address = head.address

/-- **A chain that is torn** behind so many nodes. -/
def Torn (target : Target) (head : Value) (nodes : Nat) (fault : Fault) : Prop :=
  GoesOn target head nodes ∧ nodeAt target head (nodes + 1) = .error fault

theorem nodeAt_succ (h : nodeAt target head count = .ok node) :
    nodeAt target head (count + 1) = link target node := by
  rw [nodeAt, h]
  rfl

theorem nodesTo_succ (target : Target) (head : Value) (count : Nat) :
    nodesTo target head (count + 1) =
      nodesTo target head count ++ [nodeAt target head (count + 1)] := by
  rw [nodesTo, List.range_succ, List.map_append]
  rfl

theorem GoesOn.mono (h : GoesOn target head count) (hle : nodes ≤ count) :
    GoesOn target head nodes :=
  fun number hlt => h number (Nat.lt_of_lt_of_le hlt hle)

theorem goesOn_succ : GoesOn target head (count + 1) ↔ GoesOn target head count ∧
    ∃ node, nodeAt target head (count + 1) = .ok node ∧ node.address ≠ head.address :=
  Nat.forall_lt_succ_right

/-- **Behind so many nodes the links lead on no more.** -/
def Stops (target : Target) (head : Value) (nodes : Nat) : Prop :=
  GoesOn target head nodes ∧ ¬ GoesOn target head (nodes + 1)

/-- The links lead on, or there is a first one that does not. -/
theorem goesOn_or_stops (target : Target) (head : Value) (count : Nat) :
    GoesOn target head count ∨ ∃ nodes < count, Stops target head nodes := by
  induction count with
  | zero => exact .inl fun number hlt => absurd hlt (Nat.not_lt_zero number)
  | succ count ih =>
    rcases ih with hgoesOn | ⟨nodes, hlt, hstops⟩
    · by_cases hnext : GoesOn target head (count + 1)
      · exact .inl hnext
      · exact .inr ⟨count, Nat.lt_succ_self count, hgoesOn, hnext⟩
    · exact .inr ⟨nodes, Nat.lt_succ_of_lt hlt, hstops⟩

/-- There is one place only where the links lead on no more. -/
theorem Stops.unique (h : Stops target head nodes) (hother : Stops target head count) :
    nodes = count := by
  have hle : ¬ nodes < count := fun hlt => h.2 (hother.1.mono hlt)
  have hge : ¬ count < nodes := fun hlt => hother.2 (h.1.mono hlt)
  omega

theorem Returns.stops (h : Returns target head nodes) : Stops target head nodes := by
  obtain ⟨hgoesOn, last, hlast, hhead⟩ := h
  refine ⟨hgoesOn, fun hnext => ?_⟩
  obtain ⟨-, node, hnode, hne⟩ := goesOn_succ.mp hnext
  cases hlast.symm.trans hnode
  exact hne hhead

theorem Torn.stops (h : Torn target head nodes fault) : Stops target head nodes := by
  refine ⟨h.1, fun hnext => ?_⟩
  obtain ⟨-, node, hnode, -⟩ := goesOn_succ.mp hnext
  cases h.2.symm.trans hnode

/-! ## 3. The three endings -/

/-- How the links from a head come to an end. -/
inductive Ending where
  /-- Behind so many nodes they come back to the head. -/
  | returned (nodes : Nat)
  /-- The link of the last of so many nodes cannot be followed. -/
  | torn (nodes : Nat) (fault : Fault)
  /-- They lead to more nodes than are allowed. -/
  | tooLong

/-- **The ending that there is**, if so many nodes are allowed. -/
def Ends (target : Target) (head : Value) (limit : Nat) : Ending → Prop
  | .returned nodes => nodes ≤ limit ∧ Returns target head nodes
  | .torn nodes fault => nodes ≤ limit ∧ Torn target head nodes fault
  | .tooLong => GoesOn target head (limit + 1)

/-- **What a traversal gives**, by its ending. -/
def Ending.items (target : Target) (head : Value) (limit : Nat) :
    Ending → List (Except Fault Value)
  | .returned nodes => nodesTo target head nodes
  | .torn nodes fault => nodesTo target head nodes ++ [.error fault]
  | .tooLong => nodesTo target head limit ++ [.error (.chainTooLong head.address limit)]

/-- The ending behind so many nodes, by what there is in the place of the next one. -/
def endingAt (target : Target) (head : Value) (nodes : Nat) : Ending :=
  match nodeAt target head (nodes + 1) with
  | .ok _ => .returned nodes
  | .error fault => .torn nodes fault

/-- Where the links lead on no more, that is their ending. -/
theorem Stops.ends (h : Stops target head nodes) (hle : nodes ≤ limit) :
    Ends target head limit (endingAt target head nodes) := by
  obtain ⟨hgoesOn, hstops⟩ := h
  unfold endingAt
  cases hnext : nodeAt target head (nodes + 1) with
  | error fault => exact ⟨hle, hgoesOn, hnext⟩
  | ok next =>
    refine ⟨hle, hgoesOn, next, hnext, Classical.byContradiction fun hhead => ?_⟩
    exact hstops (goesOn_succ.mpr ⟨hgoesOn, next, hnext, hhead⟩)

/-- An ending is too many nodes, or it is where the links lead on no more. -/
theorem Ends.cases {ending : Ending} (h : Ends target head limit ending) :
    GoesOn target head (limit + 1) ∧ ending = .tooLong ∨
      ∃ nodes ≤ limit, Stops target head nodes ∧ ending = endingAt target head nodes := by
  cases ending with
  | returned nodes =>
    obtain ⟨hle, hreturns⟩ := h
    have hstops := hreturns.stops
    obtain ⟨-, last, hlast, -⟩ := hreturns
    refine .inr ⟨nodes, hle, hstops, ?_⟩
    rw [endingAt, hlast]
  | torn nodes fault =>
    obtain ⟨hle, htorn⟩ := h
    refine .inr ⟨nodes, hle, htorn.stops, ?_⟩
    rw [endingAt, htorn.2]
  | tooLong => exact .inl ⟨h, rfl⟩

/-- **There is one ending.** -/
theorem existsUnique_ends (target : Target) (head : Value) (limit : Nat) :
    ∃! ending, Ends target head limit ending := by
  rcases goesOn_or_stops target head (limit + 1) with hgoesOn | ⟨nodes, hlt, hstops⟩
  · refine ⟨.tooLong, hgoesOn, fun other hother => ?_⟩
    rcases hother.cases with ⟨-, hsame⟩ | ⟨nodes, hle, hstops, -⟩
    · exact hsame
    · exact absurd (hgoesOn.mono (Nat.succ_le_succ hle)) hstops.2
  · refine ⟨_, hstops.ends (Nat.le_of_lt_succ hlt), fun other hother => ?_⟩
    rcases hother.cases with ⟨hgoesOn, -⟩ | ⟨nodes', -, hstops', hsame⟩
    · exact absurd (hgoesOn.mono hlt) hstops.2
    · rw [hsame, hstops.unique hstops']

/-! ## 4. What a traversal gives -/

/-- The traversal of a ring that has come to a node, with so many nodes used up. -/
def reachedAt (head : Value) (limit used : Nat) (node : Value) : Ring :=
  ⟨head.address, limit, some node, limit - used⟩

/-- **As long as the links go on a traversal gives their nodes.** -/
theorem stream_goesOn (h : GoesOn target head count) (hcount : count ≤ limit) :
    ∃ node, nodeAt target head count = .ok node ∧
      Traversal.stream target (of head limit) =
        nodesTo target head count ++ Traversal.stream target (reachedAt head limit count node) := by
  induction count with
  | zero => exact ⟨head, rfl, rfl⟩
  | succ count ih =>
    obtain ⟨hprevious, next, hnext, hhead⟩ := goesOn_succ.mp h
    obtain ⟨node, hnode, hstream⟩ := ih hprevious (Nat.le_of_succ_le hcount)
    have hlink : link target node = .ok next := (nodeAt_succ hnode).symm.trans hnext
    have hleft : (reachedAt head limit count node).left = limit - (count + 1) + 1 := by
      show limit - count = _
      omega
    have hpull : Traversal.pull target (reachedAt head limit count node) =
        ⟨#[], some (.ok next), reachedAt head limit (count + 1) next⟩ :=
      pull_of_link rfl hlink hhead hleft
    refine ⟨next, hnext, ?_⟩
    rw [hstream, Traversal.stream_of_some (congrArg Pull.item hpull), hpull, nodesTo_succ, hnext,
      List.append_assoc]
    rfl

/-- A traversal of a ring that is small enough gives its nodes. -/
theorem stream_of_returns (h : Returns target head nodes) (hle : nodes ≤ limit) :
    Traversal.stream target (of head limit) = nodesTo target head nodes := by
  obtain ⟨hgoesOn, last, hlast, hhead⟩ := h
  obtain ⟨node, hnode, hstream⟩ := stream_goesOn hgoesOn hle
  have hlink : link target node = .ok last := (nodeAt_succ hnode).symm.trans hlast
  have hpull : (reachedAt head limit nodes node).pull target = ⟨#[], none, _⟩ :=
    pull_of_link_head rfl hlink hhead
  rw [hstream, Traversal.stream_of_none (congrArg Pull.item hpull), List.append_nil]

/-- A traversal of a chain that is torn within the limit gives its nodes, then the fault. -/
theorem stream_of_torn (h : Torn target head nodes fault) (hle : nodes ≤ limit) :
    Traversal.stream target (of head limit) = nodesTo target head nodes ++ [.error fault] := by
  obtain ⟨hgoesOn, hlast⟩ := h
  obtain ⟨node, hnode, hstream⟩ := stream_goesOn hgoesOn hle
  have hlink : link target node = .error fault := (nodeAt_succ hnode).symm.trans hlast
  rw [hstream, stream_of_fault (pull_of_link_error rfl hlink)]

/-- A traversal of links that lead on for too long gives as many nodes as are allowed. -/
theorem stream_of_tooLong (h : GoesOn target head (limit + 1)) :
    Traversal.stream target (of head limit) =
      nodesTo target head limit ++ [.error (.chainTooLong head.address limit)] := by
  obtain ⟨hgoesOn, last, hlast, hhead⟩ := goesOn_succ.mp h
  obtain ⟨node, hnode, hstream⟩ := stream_goesOn hgoesOn (Nat.le_refl limit)
  have hlink : link target node = .ok last := (nodeAt_succ hnode).symm.trans hlast
  have hpull : (reachedAt head limit limit node).pull target =
      ⟨#[], some (.error (.chainTooLong head.address limit)), _⟩ :=
    pull_of_link_beyond rfl hlink hhead (Nat.sub_self limit)
  rw [hstream, stream_of_fault hpull]

/-- **Each ending has its items.** -/
theorem stream_of_ends {ending : Ending} (h : Ends target head limit ending) :
    Traversal.stream target (of head limit) = ending.items target head limit := by
  cases ending with
  | returned nodes => exact stream_of_returns h.2 h.1
  | torn nodes fault => exact stream_of_torn h.2 h.1
  | tooLong => exact stream_of_tooLong h

/-- **A traversal of a ring ends in one of three ways**, whatever memory holds. From a head with any
    layout let the nodes be those that the links lead to, one after the other, where a link leads to
    a node just if its member `next` is a pointer that can be read, is not null and has a type, and
    else has the fault of what is missing. Then of these three exactly one is true, and for one
    number of nodes: within the limit a link leads to the address of the head for the first time,
    and the traversal gives the nodes before and ends; within the limit a link cannot be followed
    before that, and the traversal gives the nodes before and that fault and ends; or one link more
    than the limit leads on, and the traversal gives as many nodes as are allowed, says that the
    chain is too long, and ends. So a ring of as many nodes as are allowed is given whole, a larger
    one is not, and a link behind the last allowed node that cannot be followed is reported as
    such. -/
theorem three_endings (target : Target) (head : Value) (limit : Nat) :
    (∀ node next, link target node = .ok next ↔ LinksTo target node next) ∧
    (∀ node fault, link target node = .error fault ↔ LinkFails target node fault) ∧
    (∃! ending, Ends target head limit ending) ∧
    (∀ ending, Ends target head limit ending →
      Traversal.stream target (of head limit) = ending.items target head limit ∧
      ∀ count, Traversal.pulls (List.replicate count target) (of head limit) =
        ((ending.items target head limit).map some ++ List.replicate count none).take count) ∧
    (Returns target head limit →
      Traversal.stream target (of head limit) = nodesTo target head limit) ∧
    (∀ nodes, limit < nodes → Returns target head nodes →
      Traversal.stream target (of head limit) =
        nodesTo target head limit ++ [.error (.chainTooLong head.address limit)]) ∧
    ∀ fault, Torn target head limit fault →
      Traversal.stream target (of head limit) = nodesTo target head limit ++ [.error fault] := by
  refine ⟨fun _ _ => link_eq_ok, fun _ _ => link_eq_error, existsUnique_ends target head limit,
    fun ending hends => ?_, fun hreturns => stream_of_returns hreturns (Nat.le_refl limit),
    fun nodes hlt hreturns => stream_of_tooLong (hreturns.1.mono hlt),
    fun fault htorn => stream_of_torn htorn (Nat.le_refl limit)⟩
  have hstream := stream_of_ends hends
  refine ⟨hstream, fun count => ?_⟩
  rw [← hstream]
  exact Traversal.pulls_replicate target count (of head limit)

end Ring

/-! ## 5. A ring and a torn chain -/

/-- The teaching kernel with the head of a ring of two nodes at 0x1000, and at 0x4000 one whose
    links lead to a single node with a null link. -/
def fraying : Target :=
  Image.view { Image.kernel with memory := ⟨[
    wordsAt 0x1000 [0, 0x2000], wordsAt 0x2000 [0, 0x3000], wordsAt 0x3000 [0, 0x1000],
    wordsAt 0x4000 [0, 0x5000], wordsAt 0x5000 [0, 0]]⟩ }

/-- A node of this kernel. -/
def frayingNode (address : UInt64) : Value :=
  ⟨address, kernelLayout "struct linked_list_node"⟩

namespace Ring

theorem goesOn_fraying : GoesOn fraying (frayingNode 0x1000) 2 ∧
    GoesOn fraying (frayingNode 0x4000) 1 := by
  have hnone : ∀ head, GoesOn fraying head 0 := fun _ number hlt => absurd hlt number.not_lt_zero
  refine ⟨goesOn_succ.mpr ⟨goesOn_succ.mpr ⟨hnone _, ?_⟩, ?_⟩, goesOn_succ.mpr ⟨hnone _, ?_⟩⟩
  · exact ⟨frayingNode 0x2000, rfl, by decide⟩
  · exact ⟨frayingNode 0x3000, rfl, by decide⟩
  · exact ⟨frayingNode 0x5000, rfl, by decide⟩

/-- Two nodes are just enough for the ring, and one is too few; behind one allowed node the null
    link of the chain is reported, not the length of the chain. -/
theorem three_endings_fraying :
    Ends fraying (frayingNode 0x1000) 2 (.returned 2) ∧
      Traversal.stream fraying (Ring.of (frayingNode 0x1000) 2) =
        [.ok (frayingNode 0x2000), .ok (frayingNode 0x3000)] ∧
      Traversal.stream fraying (Ring.of (frayingNode 0x1000) 1) =
        [.ok (frayingNode 0x2000), .error (.chainTooLong 0x1000 1)] ∧
      Traversal.stream fraying (Ring.of (frayingNode 0x4000) 1) =
        [.ok (frayingNode 0x5000), .error (.memoryUnavailable 0 16)] := by
  have hreturns : Returns fraying (frayingNode 0x1000) 2 :=
    ⟨goesOn_fraying.1, frayingNode 0x1000, rfl, rfl⟩
  have htorn : Torn fraying (frayingNode 0x4000) 1 (.memoryUnavailable 0 16) :=
    ⟨goesOn_fraying.2, rfl⟩
  have hends : Ends fraying (frayingNode 0x1000) 2 (.returned 2) := ⟨Nat.le_refl 2, hreturns⟩
  obtain ⟨-, -, -, hitems, -⟩ := three_endings fraying (frayingNode 0x1000) 2
  obtain ⟨-, -, -, -, -, hlarger, -⟩ := three_endings fraying (frayingNode 0x1000) 1
  obtain ⟨-, -, -, -, -, -, hfaulty⟩ := three_endings fraying (frayingNode 0x4000) 1
  exact ⟨hends, (hitems _ hends).1.trans rfl,
    (hlarger 2 (Nat.lt_succ_self 1) hreturns).trans rfl, (hfaulty _ htorn).trans rfl⟩

end Ring

end KernelProbe
