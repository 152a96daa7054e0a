import KernelProbe.Proofs.Intrusive.Buckets
import KernelProbe.Proofs.Intrusive.Registrations
import KernelProbe.Proofs.Intrusive.Rings

/-!
# Rings that were gone round

A traversal of a ring keeps no record of the nodes it has been at; it compares each node with the
head and with nothing else. Yet a traversal that ends without a fault has met no node twice. A link
leads to one node only, so two paths from the same node agree for as long as they last: a path that
came to a node a second time would go on as it did the first time and never come to the head.

* `Leads.unique`, `Leads.pathTo` -- two paths from one node agree;
* `Leads.nodup` -- a path meets no node twice before its end;
* `Ring.pull_cases` -- what one pull can do;
* `Ring.closes_of_stream` -- memory in which a traversal ends without a fault;
* `Ring.completed_visits_once` -- such a traversal was at every node of a ring once.
-/

namespace KernelProbe

/-! ## 1. Paths of links -/

section

variable {target : Target} {layout : Layout} {first last node next : UInt64}
  {nodes before after : List UInt64}

theorem Linked.unique {other : UInt64} (h : Linked target layout node next)
    (hother : Linked target layout node other) : next = other :=
  Except.ok.inj (h.symm.trans hother)

/-- A path goes on from each of its nodes. -/
theorem Leads.from_node (h : Leads target layout first (before ++ node :: after) last) :
    Leads target layout node after last := by
  induction before generalizing first with
  | nil => exact h.2
  | cons _ before ih => exact ih h.2

/-- **Two paths from one node to one end** that come to the end once are the same. -/
theorem Leads.unique {others : List UInt64} (h : Leads target layout first nodes last)
    (hother : Leads target layout first others last) (hlast : last ∉ nodes)
    (hlast' : last ∉ others) : nodes = others := by
  induction nodes generalizing first others with
  | nil =>
    cases others with
    | nil => rfl
    | cons other rest =>
      obtain rfl := Linked.unique h hother.1
      exact absurd List.mem_cons_self hlast'
  | cons node nodes ih =>
    cases others with
    | nil =>
      obtain rfl := Linked.unique h.1 hother
      exact absurd List.mem_cons_self hlast
    | cons other others =>
      obtain rfl := Linked.unique h.1 hother.1
      rw [ih h.2 hother.2 (List.not_mem_of_not_mem_cons hlast)
        (List.not_mem_of_not_mem_cons hlast')]

/-- **A path that does not come to the end of another one** is the beginning of that other one. -/
theorem Leads.pathTo {path : List UInt64} {stop : UInt64} (h : Leads target layout first nodes last)
    (hpath : Leads target layout first path stop) (hlast : last ∉ path) (hstop : last ≠ stop) :
    path ++ [stop] <+: nodes := by
  induction path generalizing first nodes with
  | nil =>
    cases nodes with
    | nil => exact absurd (Linked.unique h hpath) hstop
    | cons node nodes =>
      obtain rfl := Linked.unique h.1 hpath
      exact List.prefix_append [node] nodes
  | cons step path ih =>
    cases nodes with
    | nil =>
      obtain rfl := Linked.unique h hpath.1
      exact absurd List.mem_cons_self hlast
    | cons node nodes =>
      obtain rfl := Linked.unique h.1 hpath.1
      exact List.prefix_cons_inj node |>.mpr
        (ih h.2 hpath.2 (List.not_mem_of_not_mem_cons hlast))

/-- **A path meets no node twice** if it comes to its end once. -/
theorem Leads.nodup (h : Leads target layout first nodes last) (hlast : last ∉ nodes) :
    nodes.Nodup := by
  induction nodes generalizing first with
  | nil => exact List.nodup_nil
  | cons node rest ih =>
    have hrest := List.not_mem_of_not_mem_cons hlast
    refine List.nodup_cons.mpr ⟨fun hmem => ?_, ih h.2 hrest⟩
    -- From the second meeting on the path would have to be as long as from the first one on.
    obtain ⟨before, after, rfl⟩ := List.append_of_mem hmem
    have hafter : last ∉ after := fun hmem => hrest (by simp [hmem])
    have hsame := Leads.unique h.2 h.2.from_node hrest hafter
    have hlength := congrArg List.length hsame
    simp only [List.length_append, List.length_cons] at hlength
    omega

end

theorem Closes.head_not_mem {target : Target} {layout : Layout} {head : UInt64}
    {nodes : List UInt64} (h : Closes target layout head nodes) : head ∉ nodes :=
  fun hmem => (h.nodes_ne head hmem).2 rfl

/-- **No node is twice on a ring.** -/
theorem Closes.nodup {target : Target} {layout : Layout} {head : UInt64} {nodes : List UInt64}
    (h : Closes target layout head nodes) : nodes.Nodup :=
  h.leads.nodup h.head_not_mem

/-- **Rings with different heads have no node in common**, unless a node of one is the head of the
    other. -/
theorem Closes.disjoint {target : Target} {layout : Layout} {head head' : UInt64}
    {nodes nodes' : List UInt64} (h : Closes target layout head nodes)
    (h' : Closes target layout head' nodes') (hheads : head ≠ head') (hhead : head ∉ nodes')
    (hhead' : head' ∉ nodes) : ∀ node ∈ nodes, node ∉ nodes' := by
  intro node hmem hmem'
  obtain ⟨before, after, rfl⟩ := List.append_of_mem hmem
  obtain ⟨before', after', rfl⟩ := List.append_of_mem hmem'
  -- From the common node on both rings go the same way, and one of the heads comes first.
  have hahead : head ∉ after' := fun hmem =>
    hhead (List.mem_append_right _ (List.mem_cons_of_mem _ hmem))
  have hpath := h.leads.from_node.pathTo h'.leads.from_node hahead hheads
  have hmet : head' ∈ after := hpath.subset (List.mem_append_right _ List.mem_cons_self)
  exact hhead' (List.mem_append_right _ (List.mem_cons_of_mem _ hmet))

/-! ## 2. What one pull can do -/

namespace Ring

variable {target : Target} {layout : Layout} {ring : Ring}

theorem linked_of_link {node : UInt64} {next : Value}
    (htype : Value.PointerField target layout "next" layout)
    (h : link target ⟨node, layout⟩ = .ok next) :
    ∃ address, next = ⟨address, layout⟩ ∧ address ≠ 0 ∧ Linked target layout node address := by
  obtain ⟨field, pointer, type, hfield, hpointer, hkind, hpointee⟩ := htype
  obtain ⟨place, hplace, h⟩ := bind_eq_ok.mp h
  obtain ⟨followed, hfollow, h⟩ := bind_eq_ok.mp h
  obtain rfl := demand_eq_ok.mp h
  obtain ⟨pointee, hpointed, hword, hne, hlayout⟩ := Value.follow_eq_some.mp hfollow
  obtain ⟨field', hfield', -, hlayout'⟩ := Value.field_eq_ok.mp hplace
  rw [hfield] at hfield'
  cases hfield'
  rw [hpointer] at hlayout'
  cases hlayout'
  rw [hkind] at hpointed
  cases hpointed
  obtain ⟨address, layout'⟩ := next
  obtain rfl := Option.some.inj (hpointee.symm.trans hlayout)
  exact ⟨address, rfl, hne, bind_eq_ok.mpr ⟨place, hplace, hword⟩⟩

/-- **One pull from a node**: its link cannot be followed; or it leads back to the head; or it leads
    on, to one node too many or to the node that is given. -/
theorem pull_cases (target : Target) {node : Value} (hreached : ring.reached = some node) :
    (∃ fault, link target node = .error fault ∧
      ring.pull target = ⟨#[], some (.error fault), ring.closed⟩) ∨
    ∃ next, link target node = .ok next ∧
      (next.address = ring.head ∧ ring.pull target = ⟨#[], none, ring.closed⟩ ∨
      next.address ≠ ring.head ∧ ring.left = 0 ∧
        ring.pull target =
          ⟨#[], some (.error (.chainTooLong ring.head ring.limit)), ring.closed⟩ ∨
      next.address ≠ ring.head ∧ ∃ left, ring.left = left + 1 ∧
        ring.pull target =
          ⟨#[], some (.ok next), { ring with reached := some next, left := left }⟩) := by
  cases hlink : link target node with
  | error fault => exact .inl ⟨fault, rfl, pull_of_link_error hreached hlink⟩
  | ok next =>
    refine .inr ⟨next, rfl, ?_⟩
    by_cases hhead : next.address = ring.head
    · exact .inl ⟨hhead, pull_of_link_head hreached hlink hhead⟩
    · cases hleft : ring.left with
      | zero => exact .inr (.inl ⟨hhead, rfl, pull_of_link_beyond hreached hlink hhead hleft⟩)
      | succ left =>
        exact .inr (.inr ⟨hhead, left, rfl, pull_of_link hreached hlink hhead hleft⟩)

/-! ## 3. What a traversal gives -/

theorem stream_of_fault {fault : Fault}
    (h : ring.pull target = ⟨#[], some (.error fault), ring.closed⟩) :
    Traversal.stream target ring = [.error fault] := by
  have hpull : Traversal.pull target ring = ⟨#[], some (.error fault), ring.closed⟩ := h
  have hitem : (Traversal.pull target ring).item = some (.error fault) := by rw [hpull]
  rw [Traversal.stream_of_some hitem, hpull, Traversal.stream_of_none rfl]

/-- **A traversal from a node** gives nodes other than null and the head, no more than are allowed;
    then the links have led through these nodes to the head, or a fault comes, and it ends. -/
theorem stream_cases (ring : Ring) (first : UInt64)
    (htype : Value.PointerField target layout "next" layout)
    (hreached : ring.reached = some ⟨first, layout⟩) :
    ∃ nodes, nodes.length ≤ ring.left ∧ (∀ node ∈ nodes, node ≠ 0 ∧ node ≠ ring.head) ∧
      (ring.head ≠ 0 ∧ Leads target layout first nodes ring.head ∧
        Traversal.stream target ring = (placesAt layout nodes).map .ok ∨
      ∃ fault, Traversal.stream target ring =
        (placesAt layout nodes).map .ok ++ [.error fault]) := by
  rcases pull_cases target hreached with ⟨fault, -, hpull⟩ | ⟨next, hlink, hcases⟩
  · exact ⟨[], Nat.zero_le _, List.forall_mem_nil _, .inr ⟨fault, stream_of_fault hpull⟩⟩
  obtain ⟨address, rfl, hzero, hlinked⟩ := linked_of_link htype hlink
  rcases hcases with ⟨hhead, hpull⟩ | ⟨-, -, hpull⟩ | ⟨hhead, left, hleft, hpull⟩
  · refine ⟨[], Nat.zero_le _, List.forall_mem_nil _, .inl ⟨?_, ?_, ?_⟩⟩
    · exact hhead ▸ hzero
    · exact hhead ▸ hlinked
    · exact Traversal.stream_of_none (congrArg Pull.item hpull)
  · exact ⟨[], Nat.zero_le _, List.forall_mem_nil _, .inr ⟨_, stream_of_fault hpull⟩⟩
  · have hitem : (Traversal.pull target ring).item = some (.ok ⟨address, layout⟩) :=
      congrArg Pull.item hpull
    have hrest : (Traversal.pull target ring).rest =
        { ring with reached := some ⟨address, layout⟩, left := left } :=
      congrArg Pull.rest hpull
    obtain ⟨nodes, hlength, hnodes, hends⟩ :=
      stream_cases { ring with reached := some ⟨address, layout⟩, left := left } address htype rfl
    refine ⟨address :: nodes, ?_, List.forall_mem_cons.mpr ⟨⟨hzero, hhead⟩, hnodes⟩, ?_⟩
    · rw [List.length_cons, hleft]
      exact Nat.succ_le_succ hlength
    · rw [Traversal.stream_of_some hitem, hrest]
      rcases hends with ⟨hhead, hleads, hstream⟩ | ⟨fault, hstream⟩
      · exact .inl ⟨hhead, ⟨hlinked, hleads⟩, congrArg _ hstream⟩
      · exact .inr ⟨fault, congrArg _ hstream⟩
termination_by ring.left
decreasing_by omega

/-! ## 4. Traversals that end without a fault -/

theorem addresses_placesAt (layout : Layout) (addresses : List UInt64) :
    (placesAt layout addresses).map Value.address = addresses := by
  unfold placesAt
  rw [List.map_map]
  exact List.map_id addresses

/-- **Where a traversal ends without a fault there is a ring.** -/
theorem closes_of_stream {head : Value} {limit : Nat} {nodes : List Value}
    (htype : Value.PointerField target head.layout "next" head.layout)
    (h : Traversal.stream target (Ring.of head limit) = nodes.map .ok) :
    ∃ addresses, nodes = placesAt head.layout addresses ∧
      Closes target head.layout head.address addresses ∧ addresses.length ≤ limit := by
  obtain ⟨addresses, hlimit, hnodes, hends⟩ :=
    stream_cases (Ring.of head limit) head.address htype rfl
  rcases hends with ⟨hhead, hleads, hstream⟩ | ⟨fault, hstream⟩
  · have hsame := List.map_inj_right (fun _ _ => Except.ok.inj) |>.mp (h.symm.trans hstream)
    exact ⟨addresses, hsame, ⟨hhead, hnodes, hleads⟩, hlimit⟩
  · have hmem : (.error fault : Except Fault Value) ∈ nodes.map .ok := by
      rw [← h, hstream]
      exact List.mem_append_right _ List.mem_cons_self
    obtain ⟨node, -, hnode⟩ := List.mem_map.mp hmem
    cases hnode

/-- **A traversal that ends without a fault was at every node of a ring once.** From a head whose
    member `next` is a pointer to the type of the head itself, a traversal gives nodes and ends if
    and only if memory holds a ring of these nodes, no more of them than are allowed: the links lead
    from the head to the first node, from each node to the next one and from the last one back to
    the head (if there are no nodes, from the head to itself), and no node is null or the head. No
    two of the nodes are then the same. So where the links lead to a node for the second time before
    they lead to the head, a fault ends the traversal, however many nodes are allowed. -/
theorem completed_visits_once {target : Target} (head : Value)
    (htype : Value.PointerField target head.layout "next" head.layout) (limit : Nat) :
    (∀ nodes : List Value, Traversal.stream target (Ring.of head limit) = nodes.map .ok ↔
      ∃ addresses, nodes = placesAt head.layout addresses ∧
        Closes target head.layout head.address addresses ∧ addresses.length ≤ limit) ∧
    (∀ nodes : List Value, Traversal.stream target (Ring.of head limit) = nodes.map .ok →
      (nodes.map Value.address).Nodup) ∧
    ∀ path last, Leads target head.layout head.address path last → head.address ∉ path →
      last ∈ path → ∃ (nodes : List Value) (fault : Fault),
        Traversal.stream target (Ring.of head limit) = nodes.map .ok ++ [.error fault] := by
  refine ⟨fun nodes => ⟨closes_of_stream htype, ?_⟩, fun nodes hclean => ?_, ?_⟩
  · intro ⟨addresses, hnodes, hcloses, hlimit⟩
    rw [hnodes]
    exact stream_of_closes htype hcloses hlimit
  · obtain ⟨addresses, rfl, hcloses, -⟩ := closes_of_stream htype hclean
    rw [addresses_placesAt]
    exact hcloses.nodup
  · intro path last hpath hhead hlast
    obtain ⟨addresses, -, hnodes, hends⟩ := stream_cases (Ring.of head limit) head.address htype rfl
    rcases hends with ⟨hne, hleads, -⟩ | ⟨fault, hstream⟩
    · -- A ring would begin with the path and the node it comes back to.
      have hcloses : Closes target head.layout head.address addresses := ⟨hne, hnodes, hleads⟩
      have hstop : head.address ≠ last := fun hsame => hhead (hsame ▸ hlast)
      have hsub := (hcloses.leads.pathTo hpath hhead hstop).sublist
      have hnodup := hsub.nodup hcloses.nodup
      obtain ⟨-, -, honce⟩ := List.nodup_append.mp hnodup
      exact absurd rfl (honce last hlast last (List.mem_singleton_self last))
    · exact ⟨_, fault, hstream⟩

end Ring

/-! ## 5. A ring and a path that turns back -/

/-- The nodes of the teaching kernel, whatever its memory holds, are linked to nodes. -/
theorem Image.kernel_next (memory : Memory) :
    Value.PointerField (Image.view { Image.kernel with memory := memory })
      (kernelLayout "struct linked_list_node") "next" (kernelLayout "struct linked_list_node") :=
  ⟨⟨"next", 8, "struct linked_list_node *"⟩,
    .pointer "struct linked_list_node *" "struct linked_list_node", "struct linked_list_node",
    rfl, rfl, rfl, rfl⟩

/-- The teaching kernel with the head of a ring of two nodes at 0x1000, and at 0x4000 one whose
    links lead to a node, to the next one, and back to the first of these. -/
def turning : Target :=
  Image.view { Image.kernel with memory := ⟨[
    wordsAt 0x1000 [0, 0x2000], wordsAt 0x2000 [0, 0x3000], wordsAt 0x3000 [0, 0x1000],
    wordsAt 0x4000 [0, 0x5000], wordsAt 0x5000 [0, 0x6000], wordsAt 0x6000 [0, 0x5000]]⟩ }

/-- The ring just fits the limit; on the other path no limit is enough. -/
theorem Ring.completed_visits_once_turning :
    Traversal.stream turning (Ring.of ⟨0x1000, kernelLayout "struct linked_list_node"⟩ 2) =
        (placesAt (kernelLayout "struct linked_list_node") [0x2000, 0x3000]).map .ok ∧
      [(0x2000 : UInt64), 0x3000].Nodup ∧
      ∀ limit, ∃ (nodes : List Value) (fault : Fault),
        Traversal.stream turning (Ring.of ⟨0x4000, kernelLayout "struct linked_list_node"⟩ limit) =
          nodes.map .ok ++ [.error fault] := by
  have hring : Closes turning (kernelLayout "struct linked_list_node") 0x1000 [0x2000, 0x3000] :=
    ⟨by decide, by simp, rfl, rfl, rfl⟩
  obtain ⟨hgiven, honce, -⟩ := completed_visits_once
    ⟨0x1000, kernelLayout "struct linked_list_node"⟩ (Image.kernel_next _) 2
  have hclean := (hgiven _).mpr ⟨[0x2000, 0x3000], rfl, hring, by decide⟩
  refine ⟨hclean, honce _ hclean, fun limit => ?_⟩
  obtain ⟨-, -, hturns⟩ := completed_visits_once
    ⟨0x4000, kernelLayout "struct linked_list_node"⟩ (Image.kernel_next _) limit
  exact hturns [0x5000, 0x6000] 0x5000 ⟨rfl, rfl, rfl⟩ (by decide) (by decide)

end KernelProbe
