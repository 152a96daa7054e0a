import KernelProbe.Paging.Dump
import KernelProbe.Proofs.Paging.DepthFirst
import KernelProbe.Proofs.Paging.Merging

/-!
# Page tables that agree

What is shown of an address space depends on the tables that the walk reads, and on nothing else in
memory. These are the tables that are met in depth-first order while all before them can be read;
the pages that leaves name are not among them. Two kernels that hold the same in each of these
tables give the same mappings, and the same fault if one of the tables cannot be read.

* `Walk.Reads` -- the tables that a walk reads;
* `Walk.stream_of_agree` -- kernels that agree on them give the same walk;
* `Range.lines_of_agree` -- and the same lines.
-/

namespace KernelProbe

namespace Walk

/-- **The tables that a walk reads**: those that are met with every table before them readable. -/
def Reads (target : Target) (root address : PAddr) : Prop :=
  ∃ before after, visits target tableLevels root ⟨0⟩ = before ++ .table address :: after ∧
    AllRead target before

/-- A walk reads only tables to which pointers lead from the root. -/
theorem Reads.reached {target : Target} {root address : PAddr} (h : Reads target root address) :
    ∃ level, Reached target root level address := by
  obtain ⟨before, after, hmet, -⟩ := h
  refine table_mem_visits.mp ?_
  rw [hmet]
  exact List.mem_append_right before List.mem_cons_self

variable {target target' : Target}

/-- **What is found depends on the tables met up to the first one that cannot be read.** -/
theorem Follows.items_eq {met others : List Visit}
    (h : Follows (fun address => Table.read target' address = Table.read target address) met others)
    (hagree : ∀ before address after, met = before ++ .table address :: after →
      AllRead target before → Table.read target' address = Table.read target address) :
    upToFault (others.filterMap (Visit.item? target')) =
      upToFault (met.filterMap (Visit.item? target)) := by
  induction h with
  | nil => rfl
  | leaf mapping _ ih =>
    refine congrArg (.ok mapping :: ·) (ih fun before address after hmet hbefore => ?_)
    exact hagree (.leaf mapping :: before) address after (hmet ▸ rfl) (hbefore.leaf mapping)
  | @table address met others _ ih =>
    have hhere := hagree [] address met rfl allRead_nil
    cases hread : Table.read target address with
    | error fault =>
      -- Both walks end here, whatever is met behind this table.
      rw [hread] at hhere
      simp only [List.filterMap_cons, Visit.item?, hread, hhere, upToFault]
    | ok table =>
      have hread' : Table.read target' address = .ok table := hhere.trans hread
      rw [List.filterMap_cons_none (by simp only [Visit.item?, hread']),
        List.filterMap_cons_none (by simp only [Visit.item?, hread])]
      refine ih hhere fun before next after hmet hbefore => ?_
      exact hagree (.table address :: before) next after (hmet ▸ rfl) (hbefore.table hread)

theorem stream_visits (target : Target) (root : PAddr) :
    Traversal.stream target (Walk.unread root) =
      upToFault ((visits target tableLevels root ⟨0⟩).filterMap (Visit.item? target)) := by
  rw [stream_eq, remaining, tree_eq]

/-- **Kernels that agree on the tables that are read give the same walk.** -/
theorem stream_of_agree {root : PAddr}
    (h : ∀ address, Reads target root address →
      Table.read target' address = Table.read target address) :
    Traversal.stream target' (Walk.unread root) = Traversal.stream target (Walk.unread root) := by
  rw [stream_visits, stream_visits]
  refine (visits_follow target target' tableLevels root ⟨0⟩).items_eq ?_
  intro before address after hmet hbefore
  exact h address ⟨before, after, hmet, hbefore⟩

end Walk

/-- A table is read from the bytes of its page. -/
theorem Table.read_of_page {target target' : Target} {address : PAddr}
    (h : target'.memory? address.bits pageSize = target.memory? address.bits pageSize) :
    Table.read target' address = Table.read target address := by
  unfold Table.read Target.memory
  rw [h]

/-- **Kernels that agree on the pages of the tables that are read show the same lines**, or fail
    with the same fault. -/
theorem Range.lines_of_agree {target target' : Target} {root : PAddr}
    (h : ∀ address, Walk.Reads target root address →
      target'.memory? address.bits pageSize = target.memory? address.bits pageSize) :
    (lines target' root).result = (lines target root).result := by
  have hwalk := Walk.stream_of_agree fun address hreads => Table.read_of_page (h address hreads)
  unfold lines
  rw [Traversal.result_fold, Traversal.result_fold, Joining.stream_eq, Joining.stream_eq]
  unfold Joining.of
  rw [hwalk]

end KernelProbe
