import KernelProbe.Proofs.Intrusive.Circuits
import Mathlib.Algebra.Order.BigOperators.Group.List
import Mathlib.Algebra.Order.Ring.Nat

/-!
# Traversals of containers that change

Between two pulls the kernel may change in any way, so no bound on a traversal can come from what
memory holds. It comes from the counts that the traversals keep themselves: a ring gives no more
nodes than are allowed, and a sweep opens each bucket once, by rising index, and gives of each no
more hash nodes than its ring may have. A link of the wrong type takes the place of a hash node;
every other fault is the last item.

To tell which bucket an item is from, the buckets that a pull opens are noted beside what it gives.
The deeds of a run of pulls are then the openings and the items in their order.

* `Concludes` -- items, at most one fault, then nothing;
* `Ring.pulls_conclude` -- all pulls of a ring;
* `Sweep.pullNoted`, `Sweep.deeds` -- the buckets that pulls open, and what they give;
* `Sweep.Course`, `Sweep.course_pulls` -- what a sweep can do, deed by deed;
* `traversals_stay_bounded` -- rings and sweeps under a kernel that changes.
-/

namespace KernelProbe

/-! ## 1. Rings -/

/-- **A link that cannot be followed** never gives a fault of type. -/
theorem Ring.breaks_of_link {α : Type} {target : Target} {value : Value} {fault : Fault}
    (h : Ring.link target value = .error fault) :
    breaks (.error fault : Except Fault α) = true := by
  rcases bind_eq_error.mp h with hfield | ⟨place, -, h⟩
  · exact breaks_of_ofPlace (Value.ofPlace_of_field hfield)
  · rcases bind_eq_error.mp h with hfollow | ⟨next, -, h⟩
    · exact breaks_of_ofPlace (Value.ofPlace_of_follow hfollow)
    · rw [(demand_eq_error.mp h).2]
      rfl

/-- **Answers to pulls that come to an end**: items, then at most one fault, then nothing. -/
def Concludes {α : Type} (items : List (Except Fault α)) (stop : Option Fault)
    (answers : List (Option (Except Fault α))) : Prop :=
  ∃ count, answers =
    items.map some ++ stop.toList.map (some ∘ .error) ++ List.replicate count none

namespace Concludes

variable {α : Type} {items : List (Except Fault α)} {stop : Option Fault}
  {answers : List (Option (Except Fault α))}

theorem nothing (count : Nat) :
    Concludes ([] : List (Except Fault α)) none (List.replicate count none) :=
  ⟨count, rfl⟩

theorem fault (fault : Fault) (count : Nat) :
    Concludes ([] : List (Except Fault α)) (some fault)
      (some (.error fault) :: List.replicate count none) :=
  ⟨count, rfl⟩

theorem cons (item : Except Fault α) (h : Concludes items stop answers) :
    Concludes (item :: items) stop (some item :: answers) := by
  obtain ⟨count, rfl⟩ := h
  exact ⟨count, rfl⟩

end Concludes

namespace Ring

/-- **All pulls of a ring**, with a kernel of its own at each. -/
theorem pulls_conclude (targets : List Target) (ring : Ring) :
    ∃ (nodes : List Value) (stop : Option Fault),
      Concludes (nodes.map .ok) stop (Traversal.pulls targets ring) ∧
      nodes.length ≤ ring.left ∧ ∀ node ∈ nodes, node.address ≠ ring.head := by
  induction targets generalizing ring with
  | nil => exact ⟨[], none, .nothing 0, Nat.zero_le _, List.forall_mem_nil _⟩
  | cons target later ih =>
    have hclosed : Traversal.pulls later ring.closed = List.replicate later.length none :=
      Traversal.pulls_ended rfl later
    cases hreached : ring.reached with
    | none =>
      have hbound : Traversal.bound ring = 0 := by
        show ring.bound = 0
        rw [bound, hreached]
        rfl
      rw [Traversal.pulls_ended hbound]
      exact ⟨[], none, .nothing _, Nat.zero_le _, List.forall_mem_nil _⟩
    | some node =>
      show ∃ (nodes : List Value) (stop : Option Fault), Concludes (nodes.map .ok) stop
        ((ring.pull target).item :: Traversal.pulls later (ring.pull target).rest) ∧ _
      rcases pull_cases target hreached with ⟨fault, -, hpull⟩ | ⟨next, -, hcases⟩
      · rw [hpull, hclosed]
        exact ⟨[], some fault, .fault fault _, Nat.zero_le _, List.forall_mem_nil _⟩
      · rcases hcases with ⟨-, hpull⟩ | ⟨-, -, hpull⟩ | ⟨hhead, left, hleft, hpull⟩
        · rw [hpull, hclosed]
          exact ⟨[], none, .nothing (later.length + 1), Nat.zero_le _, List.forall_mem_nil _⟩
        · rw [hpull, hclosed]
          exact ⟨[], _, .fault _ _, Nat.zero_le _, List.forall_mem_nil _⟩
        · rw [hpull]
          obtain ⟨nodes, stop, hlater, hlength, hnodes⟩ :=
            ih { ring with reached := some next, left := left }
          refine ⟨next :: nodes, stop, hlater.cons _, ?_, List.forall_mem_cons.mpr ⟨hhead, hnodes⟩⟩
          rw [hleft]
          exact Nat.succ_le_succ hlength

end Ring

/-! ## 2. What a sweep does -/

namespace Sweep

variable {target : Target} {table : HashTable} {bucket : Nat}

/-- What a sweep does in the course of its pulls. -/
inductive Deed where
  /-- It opens a bucket, or attempts to. -/
  | opens (bucket : Nat)
  /-- It gives an item. -/
  | gives (item : Except Fault Value)

/-- Opens buckets from `bucket` on, and notes which. -/
def openNoted (target : Target) (table : HashTable) (bucket : Nat) : List Nat × Pull Sweep Value :=
  if bucket < table.length then
    match table.ring target bucket with
    | .error fault => ([bucket], ⟨#[], some (.error fault), closed table⟩)
    | .ok ring =>
      match ring.pull target with
      | ⟨_, some node, rest⟩ => ([bucket], give table (bucket + 1) node rest)
      | ⟨_, none, _⟩ =>
        let (opened, pull) := openNoted target table (bucket + 1)
        (bucket :: opened, pull)
  else ([], ⟨#[], none, closed table⟩)
termination_by table.length - bucket

/-- One pull, with the buckets that it opens. -/
def pullNoted (target : Target) (sweep : Sweep) : List Nat × Pull Sweep Value :=
  match sweep.ring with
  | none => openNoted target sweep.table sweep.bucket
  | some ring =>
    match ring.pull target with
    | ⟨_, some node, rest⟩ => ([], give sweep.table sweep.bucket node rest)
    | ⟨_, none, _⟩ => openNoted target sweep.table sweep.bucket

/-- What is noted by the way changes nothing. -/
theorem openNoted_snd (target : Target) (table : HashTable) (bucket : Nat) :
    (openNoted target table bucket).2 = openFrom target table bucket := by
  fun_induction openFrom target table bucket with
  | case1 bucket hlt fault hring => rw [openNoted, if_pos hlt, hring]
  | case2 bucket hlt ring hring seen node rest hpull =>
    rw [openNoted, if_pos hlt, hring]
    dsimp only
    rw [hpull]
  | case3 bucket hlt ring hring seen rest hpull ih =>
    rw [openNoted, if_pos hlt, hring]
    dsimp only
    rw [hpull]
    exact ih
  | case4 bucket hend => rw [openNoted, if_neg hend]

theorem pullNoted_snd (target : Target) (sweep : Sweep) :
    (pullNoted target sweep).2 = Traversal.pull target sweep := by
  obtain ⟨table, bucket, opened⟩ := sweep
  show _ = Sweep.pull target ⟨table, bucket, opened⟩
  unfold pullNoted Sweep.pull
  cases opened with
  | none => exact openNoted_snd target table bucket
  | some ring =>
    dsimp only
    rcases ring.pull target with ⟨seen, _ | node, rest⟩
    · exact openNoted_snd target table bucket
    · rfl

/-- **The deeds of a run of pulls**, with a kernel of its own at each. -/
def deeds : List Target → Sweep → List Deed
  | [], _ => []
  | target :: later, sweep =>
    (pullNoted target sweep).1.map .opens ++
      ((pullNoted target sweep).2.item.toList.map .gives ++
        deeds later (pullNoted target sweep).2.rest)

/-- **What a sweep can do** from a state on in which it opens `bucket` next and its open ring may
    give `allowed` more nodes: end; give a fault that is not one of type, and end; give another
    item of the open ring; or open the next bucket. The deeds, with the answers to the pulls. -/
inductive Course (table : HashTable) :
    (bucket allowed : Nat) → List Deed → List (Option (Except Fault Value)) → Prop where
  | ended (bucket allowed count : Nat) : Course table bucket allowed [] (List.replicate count none)
  | stops (bucket allowed : Nat) {fault : Fault}
      (hbreaks : breaks (.error fault : Except Fault Value) = true) (count : Nat) :
      Course table bucket allowed [.gives (.error fault)]
        (some (.error fault) :: List.replicate count none)
  | gives {bucket allowed : Nat} {item : Except Fault Value} {deeds : List Deed}
      {answers : List (Option (Except Fault Value))} (hgoesOn : breaks item = false)
      (h : Course table bucket allowed deeds answers) :
      Course table bucket (allowed + 1) (.gives item :: deeds) (some item :: answers)
  | opens {bucket : Nat} (allowed : Nat) {deeds : List Deed}
      {answers : List (Option (Except Fault Value))} (hlt : bucket < table.length)
      (h : Course table (bucket + 1) table.limit deeds answers) :
      Course table bucket allowed (.opens bucket :: deeds) answers

/-- How many nodes the open ring may still give. -/
def allowed (sweep : Sweep) : Nat :=
  (sweep.ring.map Ring.left).getD 0

/-- From this state on a sweep does what a sweep can do, with these kernels at the pulls. -/
def Proceeds (targets : List Target) (sweep : Sweep) : Prop :=
  Course sweep.table sweep.bucket sweep.allowed (deeds targets sweep)
    (Traversal.pulls targets sweep)

theorem pullNoted_closed (target : Target) (table : HashTable) :
    pullNoted target (closed table) = ([], ⟨#[], none, closed table⟩) := by
  show openNoted target table table.length = _
  rw [openNoted, if_neg (Nat.lt_irrefl _)]

theorem deeds_closed (targets : List Target) (table : HashTable) :
    deeds targets (closed table) = [] := by
  induction targets with
  | nil => rfl
  | cons target later ih =>
    rw [deeds, pullNoted_closed]
    exact ih

theorem pulls_closed (targets : List Target) (table : HashTable) :
    Traversal.pulls targets (closed table) = List.replicate targets.length none :=
  Traversal.pulls_ended (bound_closed table) targets

/-- The ring of a bucket that has just been opened may give as many nodes as are allowed. -/
theorem left_of_ring {ring : Ring} (h : table.ring target bucket = .ok ring) :
    ring.left = table.limit := by
  obtain ⟨address, -, h⟩ := bind_eq_ok.mp h
  obtain ⟨head, -, h⟩ := bind_eq_ok.mp h
  cases h
  rfl

section

variable {later : List Target}

/-- **A pull that gives a node** of the open ring, and what comes behind it. -/
theorem course_give
    (ih : ∀ sweep : Sweep, Proceeds later sweep)
    {ring : Ring} {seen : Array Event} {node : Except Fault Value} {rest : Ring}
    (hpull : ring.pull target = ⟨seen, some node, rest⟩) :
    Course table bucket ring.left
      ((give table bucket node rest).item.toList.map .gives ++
        deeds later (give table bucket node rest).rest)
      ((give table bucket node rest).item ::
        Traversal.pulls later (give table bucket node rest).rest) := by
  have hstops : ∀ fault : Fault, breaks (.error fault : Except Fault Value) = true →
      Course table bucket ring.left (.gives (.error fault) :: deeds later (closed table))
        (some (.error fault) :: Traversal.pulls later (closed table)) := by
    intro fault hbreaks
    rw [deeds_closed, pulls_closed]
    exact .stops _ _ hbreaks _
  cases hreached : ring.reached with
  | none =>
    rw [Ring.pull, hreached] at hpull
    cases hpull
  | some reached =>
    rcases Ring.pull_cases target hreached with ⟨fault, hlink, hfault⟩ | ⟨next, -, hcases⟩
    · rw [hfault] at hpull
      cases hpull
      have hbreaks := Ring.breaks_of_link (α := Value) hlink
      unfold give
      cases fault with
      | typeMismatch expected found => cases hbreaks
      | _ => exact hstops _ hbreaks
    · rcases hcases with ⟨-, hend⟩ | ⟨-, -, hfault⟩ | ⟨-, left, hleft, hnext⟩
      · rw [hend] at hpull
        cases hpull
      · rw [hfault] at hpull
        cases hpull
        exact hstops _ rfl
      · rw [hnext] at hpull
        cases hpull
        rw [hleft]
        let rest : Ring := { ring with reached := some next, left := left }
        have hon : ∀ item : Except Fault Value, breaks item = false →
            Course table bucket (left + 1) (.gives item :: deeds later ⟨table, bucket, some rest⟩)
              (some item :: Traversal.pulls later (⟨table, bucket, some rest⟩ : Sweep)) :=
          fun item hgoesOn => .gives hgoesOn (ih ⟨table, bucket, some rest⟩)
        rw [hleft] at hstops
        unfold give
        cases hgiven : (Except.ok next : Except Fault Value).bind table.chain.owner with
        | ok hashNode => exact hon _ rfl
        | error fault =>
          cases fault with
          | typeMismatch expected found => exact hon _ rfl
          | _ => exact hstops _ rfl

/-- **A pull that opens buckets**, and what comes behind it. -/
theorem course_open
    (ih : ∀ sweep : Sweep, Proceeds later sweep) (target : Target) (table : HashTable)
    (bucket allowed : Nat) :
    Course table bucket allowed
      ((openNoted target table bucket).1.map .opens ++
        ((openNoted target table bucket).2.item.toList.map .gives ++
          deeds later (openNoted target table bucket).2.rest))
      ((openNoted target table bucket).2.item ::
        Traversal.pulls later (openNoted target table bucket).2.rest) := by
  fun_induction openNoted target table bucket generalizing allowed with
  | case1 bucket hlt fault hring =>
    refine .opens _ hlt ?_
    show Course _ _ _ (.gives (.error fault) :: deeds later (closed table))
      (some (.error fault) :: Traversal.pulls later (closed table))
    rw [deeds_closed, pulls_closed]
    exact .stops _ _ (HashTable.breaks_of_ring hring) _
  | case2 bucket hlt ring hring seen node rest hpull =>
    refine .opens _ hlt ?_
    rw [← left_of_ring hring]
    exact course_give ih hpull
  | case3 bucket hlt ring hring seen rest hpull opened pull hopened ih' =>
    rw [hopened] at ih'
    exact .opens _ hlt (ih' table.limit)
  | case4 bucket hend =>
    show Course _ _ _ (deeds later (closed table)) (none :: Traversal.pulls later (closed table))
    rw [deeds_closed, pulls_closed]
    exact .ended _ _ (later.length + 1)

end

/-- **All pulls of a sweep**, with a kernel of its own at each, do what a sweep can do. -/
theorem course_pulls (targets : List Target) (sweep : Sweep) : Proceeds targets sweep := by
  induction targets generalizing sweep with
  | nil => exact .ended _ _ 0
  | cons target later ih =>
    rw [Proceeds, deeds, show Traversal.pulls (target :: later) sweep =
      (Traversal.pull target sweep).item :: Traversal.pulls later (Traversal.pull target sweep).rest
      from rfl, ← pullNoted_snd]
    obtain ⟨table, bucket, opened⟩ := sweep
    cases opened with
    | none => exact course_open ih target table bucket _
    | some ring =>
      unfold pullNoted
      dsimp only
      split
      next seen node rest hpull => exact course_give ih hpull
      next => exact course_open ih target table bucket _

/-! ## 3. What a sweep gives, bucket by bucket -/

/-- The deeds of opening buckets from one on and giving these items of each. -/
def openings : (bucket : Nat) → List (List (Except Fault Value)) → List Deed
  | _, [] => []
  | bucket, items :: later => .opens bucket :: (items.map .gives ++ openings (bucket + 1) later)

/-- **A sweep that does what it can** gives some more items of the open ring, opens the next buckets
    one by one and gives some items of each, and gives at most one fault. -/
theorem Course.buckets {allowed : Nat} {deeds : List Deed}
    {answers : List (Option (Except Fault Value))} (h : Course table bucket allowed deeds answers) :
    ∃ (items : List (Except Fault Value)) (buckets : List (List (Except Fault Value)))
      (stop : Option Fault),
      Concludes (items ++ buckets.flatten) stop answers ∧
      deeds = items.map .gives ++ (openings bucket buckets ++ stop.toList.map (.gives ∘ .error)) ∧
      buckets.length ≤ table.length - bucket ∧
      (items.length ≤ allowed ∧ ∀ item ∈ items, breaks item = false) ∧
      (∀ items ∈ buckets, items.length ≤ table.limit ∧ ∀ item ∈ items, breaks item = false) ∧
      ∀ fault ∈ stop, breaks (.error fault : Except Fault Value) = true := by
  induction h with
  | ended bucket allowed count =>
    exact ⟨[], [], none, .nothing count, rfl, Nat.zero_le _,
      ⟨Nat.zero_le _, List.forall_mem_nil _⟩, List.forall_mem_nil _, fun _ h => nomatch h⟩
  | stops bucket allowed hbreaks count =>
    refine ⟨[], [], _, .fault _ count, rfl, Nat.zero_le _,
      ⟨Nat.zero_le _, List.forall_mem_nil _⟩, List.forall_mem_nil _, fun fault hfault => ?_⟩
    cases hfault
    exact hbreaks
  | @gives bucket allowed item deeds answers hgoesOn h ih =>
    obtain ⟨items, buckets, stop, hanswers, hdeeds, hcount, ⟨hlength, hitems⟩, hbuckets, hstop⟩ :=
      ih
    exact ⟨item :: items, buckets, stop, hanswers.cons item, congrArg _ hdeeds, hcount,
      ⟨Nat.succ_le_succ hlength, List.forall_mem_cons.mpr ⟨hgoesOn, hitems⟩⟩, hbuckets, hstop⟩
  | @opens bucket allowed deeds answers hlt h ih =>
    -- What the opened bucket gives becomes the first of the lists.
    obtain ⟨items, buckets, stop, hanswers, hdeeds, hcount, hitems, hbuckets, hstop⟩ := ih
    refine ⟨[], items :: buckets, stop, hanswers, ?_, ?_, ⟨Nat.zero_le _, List.forall_mem_nil _⟩,
      List.forall_mem_cons.mpr ⟨hitems, hbuckets⟩, hstop⟩
    · rw [hdeeds, openings, List.map_nil, List.nil_append, List.cons_append, List.append_assoc]
    · rw [List.length_cons]
      omega

end Sweep

/-- Lists that are no longer than a bound hold together no more than so many times that. -/
theorem length_flatten_le {α : Type} {lists : List (List α)} {limit : Nat}
    (h : ∀ list ∈ lists, list.length ≤ limit) : lists.flatten.length ≤ lists.length * limit := by
  have hsum := List.sum_le_card_nsmul (lists.map List.length) limit (List.forall_mem_map.mpr h)
  rwa [List.length_map, Nat.nsmul_eq_mul, ← List.length_flatten] at hsum

/-! ## 4. Rings and sweeps under a kernel that changes -/

/-- **Traversals of containers stay bounded**, with a kernel of its own at each pull. A ring gives
    nodes, no more of them than are allowed and none at the address of the head, then at most one
    fault, then nothing. A sweep opens the buckets from the first one on, each once and in their
    order, and gives of each no more items than its ring may have nodes, hash nodes and faults of
    type; then at most one fault that is not one of type, then nothing. So all in all it gives no
    more items than that for each bucket, and the fault. The number of nodes that a ring may have
    is the one that the settings name. -/
theorem traversals_stay_bounded (targets : List Target) :
    (∀ (head : Value) (limit : Nat), ∃ (nodes : List Value) (stop : Option Fault),
      Concludes (nodes.map .ok) stop (Traversal.pulls targets (Ring.of head limit)) ∧
      nodes.length ≤ limit ∧ ∀ node ∈ nodes, node.address ≠ head.address) ∧
    (∀ target sweep, (Sweep.pullNoted target sweep).2 = Traversal.pull target sweep) ∧
    (∀ start config object table, HashTable.read start config object = .ok table →
      table.limit = config.maxChainNodes) ∧
    ∀ table : HashTable, ∃ (buckets : List (List (Except Fault Value))) (stop : Option Fault),
      Concludes buckets.flatten stop (Traversal.pulls targets (Sweep.of table)) ∧
      Sweep.deeds targets (Sweep.of table) =
        Sweep.openings 0 buckets ++ stop.toList.map (.gives ∘ .error) ∧
      buckets.length ≤ table.length ∧
      (∀ items ∈ buckets, items.length ≤ table.limit ∧ ∀ item ∈ items, breaks item = false) ∧
      (∀ fault ∈ stop, breaks (.error fault : Except Fault Value) = true) ∧
      buckets.flatten.length ≤ table.length * table.limit := by
  refine ⟨fun head limit => Ring.pulls_conclude targets (Ring.of head limit), Sweep.pullNoted_snd,
    fun start config object table hread => (HashTable.read_iff.mp hread).limit.symm,
    fun table => ?_⟩
  obtain ⟨items, buckets, stop, hanswers, hdeeds, hcount, ⟨hlength, -⟩, hbuckets, hstop⟩ :=
    (Sweep.course_pulls targets (Sweep.of table)).buckets
  -- Before the first bucket is opened there is no ring to give anything.
  obtain rfl : items = [] := List.eq_nil_of_length_eq_zero (Nat.le_zero.mp hlength)
  have hcount' : buckets.length ≤ table.length := hcount
  have hitems := length_flatten_le fun items hmem => (hbuckets items hmem).1
  exact ⟨buckets, stop, hanswers, hdeeds, hcount', hbuckets, hstop,
    Nat.le_trans hitems (Nat.mul_le_mul_right _ hcount')⟩

end KernelProbe
