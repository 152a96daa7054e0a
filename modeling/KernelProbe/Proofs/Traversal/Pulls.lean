import KernelProbe.Traversal

/-!
# Pulls and streams

The stream of a traversal and the answers to single pulls are two views of the same items. The
stream unfolds by one pull at a time; after the end every pull gives none, whatever has become of
the kernel; and as long as the kernel stays the same, pulling often enough gives the stream.

* `Traversal.stream_of_none`, `Traversal.stream_of_some` -- one pull of a stream;
* `Traversal.result_fold` -- a fold as one over the stream;
* `Traversal.pulls_ended` -- the pulls after the end;
* `Traversal.pulls_keep` -- what every pull keeps, whatever the kernel is;
* `Traversal.items_pulls` -- the pulls under one kernel give the stream;
* `Traversal.pulls_eq_take` -- pulls by what a state has still to give.
-/

namespace KernelProbe

/-- A kernel of which nothing can be read. -/
def Target.blank : Target where
  register? _ := none
  memory? _ _ := none
  symbol? _ := none
  layout? _ := none

namespace Traversal

variable {σ α : Type} [Traversal σ α]

theorem stream_of_none {target : Target} {s : σ} (h : (pull target s).item = none) :
    stream target s = [] := by
  rw [stream]
  split
  · rfl
  · rename_i item hitem
    rw [h] at hitem
    cases hitem

theorem stream_of_some {target : Target} {s : σ} {item : Except Fault α}
    (h : (pull target s).item = some item) :
    stream target s = item :: stream target (pull target s).rest := by
  rw [stream]
  split
  · rename_i hitem
    rw [h] at hitem
    cases hitem
  · rename_i item' hitem
    rw [h] at hitem
    cases hitem
    rfl

/-- A stream begins with what the first pull gives. -/
theorem stream_eq_cons {target : Target} {s : σ} {item : Except Fault α}
    {items : List (Except Fault α)} (h : stream target s = item :: items) :
    (pull target s).item = some item ∧ stream target (pull target s).rest = items := by
  cases hitem : (pull target s).item with
  | none =>
    rw [stream_of_none hitem] at h
    cases h
  | some first =>
    rw [stream_of_some hitem] at h
    cases h
    exact ⟨rfl, rfl⟩

theorem stream_eq_nil {target : Target} {s : σ} (h : stream target s = []) :
    (pull target s).item = none := by
  cases hitem : (pull target s).item with
  | none => rfl
  | some first =>
    rw [stream_of_some hitem] at h
    cases h

/-- A traversal that only passes on what another one gives has the same stream. -/
theorem stream_lift {τ : Type} [Traversal τ α] {target : Target} (f : σ → τ)
    (hitem : ∀ s, (pull target (f s)).item = (pull target s).item)
    (hrest : ∀ s, (pull target (f s)).rest = f (pull target s).rest) (s : σ) :
    stream target (f s) = stream target s := by
  cases h : (pull target s).item with
  | none => rw [stream_of_none h, stream_of_none ((hitem s).trans h)]
  | some item =>
    rw [stream_of_some h, stream_of_some ((hitem s).trans h), hrest, stream_lift f hitem hrest]
termination_by bound s
decreasing_by exact bound_lt target s h

/-- The stream of a list is the list. -/
theorem stream_list (target : Target) (items : List (Except Fault α)) :
    stream target items = items := by
  induction items with
  | nil => exact stream_of_none rfl
  | cons item rest ih =>
    have hstream : stream target (item :: rest) = item :: stream target rest := stream_of_some rfl
    rw [hstream, ih]

/-- **A fold works through the stream**, as long as the fold's own steps succeed. -/
theorem result_fold (target : Target) {β : Type} (f : β → Except Fault α → Outcome β)
    (events : Array Event) (state : β) (s : σ) :
    (fold target f events state s).result =
      (stream target s).foldlM (fun state item => (f state item).result) state := by
  fun_induction fold target f events state s with
  | case1 events state s seen rest hpull =>
    rw [stream_of_none (by rw [hpull])]
    rfl
  | case2 events state s seen item rest hpull more fault hstep =>
    have hitem : (pull target s).item = some item := by rw [hpull]
    rw [stream_of_some hitem, List.foldlM_cons, hstep]
    rfl
  | case3 events state s seen item rest hpull more next hstep ih =>
    have hitem : (pull target s).item = some item := by rw [hpull]
    rw [stream_of_some hitem, List.foldlM_cons, hstep, ih, hpull]
    rfl

/-- Pulls never add to what is still to come. -/
theorem bound_after (targets : List Target) (s : σ) : bound (after targets s) ≤ bound s := by
  induction targets generalizing s with
  | nil => exact Nat.le_refl _
  | cons target later ih =>
    have hpull := bound_pull target s
    have hlater := ih (pull target s).rest
    rw [after]
    omega

/-- **Nothing comes after the end**, however the kernel changes. -/
theorem pulls_ended {s : σ} (h : bound s = 0) (targets : List Target) :
    pulls targets s = List.replicate targets.length none := by
  induction targets generalizing s with
  | nil => rfl
  | cons target later ih =>
    have hnone : (pull target s).item = none := item_eq_none h
    rw [pulls, hnone, ih (bound_end target s hnone)]
    rfl

/-- **Enough pulls under one kernel give the stream.** -/
theorem items_pulls (target : Target) {count : Nat} {s : σ} (h : bound s ≤ count) :
    (pulls (List.replicate count target) s).filterMap id = stream target s := by
  induction count generalizing s with
  | zero =>
    rw [stream_of_none (item_eq_none (Nat.le_zero.mp h))]
    rfl
  | succ count ih =>
    rw [List.replicate_succ, pulls]
    cases hitem : (pull target s).item with
    | none =>
      rw [stream_of_none hitem, pulls_ended (bound_end target s hitem)]
      simp
    | some item =>
      have hlt := bound_lt target s hitem
      rw [stream_of_some hitem, ← ih (show bound (pull target s).rest ≤ count by omega)]
      rfl

/-- **What every pull keeps** holds after all of them, and of the elements that they give. -/
theorem pulls_keep (Inv : σ → Prop) (P : α → Prop)
    (hkept : ∀ target s, Inv s → Inv (pull target s).rest)
    (hgiven : ∀ target s a, Inv s → (pull target s).item = some (.ok a) → P a)
    (targets : List Target) {s : σ} (h : Inv s) :
    Inv (after targets s) ∧ ∀ a, some (.ok a) ∈ pulls targets s → P a := by
  induction targets generalizing s with
  | nil => exact ⟨h, fun a hmem => absurd hmem List.not_mem_nil⟩
  | cons target later ih =>
    obtain ⟨hafter, hlater⟩ := ih (hkept target s h)
    refine ⟨hafter, fun a hmem => ?_⟩
    rcases List.mem_cons.mp hmem with hitem | hmem
    · exact hgiven target s a h hitem.symm
    · exact hlater a hmem

theorem after_append (targets later : List Target) (s : σ) :
    after (targets ++ later) s = after later (after targets s) := by
  induction targets generalizing s with
  | nil => rfl
  | cons target targets ih => exact ih (pull target s).rest

/-- The stream behind some pulls under the same kernel. -/
theorem stream_after (target : Target) (count : Nat) (s : σ) :
    stream target (after (List.replicate count target) s) = (stream target s).drop count := by
  induction count generalizing s with
  | zero => rfl
  | succ count ih =>
    rw [List.replicate_succ, after, ih]
    cases hitem : (pull target s).item with
    | none => rw [stream_of_none hitem, stream_of_none (item_eq_none (bound_end target s hitem)),
        List.drop_nil, List.drop_nil]
    | some item => rw [stream_of_some hitem, List.drop_succ_cons]

/-- **Pulls take the items that are still to come, then give none**: `items` tells what a state has
    still to give under the kernels of these pulls. -/
theorem pulls_eq_take (items : σ → List (Except Fault α)) {targets : List Target}
    (hnone : ∀ target ∈ targets, ∀ s, (pull target s).item = none → items s = [])
    (hsome : ∀ target ∈ targets, ∀ s item, (pull target s).item = some item →
      items s = item :: items (pull target s).rest)
    {count : Nat} (hcount : targets.length ≤ count) (s : σ) :
    pulls targets s = ((items s).map some ++ List.replicate count none).take targets.length := by
  induction targets generalizing s with
  | nil => rfl
  | cons target later ih =>
    rw [List.length_cons] at hcount
    rw [pulls]
    cases hitem : (pull target s).item with
    | none =>
      have hlater := pulls_ended (bound_end target s hitem) later
      rw [hlater, hnone target List.mem_cons_self s hitem, List.map_nil, List.nil_append,
        List.take_replicate, List.length_cons, Nat.min_eq_left hcount]
      rfl
    | some item =>
      rw [hsome target List.mem_cons_self s item hitem, List.map_cons, List.cons_append,
        List.length_cons, List.take_succ_cons]
      congr 1
      exact ih (fun other hmem => hnone other (List.mem_cons_of_mem _ hmem))
        (fun other hmem => hsome other (List.mem_cons_of_mem _ hmem)) (Nat.le_of_succ_le hcount) _

/-- **Pulls under one kernel give its stream, then none.** -/
theorem pulls_replicate (target : Target) (count : Nat) (s : σ) :
    pulls (List.replicate count target) s =
      ((stream target s).map some ++ List.replicate count none).take count := by
  have hlength : (List.replicate count target).length = count := List.length_replicate
  have hpulls := pulls_eq_take (stream target) (fun other hmem s hitem => ?_)
    (fun other hmem s item hitem => ?_) (Nat.le_of_eq hlength) s
  · rwa [hlength] at hpulls
  · obtain rfl := List.eq_of_mem_replicate hmem
    exact stream_of_none hitem
  · obtain rfl := List.eq_of_mem_replicate hmem
    exact stream_of_some hitem

end Traversal

end KernelProbe
