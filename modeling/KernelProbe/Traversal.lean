import KernelProbe.Event

/-!
# Traversals

A traversal reads a structure of a stopped kernel piece by piece. It is a value that is pulled: one
pull looks at the kernel as it is at that moment and gives the next item, or none at the end, and
the traversal to go on with. An item is an element or a fault. Between two pulls the kernel may
change in any way.

However the kernel changes, a traversal ends: each has a bound on the items still to come, which
falls with every item and is zero after the end (`Traversal.bound`). So the end is for good, and a
traversal over another one can pull on without a note that the other one has ended. A source that
gives none and later gives items again is no traversal.

* `Traversal` -- the class of traversals;
* `Traversal.stream` -- all items under a kernel that does not change;
* `Traversal.pulls` -- the items under a kernel that changes between the pulls;
* `Traversal.fold` -- works through the items and stops at the first fault that matters.
-/

namespace KernelProbe

/-- What one pull gives: the events on the way, the item, and the traversal to go on with. -/
structure Pull (σ α : Type) where
  events : Array Event
  item : Option (Except Fault α)
  rest : σ

/-- The states of a traversal with elements in `α`. Its laws make the first end the last word: after
    it, pulls give none under whatever kernels (`Traversal.item_eq_none`). -/
class Traversal (σ : Type) (α : outParam Type) where
  /-- Gives the next item; none at the end. -/
  pull : Target → σ → Pull σ α
  /-- At most so many items are still to come. -/
  bound : σ → Nat
  /-- An item uses up a part of the bound. -/
  bound_pull : ∀ target s,
    bound (pull target s).rest + (pull target s).item.toList.length ≤ bound s
  /-- After the end nothing more comes. -/
  bound_end : ∀ target s, (pull target s).item = none → bound (pull target s).rest = 0

namespace Traversal

variable {σ α β : Type} [Traversal σ α]

theorem bound_lt (target : Target) (s : σ) {item : Except Fault α}
    (h : (pull target s).item = some item) : bound (pull target s).rest < bound s := by
  have := bound_pull target s
  rw [h] at this
  exact this

/-- A traversal with nothing to come is at its end. -/
theorem item_eq_none {target : Target} {s : σ} (h : bound s = 0) :
    (pull target s).item = none := by
  have := bound_pull target s
  rw [h] at this
  cases hitem : (pull target s).item with
  | none => rfl
  | some item => simp [hitem] at this

/-- All items that come while the kernel does not change. -/
def stream (target : Target) (s : σ) : List (Except Fault α) :=
  match _item : (pull target s).item with
  | none => []
  | some item => item :: stream target (pull target s).rest
termination_by bound s
decreasing_by exact bound_lt target s _item

/-- What the pulls give when the kernel is another one at each of them. -/
def pulls : List Target → σ → List (Option (Except Fault α))
  | [], _ => []
  | target :: later, s => (pull target s).item :: pulls later (pull target s).rest

/-- The traversal after pulls under these kernels. -/
def after : List Target → σ → σ
  | [], s => s
  | target :: later, s => after later (pull target s).rest

/-- Hands the items to `f` in order, up to the end or to a fault of `f`. The events of the pulls and
    of `f` are appended to `events`. -/
def fold (target : Target) (f : β → Except Fault α → Outcome β) (events : Array Event)
    (state : β) (s : σ) : Outcome β :=
  match _pulled : pull target s with
  | ⟨seen, none, _⟩ => ⟨events ++ seen, .ok state⟩
  | ⟨seen, some item, rest⟩ =>
    match f state item with
    | ⟨more, .error fault⟩ => ⟨events ++ seen ++ more, .error fault⟩
    | ⟨more, .ok state⟩ => fold target f (events ++ seen ++ more) state rest
termination_by bound s
decreasing_by
  have hlt := bound_lt target s (congrArg Pull.item _pulled)
  rwa [_pulled] at hlt

end Traversal

/-- A list of items is a traversal that reads nothing. -/
instance {α : Type} : Traversal (List (Except Fault α)) α where
  pull _ items :=
    match items with
    | [] => ⟨#[], none, []⟩
    | item :: rest => ⟨#[], some item, rest⟩
  bound items := items.length
  bound_pull _ items := by cases items <;> simp
  bound_end _ items h := by cases items <;> simp_all

end KernelProbe
