import KernelProbe.Paging.Walk

/-!
# Ranges of mapped memory

Neighbouring mappings are shown as one range where nothing tells them apart: the second begins
right after the first, in virtual and in physical addresses, with the same permission. A `Joining`
reads mappings from another traversal and gives such ranges. It holds one range back until it knows
that the next mapping does not go on from it.

A fault among the mappings is passed on, and the range held back is lost with it. After the last
mapping the range held back is given, and the source is asked again only for the end of the ranges,
where it still has nothing more to give, as is the law for traversals.

* `Range.join?` -- two ranges as one, where they go on from each other;
* `Range.text` -- the line that shows a range;
* `Joining` -- the traversal of the ranges.
-/

namespace KernelProbe

open Text (hex)

/-- The virtual addresses from `start` to `last`, both included, on the physical ones from
    `physical` on, all with the same permission. -/
structure Range where
  start : VAddr
  last : VAddr
  physical : PAddr
  permission : Flags
  deriving DecidableEq

/-- A mapping as a range of its own. -/
def Mapping.range (mapping : Mapping) : Range :=
  ⟨mapping.start, mapping.last, mapping.physical, mapping.flags.permission⟩

namespace Range

/-- The number of bytes in a range. -/
def span (range : Range) : UInt64 :=
  range.last.bits - range.start.bits + 1

/-- The last physical address. -/
def physicalLast (range : Range) : PAddr :=
  ⟨range.physical.bits + (range.last.bits - range.start.bits)⟩

/-- Whether `next` goes on where `range` ends: with its virtual addresses, with its physical ones,
    and with the same permission. -/
def goesOn (range next : Range) : Bool :=
  advance? range.last.bits 1 = some next.start.bits ∧ range.permission = next.permission ∧
    advance? range.physical.bits range.span.toNat = some next.physical.bits

/-- One range for two, if the second goes on where the first ends. -/
def join? (range next : Range) : Option Range :=
  if range.goesOn next then some { range with last := next.last } else none

/-- A range as a line: the virtual addresses, the physical ones, and the permission. -/
def text (range : Range) : String :=
  hex range.start.bits ++ "-" ++ hex range.last.bits ++ " => " ++ hex range.physical.bits ++ "-" ++
    hex range.physicalLast.bits ++ " (" ++ range.permission.privilege ++ ")"

end Range

/-- The ranges of the mappings that another traversal gives, with the range held back. -/
structure Joining (σ : Type) where
  source : σ
  held : Option Range

/-- The ranges of all mappings that `source` gives. -/
def Joining.of {σ : Type} (source : σ) : Joining σ :=
  ⟨source, none⟩

namespace Joining

variable {σ : Type} [Traversal σ Mapping]

/-- Takes mappings from the source as long as they go on from the range held back. -/
def gather (target : Target) (events : Array Event) (held : Option Range) (source : σ) :
    Pull (Joining σ) Range :=
  match _pulled : Traversal.pull target source with
  | ⟨seen, none, rest⟩ => ⟨events ++ seen, held.map .ok, ⟨rest, none⟩⟩
  | ⟨seen, some (.error fault), rest⟩ => ⟨events ++ seen, some (.error fault), ⟨rest, none⟩⟩
  | ⟨seen, some (.ok mapping), rest⟩ =>
    match held with
    | none => gather target (events ++ seen) (some mapping.range) rest
    | some range =>
      match range.join? mapping.range with
      | some joined => gather target (events ++ seen) (some joined) rest
      | none => ⟨events ++ seen, some (.ok range), ⟨rest, some mapping.range⟩⟩
termination_by Traversal.bound source
decreasing_by
  all_goals
    have hlt := Traversal.bound_lt target source (congrArg Pull.item _pulled)
    rwa [_pulled] at hlt

/-- At most so many ranges are still to come: one for each mapping, and the one held back. -/
def bound (joining : Joining σ) : Nat :=
  Traversal.bound joining.source + joining.held.toList.length

theorem bound_gather (target : Target) (events : Array Event) (held : Option Range) (source : σ) :
    bound (gather target events held source).rest +
        (gather target events held source).item.toList.length ≤
      Traversal.bound source + held.toList.length := by
  fun_induction gather target events held source with
  | case1 events held source seen rest hpull =>
    have h := Traversal.bound_pull target source
    rw [hpull] at h
    cases held <;> simp [bound] at h ⊢ <;> omega
  | case2 events held source seen fault rest hpull =>
    have h := Traversal.bound_pull target source
    rw [hpull] at h
    simp [bound] at h ⊢
    omega
  | case3 events source seen mapping rest hpull ih =>
    have h := Traversal.bound_pull target source
    rw [hpull] at h
    simp at h ih ⊢
    omega
  | case4 events source seen mapping rest hpull range joined hjoin ih =>
    have h := Traversal.bound_pull target source
    rw [hpull] at h
    simp at h ih ⊢
    omega
  | case5 events source seen mapping rest hpull range hjoin =>
    have h := Traversal.bound_pull target source
    rw [hpull] at h
    simp [bound] at h ⊢
    omega

theorem bound_gather_end (target : Target) (events : Array Event) (held : Option Range) (source : σ)
    (h : (gather target events held source).item = none) :
    bound (gather target events held source).rest = 0 := by
  fun_induction gather target events held source with
  | case1 events held source seen rest hpull =>
    have hend := Traversal.bound_end target source (by rw [hpull])
    rw [hpull] at hend
    simpa [bound] using hend
  | case2 => simp at h
  | case3 _ _ _ _ _ _ ih => exact ih h
  | case4 _ _ _ _ _ _ _ _ _ ih => exact ih h
  | case5 => simp at h

end Joining

instance {σ : Type} [Traversal σ Mapping] : Traversal (Joining σ) Range where
  pull target joining := Joining.gather target #[] joining.held joining.source
  bound := Joining.bound
  bound_pull target joining := Joining.bound_gather target #[] joining.held joining.source
  bound_end target joining h := Joining.bound_gather_end target #[] joining.held joining.source h

end KernelProbe
