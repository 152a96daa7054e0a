import KernelProbe.Allocator.Survey
import KernelProbe.Proofs.Value.Pointers
import Mathlib.Data.UInt

/-!
# Chains of descriptors

A slot of the directory is a pointer, and so is the member `next` of every descriptor; a chain is
what these pointers lead to, one after the other, each descriptor with a count of blocks in use. A
survey that may visit a limited number of descriptors stops at the first thing that is not one more
of them: at a null pointer; at a pointer, a count or a member that cannot be read; or at a
descriptor that is one too many. The pointer behind the last allowed descriptor is followed before
the descriptors are counted, so it may still end the chain well, and if it cannot be followed that
is what is told.

* `Link`, `ChainTo` -- descriptors one after the other;
* `ChainEnds` -- how a chain ends, for a survey that may visit so many descriptors;
* `countsFrom` -- the counts that a survey adds up, `countsFrom_eq_iff` -- by the ending of the
  chain;
* `surveyChain_eq` -- the survey of a chain adds up these counts.
-/

namespace KernelProbe

variable {target : Target} {slot pointer descriptor next last : Value} {items : UInt64}
  {counts more : List UInt64} {limit left : Nat} {fault : Fault}

/-! ## 1. Descriptors one after the other -/

/-- **One link of a chain**: a pointer leads to a descriptor, which counts so many blocks in use,
    and whose member `next` is the pointer to go on with. -/
structure Link (target : Target) (pointer descriptor : Value) (items : UInt64)
    (next : Value) : Prop where
  leads : pointer.LeadsTo target descriptor
  items : descriptor.Holds target "refcnt" items
  next : descriptor.Member target "next" next

/-- **A chain that goes on** from a pointer over descriptors with these counts to a last pointer,
    of which nothing is said. -/
inductive ChainTo (target : Target) : Value → List UInt64 → Value → Prop where
  | here (pointer : Value) : ChainTo target pointer [] pointer
  | on {pointer descriptor next last : Value} {items : UInt64} {counts : List UInt64}
    (hlink : Link target pointer descriptor items next) (h : ChainTo target next counts last) :
    ChainTo target pointer (items :: counts) last

/-- A link leads to one descriptor, one count and one pointer. -/
theorem Link.unique {descriptor' next' : Value} {items' : UInt64}
    (h : Link target pointer descriptor items next)
    (h' : Link target pointer descriptor' items' next') :
    descriptor = descriptor' ∧ items = items' ∧ next = next' := by
  obtain rfl := h.leads.unique h'.leads
  have hitems := (Value.fieldWord_eq_ok.mpr h.items).symm.trans (Value.fieldWord_eq_ok.mpr h'.items)
  have hnext := (Value.field_eq_ok_iff_member.mpr h.next).symm.trans
    (Value.field_eq_ok_iff_member.mpr h'.next)
  exact ⟨rfl, Except.ok.inj hitems, Except.ok.inj hnext⟩

theorem ChainTo.append (h : ChainTo target pointer counts next)
    (hmore : ChainTo target next more last) : ChainTo target pointer (counts ++ more) last := by
  induction h with
  | here pointer => exact hmore
  | on hlink h ih => exact .on hlink (ih hmore)

/-- A chain can be cut behind any of its descriptors. -/
theorem ChainTo.split (h : ChainTo target pointer counts last) {count : Nat}
    (hcount : count ≤ counts.length) :
    ∃ middle, ChainTo target pointer (counts.take count) middle ∧
      ChainTo target middle (counts.drop count) last := by
  induction h generalizing count with
  | here pointer =>
    rw [List.take_nil, List.drop_nil]
    exact ⟨pointer, .here pointer, .here pointer⟩
  | on hlink h ih =>
    cases count with
    | zero => exact ⟨_, .here _, .on hlink h⟩
    | succ count =>
      obtain ⟨middle, hbefore, hafter⟩ := ih (Nat.le_of_succ_le_succ hcount)
      exact ⟨middle, .on hlink hbefore, hafter⟩

/-! ## 2. How a chain ends -/

/-- **How the chain from a pointer ends** for a survey that may visit `left` more descriptors: with
    the counts of the descriptors, or with a fault. A chain that is too long is told by the number
    in the slot that it begins at, and by the limit. -/
inductive ChainEnds (target : Target) (slot : Value) (limit left : Nat) (pointer : Value) :
    Except Fault (List UInt64) → Prop where
  /-- Within the limit there is a null pointer. -/
  | null {counts : List UInt64} {last : Value} (h : ChainTo target pointer counts last)
    (hlength : counts.length ≤ left) (hlast : last.IsNull target) :
    ChainEnds target slot limit left pointer (.ok counts)
  /-- Behind the limit there is one more descriptor. -/
  | tooLong {counts : List UInt64} {last descriptor : Value} {head : UInt64}
    (h : ChainTo target pointer counts last) (hlength : counts.length = left)
    (hlast : last.LeadsTo target descriptor) (hhead : slot.Contains target head) :
    ChainEnds target slot limit left pointer (.error (.chainTooLong head limit))
  /-- Within the limit there is a pointer that cannot be followed. -/
  | pointer {counts : List UInt64} {last : Value} {fault : Fault}
    (h : ChainTo target pointer counts last) (hlength : counts.length ≤ left)
    (hlast : last.follow target = .error fault) :
    ChainEnds target slot limit left pointer (.error fault)
  /-- Within the limit there is a descriptor whose count cannot be read. -/
  | count {counts : List UInt64} {last descriptor : Value} {fault : Fault}
    (h : ChainTo target pointer counts last) (hlength : counts.length < left)
    (hlast : last.LeadsTo target descriptor)
    (hcount : descriptor.fieldWord target "refcnt" = .error fault) :
    ChainEnds target slot limit left pointer (.error fault)
  /-- Within the limit there is a descriptor whose count can be read and that has no link. -/
  | member {counts : List UInt64} {last descriptor : Value} {items : UInt64} {fault : Fault}
    (h : ChainTo target pointer counts last) (hlength : counts.length < left)
    (hlast : last.LeadsTo target descriptor) (hcount : descriptor.Holds target "refcnt" items)
    (hmember : descriptor.field target "next" = .error fault) :
    ChainEnds target slot limit left pointer (.error fault)

/-- A chain ends as it does behind its first link. -/
theorem ChainEnds.on {answer : Except Fault (List UInt64)}
    (hlink : Link target pointer descriptor items next)
    (h : ChainEnds target slot limit left next answer) :
    ChainEnds target slot limit (left + 1) pointer (answer.map (items :: ·)) := by
  cases h with
  | null h hlength hlast => exact .null (.on hlink h) (Nat.succ_le_succ hlength) hlast
  | tooLong h hlength hlast hhead =>
    exact .tooLong (.on hlink h) (congrArg Nat.succ hlength) hlast hhead
  | pointer h hlength hlast => exact .pointer (.on hlink h) (Nat.succ_le_succ hlength) hlast
  | count h hlength hlast hcount =>
    exact .count (.on hlink h) (Nat.succ_lt_succ hlength) hlast hcount
  | member h hlength hlast hcount hmember =>
    exact .member (.on hlink h) (Nat.succ_lt_succ hlength) hlast hcount hmember

/-! ## 3. The counts along a chain -/

/-- **The counts that a survey adds up** from a pointer on, if it may visit `left` more
    descriptors. -/
def countsFrom (target : Target) (slot : Value) (limit : Nat) :
    (left : Nat) → (pointer : Value) → Except Fault (List UInt64)
  | 0, pointer => do
    match ← pointer.follow target with
    | none => return []
    | some _ => throw (.chainTooLong (← slot.word target) limit)
  | left + 1, pointer => do
    match ← pointer.follow target with
    | none => return []
    | some descriptor =>
      let items ← descriptor.fieldWord target "refcnt"
      let next ← descriptor.field target "next"
      return items :: (← countsFrom target slot limit left next)

theorem countsFrom_of_follow_error (h : pointer.follow target = .error fault) :
    countsFrom target slot limit left pointer = .error fault := by
  cases left <;> simp only [countsFrom, h] <;> rfl

theorem countsFrom_of_null (h : pointer.IsNull target) :
    countsFrom target slot limit left pointer = .ok [] := by
  rw [← Value.follow_eq_none_iff_isNull] at h
  cases left <;> simp only [countsFrom, h] <;> rfl

theorem countsFrom_of_spent (h : pointer.LeadsTo target descriptor) {head : UInt64}
    (hhead : slot.Contains target head) :
    countsFrom target slot limit 0 pointer = .error (.chainTooLong head limit) := by
  rw [← Value.follow_eq_some_iff_leadsTo] at h
  rw [← Value.word_eq_ok_iff_contains] at hhead
  simp only [countsFrom, h]
  show (slot.word target >>= fun head => _) = _
  rw [hhead]
  rfl

theorem countsFrom_of_leadsTo (h : pointer.LeadsTo target descriptor) :
    countsFrom target slot limit (left + 1) pointer = do
      let items ← descriptor.fieldWord target "refcnt"
      let next ← descriptor.field target "next"
      return items :: (← countsFrom target slot limit left next) := by
  rw [← Value.follow_eq_some_iff_leadsTo] at h
  simp only [countsFrom, h]
  rfl

theorem countsFrom_of_link (h : Link target pointer descriptor items next) :
    countsFrom target slot limit (left + 1) pointer =
      (countsFrom target slot limit left next).map (items :: ·) := by
  rw [countsFrom_of_leadsTo h.leads, Value.fieldWord_eq_ok.mpr h.items]
  show (descriptor.field target "next" >>= fun next => _) = _
  rw [Value.field_eq_ok_iff_member.mpr h.next]
  rfl

/-- **As long as a chain goes on** its counts are taken. -/
theorem countsFrom_of_chainTo (h : ChainTo target pointer counts last) (left : Nat) :
    countsFrom target slot limit (counts.length + left) pointer =
      (countsFrom target slot limit left last).map (counts ++ ·) := by
  induction h with
  | here pointer =>
    rw [List.length_nil, Nat.zero_add]
    cases countsFrom target slot limit left pointer <;> rfl
  | on hlink h ih =>
    rw [List.length_cons, Nat.succ_add, countsFrom_of_link hlink, ih]
    cases countsFrom target slot limit left _ <;> rfl

/-- **The counts by the ending of the chain.** -/
theorem countsFrom_of_ends {answer : Except Fault (List UInt64)}
    (h : ChainEnds target slot limit left pointer answer) :
    countsFrom target slot limit left pointer = answer := by
  -- The survey comes to the last pointer with what is left over after the descriptors before.
  have hreach : ∀ {counts last}, ChainTo target pointer counts last → counts.length ≤ left →
      countsFrom target slot limit left pointer =
        (countsFrom target slot limit (left - counts.length) last).map (counts ++ ·) := by
    intro counts last h hlength
    rw [← countsFrom_of_chainTo h, Nat.add_sub_cancel' hlength]
  cases h with
  | null h hlength hlast =>
    rw [hreach h hlength, countsFrom_of_null hlast, Except.map, List.append_nil]
  | tooLong h hlength hlast hhead =>
    rw [hreach h (Nat.le_of_eq hlength), hlength, Nat.sub_self, countsFrom_of_spent hlast hhead]
    rfl
  | pointer h hlength hlast =>
    rw [hreach h hlength, countsFrom_of_follow_error hlast]
    rfl
  | count h hlength hlast hcount =>
    rw [hreach h (Nat.le_of_lt hlength), ← Nat.succ_pred_eq_of_pos (Nat.sub_pos_of_lt hlength),
      countsFrom_of_leadsTo hlast, hcount]
    rfl
  | member h hlength hlast hcount hmember =>
    rw [hreach h (Nat.le_of_lt hlength), ← Nat.succ_pred_eq_of_pos (Nat.sub_pos_of_lt hlength),
      countsFrom_of_leadsTo hlast, Value.fieldWord_eq_ok.mpr hcount, hmember]
    rfl

/-- From a slot that can be read every chain ends in one of these ways. -/
theorem exists_ends {head : UInt64} (hhead : slot.Contains target head) (limit left : Nat)
    (pointer : Value) : ∃ answer, ChainEnds target slot limit left pointer answer := by
  cases hfollow : pointer.follow target with
  | error fault => exact ⟨_, .pointer (.here pointer) (Nat.zero_le left) hfollow⟩
  | ok followed =>
    cases followed with
    | none =>
      have hnull := Value.follow_eq_none_iff_isNull.mp hfollow
      exact ⟨_, .null (.here pointer) (Nat.zero_le left) hnull⟩
    | some descriptor =>
      have hleads := Value.follow_eq_some_iff_leadsTo.mp hfollow
      cases left with
      | zero => exact ⟨_, .tooLong (.here pointer) rfl hleads hhead⟩
      | succ left =>
        cases hcount : descriptor.fieldWord target "refcnt" with
        | error fault => exact ⟨_, .count (.here pointer) (Nat.succ_pos left) hleads hcount⟩
        | ok items =>
          have hitems := Value.fieldWord_eq_ok.mp hcount
          cases hmember : descriptor.field target "next" with
          | error fault =>
            exact ⟨_, .member (.here pointer) (Nat.succ_pos left) hleads hitems hmember⟩
          | ok next =>
            obtain ⟨answer, h⟩ := exists_ends hhead limit left next
            exact ⟨_, h.on ⟨hleads, hitems, Value.field_eq_ok_iff_member.mp hmember⟩⟩
termination_by left

/-- **What a survey finds along the chain of a slot** is told by the ending of the chain. -/
theorem countsFrom_eq_iff {answer : Except Fault (List UInt64)} :
    countsFrom target slot limit left slot = answer ↔
      ChainEnds target slot limit left slot answer := by
  refine ⟨fun hanswer => ?_, countsFrom_of_ends⟩
  cases hfollow : slot.follow target with
  | error fault =>
    rw [countsFrom_of_follow_error hfollow] at hanswer
    exact hanswer ▸ .pointer (.here slot) (Nat.zero_le left) hfollow
  | ok followed =>
    -- A pointer that can be followed can be read.
    have hhead : ∃ head, slot.Contains target head := by
      cases followed with
      | none => exact ⟨0, (Value.follow_eq_none_iff_isNull.mp hfollow).2⟩
      | some descriptor => exact ⟨_, (Value.follow_eq_some_iff_leadsTo.mp hfollow).contains⟩
    obtain ⟨head, hhead⟩ := hhead
    obtain ⟨answer', h⟩ := exists_ends hhead limit left slot
    rwa [← hanswer, countsFrom_of_ends h]

/-! ## 4. The survey of a chain -/

/-- What is in use with the descriptors of these counts added. -/
def Usage.plus (usage : Usage) (counts : List UInt64) : Usage :=
  { usage with items := usage.items + counts.sum, pages := usage.pages + .ofNat counts.length }

theorem Usage.plus_nil (usage : Usage) : usage.plus [] = usage := by
  simp [plus]

theorem Usage.plus_cons (usage : Usage) (items : UInt64) (counts : List UInt64) :
    usage.plus (items :: counts) =
      { usage with items := usage.items + items, pages := usage.pages + 1 }.plus counts := by
  simp only [plus, List.sum_cons, List.length_cons, Nat.add_comm _ 1, UInt64.ofNat_add,
    UInt64.add_assoc]
  rfl

/-- **The survey of a chain adds up its counts**, one page for each. -/
theorem surveyChain_eq (target : Target) (slot : Value) (limit left : Nat) (usage : Usage)
    (pointer : Value) :
    (pointer.follow target >>= fun first => surveyChain target slot limit left first usage) =
      (countsFrom target slot limit left pointer).map usage.plus := by
  cases hfollow : pointer.follow target with
  | error fault =>
    rw [countsFrom_of_follow_error hfollow]
    rfl
  | ok followed =>
    cases followed with
    | none =>
      rw [countsFrom_of_null (Value.follow_eq_none_iff_isNull.mp hfollow), Except.map,
        usage.plus_nil]
      cases left <;> rfl
    | some descriptor =>
      cases left with
      | zero =>
        simp only [countsFrom, hfollow]
        show (slot.word target >>= fun head => _) =
          Except.map _ (slot.word target >>= fun head => _)
        cases slot.word target <;> rfl
      | succ left =>
        rw [countsFrom_of_leadsTo (Value.follow_eq_some_iff_leadsTo.mp hfollow)]
        show (descriptor.fieldWord target "refcnt" >>= fun items => _) = _
        cases descriptor.fieldWord target "refcnt" with
        | error fault => rfl
        | ok items =>
          show (descriptor.field target "next" >>= fun next => _) = _
          cases descriptor.field target "next" with
          | error fault => rfl
          | ok next =>
            refine (surveyChain_eq target slot limit left _ next).trans ?_
            show _ = (countsFrom target slot limit left next >>= fun counts => _).map usage.plus
            cases countsFrom target slot limit left next with
            | error fault => rfl
            | ok counts => exact congrArg Except.ok (usage.plus_cons items counts).symm
termination_by left

end KernelProbe
