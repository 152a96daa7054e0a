import KernelProbe.Proofs.Intrusive.Places

/-!
# Answers in a row

An operation that works through a row of places one after the other succeeds if each of them has an
answer, and gives them all; else it gives the fault of the first one that has none.

* `FirstFault` -- the first fault in a row of answers;
* `mapM_eq_ok`, `mapM_eq_error` -- what working through a list gives;
* `vector_mapM_eq_ok`, `vector_mapM_eq_error` -- the same of a row of known length;
* `indicesFrom` -- indices one after the other.
-/

namespace KernelProbe

/-! ## 1. Answers -/

/-- **The first fault in a row of answers**: no answer before it is a fault. -/
def FirstFault {α : Type} (answers : List (Except Fault α)) (fault : Fault) : Prop :=
  ∃ (before : List α) (after : List (Except Fault α)),
    answers = before.map .ok ++ .error fault :: after

section

variable {α β : Type} {answers later : List (Except Fault α)} {answer : Except Fault α}
  {fault : Fault}

theorem not_firstFault_nil : ¬ FirstFault ([] : List (Except Fault α)) fault := by
  intro ⟨before, after, h⟩
  cases before <;> cases h

theorem firstFault_cons : FirstFault (answer :: answers) fault ↔
    answer = .error fault ∨ (∃ a, answer = .ok a) ∧ FirstFault answers fault := by
  constructor
  · intro ⟨before, after, h⟩
    cases before with
    | nil => exact .inl (List.cons.inj h).1
    | cons a before =>
      obtain ⟨hfirst, hrest⟩ := List.cons.inj h
      exact .inr ⟨⟨a, hfirst⟩, before, after, hrest⟩
  · intro h
    rcases h with h | ⟨⟨a, h⟩, before, after, hrest⟩
    · exact ⟨[], answers, by rw [h]; rfl⟩
    · exact ⟨a :: before, after, by rw [h, hrest]; rfl⟩

theorem FirstFault.mem (h : FirstFault answers fault) : .error fault ∈ answers := by
  obtain ⟨before, later, rfl⟩ := h
  simp

/-- Of two rows the second has the first fault only if the first one has none. -/
theorem firstFault_append : FirstFault (answers ++ later) fault ↔
    FirstFault answers fault ∨
      (∃ as : List α, answers = as.map .ok) ∧ FirstFault later fault := by
  induction answers with
  | nil =>
    constructor
    · intro h
      exact .inr ⟨⟨[], rfl⟩, h⟩
    · intro h
      rcases h with h | ⟨-, h⟩
      · exact absurd h not_firstFault_nil
      · exact h
  | cons answer answers ih =>
    rw [List.cons_append, firstFault_cons, firstFault_cons, ih]
    constructor
    · intro h
      rcases h with h | ⟨⟨a, h⟩, hrest | ⟨⟨as, hrest⟩, hlater⟩⟩
      · exact .inl (.inl h)
      · exact .inl (.inr ⟨⟨a, h⟩, hrest⟩)
      · exact .inr ⟨⟨a :: as, by rw [h, hrest]; rfl⟩, hlater⟩
    · intro h
      rcases h with (h | ⟨h, hrest⟩) | ⟨⟨as, has⟩, hlater⟩
      · exact .inl h
      · exact .inr ⟨h, .inl hrest⟩
      · cases as with
        | nil => cases has
        | cons a as =>
          obtain ⟨h, hrest⟩ := List.cons.inj has
          exact .inr ⟨⟨a, h⟩, .inr ⟨⟨as, hrest⟩, hlater⟩⟩

variable {f : α → Except Fault β} {as : List α}

theorem mapM_eq_ok {bs : List β} : as.mapM f = .ok bs ↔ as.map f = bs.map .ok := by
  induction as generalizing bs with
  | nil =>
    rw [List.mapM_nil, List.map_nil]
    cases bs with
    | nil => exact ⟨fun _ => rfl, fun _ => rfl⟩
    | cons b bs =>
      constructor
      · intro h
        cases h
      · intro h
        cases h
  | cons a as ih =>
    rw [List.mapM_cons, List.map_cons, bind_eq_ok]
    constructor
    · intro ⟨b, hb, h⟩
      obtain ⟨rest, hrest, h⟩ := bind_eq_ok.mp h
      cases h
      rw [hb, ih.mp hrest, List.map_cons]
    · intro h
      cases bs with
      | nil => cases h
      | cons b bs =>
        obtain ⟨hb, hrest⟩ := List.cons.inj h
        exact ⟨b, hb, bind_eq_ok.mpr ⟨bs, ih.mpr hrest, rfl⟩⟩

theorem mapM_eq_error : as.mapM f = .error fault ↔ FirstFault (as.map f) fault := by
  induction as with
  | nil =>
    constructor
    · intro h
      cases h
    · intro h
      exact absurd h not_firstFault_nil
  | cons a as ih =>
    rw [List.mapM_cons, List.map_cons, firstFault_cons, bind_eq_error]
    refine or_congr_right ⟨fun ⟨b, hb, h⟩ => ?_, fun ⟨⟨b, hb⟩, h⟩ => ⟨b, hb, ?_⟩⟩
    · rcases bind_eq_error.mp h with h | ⟨rest, -, h⟩
      · exact ⟨⟨b, hb⟩, ih.mp h⟩
      · cases h
    · exact bind_eq_error.mpr (.inl (ih.mpr h))

/-- Working through a list succeeds if every element has an answer. -/
theorem mapM_isOk : (∃ bs, as.mapM f = .ok bs) ↔ ∀ a ∈ as, ∃ b, f a = .ok b := by
  refine ⟨fun ⟨bs, h⟩ a ha => ?_, fun h => ?_⟩
  · have hmem := List.mem_map_of_mem (f := f) ha
    rw [mapM_eq_ok.mp h] at hmem
    obtain ⟨b, -, hb⟩ := List.mem_map.mp hmem
    exact ⟨b, hb.symm⟩
  · cases hrow : as.mapM f with
    | ok bs => exact ⟨bs, rfl⟩
    | error fault =>
      obtain ⟨a, ha, hfault⟩ := List.mem_map.mp (mapM_eq_error.mp hrow).mem
      obtain ⟨b, hb⟩ := h a ha
      cases hfault.symm.trans hb

/-- A row of known length is read as any row. -/
theorem toList_mapM {n : Nat} (as : Vector α n) :
    (as.mapM f).map Vector.toList = as.toList.mapM f := by
  have harray : Vector.toArray <$> as.mapM f = as.toArray.mapM f := Vector.toArray_mapM
  have hlist : Array.toList <$> as.toArray.mapM f = as.toList.mapM f := Array.toList_mapM
  rw [← hlist, ← harray]
  cases as.mapM f <;> rfl

theorem vector_mapM_eq_ok {n : Nat} {as : Vector α n} {bs : Vector β n} :
    as.mapM f = .ok bs ↔ as.toList.map f = bs.toList.map .ok := by
  rw [← mapM_eq_ok, ← toList_mapM, map_eq_ok]
  constructor
  · intro h
    exact ⟨bs, h, rfl⟩
  · intro ⟨bs', h, hsame⟩
    rw [h, Vector.toList_inj.mp hsame]

theorem vector_mapM_eq_error {n : Nat} {as : Vector α n} :
    as.mapM f = .error fault ↔ FirstFault (as.toList.map f) fault := by
  rw [← mapM_eq_error, ← toList_mapM]
  cases as.mapM f with
  | error met => exact ⟨fun h => by cases h; rfl, fun h => by cases h; rfl⟩
  | ok bs =>
    constructor
    · intro h
      cases h
    · intro h
      cases h

variable {γ : Type} {row : List (Except Fault β)}

/-- An answer, and behind it an operation that fails with the first fault of a row. -/
theorem bind_eq_firstFault {x : Except Fault β} {g : β → Except Fault γ}
    (h : ∀ b, g b = .error fault ↔ FirstFault row fault) :
    x >>= g = .error fault ↔ FirstFault (x :: row) fault := by
  rw [bind_eq_error, firstFault_cons]
  refine or_congr_right ⟨fun ⟨b, hb, hg⟩ => ⟨⟨b, hb⟩, (h b).mp hg⟩, fun ⟨⟨b, hb⟩, hrow⟩ => ?_⟩
  exact ⟨b, hb, (h b).mpr hrow⟩

/-- Some answers, and behind them such an operation. -/
theorem bind_mapM_eq_firstFault {n : Nat} {as : Vector α n} {g : Vector β n → Except Fault γ}
    (h : ∀ bs, g bs = .error fault ↔ FirstFault row fault) :
    as.mapM f >>= g = .error fault ↔ FirstFault (as.toList.map f ++ row) fault := by
  rw [bind_eq_error, firstFault_append, vector_mapM_eq_error]
  refine or_congr_right ⟨fun ⟨bs, hbs, hg⟩ => ?_, fun ⟨⟨bs, hbs⟩, hrow⟩ => ?_⟩
  · exact ⟨⟨bs.toList, vector_mapM_eq_ok.mp hbs⟩, (h bs).mp hg⟩
  · have hlength : bs.length = n := by
      rw [← List.length_map (Except.ok : β → Except Fault β), ← hbs, List.length_map,
        Vector.length_toList]
    exact ⟨⟨bs.toArray, hlength⟩, vector_mapM_eq_ok.mpr hbs, (h _).mpr hrow⟩

end

/-! ## 2. Indices -/

section

variable {low index : Int} {count : Nat} {fault : Fault}

/-- So many indices, from one on. -/
def indicesFrom : (index : Int) → (count : Nat) → List Int
  | _, 0 => []
  | index, count + 1 => index :: indicesFrom (index + 1) count

theorem mem_indicesFrom {other : Int} :
    other ∈ indicesFrom index count ↔ index ≤ other ∧ other < index + count := by
  induction count generalizing index with
  | zero =>
    simp only [indicesFrom, List.not_mem_nil, false_iff]
    omega
  | succ count ih =>
    rw [indicesFrom, List.mem_cons, ih]
    omega

/-- The first fault in a row of answers to indices is that of one index, and all indices before it
    have answers. -/
theorem firstFault_indicesFrom {α : Type} {f : Int → Except Fault α} :
    FirstFault ((indicesFrom low count).map f) fault ↔
      ∃ index, (low ≤ index ∧ index < low + count) ∧
        (∀ earlier, low ≤ earlier → earlier < index → ∃ a, f earlier = .ok a) ∧
        f index = .error fault := by
  induction count generalizing low with
  | zero =>
    refine iff_of_false not_firstFault_nil fun ⟨index, hindex, _⟩ => ?_
    omega
  | succ count ih =>
    rw [indicesFrom, List.map_cons, firstFault_cons, ih]
    refine ⟨fun h => ?_, fun ⟨index, hindex, hearlier, hfault⟩ => ?_⟩
    · rcases h with h | ⟨hfirst, index, hindex, hearlier, hfault⟩
      · exact ⟨low, by omega, fun earlier hle hlt => by omega, h⟩
      · refine ⟨index, by omega, fun earlier hle hlt => ?_, hfault⟩
        by_cases hlow : earlier = low
        · exact hlow ▸ hfirst
        · exact hearlier earlier (by omega) hlt
    · by_cases hlow : index = low
      · exact .inl (hlow ▸ hfault)
      · exact .inr ⟨hearlier low (Int.le_refl low) (by omega), index, by omega,
          fun earlier hle hlt => hearlier earlier (by omega) hlt, hfault⟩

end

end KernelProbe
