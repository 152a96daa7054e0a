import KernelProbe.Text.Blank

/-!
# Blanks in a text

How many blanks stand between two words, and which, is all the same for the words of a text: they
are the ones that, set apart by blanks, make up the text. There is one such row of words for each
text. Trimming takes nothing but the blanks at the two ends.

* `Text.Blanks`, `Text.IsWord` -- stretches of blanks, and stretches without one;
* `Text.SetApart` -- the texts that are made up of given words;
* `Text.words_eq_iff` -- the words of a text are those that it is made up of;
* `Text.trimStart_of_front`, `Text.trimEnd_of_back` -- texts with nothing to trim.
-/

namespace KernelProbe.Text

/-- A stretch of blanks; it may be empty. -/
def Blanks (gap : List Char) : Prop :=
  ∀ c ∈ gap, isBlank c = true

instance (gap : List Char) : Decidable (Blanks gap) :=
  List.decidableBAll _ gap

/-- A stretch without a blank, of at least one character. -/
structure IsWord (word : List Char) : Prop where
  ne_nil : word ≠ []
  solid : ∀ c ∈ word, isBlank c = false

/-- **A text is made up of words.** There may be blanks in front of the first word and behind the
    last one, and there are blanks between two words. -/
inductive SetApart : List (List Char) → List Char → Prop where
  /-- No words. -/
  | none {gap : List Char} (hgap : Blanks gap) : SetApart [] gap
  /-- A word in front of others. What is behind it begins with a blank, if there is anything. -/
  | word {gap word rest : List Char} {later : List (List Char)} (hgap : Blanks gap)
      (hword : IsWord word) (hend : ∀ c ∈ rest.head?, isBlank c = true)
      (hrest : SetApart later rest) : SetApart (word :: later) (gap ++ word ++ rest)

variable {gap word rest text trail : List Char} {later : List (List Char)}

theorem Blanks.tail {c : Char} (h : Blanks (c :: gap)) : isBlank c = true ∧ Blanks gap :=
  ⟨h c List.mem_cons_self, fun d hd => h d (List.mem_cons_of_mem c hd)⟩

theorem Blanks.cons {c : Char} (hc : isBlank c = true) (h : Blanks gap) : Blanks (c :: gap) := by
  intro d hd
  rcases List.mem_cons.mp hd with rfl | hd
  · exact hc
  · exact h d hd

/-! ## 1. From the words to the text -/

theorem words_blank {c : Char} (h : isBlank c = true) : words (c :: rest) = words rest := by
  rw [words, if_pos h]

/-- Blanks in front of a text do not count. -/
theorem words_blanks (h : Blanks gap) : words (gap ++ text) = words text := by
  induction gap with
  | nil => rfl
  | cons c gap ih => rw [List.cons_append, words_blank h.tail.1, ih h.tail.2]

/-- A word ends where something else begins. -/
theorem words_word (hword : IsWord word) (hend : ∀ c ∈ rest.head?, isBlank c = true) :
    words (word ++ rest) = word :: words rest := by
  obtain ⟨hne, hsolid⟩ := hword
  cases word with
  | nil => exact absurd rfl hne
  | cons c word =>
    have hpass : ∀ d ∈ word, (!isBlank d) = true := fun d hd => by
      rw [hsolid d (List.mem_cons_of_mem c hd)]
      rfl
    have hstop : rest.takeWhile (fun d => !isBlank d) = [] ∧
        rest.dropWhile (fun d => !isBlank d) = rest := by
      cases rest with
      | nil => exact ⟨rfl, rfl⟩
      | cons d rest => simp [hend d rfl]
    rw [List.cons_append, words, if_neg (by simp [hsolid c List.mem_cons_self]),
      List.takeWhile_append_of_pos hpass, List.dropWhile_append_of_pos hpass, hstop.1, hstop.2,
      List.append_nil]

theorem SetApart.words_eq {ws : List (List Char)} (h : SetApart ws text) : words text = ws := by
  induction h with
  | @none gap hgap =>
    have hwords : words (gap ++ []) = words [] := words_blanks hgap
    rwa [List.append_nil, words] at hwords
  | word hgap hword hend _ ih =>
    rw [List.append_assoc, words_blanks hgap, words_word hword hend, ih]

/-! ## 2. From the text to the words -/

theorem SetApart.blank {c : Char} {ws : List (List Char)} (hc : isBlank c = true)
    (h : SetApart ws text) : SetApart ws (c :: text) := by
  cases h with
  | none hgap => exact .none (hgap.cons hc)
  | word hgap hword hend hrest => exact .word (hgap.cons hc) hword hend hrest

/-- Every text is made up of its words. -/
theorem setApart_words (text : List Char) : SetApart (words text) text := by
  fun_induction words text with
  | case1 => exact .none nofun
  | case2 c rest hblank ih => exact ih.blank hblank
  | case3 c rest hsolid ih =>
    have hword : IsWord (c :: rest.takeWhile fun d => !isBlank d) := by
      refine ⟨List.cons_ne_nil _ _, fun d hd => ?_⟩
      rcases List.mem_cons.mp hd with rfl | hd
      · exact Bool.eq_false_iff.mpr hsolid
      · simpa using List.all_eq_true.mp List.all_takeWhile d hd
    have hend : ∀ d ∈ (rest.dropWhile fun d => !isBlank d).head?, isBlank d = true := by
      intro d hd
      have hstop := List.head?_dropWhile_not (fun d => !isBlank d) rest
      rw [Option.mem_def.mp hd] at hstop
      simpa using hstop
    have hwhole := @SetApart.word [] _ _ _ nofun hword hend ih
    rwa [List.nil_append, List.cons_append, List.takeWhile_append_dropWhile] at hwhole

/-- **The words of a text** are those that it is made up of. -/
theorem words_eq_iff {ws : List (List Char)} : words text = ws ↔ SetApart ws text :=
  ⟨fun h => h ▸ setApart_words text, SetApart.words_eq⟩

/-! ## 3. Texts without the blanks at their ends -/

theorem trimStart_blanks (h : Blanks gap) : trimStart (gap ++ text) = trimStart text :=
  List.dropWhile_append_of_pos h

theorem trimStart_of_front (h : ∀ c ∈ text.head?, isBlank c = false) : trimStart text = text := by
  cases text with
  | nil => rfl
  | cons c rest => simp [trimStart, h c rfl]

theorem trimEnd_blanks (h : Blanks trail) : trimEnd (text ++ trail) = trimEnd text := by
  unfold trimEnd
  rw [List.reverse_append, List.dropWhile_append_of_pos fun c hc => h c (List.mem_reverse.mp hc)]

theorem trimEnd_of_back (h : ∀ c ∈ text.getLast?, isBlank c = false) : trimEnd text = text := by
  have hreverse : text.reverse.dropWhile isBlank = text.reverse :=
    trimStart_of_front fun c hc => h c (by rwa [List.head?_reverse] at hc)
  rw [trimEnd, hreverse, List.reverse_reverse]

/-- What is cut off at the end of a text is blank, and what is left does not end with a blank. -/
theorem exists_trail (text : List Char) : ∃ trail, Blanks trail ∧ text = trimEnd text ++ trail ∧
    ∀ c ∈ (trimEnd text).getLast?, isBlank c = false := by
  refine ⟨(text.reverse.takeWhile isBlank).reverse, fun c hc => ?_, ?_, fun c hc => ?_⟩
  · exact List.all_eq_true.mp List.all_takeWhile c (List.mem_reverse.mp hc)
  · rw [trimEnd, ← List.reverse_append, List.takeWhile_append_dropWhile, List.reverse_reverse]
  · rw [trimEnd, List.getLast?_reverse] at hc
    have hstop := List.head?_dropWhile_not isBlank text.reverse
    rwa [Option.mem_def.mp hc] at hstop

/-- In front of the blanks that are cut off nothing changes. -/
theorem trimEnd_cons {c : Char} (hc : isBlank c = false) :
    trimEnd (c :: text) = c :: trimEnd text := by
  obtain ⟨trail, htrail, htext, hback⟩ := exists_trail text
  have hlast : ∀ d ∈ (c :: trimEnd text).getLast?, isBlank d = false := by
    intro d hd
    rw [List.getLast?_cons] at hd
    cases hrest : (trimEnd text).getLast? with
    | none =>
      rw [hrest] at hd
      cases hd
      exact hc
    | some e =>
      rw [hrest] at hd
      cases hd
      exact hback e hrest
  calc trimEnd (c :: text) = trimEnd (c :: trimEnd text ++ trail) :=
        congrArg (fun rest => trimEnd (c :: rest)) htext
    _ = trimEnd (c :: trimEnd text) := trimEnd_blanks htrail
    _ = c :: trimEnd text := trimEnd_of_back hlast

end KernelProbe.Text
