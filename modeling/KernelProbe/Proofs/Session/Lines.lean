import KernelProbe.Proofs.Session.Registering
import KernelProbe.Proofs.Text.Blanks
import Mathlib.Logic.ExistsUnique

/-!
# What a line asks for

A line is understood by its words alone. The first one is the command; the two commands that show
memory stand by themselves; of the words behind the one that registers a container the first is the
expression, the last is the member, and those between them, of which there is at least one, are the
name of the type, which is looked up with one blank between its words however they were set apart.

* `Command.Spells` -- the words that a line is made up of;
* `Command.parse_of_words` -- the command of a line, by its words;
* `Session.execute_by_words` -- the answers to all lines.
-/

namespace KernelProbe

namespace Command

/-- **The line is made up of these words**, set apart by blanks. -/
def Spells (words : List String) (line : String) : Prop :=
  Text.SetApart (words.map String.toList) line.toList

variable {words arguments types : List String} {line word expression member : String}

theorem words_eq_iff_spells :
    (Text.words line.toList).map String.ofList = words ↔ Spells words line := by
  unfold Spells
  rw [← Text.words_eq_iff]
  constructor
  · intro h
    rw [← h, List.map_map, show String.toList ∘ String.ofList = id from
      funext fun _ => String.toList_ofList, List.map_id]
  · intro h
    rw [h, List.map_map, show String.ofList ∘ String.toList = id from
      funext fun _ => String.ofList_toList, List.map_id]

/-- There is one row of words that a line is made up of. -/
theorem existsUnique_spells (line : String) : ∃! words, Spells words line :=
  ⟨_, words_eq_iff_spells.mp rfl, fun _ h => (words_eq_iff_spells.mpr h).symm⟩

/-! ## 1. The command of a line -/

theorem parse_of_blank (h : Spells [] line) : parse line = .blank := by
  unfold parse
  rw [words_eq_iff_spells.mpr h]

theorem parse_of_words (h : Spells (word :: arguments) line) :
    parse line = ofWords word arguments := by
  unfold parse
  rw [words_eq_iff_spells.mpr h]

/-- **The type name is what stands between the first argument and the last one.** -/
theorem ofContainerArguments_of_types (h : types ≠ []) :
    ofContainerArguments (expression :: types ++ [member]) =
      .container expression (" ".intercalate types) member := by
  obtain ⟨type, types, rfl⟩ := List.exists_cons_of_ne_nil h
  -- The last argument is the member also if it is the only one behind the first word of the type.
  obtain ⟨second, more, hbehind⟩ : ∃ second more, types ++ [member] = second :: more :=
    List.exists_cons_of_ne_nil (by simp)
  have hlast : (second :: more).getLast (by simp) = member := by
    simp only [← hbehind, List.getLast_concat]
  have htype : (type :: second :: more).dropLast = type :: types := by
    rw [← hbehind, ← List.cons_append, List.dropLast_concat]
  show ofContainerArguments (expression :: type :: (types ++ [member])) = _
  rw [hbehind, ofContainerArguments, hlast, htype]

/-- With fewer than three arguments no word is left for the type. -/
theorem ofContainerArguments_of_few (h : arguments.length < 3) :
    ofContainerArguments arguments = .misused "lab-container <expr> <type> <member>" := by
  match arguments with
  | [] | [_] | [_, _] => rfl
  | _ :: _ :: _ :: _ =>
    simp only [List.length_cons] at h
    omega

/-- The two commands that show memory take no arguments. -/
theorem ofWords_of_arguments (hword : word ∈ ["lab-malloc", "lab-page"]) (h : arguments ≠ []) :
    ofWords word arguments = .misused word := by
  obtain ⟨first, more, rfl⟩ := List.exists_cons_of_ne_nil h
  simp only [List.mem_cons, List.not_mem_nil, or_false] at hword
  rcases hword with rfl | rfl <;> rfl

theorem ofWords_of_unknown (h : word ∉ ["lab-container", "lab-malloc", "lab-page"]) :
    ofWords word arguments = .unknown word := by
  simp only [List.mem_cons, List.not_mem_nil, or_false, not_or] at h
  obtain ⟨hcontainer, hmalloc, hpage⟩ := h
  rw [ofWords, if_neg hmalloc, if_neg hpage, if_neg hcontainer]

end Command

namespace Session

open Command (Spells)

variable {σ : Type} [Debuggee σ]

/-- The answer to a line that is refused: the fault, without any event, and session and kernel as
    they were. -/
def refusal (session : Session) (kernel : σ) (fault : Fault) : Outcome String × Session × σ :=
  (.ofResult (.error fault), session, kernel)

theorem execute_of_command {session : Session} {kernel : σ} {line other : String}
    (h : Command.parse line = Command.parse other) :
    session.execute kernel line = session.execute kernel other := by
  unfold execute
  rw [h]

/-- **Lines are answered by their words.** Each line is made up of one row of words, and lines of
    the same words have the same answer. A line of `lab-container`, an expression, the words of a
    type and a member is the registration of that container, of objects of the type that the words
    name with single blanks between them. The other two commands stand alone. A command with other
    arguments, and a first word that is no command, are refused; a line without words has an empty
    answer; and by neither anything is changed, whatever the kernel is like. -/
theorem execute_by_words (session : Session) (kernel : σ) (line : String) :
    (∃! words, Spells words line) ∧
    (∀ words other, Spells words line → Spells words other →
      session.execute kernel other = session.execute kernel line) ∧
    (∀ expression types member, types ≠ [] →
      Spells ("lab-container" :: (expression :: types ++ [member])) line →
      session.execute kernel line =
        let registered := session.registerContainer (Debuggee.view kernel) expression
          (" ".intercalate types) member
        (registered.1, registered.2, kernel)) ∧
    (Spells ["lab-malloc"] line → session.execute kernel line =
      (.ofResult (session.allocatorReport (Debuggee.view kernel)), session, kernel)) ∧
    (Spells ["lab-page"] line → session.execute kernel line =
      ((session.dumpPages kernel).1, session, (session.dumpPages kernel).2)) ∧
    (∀ arguments, arguments.length < 3 → Spells ("lab-container" :: arguments) line →
      session.execute kernel line =
        session.refusal kernel (.usage "lab-container <expr> <type> <member>")) ∧
    (∀ command ∈ ["lab-malloc", "lab-page"], ∀ arguments, arguments ≠ [] →
      Spells (command :: arguments) line →
      session.execute kernel line = session.refusal kernel (.usage command)) ∧
    (∀ word arguments, word ∉ ["lab-container", "lab-malloc", "lab-page"] →
      Spells (word :: arguments) line →
      session.execute kernel line = session.refusal kernel (.unknownCommand word)) ∧
    (Spells [] line → session.execute kernel line = (.ofResult (.ok ""), session, kernel)) := by
  have hwords : ∀ {word arguments}, Spells (word :: arguments) line →
      Command.parse line = Command.ofWords word arguments := Command.parse_of_words
  refine ⟨Command.existsUnique_spells line, fun words other hline hother => ?_,
    fun expression types member htypes hline => ?_, fun hline => ?_, fun hline => ?_,
    fun arguments hfew hline => ?_, fun command hcommand arguments harguments hline => ?_,
    fun word arguments hword hline => ?_, fun hline => ?_⟩
  · refine execute_of_command ?_
    unfold Command.parse
    rw [Command.words_eq_iff_spells.mpr hline, Command.words_eq_iff_spells.mpr hother]
  · have hcommand : Command.parse line =
        .container expression (" ".intercalate types) member :=
      (hwords hline).trans (Command.ofContainerArguments_of_types htypes)
    unfold execute
    rw [hcommand]
  · unfold execute
    rw [show Command.parse line = .allocator from hwords hline]
  · unfold execute
    rw [show Command.parse line = .pages from hwords hline]
  · have hcommand : Command.parse line = .misused "lab-container <expr> <type> <member>" :=
      (hwords hline).trans (Command.ofContainerArguments_of_few hfew)
    unfold execute
    rw [hcommand]
    rfl
  · unfold execute
    rw [hwords hline, Command.ofWords_of_arguments hcommand harguments]
    rfl
  · unfold execute
    rw [hwords hline, Command.ofWords_of_unknown hword]
    rfl
  · unfold execute
    rw [Command.parse_of_blank hline]

/-- A line with blanks of many kinds: a tab, line ends, and blanks beyond ASCII. -/
def strewnLine : String :=
  "\t lab-container\u00a0 runnable \u3000struct\tproc  list\r\n"

/-- The line names a type of two words, and gets the answer of the registration; with one word less
    there is none for the type. -/
theorem execute_by_words_strewn :
    Spells ("lab-container" :: ("runnable" :: ["struct", "proc"] ++ ["list"])) strewnLine ∧
    ((start {}).execute namedKernel strewnLine).1.result =
      .ok "0x1000: struct linked_list_node * of struct proc" ∧
    ((start {}).execute namedKernel strewnLine).2.1 =
      ((start {}).registerContainer namedKernel.view "runnable" "struct proc" "list").2 ∧
    Spells ["lab-container", "runnable", "list"] "lab-container runnable list" ∧
    (start {}).execute namedKernel "lab-container runnable list" =
      (start {}).refusal namedKernel (.usage "lab-container <expr> <type> <member>") := by
  have hline : Spells ("lab-container" :: ("runnable" :: ["struct", "proc"] ++ ["list"]))
      strewnLine := Command.words_eq_iff_spells.mp (by decide +kernel)
  have hfew : Spells ["lab-container", "runnable", "list"] "lab-container runnable list" :=
    Command.words_eq_iff_spells.mp (by decide +kernel)
  obtain ⟨-, -, hcontainer, -⟩ := execute_by_words (start {}) namedKernel strewnLine
  obtain ⟨-, -, -, -, -, husage, -⟩ :=
    execute_by_words (start {}) namedKernel "lab-container runnable list"
  have hdone := hcontainer "runnable" ["struct", "proc"] "list" (by decide) hline
  refine ⟨hline, ?_, ?_, hfew, husage ["runnable", "list"] (by decide) hfew⟩
  · rw [hdone]
    rfl
  · rw [hdone]
    rfl

end Session

end KernelProbe
