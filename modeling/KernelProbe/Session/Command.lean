import KernelProbe.Text.Blank

/-!
# Command lines

A line is split into words at its blanks. The first word names the command; the two commands that
show memory take no arguments, the one that registers a container takes an expression, a type and a
member. A type name may consist of several words, so all words between the first and the last
argument belong to it.

* `Command.parse` -- what a line asks for.
-/

namespace KernelProbe

/-- What a line asks for. -/
inductive Command where
  /-- Nothing. -/
  | blank
  /-- The report of the bucket allocator. -/
  | allocator
  /-- The dump of the address space. -/
  | pages
  /-- The registration of a container of objects of type `owner`, linked through `member`. -/
  | container (expression owner member : String)
  /-- A known command with the wrong arguments. -/
  | misused (synopsis : String)
  /-- No known command. -/
  | unknown (word : String)
  deriving DecidableEq

namespace Command

/-- The command that these words after `lab-container` ask for. -/
def ofContainerArguments : List String → Command
  | expression :: type :: second :: more =>
    .container expression (" ".intercalate (type :: second :: more).dropLast)
      ((second :: more).getLast (by simp))
  | _ => .misused "lab-container <expr> <type> <member>"

/-- The command that a word and its arguments ask for. -/
def ofWords (word : String) (arguments : List String) : Command :=
  if word = "lab-malloc" then
    if arguments.isEmpty then .allocator else .misused "lab-malloc"
  else if word = "lab-page" then
    if arguments.isEmpty then .pages else .misused "lab-page"
  else if word = "lab-container" then ofContainerArguments arguments
  else .unknown word

/-- What a line asks for. -/
def parse (line : String) : Command :=
  match (Text.words line.toList).map String.ofList with
  | [] => .blank
  | word :: arguments => ofWords word arguments

end Command

end KernelProbe
