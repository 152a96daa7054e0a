import KernelProbe.Text.Blank
import KernelProbe.Value

/-!
# Expressions

An expression names a place: a global symbol, with one star in front for each pointer to be followed
from there. Blanks around the stars and the name do not count. This is all that the library reads by
itself; a debugger that reads expressions in its own, richer way is left out.

* `Expression.parse` -- reads an expression; every text is one;
* `Expression.place` -- the place it names.
-/

namespace KernelProbe

open Text (isBlank trimEnd)

/-- A symbol, and how many pointers to follow from it. -/
structure Expression where
  stars : Nat
  symbol : String
  deriving DecidableEq

namespace Expression

/-- The stars at the front of a text, counted, and what follows them; blanks are passed over. -/
def leadingStars : List Char → Nat × List Char
  | [] => (0, [])
  | c :: rest =>
    if c = '*' then
      let (stars, name) := leadingStars rest
      (stars + 1, name)
    else if isBlank c then leadingStars rest
    else (0, c :: rest)

/-- Reads an expression. What follows the stars is the symbol, without blanks at its end. -/
def parse (text : String) : Expression :=
  let (stars, name) := leadingStars text.toList
  ⟨stars, String.ofList (trimEnd name)⟩

/-- The place reached by following `count` pointers, none of them null. -/
def followAll (target : Target) : (count : Nat) → Value → Except Fault Value
  | 0, value => .ok value
  | count + 1, value => do
    let next ← demand (← value.follow target) (.memoryUnavailable 0 0)
    followAll target count next

/-- The place that an expression names. -/
def place (target : Target) (expression : Expression) : Except Fault Value := do
  let symbol ← target.symbol expression.symbol
  followAll target expression.stars (← target.valueAt symbol.address symbol.type)

end Expression

/-- The place that a text names as an expression, as the library reads it. Debuggers that put a
    reading of their own in its place are left out. -/
def Target.evaluate (target : Target) (text : String) : Except Fault Value :=
  (Expression.parse text).place target

end KernelProbe
