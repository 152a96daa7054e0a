/-!
# Byte counts in kilobytes

A count of bytes is shown in units of 1024 bytes with two decimals. The figure is rounded twice:
the count first becomes the nearest number with a significand of 53 bits, then the exact quotient by
1024 becomes the nearest number of hundredths. Both times a tie goes to the even neighbour.

* `roundQuotient` -- a quotient of natural numbers rounded to the nearest one, ties to even;
* `roundToBits` -- the nearest number that has at most so many significant bits;
* `kilobytes` -- the figure as text.
-/

namespace KernelProbe.Text

/-- The natural number nearest to `num / den`; of two equally near ones the even one. -/
def roundQuotient (num den : Nat) : Nat :=
  let quotient := num / den
  let twiceRest := 2 * (num % den)
  if twiceRest < den then quotient
  else if den < twiceRest then quotient + 1
  else quotient + quotient % 2

/-- The number nearest to `n` among the multiples of the power of two that leaves `n` with `bits`
    significant bits; a number with no more bits than that is its own nearest one. -/
def roundToBits (bits n : Nat) : Nat :=
  let unit := 1 <<< (n.log2 + 1 - bits)
  roundQuotient n unit * unit

/-- The hundredths of a kilobyte that stand for a byte count. -/
def kilobyteHundredths (bytes : UInt64) : Nat :=
  roundQuotient (roundToBits 53 bytes.toNat * 100) 1024

/-- A number of hundredths with a point and two decimals. -/
def twoDecimals (hundredths : Nat) : String :=
  toString (hundredths / 100) ++ "." ++ toString (hundredths / 10 % 10) ++
    toString (hundredths % 10)

/-- A byte count in kilobytes, with two decimals. -/
def kilobytes (bytes : UInt64) : String :=
  twoDecimals (kilobyteHundredths bytes)

end KernelProbe.Text
