/-!
# Words in hexadecimal

Every address, size and register value that the library writes is written the same way: `0x`, then
the lower-case hexadecimal digits of the number, none of them a leading zero, and `0x0` for zero.

* `hexDigits` -- the digits alone;
* `hex` -- a machine word in that form;
* `alignRight` -- a text brought to a least width by blanks on its left.
-/

namespace KernelProbe.Text

/-- The lower-case hexadecimal digits of `n`, the highest first. -/
def hexDigits (n : Nat) : List Char :=
  Nat.toDigits 16 n

/-- A machine word as `0x` and its digits. -/
def hex (word : UInt64) : String :=
  "0x" ++ String.ofList (hexDigits word.toNat)

/-- The text at the right end of a field of at least `width` characters. -/
def alignRight (width : Nat) (text : String) : String :=
  String.ofList (List.replicate (width - text.length) ' ') ++ text

end KernelProbe.Text
