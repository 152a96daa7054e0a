import KernelProbe.Text.Hex

/-!
# Faults

Whatever goes wrong while a stopped kernel is read is a `Fault`: a look-up without an answer, an
interpretation that the layouts do not allow, memory that cannot be read, a chain that does not
close, a command that does not exist. A fault is the answer of the operation that met it; no
operation goes on with made-up data in its place.

* `Fault` -- the causes, each with what identifies it;
* `Fault.message` -- the one text of each cause.
-/

namespace KernelProbe

open Text (hex)

/-- Why a stopped kernel could not be read or understood, or a command not be carried out. -/
inductive Fault where
  /-- No symbol has this name. -/
  | noSymbol (name : String)
  /-- No type has this name. -/
  | noType (name : String)
  /-- The structure `type` has no such field. -/
  | noField (type field : String)
  /-- The index lies outside the bounds of the array type. -/
  | indexOutOfRange (type : String) (index low high : Int)
  /-- One type was required and another was found. -/
  | typeMismatch (expected found : String)
  /-- A field was asked of a type that has none. -/
  | notAStructure (type : String)
  /-- A type that is no pointer was followed. -/
  | notAPointer (type : String)
  /-- A type that is no array was indexed. -/
  | notAnArray (type : String)
  /-- The type is no scalar or pointer of 1, 2, 4 or 8 bytes. -/
  | unsupportedWidth (type : String) (size : UInt64)
  /-- The bytes are not mapped, or lie beyond the end of the address space. -/
  | memoryUnavailable (address : UInt64) (length : Nat)
  /-- The register has no value. -/
  | registerUnavailable (name : String)
  /-- An unwinder of this name is registered already. -/
  | duplicateUnwinder (name : String)
  /-- The chain did not end within the limit of nodes. -/
  | chainTooLong (head : UInt64) (limit : Nat)
  /-- No command has this name. -/
  | unknownCommand (word : String)
  /-- The command was given other arguments than its synopsis says. -/
  | usage (synopsis : String)
  deriving DecidableEq

/-- The text that tells a user what went wrong. Names stand in it as they are. -/
def Fault.message : Fault → String
  | .noSymbol name => "no symbol \"" ++ name ++ "\" in current context"
  | .noType name => "no type named " ++ name
  | .noField type field => "type " ++ type ++ " has no field named " ++ field
  | .indexOutOfRange type index low high =>
    "index " ++ toString index ++ " out of range [" ++ toString low ++ ", " ++ toString high ++
      "] for " ++ type
  | .typeMismatch expected found =>
    "type mismatch: expected " ++ expected ++ ", found " ++ found
  | .notAStructure type => type ++ " is not a structure or union type"
  | .notAPointer type => type ++ " is not a pointer type"
  | .notAnArray type => type ++ " is not an array type"
  | .unsupportedWidth type size =>
    "cannot read " ++ toString size.toNat ++ " byte value of type " ++ type
  | .memoryUnavailable address length =>
    "cannot access memory at address " ++ hex address ++ " (" ++ toString length ++ " bytes)"
  | .registerUnavailable name => "cannot read register " ++ name ++ ": no running inferior"
  | .duplicateUnwinder name => "unwinder " ++ name ++ " already exists"
  | .chainTooLong head limit =>
    "chain starting at " ++ hex head ++ " did not close within " ++ toString limit ++ " nodes"
  | .unknownCommand word => "undefined command: \"" ++ word ++ "\""
  | .usage synopsis => "usage: " ++ synopsis

end KernelProbe
