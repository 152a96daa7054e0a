import KernelProbe.Config
import KernelProbe.Event

/-!
# The catalogue of containers

Memory does not tell what a list or a hash table holds. The catalogue keeps what a user has said: by
the address of a container's object, its kind and the embedding of its links. An address has one
record, the last one registered for it.

A registration is checked: the object must be a list head or a hash table, or a pointer to one, and
the named member of the owner must be a node of that kind of container. A registration that fails
leaves the catalogue as it is.

* `Catalogue.find?` -- the record of an address;
* `Catalogue.register` -- checks a registration and carries it out.
-/

namespace KernelProbe

/-- The registered containers, by the address of their objects. -/
structure Catalogue where
  records : List (UInt64 × Container)
  deriving DecidableEq

/-- A registration that was carried out. -/
structure Registration where
  address : UInt64
  container : Container
  /-- The earlier record of the address. -/
  replaced : Option Container
  /-- The catalogue afterwards. -/
  catalogue : Catalogue
  deriving DecidableEq

namespace Catalogue

/-- The catalogue without records. -/
def empty : Catalogue :=
  ⟨[]⟩

/-- The record of an address. -/
def find? (catalogue : Catalogue) (address : UInt64) : Option Container :=
  catalogue.records.lookup address

/-- The number of addresses with a record. -/
def size (catalogue : Catalogue) : Nat :=
  catalogue.records.length

/-- The catalogue with this record as the only one of its address. -/
def put (catalogue : Catalogue) (address : UInt64) (container : Container) : Catalogue :=
  ⟨(address, container) :: catalogue.records.filter (·.1 != address)⟩

/-- The object that a user means: a pointer stands for what it points to. -/
def object (target : Target) (value : Value) : Except Fault Value :=
  match value.layout.kind with
  | .pointer _ => do demand (← value.follow target) (.memoryUnavailable 0 0)
  | _ => .ok value

/-- The kind of a container by the type of its object, and the type of its nodes. -/
def kindOf (config : Config) (type : String) : Except Fault (Container.Kind × String) :=
  if type = config.listNodeType then .ok (.list, config.listNodeType)
  else if type = config.hashTableType then .ok (.hashTable, config.hashNodeType)
  else
    .error (.typeMismatch (config.listNodeType ++ " or " ++ config.hashTableType) type)

/-- Registers the container that `value` is or points to, with the links of its elements in the
    member of that name of the named owner type. -/
def register (target : Target) (config : Config) (catalogue : Catalogue) (value : Value)
    (owner member : String) : Except Fault Registration := do
  let object ← object target value
  let (kind, nodeType) ← kindOf config object.type
  let embedding ← Embedding.ofMember target owner member
  if embedding.memberType = nodeType then
    let container : Container := ⟨kind, embedding⟩
    return ⟨object.address, container, catalogue.find? object.address,
      catalogue.put object.address container⟩
  else throw (.typeMismatch nodeType embedding.memberType)

end Catalogue

/-- What is logged of a registration. -/
def Registration.events (registration : Registration) : Array Event :=
  let registered := #[.containerRegistered registration.address registration.container]
  match registration.replaced with
  | some _ => registered.push (.containerReplaced registration.address)
  | none => registered

end KernelProbe
