import KernelProbe.Intrusive.Catalogue
import KernelProbe.Intrusive.Entries

/-!
# Listing the elements of a container

A value at the address of a registered container is shown as that container, whatever its own type
is: with a summary, and with its elements under the labels `[0]`, `[1]` and so on. For that the
value is read by the layout of a list head or a hash table. An element of the wrong type is left out
and logged, so that the labels have a gap there; any other fault takes the place of the whole list.

* `Catalogue.listing?` -- the listing of a value, if its address is registered;
* `Listing.object` -- the value as the object of the container;
* `Listing.entries` -- the traversal of the elements;
* `Listing.children` -- the labelled elements.
-/

namespace KernelProbe

/-- A value that is shown as a container. -/
structure Listing where
  value : Value
  container : Container
  deriving DecidableEq

/-- The listing of a value as the container that is registered at its address. -/
def Catalogue.listing? (catalogue : Catalogue) (value : Value) : Option Listing :=
  (catalogue.find? value.address).map fun container => ⟨value, container⟩

/-- The type of the object of a container of this kind. -/
def Container.Kind.objectType (config : Config) : Container.Kind → String
  | .list => config.listNodeType
  | .hashTable => config.hashTableType

namespace Listing

/-- The value as the object of the container. It may have any type of its own, such as that of a
    pointer that was registered. -/
def object (target : Target) (config : Config) (listing : Listing) : Except Fault Value := do
  return listing.value.cast (← target.layout (listing.container.kind.objectType config))

/-- The nodes of the container. -/
def nodes (target : Target) (config : Config) (listing : Listing) : Except Fault Nodes := do
  let object ← listing.object target config
  match listing.container.kind with
  | .list => return .ring (.of object config.maxChainNodes)
  | .hashTable => return .sweep (.of (← HashTable.read target config object))

/-- The numbered elements of the container. -/
def entries (target : Target) (config : Config) (listing : Listing) :
    Except Fault (Entries Nodes) := do
  return .of (← listing.nodes target config) listing.container.embedding

/-- The label of the element with this number. -/
def label (number : Nat) : String :=
  "[" ++ toString number ++ "]"

/-- Adds one item to the labelled elements. -/
def addChild (children : Array (String × Value)) :
    Except Fault (Nat × Value) → Outcome (Array (String × Value))
  | .ok (number, element) => .ofResult (.ok (children.push (label number, element)))
  | .error (.typeMismatch expected found) => ⟨#[.elementSkipped expected found], .ok children⟩
  | .error fault => .ofResult (.error fault)

/-- The labelled elements of the container. -/
def children (target : Target) (config : Config) (listing : Listing) :
    Outcome (Array (String × Value)) :=
  match listing.entries target config with
  | .error fault => .ofResult (.error fault)
  | .ok entries => Traversal.fold target addChild #[] #[] entries

end Listing

end KernelProbe
