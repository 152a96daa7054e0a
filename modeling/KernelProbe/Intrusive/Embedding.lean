import KernelProbe.Value

/-!
# Members embedded in their owners

The links of kernel lists and hash tables are members of the objects that they link. An `Embedding`
names an owner type and one of its members; with it the owner of a member is found by going back as
many bytes as the member lies behind the owner's start.

* `Embedding.ofMember` -- looks the member up in the owner's layout;
* `Embedding.owner` -- the owner of a member;
* `Container` -- what is known of a registered list or hash table.
-/

namespace KernelProbe

/-- A member within an owner type. -/
structure Embedding where
  layout : Layout
  member : String
  memberType : String
  offset : UInt64
  deriving DecidableEq

namespace Embedding

/-- The embedding of the first member of that name in the named owner type. -/
def ofMember (target : Target) (owner member : String) : Except Fault Embedding := do
  let layout ← target.layout owner
  let field ← layout.field member
  return ⟨layout, member, field.type, field.offset⟩

/-- The owner of a member. The member's type must have exactly the declared name, and a member too
    near to address zero has no owner. Nothing is read. -/
def owner (embedding : Embedding) (member : Value) : Except Fault Value :=
  if member.type = embedding.memberType then do
    let address ← demand (retreat? member.address embedding.offset.toNat)
      (.memoryUnavailable member.address embedding.layout.size.toNat)
    return ⟨address, embedding.layout⟩
  else .error (.typeMismatch embedding.memberType member.type)

end Embedding

/-- The containers whose elements can be listed. -/
inductive Container.Kind where
  | list
  | hashTable
  deriving DecidableEq

/-- A registered container: its kind, and how its links are embedded in its elements. -/
structure Container where
  kind : Container.Kind
  embedding : Embedding
  deriving DecidableEq

/-- The name of a kind in the log. -/
def Container.Kind.label : Container.Kind → String
  | .list => "List"
  | .hashTable => "HashTable"

/-- The one-line description of a container. -/
def Container.summary (container : Container) : String :=
  let noun := match container.kind with
    | .list => "list"
    | .hashTable => "hash table"
  noun ++ " of " ++ container.embedding.layout.name

end KernelProbe
