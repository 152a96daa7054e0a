/-!
# Names by which a kernel is recognised

The symbols, types and fields that the library looks for in a kernel are settings, so that a kernel
with other names can be read too. The defaults are the names of the teaching kernel that the
commands were made for.

* `Config` -- the settings with their defaults.
-/

namespace KernelProbe

/-- The names by which a kernel's objects are found, and the bound on the length of its chains. -/
structure Config where
  /-- The symbol of the instruction that returns from a trap. -/
  trapReturnSymbol : String := "__trapret"
  /-- The function that traps enter the kernel through. -/
  trapEntrySymbol : String := "trap_from_user"
  /-- The name under which a frame of that function is shown. -/
  trapEntryLabel : String := "[中断处理过程]"
  /-- The structure that a trap saves on the stack. -/
  trapFrameType : String := "struct trapframe"
  /-- The directory of the bucket allocator: an array of pointers, one for each size. -/
  bucketDirectorySymbol : String := "bucket_dir"
  /-- The link embedded in list elements, and the type of a list's head. -/
  listNodeType : String := "struct linked_list_node"
  /-- The hash table object. -/
  hashTableType : String := "struct hash_table"
  /-- The node embedded in hash table elements, and the type of a bucket. -/
  hashNodeType : String := "struct hash_table_node"
  /-- The link member of a hash node. -/
  hashChainField : String := "confliced_list"
  /-- The member of a hash table that points to its buckets. -/
  hashBufferField : String := "buffer"
  /-- The member of a hash table that counts its buckets. -/
  hashLengthField : String := "buffer_length"
  /-- The register that holds the root of the page tables. -/
  satpRegister : String := "satp"
  /-- The most nodes that a single chain may have. -/
  maxChainNodes : Nat := 0x100000
  deriving DecidableEq

end KernelProbe
