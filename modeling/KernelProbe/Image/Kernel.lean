import KernelProbe.Backtrace.SavedFrame
import KernelProbe.Image.Basic

/-!
# The layouts of the teaching kernel

The types that the default settings name, as the teaching kernel declares them, with two owners of
links: `struct proc`, an element of lists, and `struct inode`, an element of hash tables.

* `kernelLayouts` -- the layouts;
* `Image.kernel` -- an image that holds them and nothing else.
-/

namespace KernelProbe

/-- The scalar types. -/
def scalarLayouts : List Layout :=
  [.scalar "void" 1, .scalar "uint8_t" 1, .scalar "uint16_t" 2, .scalar "uint32_t" 4,
    .scalar "uint64_t" 8]

/-- The pointer types, each written as its target with a star. -/
def pointerLayouts : List Layout :=
  ["void", "struct linked_list_node", "struct hash_table_node", "struct hash_table",
    "struct bucket_desc"].map fun target => .pointer (target ++ " *") target

/-- The structures that a trap saves on the stack. -/
def trapLayouts : List Layout :=
  [.record "struct pushregs" 256
      (generalNames.toList.mapIdx fun number name => ⟨name, .ofNat (8 * number), "uint64_t"⟩),
    .record "struct trapframe" 288
      [⟨"gpr", 0, "struct pushregs"⟩, ⟨"status", 256, "uint64_t"⟩, ⟨"epc", 264, "uint64_t"⟩,
        ⟨"badvaddr", 272, "uint64_t"⟩, ⟨"cause", 280, "uint64_t"⟩]]

/-- The links of lists and hash tables, and the descriptors of the allocator. -/
def chainLayouts : List Layout :=
  [.record "struct linked_list_node" 16
      [⟨"prev", 0, "struct linked_list_node *"⟩, ⟨"next", 8, "struct linked_list_node *"⟩],
    .record "struct hash_table_node" 16 [⟨"confliced_list", 0, "struct linked_list_node"⟩],
    .record "struct hash_table" 32
      [⟨"buffer_length", 0, "uint64_t"⟩, ⟨"is_equal", 8, "void *"⟩, ⟨"get_hash", 16, "void *"⟩,
        ⟨"buffer", 24, "struct hash_table_node *"⟩],
    .record "struct bucket_desc" 32
      [⟨"next", 0, "struct bucket_desc *"⟩, ⟨"page", 8, "uint64_t"⟩, ⟨"freeidx", 16, "uint64_t"⟩,
        ⟨"refcnt", 24, "uint64_t"⟩],
    .array "struct bucket_desc *[9]" "struct bucket_desc *" 8 0 8]

/-- Two objects that are elements of containers. -/
def ownerLayouts : List Layout :=
  [.record "struct proc" 40
      [⟨"pid", 0, "uint64_t"⟩, ⟨"list", 8, "struct linked_list_node"⟩, ⟨"state", 24, "uint32_t"⟩,
        ⟨"parent", 32, "void *"⟩],
    .record "struct inode" 32
      [⟨"ino", 0, "uint64_t"⟩, ⟨"hash", 8, "struct hash_table_node"⟩, ⟨"size", 24, "uint64_t"⟩]]

/-- All layouts of the teaching kernel. -/
def kernelLayouts : List Layout :=
  chainLayouts ++ pointerLayouts ++ scalarLayouts ++ trapLayouts ++ ownerLayouts

/-- An image that holds the layouts of the teaching kernel. -/
def Image.kernel : Image :=
  .ofLayouts (kernelLayouts.map fun layout => (layout.name, layout))

end KernelProbe
