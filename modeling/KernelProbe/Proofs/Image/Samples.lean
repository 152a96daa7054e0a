import KernelProbe.Config
import KernelProbe.Image.Kernel

/-!
# Kernels to look at

The statements of the theory are looked at in kernels that are small enough to be written down.
Most of them have the layouts of the teaching kernel, and a memory of a few regions of words.

* `kernelLayout` -- the layout that the teaching kernel has for a name;
* `wordsAt` -- a region of words;
* `shortChains` -- settings by which chains are short.
-/

namespace KernelProbe

/-- The layout that the teaching kernel has for a name. -/
def kernelLayout (name : String) : Layout :=
  (Image.kernel.view.layout? name).getD (.scalar name 0)

/-- The region that holds these words. -/
def wordsAt (start : UInt64) (words : List UInt64) : Region :=
  ⟨start, (words.flatMap Memory.wordBytes).toArray⟩

/-- The settings of the teaching kernel, but for chains of two descriptors at the most. -/
def shortChains : Config :=
  { maxChainNodes := 2 }

end KernelProbe
