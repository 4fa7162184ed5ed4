/-
Handles on shared arrays.

A handle names a cell of the heap and remembers the element type and the length that its storage
had when it was made; neither changes afterwards.  Copies of a handle share the storage.
-/
import InlineCache.ElementType

namespace InlineCache

/-- A reference to a storage in the heap. -/
structure ArrayHandle where
  cell : Nat
  type : ElementType
  length : Nat
  deriving DecidableEq, Repr

namespace ArrayHandle

/-- Whether two handles refer to the same storage. -/
def sharesStorage (a b : ArrayHandle) : Bool := a.cell == b.cell

end ArrayHandle

end InlineCache
