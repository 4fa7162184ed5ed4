/-
The heap: every storage that array handles refer to.

Reading and writing through a handle start from a logical index, which is measured against the
length the handle remembers.  A write that fails leaves no new heap behind.
-/
import InlineCache.ArrayHandle
import InlineCache.Index
import InlineCache.Storage

namespace InlineCache

/-- The shared storages, one per cell. -/
structure Heap where
  cells : Array Storage

namespace Heap

/-- The heap without storages. -/
def empty : Heap := ⟨#[]⟩

/-- Puts a storage into a new cell. -/
def allocate (h : Heap) (s : Storage) : ArrayHandle × Heap :=
  (⟨h.cells.size, s.type, s.length⟩, ⟨h.cells.push s⟩)

/-- The storage that a handle refers to.  A handle without a cell refers to an empty one. -/
def storage (h : Heap) (a : ArrayHandle) : Storage :=
  h.cells.getD a.cell (Storage.zeroed a.type 0)

/-- The element at a logical index. -/
def get (h : Heap) (a : ArrayHandle) (logical : Int64) : Except Fault Element := do
  let physical ← resolveIndex logical a.length
  match (h.storage a).get? physical with
  | some e => .ok e
  | none => .error (.outOfRange logical a.length)

/-- The heap with the element at a logical index replaced. -/
def put (h : Heap) (a : ArrayHandle) (logical : Int64) (e : Element) : Except Fault Heap := do
  let physical ← resolveIndex logical a.length
  let s ← (h.storage a).set physical e
  .ok ⟨h.cells.setIfInBounds a.cell s⟩

/-- The elements that a handle reaches, in order. -/
def elements (h : Heap) (a : ArrayHandle) : List Element :=
  (List.range a.length).filterMap (h.storage a).get?

end Heap

end InlineCache
