/-
Handlers: what an assignment to an array of some element type runs.

A handler is the built-in assignment of an element type, or an override with a body of its own.
A body is a `Script`: a finite tree of actions on arrays and registries, each followed by what to
do with its outcome.  Bodies thus act only through the operations listed here, and running one
ends.
-/
import InlineCache.Assignment

namespace InlineCache

/-- The actions of an override body, over a type of handlers to install. -/
inductive Script (α : Type)
  /-- Ends with a result. -/
  | finish (result : Except Fault Value)
  /-- Reads a slot. -/
  | get (array : ArrayHandle) (index : Int64) (next : Except Fault Element → Script α)
  /-- Writes a slot. -/
  | put (array : ArrayHandle) (index : Int64) (element : Element)
      (next : Except Fault Unit → Script α)
  /-- Copies the storage of an array. -/
  | snapshot (array : ArrayHandle) (next : Storage → Script α)
  /-- Makes a new array of a storage. -/
  | allocate (storage : Storage) (next : ArrayHandle → Script α)
  /-- Performs a built-in assignment with a coercion service of its own. -/
  | assign (type : ElementType) (service : CoercionService) (assignment : Assignment)
      (next : Except Fault Unit → Script α)
  /-- Installs a handler in a registry and receives the new version. -/
  | redefine (registry : Nat) (type : ElementType) (handler : α) (next : UInt64 → Script α)

/-- What is run for an assignment. -/
inductive Handler
  | builtin (type : ElementType)
  | override (name : String) (body : Assignment → Script Handler)

namespace Handler

/-- The element type of a built-in handler. -/
def builtinType? : Handler → Option ElementType
  | builtin t => some t
  | override .. => none

end Handler

end InlineCache
