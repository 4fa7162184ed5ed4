/-
Dispatchers: generic assignment and reading, and the linking of call sites.

A dispatcher finds the handler for the receiver's element type in its registry on every call, and
gives it its own coercion service.
-/
import InlineCache.Linking

namespace InlineCache

/-- A way of performing assignments: a registry by number, a coercion service, and settings. -/
structure Dispatcher where
  registry : Nat
  service : CoercionService
  settings : DispatchSettings

namespace Dispatcher

/-- The fault for a receiver that is no array. -/
def noArray (receiver : Value) : Fault := .typeMismatch "primitive array" receiver.typeName

/-- Performs an assignment with the handler in force. -/
def assign (d : Dispatcher) (s : Store) (a : Assignment) : Reply :=
  match a.receiver.elementType? with
  | some t => ((s.registry d.registry).handler t).assign d.service s a
  | none => ⟨.error (noArray a.receiver), s, .none⟩

/-- Performs an assignment given as a list of arguments. -/
def apply (d : Dispatcher) (s : Store) (receiver : Value) (args : List Value) : Reply :=
  match args with
  | [index, value] => d.assign s ⟨receiver, index, value⟩
  | _ =>
    ⟨.error (.typeMismatch "2 arguments" (toString args.length ++ " arguments")), s, .none⟩

/-- Reads `receiver[index]`. -/
def read (s : Store) (receiver index : Value) : Except Fault Value := do
  match receiver.handle? with
  | some array =>
    let logical ← index.logicalIndex
    let element ← s.heap.get array logical
    .ok element.box
  | none => .error (noArray receiver)

/-- What a site should remember of a call. -/
def link (d : Dispatcher) (s : Store) (receiver : Value) (args : List Value) : SiteState :=
  match receiver.elementType? with
  | some t =>
    let r := s.registry d.registry
    (r.handler t).link d.settings (r.version t) receiver (args.map Value.typeName)
  | none => .passThrough

end Dispatcher

end InlineCache
