/-
Payloads: how a value becomes an element of the array it is assigned to.

A value boxed in exactly the element's class is unboxed without help.  A text goes through its
character, every other number is narrowed, and anything else does not fit.  `ElementType.coerce`
also counts the calls that it makes to the coercion service.
-/
import InlineCache.Coercion

namespace InlineCache

/-- Calls made to a coercion service. -/
structure CoercionCalls where
  characters : Nat
  narrowings : Nat
  deriving DecidableEq, Repr

namespace CoercionCalls

/-- No calls. -/
def none : CoercionCalls := ⟨0, 0⟩

/-- The calls of two activities. -/
def add (a b : CoercionCalls) : CoercionCalls :=
  ⟨a.characters + b.characters, a.narrowings + b.narrowings⟩

instance : Add CoercionCalls := ⟨add⟩

end CoercionCalls

/-- What a value is to an element type. -/
inductive Payload
  | exact (e : Element)
  | text
  | numeric
  | incompatible
  deriving DecidableEq

namespace ElementType

/-- Looks for the exact class first, then for text, then for a number. -/
def classify (t : ElementType) (v : Value) : Payload :=
  match t.unbox? v with
  | some e => .exact e
  | none => if v.isTextLike then .text else if v.isNumeric then .numeric else .incompatible

/-- The fault for a value that does not fit. -/
def mismatch (t : ElementType) (v : Value) : Fault := .typeMismatch t.boxedName v.typeName

/-- The element that a value becomes, and the calls to the service that it took. -/
def coerce (t : ElementType) (service : CoercionService) (h : Heap) (v : Value) :
    Except Fault Element × CoercionCalls :=
  match t.classify v with
  | .exact e => (.ok e, .none)
  | .text =>
    match service.character h v with
    | .ok c => (service.narrow h (.character c) t, ⟨1, 1⟩)
    | .error f => (.error f, ⟨1, 0⟩)
  | .numeric => (service.narrow h v t, ⟨0, 1⟩)
  | .incompatible => (.error (t.mismatch v), .none)

end ElementType

end InlineCache
