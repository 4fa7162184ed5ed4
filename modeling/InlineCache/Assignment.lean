/-
Assignments `receiver[index] = value`, and the built-in way to perform one.

The built-in assignment of an element type looks at the receiver, then the index, then the
payload, and only then at the bounds of the array; the first defect is the one reported.
-/
import InlineCache.Payload

namespace InlineCache

/-- The operands of `receiver[index] = value`. -/
structure Assignment where
  receiver : Value
  index : Value
  value : Value

/-- The logical index that an integral value denotes, saturating at the ends of a word. -/
def Value.logicalIndex : Value → Except Fault Int64
  | .byte n => .ok n.toInt64
  | .short n => .ok n.toInt64
  | .integer n => .ok n.toInt64
  | .long n => .ok n
  | .bigInteger n => .ok (Word.saturate n)
  | v => .error (.typeMismatch "Integer" v.typeName)

namespace ElementType

/-- The array that a value is, if its elements have the type. -/
def container (t : ElementType) (v : Value) : Except Fault ArrayHandle :=
  match v with
  | .array a => if a.type = t then .ok a else .error (.typeMismatch t.arrayName v.typeName)
  | v => .error (.typeMismatch t.arrayName v.typeName)

/-- The built-in assignment for arrays of the type. -/
def assign (t : ElementType) (service : CoercionService) (h : Heap) (a : Assignment) :
    Except Fault Heap × CoercionCalls :=
  match t.container a.receiver, a.index.logicalIndex with
  | .error f, _ => (.error f, .none)
  | .ok _, .error f => (.error f, .none)
  | .ok array, .ok logical =>
    let coerced := t.coerce service h a.value
    (coerced.1.bind (h.put array logical), coerced.2)

end ElementType

end InlineCache
