/-
Elements: primitive values, as they lie in an array.
-/
import InlineCache.Binary.Format
import InlineCache.ElementType

namespace InlineCache

/-- A primitive value of one of the six element types. -/
inductive Element
  | byte (n : Int8)
  | short (n : Int16)
  | int (n : Int32)
  | long (n : Int64)
  | float (x : Binary .single)
  | double (x : Binary .double)
  deriving DecidableEq

namespace Element

/-- The element type that an element belongs to. -/
def type : Element → ElementType
  | byte _ => .byte
  | short _ => .short
  | int _ => .int
  | long _ => .long
  | float _ => .float
  | double _ => .double

/-- The element that fills a new array. -/
def zero : ElementType → Element
  | .byte => byte 0
  | .short => short 0
  | .int => int 0
  | .long => long 0
  | .float => float (Binary.zero _ false)
  | .double => double (Binary.zero _ false)

@[simp] theorem type_zero (t : ElementType) : (zero t).type = t := by cases t <;> rfl

/-- Equality of type and number: NaN differs from itself, and the two zeros are equal. -/
def numericEq : Element → Element → Bool
  | byte a, byte b => a == b
  | short a, short b => a == b
  | int a, int b => a == b
  | long a, long b => a == b
  | float a, float b => a.numericEq b
  | double a, double b => a.numericEq b
  | _, _ => false

end Element

end InlineCache
