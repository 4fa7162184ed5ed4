/-
Dynamic values.

A value is a boxed number, a text, an array handle, or one of the constants.  A template is a text
with interpolated values: fragment, value, fragment, value, and so on; the two lists need not have
matching lengths.
-/
import InlineCache.ArrayHandle
import InlineCache.Element

namespace InlineCache

/-- A value of the dynamic language. -/
inductive Value
  | null
  | boolean (b : Bool)
  | byte (n : Int8)
  | short (n : Int16)
  | integer (n : Int32)
  | long (n : Int64)
  | bigInteger (n : Int)
  | float (x : Binary .single)
  | double (x : Binary .double)
  | character (c : Char)
  | string (s : String)
  | template (fragments : List String) (values : List Value)
  | array (a : ArrayHandle)

namespace Value

/-- The name of a value's type, as faults and argument types show it. -/
def typeName : Value → String
  | null => "null"
  | boolean _ => "Boolean"
  | byte _ => "Byte"
  | short _ => "Short"
  | integer _ => "Integer"
  | long _ => "Long"
  | bigInteger _ => "BigInteger"
  | float _ => "Float"
  | double _ => "Double"
  | character _ => "Character"
  | string _ => "String"
  | template .. => "GString"
  | array a => a.type.arrayName

/-- Whole numbers of any width. -/
def isIntegral : Value → Bool
  | byte _ | short _ | integer _ | long _ | bigInteger _ => true
  | _ => false

/-- Numbers. -/
def isNumeric : Value → Bool
  | float _ | double _ => true
  | v => v.isIntegral

/-- Characters and texts. -/
def isTextLike : Value → Bool
  | character _ | string _ | template .. => true
  | _ => false

/-- The handle of an array. -/
def handle? : Value → Option ArrayHandle
  | array a => some a
  | _ => none

/-- The element type of an array. -/
def elementType? (v : Value) : Option ElementType := v.handle?.map ArrayHandle.type

end Value

/-- The value that holds an element. -/
def Element.box : Element → Value
  | .byte n => .byte n
  | .short n => .short n
  | .int n => .integer n
  | .long n => .long n
  | .float x => .float x
  | .double x => .double x

/-- The element that a value holds, if it is boxed in exactly the class of the element type. -/
def ElementType.unbox? : ElementType → Value → Option Element
  | .byte, .byte n => some (.byte n)
  | .short, .short n => some (.short n)
  | .int, .integer n => some (.int n)
  | .long, .long n => some (.long n)
  | .float, .float x => some (.float x)
  | .double, .double x => some (.double x)
  | _, _ => none

end InlineCache
