/-
The six primitive element types and their names.
-/
namespace InlineCache

/-- What an array holds. -/
inductive ElementType
  | byte
  | short
  | int
  | long
  | float
  | double
  deriving DecidableEq, Repr

namespace ElementType

/-- Every element type, in the order in which they are listed. -/
def all : List ElementType := [byte, short, int, long, float, double]

theorem mem_all (t : ElementType) : t ∈ all := by cases t <;> decide

/-- The name of the primitive type. -/
def name : ElementType → String
  | byte => "byte"
  | short => "short"
  | int => "int"
  | long => "long"
  | float => "float"
  | double => "double"

/-- The name of the array type with these elements. -/
def arrayName : ElementType → String
  | byte => "byte[]"
  | short => "short[]"
  | int => "int[]"
  | long => "long[]"
  | float => "float[]"
  | double => "double[]"

/-- The name of the class of boxed elements. -/
def boxedName : ElementType → String
  | byte => "Byte"
  | short => "Short"
  | int => "Integer"
  | long => "Long"
  | float => "Float"
  | double => "Double"

/-- The size of one element in bytes. -/
def byteSize : ElementType → Nat
  | byte => 1
  | short => 2
  | int => 4
  | long => 8
  | float => 4
  | double => 8

end ElementType

end InlineCache
