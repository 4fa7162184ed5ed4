/-
Equality of values.

Values are equal when they have the same class and the same content: numbers are compared as
numbers within their class, templates fragment by fragment and value by value, and arrays by the
storage they share, whatever it holds.
-/
import InlineCache.Value

namespace InlineCache

mutual

/-- Equality of two values. -/
def Value.equals : Value → Value → Bool
  | .null, .null => true
  | .boolean a, .boolean b => a == b
  | .byte a, .byte b => a == b
  | .short a, .short b => a == b
  | .integer a, .integer b => a == b
  | .long a, .long b => a == b
  | .bigInteger a, .bigInteger b => a == b
  | .float a, .float b => a.numericEq b
  | .double a, .double b => a.numericEq b
  | .character a, .character b => a == b
  | .string a, .string b => a == b
  | .template fs vs, .template gs ws => fs == gs && Value.allEqual vs ws
  | .array a, .array b => a.sharesStorage b
  | _, _ => false

/-- Equality of lists of the same length, value by value. -/
def Value.allEqual : List Value → List Value → Bool
  | [], [] => true
  | v :: vs, w :: ws => v.equals w && Value.allEqual vs ws
  | _, _ => false

end

instance : BEq Value := ⟨Value.equals⟩

end InlineCache
