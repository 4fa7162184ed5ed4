/-
The faults that reading, assigning and coercing can raise, and their wording.
-/
namespace InlineCache

/-- A failed operation. -/
inductive Fault
  /-- An index with no slot, as it was supplied, and the length it was measured against. -/
  | outOfRange (index : Int64) (length : Nat)
  /-- An operand of the wrong type. -/
  | typeMismatch (expected found : String)
  /-- A value that has no counterpart in the target type. -/
  | uncoercible (value target : String)
  deriving DecidableEq, Repr

namespace Fault

/-- The text shown to the user. -/
def message : Fault → String
  | outOfRange index length =>
    "index " ++ toString index ++ " out of range for length " ++ toString length
  | typeMismatch expected found => "type mismatch: expected " ++ expected ++ ", found " ++ found
  | uncoercible value target => "cannot coerce " ++ value ++ " to " ++ target

end Fault

end InlineCache
