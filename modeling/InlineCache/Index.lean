/-
Logical indices: a negative index counts from the end of the container.
-/
import InlineCache.Fault

namespace InlineCache

-- `2 ^ n` is the power of core also beside an import that has another
attribute [local instance (2000)] instPowNat

/-- The slot that a logical index names in a container of the given length.  Lengths past the
largest signed word have no slots that an index could name. -/
def resolveIndex (logical : Int64) (length : Nat) : Except Fault Nat :=
  if length < 2 ^ (63 : Nat) then
    let size := Int64.ofNat length
    let physical := if 0 ≤ logical then logical else size + logical
    if physical < 0 ∨ size ≤ physical then .error (.outOfRange logical length)
    else .ok physical.toNatClampNeg
  else .error (.outOfRange logical length)

end InlineCache
