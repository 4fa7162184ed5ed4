/-
Binary floating-point formats and their numbers.

A finite number of a format is `± significand · 2 ^ scale` units, where the unit is the least
positive number of the format, `2 ^ (- fractionBits)`.  Counting in units keeps every question
about finite numbers (order, exactness, rounding) a question about natural numbers.

* `Format.Canonical` singles out one significand and scale per number, so equal numbers of one
  sign are equal as data;
* `Binary.ofBits` and `Binary.toBits` read and write the interchange encoding: sign, biased
  exponent, trailing significand.

Design notes: there is a single `nan`, without sign or payload, because no operation of this
library can tell two of them apart.
-/
namespace InlineCache

-- `2 ^ n` is the power of core also beside an import that has another
attribute [local instance (2000)] instPowNat

/-- The two floating-point formats of the element types. -/
inductive Format
  | single
  | double
  deriving DecidableEq, Repr

namespace Format

/-- Bits of the significand, the leading one included. -/
def precision : Format → Nat
  | single => 24
  | double => 53

/-- Bits of the exponent field in the interchange encoding. -/
def exponentBits : Format → Nat
  | single => 8
  | double => 11

/-- The unit of the format is `2 ^ (- fractionBits)`. -/
def fractionBits (f : Format) : Nat := 2 ^ (f.exponentBits - 1) + f.precision - 3

/-- The scale of the largest finite numbers. -/
def maxScale (f : Format) : Nat := 2 ^ f.exponentBits - 3

/-- The significand fits, the scale is in range, and the significand is full unless the scale is
the least one: each magnitude has exactly one such pair. -/
def Canonical (f : Format) (significand scale : Nat) : Prop :=
  significand < 2 ^ f.precision ∧ scale ≤ f.maxScale ∧
    (2 ^ (f.precision - 1) ≤ significand ∨ scale = 0)

instance (f : Format) (m k : Nat) : Decidable (f.Canonical m k) := by
  unfold Canonical; infer_instance

theorem precision_pos (f : Format) : 0 < f.precision := by cases f <;> decide

/-- A significand without its leading bit, at the least scale. -/
theorem canonical_subnormal (f : Format) {m : Nat} (h : m < 2 ^ (f.precision - 1)) :
    f.Canonical m 0 := by
  refine ⟨?_, Nat.zero_le _, Or.inr rfl⟩
  exact Nat.lt_of_lt_of_le h (Nat.pow_le_pow_right (by decide) (Nat.sub_le _ _))

/-- A full significand at any scale in range. -/
theorem canonical_normal (f : Format) {m k : Nat} (h : m < 2 ^ (f.precision - 1))
    (hk : k ≤ f.maxScale) : f.Canonical (m + 2 ^ (f.precision - 1)) k := by
  refine ⟨?_, hk, Or.inl (Nat.le_add_left _ _)⟩
  have hp : f.precision = (f.precision - 1) + 1 := by have := f.precision_pos; omega
  have : 2 ^ f.precision = 2 ^ (f.precision - 1) * 2 := by
    conv => lhs; rw [hp]
    rw [Nat.pow_succ]
  omega

end Format

/-- A floating-point number of a format. -/
inductive Binary (f : Format)
  | nan
  | infinite (negative : Bool)
  | finite (negative : Bool) (significand scale : Nat) (canonical : f.Canonical significand scale)
  deriving DecidableEq

namespace Binary

variable {f : Format}

/-- The zero of either sign. -/
def zero (f : Format) (negative : Bool) : Binary f :=
  .finite negative 0 0 (f.canonical_subnormal (Nat.two_pow_pos _))

/-- Neither NaN nor an infinity. -/
def isFinite : Binary f → Bool
  | .finite .. => true
  | _ => false

/-- Equality of numbers: NaN differs from everything, itself included, and the two zeros are
equal. -/
def numericEq : Binary f → Binary f → Bool
  | .infinite s, .infinite t => s == t
  | .finite s m k _, .finite t n l _ => m == n && k == l && (s == t || m == 0)
  | _, _ => false

/-- Reads the interchange encoding.  An exponent field of all ones is an infinity or NaN; a zero
exponent field has no hidden bit. -/
def ofBits (f : Format) (bits : Nat) : Binary f :=
  let half := 2 ^ (f.precision - 1)
  let trailing := bits % half
  let biased := bits / half % 2 ^ f.exponentBits
  let negative := bits / half / 2 ^ f.exponentBits % 2 == 1
  have ht : trailing < 2 ^ (f.precision - 1) := Nat.mod_lt _ (Nat.two_pow_pos _)
  if hb : biased = 2 ^ f.exponentBits - 1 then
    if trailing = 0 then .infinite negative else .nan
  else if biased = 0 then
    .finite negative trailing 0 (f.canonical_subnormal ht)
  else
    have hk : biased - 1 ≤ f.maxScale := by
      have : biased < 2 ^ f.exponentBits := Nat.mod_lt _ (Nat.two_pow_pos _)
      unfold Format.maxScale
      omega
    .finite negative (trailing + half) (biased - 1) (f.canonical_normal ht hk)

/-- The interchange encoding.  The magnitude of a finite number is its position in the order of
nonnegative numbers; NaN is written with the highest trailing bit only. -/
def toBits (x : Binary f) : Nat :=
  let half := 2 ^ (f.precision - 1)
  let sign (negative : Bool) : Nat := if negative then half * 2 ^ f.exponentBits else 0
  match x with
  | .nan => half * (2 ^ f.exponentBits - 1) + half / 2
  | .infinite negative => sign negative + half * (2 ^ f.exponentBits - 1)
  | .finite negative m k _ => sign negative + half * k + m

end Binary

end InlineCache
