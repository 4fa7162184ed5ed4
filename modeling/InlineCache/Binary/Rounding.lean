/-
Rounding exact values to a binary format, and reading integers out of it.

Every rounding goes to the nearest number of the format, a tie to the even significand, and past
the largest finite number to infinity.

* `Binary.round f negative n e` rounds `± n · 2 ^ e`;
* `Binary.ofInt` and `Binary.convert` are its instances for integers and for numbers of another
  format;
* `Binary.isWhole` says whether a number is an integer, and `Binary.lt` compares two numbers;
* `Binary.clamped` is the integer part toward zero, saturating at two bounds, with 0 for NaN.
-/
import InlineCache.Binary.Format

namespace InlineCache

-- `2 ^ n` is the power of core also beside an import that has another
attribute [local instance (2000)] instPowNat

/-- `n / 2 ^ t` rounded to the nearest integer, a tie to the even one. -/
def roundShift (n t : Nat) : Nat :=
  let quotient := n / 2 ^ t
  let rest := n % 2 ^ t
  if 2 * rest < 2 ^ t ∨ (2 * rest = 2 ^ t ∧ quotient % 2 = 0) then quotient else quotient + 1

/-- The number of binary digits. -/
def bitLength (n : Nat) : Nat := if n = 0 then 0 else n.log2 + 1

theorem bitLength_le_iff {n k : Nat} : bitLength n ≤ k ↔ n < 2 ^ k := by
  by_cases hn : n = 0
  · rw [hn]
    exact iff_of_true (Nat.zero_le k) (Nat.two_pow_pos k)
  · rw [bitLength, if_neg hn, ← Nat.log2_lt hn]
    omega

theorem lt_bitLength_iff {n k : Nat} : k < bitLength n ↔ 2 ^ k ≤ n := by
  have h := bitLength_le_iff (n := n) (k := k)
  omega

theorem lt_two_pow_bitLength (n : Nat) : n < 2 ^ bitLength n :=
  bitLength_le_iff.mp (Nat.le_refl _)

theorem two_pow_bitLength_le {n : Nat} (hn : 0 < n) : 2 ^ (bitLength n - 1) ≤ n := by
  have hpos : 0 < bitLength n := lt_bitLength_iff.mpr hn
  exact lt_bitLength_iff.mp (Nat.sub_lt hpos Nat.one_pos)

theorem bitLength_mul_two_pow {n : Nat} (hn : 0 < n) (j : Nat) :
    bitLength (n * 2 ^ j) = bitLength n + j := by
  have hpos : 0 < bitLength n := lt_bitLength_iff.mpr hn
  refine Nat.le_antisymm (bitLength_le_iff.mpr ?_) ?_
  · rw [Nat.pow_add]
    exact (Nat.mul_lt_mul_right (Nat.two_pow_pos j)).mpr (lt_two_pow_bitLength n)
  · have hlow : 2 ^ (bitLength n - 1 + j) ≤ n * 2 ^ j := by
      rw [Nat.pow_add]
      exact Nat.mul_le_mul_right _ (two_pow_bitLength_le hn)
    have hlt := lt_bitLength_iff.mpr hlow
    omega

namespace Binary

variable {f : Format}

/-- The number with the given significand and scale, infinity when the scale is past the last. -/
def assemble (f : Format) (negative : Bool) (significand scale : Nat) : Binary f :=
  if h : f.Canonical significand scale then .finite negative significand scale h
  else .infinite negative

/-- The number nearest to `± n · 2 ^ e`.  The scale leaves `precision` bits in the significand
unless the unit is already coarser; a carry out of the rounding moves to the next scale. -/
def round (f : Format) (negative : Bool) (n : Nat) (e : Int) : Binary f :=
  if n = 0 then zero f negative
  else
    let shift : Int := e + f.fractionBits
    let scale := (bitLength n + shift - f.precision).toNat
    let significand :=
      if scale ≤ shift then n * 2 ^ (shift - scale).toNat else roundShift n (scale - shift).toNat
    if significand = 2 ^ f.precision then
      assemble f negative (2 ^ (f.precision - 1)) (scale + 1)
    else assemble f negative significand scale

/-- The number nearest to an integer. -/
def ofInt (f : Format) (n : Int) : Binary f := round f (n < 0) n.natAbs 0

/-- The number of format `g` nearest to a number of format `f`. -/
def convert (g : Format) : Binary f → Binary g
  | .nan => .nan
  | .infinite negative => .infinite negative
  | .finite negative m k _ => round g negative m (k - f.fractionBits)

/-- The magnitude of a finite number in units of its format. -/
def units (significand scale : Nat) : Nat := significand * 2 ^ scale

/-- A finite number in units of its format. -/
def signedUnits (negative : Bool) (significand scale : Nat) : Int :=
  if negative then -units significand scale else units significand scale

/-- The integer part of a finite number, toward zero. -/
def integerPart (f : Format) (negative : Bool) (significand scale : Nat) : Int :=
  let magnitude := units significand scale / 2 ^ f.fractionBits
  if negative then -magnitude else magnitude

/-- Whether a number is an integer: it has no fractional part. -/
def isWhole : Binary f → Bool
  | .finite _ m k _ => units m k % 2 ^ f.fractionBits == 0
  | _ => false

/-- The order of numbers: NaN is not comparable, and the two zeros are equal. -/
def lt : Binary f → Binary f → Bool
  | .nan, _ | _, .nan => false
  | .infinite negative, .infinite negative' => negative && !negative'
  | .infinite negative, .finite .. => negative
  | .finite .., .infinite negative => !negative
  | .finite negative m k _, .finite negative' m' k' _ =>
    decide (signedUnits negative m k < signedUnits negative' m' k')

/-- The integer part clamped to `[lo, hi]`; infinities go to the bounds and NaN to zero. -/
def clamped (lo hi : Int) : Binary f → Int
  | .nan => 0
  | .infinite true => lo
  | .infinite false => hi
  | .finite negative m k _ => max lo (min hi (integerPart f negative m k))

end Binary

end InlineCache
