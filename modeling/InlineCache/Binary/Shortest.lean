/-
The shortest decimal that reads back as a given floating-point number.

Around every finite number lies the interval of reals that round to it, bounded by the midpoints
to its neighbours; the bounds belong to it exactly when the significand is even.  The shortest
decimal is the point of the coarsest grid `10 ^ e` that has a point in the interval: of the two
grid points next to the number the nearer one inside, and the upper one when both are equally
near.  If any point of a grid lies in the interval, so does one of these two, because the interval
contains the number itself.

The search ends at the grid of the number's own last binary place, where the number is a grid
point, so no bound on the count of digits has to be guessed.
-/
import InlineCache.Binary.Rounding

namespace InlineCache

-- `2 ^ n` is the power of core also beside an import that has another
attribute [local instance (2000)] instPowNat

/-- The decimal `digits · 10 ^ exponent`. -/
structure Decimal where
  digits : Nat
  exponent : Int
  deriving DecidableEq, Repr

/-- A positive real with the interval of reals that round to it, all three in units of
`2 ^ exponent`. -/
structure RoundingInterval where
  lower : Nat
  value : Nat
  upper : Nat
  exponent : Int
  closed : Bool

namespace RoundingInterval

/-- The interval of a finite number.  In quarters of the significand's last place the midpoints
are two away, except that below a power of two the neighbours are twice as dense. -/
def ofFinite (f : Format) (significand scale : Nat) : RoundingInterval :=
  let denserBelow := significand = 2 ^ (f.precision - 1) ∧ scale ≠ 0
  { lower := 4 * significand - (if denserBelow then 1 else 2)
    value := 4 * significand
    upper := 4 * significand + 2
    exponent := scale - f.fractionBits - 2
    closed := significand % 2 == 0 }

/-- The factor by which an endpoint is multiplied before it is measured on the grid `10 ^ e`. -/
def numerator (i : RoundingInterval) (e : Int) : Nat :=
  2 ^ i.exponent.toNat * 10 ^ (-e).toNat

/-- The grid step `10 ^ e` in the same measure. -/
def step (i : RoundingInterval) (e : Int) : Nat :=
  2 ^ (-i.exponent).toNat * 10 ^ e.toNat

/-- Whether the grid point `n · 10 ^ e` lies in the interval. -/
def contains (i : RoundingInterval) (n : Nat) (e : Int) : Bool :=
  let lower := i.lower * i.numerator e
  let upper := i.upper * i.numerator e
  let point := n * i.step e
  if i.closed then lower ≤ point && point ≤ upper else lower < point && point < upper

/-- The grid point inside the interval that is nearest to the number, if there is one; a tie goes
up. -/
def nearestOnGrid? (i : RoundingInterval) (e : Int) : Option Nat :=
  let value := i.value * i.numerator e
  let below := value / i.step e
  let rest := value % i.step e
  match i.contains below e, i.contains (below + 1) e with
  | true, true => some (if 2 * rest < i.step e then below else below + 1)
  | true, false => some below
  | false, true => some (below + 1)
  | false, false => none

/-- Looks through `steps` grids from `10 ^ e` downwards, then takes the next one, on which the
number itself has to be a point. -/
def search (i : RoundingInterval) : Nat → Int → Decimal
  | 0, e => ⟨i.value * i.numerator e / i.step e, e⟩
  | steps + 1, e =>
    match i.nearestOnGrid? e with
    | some digits => ⟨digits, e⟩
    | none => i.search steps (e - 1)

/-- A grid coarser than the number: from the position of the leading bit, with `log₁₀ 2` rounded
to five places. -/
def topExponent (i : RoundingInterval) : Int :=
  ((bitLength i.value : Int) + i.exponent) * 30103 / 100000 + 1

/-- The shortest decimal in the interval, nearest to the number. -/
def shortest (i : RoundingInterval) : Decimal :=
  let bottom := min 0 i.exponent
  i.search (i.topExponent - bottom).toNat i.topExponent

end RoundingInterval

end InlineCache
