/-
What floating-point numbers stand for.

A bit pattern of the interchange encoding stands for NaN, for an infinity, or for one exact
rational number (`Format.read`).

* `Binary.reading_ofBits`: numbers stand for what the encoding says of their bits;
* `Binary.reading_round`, `Binary.reading_convert_double`: a rounding keeps what a number of the
  format stands for, and so does the conversion of a single to a double;
* `Binary.lt_iff`, `Binary.isWhole_iff`, `Binary.clamped_eq`: order, wholeness and integer part of
  numbers are those of the rational numbers.
-/
import InlineCache.Proofs.Rounding
import Mathlib.Algebra.Order.Field.Power
import Mathlib.Data.Rat.Floor
import Mathlib.Tactic.FieldSimp
import Mathlib.Tactic.Positivity
import Mathlib.Tactic.Ring

namespace InlineCache

/-- What a floating-point number stands for. -/
inductive Reading
  | nan
  | infinite (negative : Bool)
  | exactly (q : ℚ)

/-- A rational number of the given sign. -/
def signed (negative : Bool) (q : ℚ) : ℚ := if negative then -q else q

theorem abs_signed (negative : Bool) (q : ℚ) : |signed negative q| = |q| := by
  cases negative
  · rfl
  · exact abs_neg q

/-- The magnitude of a number is a matter of its value. -/
theorem eq_of_signed_eq {negative negative' : Bool} {p q : ℚ} (hp : 0 ≤ p) (hq : 0 ≤ q)
    (h : signed negative p = signed negative' q) : p = q := by
  rw [← abs_of_nonneg hp, ← abs_signed negative, h, abs_signed, abs_of_nonneg hq]

/-! ### Bit patterns -/

namespace Format

/-- What is subtracted from the exponent field. -/
def bias (f : Format) : ℤ := 2 ^ (f.exponentBits - 1) - 1

/-- The interchange encoding: a sign, an exponent with a bias, and a fraction.  An exponent field
of all ones marks the infinities and NaN, and one of all zeros the numbers without a hidden bit. -/
def read (f : Format) (bits : ℕ) : Reading :=
  let negative := bits.testBit (f.precision - 1 + f.exponentBits)
  let exponent := bits / 2 ^ (f.precision - 1) % 2 ^ f.exponentBits
  let trailing := bits % 2 ^ (f.precision - 1)
  let fraction : ℚ := trailing / 2 ^ (f.precision - 1)
  if exponent = 2 ^ f.exponentBits - 1 then
    if trailing = 0 then .infinite negative else .nan
  else if exponent = 0 then .exactly (signed negative (2 ^ (1 - f.bias) * fraction))
  else .exactly (signed negative (2 ^ (exponent - f.bias) * (1 + fraction)))

/-- The unit of a format in terms of its fields. -/
theorem two_pow_fractionBits (f : Format) :
    (2 : ℚ) ^ f.fractionBits = 2 ^ (f.bias - 1) * 2 ^ (f.precision - 1) := by
  have hsum : (f.fractionBits : ℤ) = f.bias - 1 + (f.precision - 1 : ℕ) := by
    cases f <;> decide
  rw [← zpow_natCast, hsum, zpow_add₀ two_ne_zero, zpow_natCast]

end Format

namespace Binary

variable {f : Format}

/-- What a number stands for. -/
def reading : Binary f → Reading
  | .nan => .nan
  | .infinite negative => .infinite negative
  | .finite negative m k _ => .exactly (signed negative (units m k / 2 ^ f.fractionBits))

/-- A significand without the hidden bit, read in units. -/
theorem units_subnormal (f : Format) (trailing : ℕ) :
    (units trailing 0 / 2 ^ f.fractionBits : ℚ) =
      2 ^ (1 - f.bias) * (trailing / 2 ^ (f.precision - 1)) := by
  rw [f.two_pow_fractionBits, units, pow_zero, mul_one, show 1 - f.bias = -(f.bias - 1) by ring,
    zpow_neg]
  field_simp

/-- A significand with the hidden bit, read in units. -/
theorem units_normal (f : Format) (trailing scale : ℕ) :
    (units (trailing + 2 ^ (f.precision - 1)) scale / 2 ^ f.fractionBits : ℚ) =
      2 ^ ((scale + 1 : ℕ) - f.bias) * (1 + trailing / 2 ^ (f.precision - 1)) := by
  have hscale : ((scale + 1 : ℕ) : ℤ) - f.bias = scale + -(f.bias - 1) := by
    push_cast
    ring
  rw [f.two_pow_fractionBits, units, hscale, zpow_add₀ two_ne_zero, zpow_neg, zpow_natCast]
  push_cast
  field_simp
  ring

/-- A number stands for what the interchange encoding says of its bits. -/
theorem reading_ofBits (f : Format) (bits : ℕ) : (ofBits f bits).reading = f.read bits := by
  have hnegative : (bits / 2 ^ (f.precision - 1) / 2 ^ f.exponentBits % 2 == 1) =
      bits.testBit (f.precision - 1 + f.exponentBits) := by
    rw [Nat.div_div_eq_div_mul, ← Nat.pow_add, Nat.testBit_eq_decide_div_mod_eq]
    rfl
  rw [ofBits, Format.read]
  simp only [hnegative]
  split
  · split
    · rfl
    · rfl
  · split
    · rw [reading, units_subnormal]
    · rename_i hhidden
      rw [reading, units_normal, Nat.sub_add_cancel (Nat.pos_of_ne_zero hhidden)]

/-! ### Roundings that lose nothing -/

theorem Magnitude.reading {x : Binary f} {negative : Bool} {u : ℕ} (h : x.Magnitude negative u) :
    x.reading = .exactly (signed negative (u / 2 ^ f.fractionBits)) := by
  obtain ⟨m, k, _, rfl, rfl⟩ := h
  rfl

theorem two_zpow_mul (e : ℤ) (F : ℕ) :
    (2 : ℚ) ^ e * 2 ^ F * 2 ^ (-(e + F)).toNat = 2 ^ (e + F).toNat := by
  rw [← zpow_natCast, ← zpow_natCast, ← zpow_natCast, ← zpow_add₀ two_ne_zero,
    ← zpow_add₀ two_ne_zero]
  congr 1
  omega

/-- Two magnitudes are equal if they are as fractions of units. -/
theorem scaled_eq_iff {n u F : ℕ} {e : ℤ} :
    (n : ℚ) * 2 ^ e = u / 2 ^ F ↔ n * 2 ^ (e + F).toNat = u * 2 ^ (-(e + F)).toNat := by
  have hF : (2 : ℚ) ^ F ≠ 0 := pow_ne_zero _ two_ne_zero
  have ht : (2 : ℚ) ^ (-(e + F)).toNat ≠ 0 := pow_ne_zero _ two_ne_zero
  rw [eq_div_iff hF, ← mul_left_inj' ht, mul_assoc, mul_assoc, ← mul_assoc (2 ^ e),
    two_zpow_mul]
  norm_cast

/-- A rounding keeps a value that a number of the format stands for. -/
theorem reading_round {y : Binary f} {q : ℚ} (hy : y.reading = .exactly q) {negative : Bool}
    {n : ℕ} {e : ℤ} (hq : signed negative (n * 2 ^ e) = q) :
    (round f negative n e).reading = .exactly q := by
  cases y with
  | nan => cases hy
  | infinite _ => cases hy
  | finite negative' m k h =>
    have hsame : (n : ℚ) * 2 ^ e = units m k / 2 ^ f.fractionBits :=
      eq_of_signed_eq (by positivity) (by positivity) (hq.trans (Reading.exactly.inj hy).symm)
    rw [round_exact h (scaled_eq_iff.mp hsame), reading, ← hsame, hq]

/-- The same magnitude in smaller units. -/
theorem finer_units (u F d : ℕ) : ((u * 2 ^ d : ℕ) / 2 ^ (F + d) : ℚ) = u / 2 ^ F := by
  rw [pow_add, Nat.cast_mul, Nat.cast_pow, Nat.cast_ofNat,
    mul_div_mul_right _ _ (pow_ne_zero d two_ne_zero)]

/-- An integer with few enough digits, but for zeros at the end, is a number of the format. -/
theorem reading_round_whole (f : Format) (negative : Bool) {c s : ℕ} (hc : c < 2 ^ f.precision)
    (hs : s + f.fractionBits ≤ f.maxScale) :
    (round f negative (units c s) 0).reading = .exactly (signed negative (units c s)) := by
  obtain ⟨m, k, h, hunits⟩ := Format.exists_canonical hc hs
  have hplaces : units m k = units c s * 2 ^ f.fractionBits := by
    rw [hunits, Nat.pow_add, units, Nat.mul_assoc]
  refine reading_round (y := .finite negative m k h) ?_ ?_
  · have hwhole := finer_units (units c s) 0 f.fractionBits
    rw [Nat.zero_add, pow_zero, div_one] at hwhole
    rw [reading, hplaces, hwhole]
  · rw [zpow_zero, mul_one]

/-- Units are powers of two. -/
theorem scaled_units (m k F : ℕ) : (m : ℚ) * 2 ^ ((k : ℤ) - F) = units m k / 2 ^ F := by
  rw [zpow_sub₀ two_ne_zero, zpow_natCast, zpow_natCast, ← mul_div_assoc, units, Nat.cast_mul,
    Nat.cast_pow, Nat.cast_ofNat]

/-- A conversion keeps a value that a number of the other format stands for. -/
theorem reading_convert {g : Format} {x : Binary f} {y : Binary g} {q : ℚ}
    (hx : x.reading = .exactly q) (hy : y.reading = .exactly q) :
    (x.convert g).reading = .exactly q := by
  cases x with
  | nan => cases hx
  | infinite _ => cases hx
  | finite negative m k h =>
    refine reading_round hy ?_
    rw [scaled_units]
    exact Reading.exactly.inj hx

/-- A single is a double. -/
theorem reading_convert_double (x : Binary .single) : (x.convert .double).reading = x.reading := by
  cases x with
  | nan => rfl
  | infinite _ => rfl
  | finite negative m k h =>
    have hx : (finite negative m k h).Magnitude negative (units m k) := ⟨m, k, h, rfl, rfl⟩
    rw [hx.convert_double.reading]
    exact congrArg (fun q => Reading.exactly (signed negative q)) (finer_units (units m k) 149 925)

end Binary

/-! ### Order and integers -/

/-- The integer part of a rational number, toward zero. -/
def towardZero (q : ℚ) : ℤ := if q < 0 then ⌈q⌉ else ⌊q⌋

theorem towardZero_intCast (n : ℤ) : towardZero n = n := by
  rw [towardZero, Int.ceil_intCast, Int.floor_intCast, ite_self]

theorem towardZero_signed (negative : Bool) {q : ℚ} (hq : 0 ≤ q) :
    towardZero (signed negative q) = if negative then -⌊q⌋ else ⌊q⌋ := by
  cases negative with
  | false => exact if_neg (not_lt.mpr hq)
  | true =>
    rcases hq.eq_or_lt with rfl | hpos
    · rfl
    · exact (if_pos (neg_neg_of_pos hpos)).trans Int.ceil_neg

/-- The integer part clamped to `[lo, hi]`; infinities go to the bounds and NaN to zero. -/
def Reading.clamp (lo hi : ℤ) : Reading → ℤ
  | .nan => 0
  | .infinite negative => if negative then lo else hi
  | .exactly q => max lo (min hi (towardZero q))

namespace Binary

variable {f : Format} {x y : Binary f} {p q : ℚ}

theorem isFinite_iff : x.isFinite = true ↔ ∃ q, x.reading = .exactly q := by
  cases x with
  | nan => exact iff_of_false Bool.false_ne_true nofun
  | infinite _ => exact iff_of_false Bool.false_ne_true nofun
  | finite _ _ _ _ => exact iff_of_true rfl ⟨_, rfl⟩

/-- A finite number stands for its count of units. -/
theorem reading_finite {negative : Bool} {m k : ℕ} (h : f.Canonical m k) :
    (finite negative m k h).reading = .exactly (signedUnits negative m k / 2 ^ f.fractionBits) := by
  cases negative with
  | false => rfl
  | true =>
    refine congrArg Reading.exactly ?_
    rw [signed, if_pos rfl, signedUnits, if_pos rfl, Int.cast_neg, neg_div, Int.cast_natCast]

/-- Numbers compare as what they stand for. -/
theorem lt_iff (hx : x.reading = .exactly p) (hy : y.reading = .exactly q) :
    x.lt y = true ↔ p < q := by
  cases x with
  | nan => cases hx
  | infinite _ => cases hx
  | finite negative m k h =>
    cases y with
    | nan => cases hy
    | infinite _ => cases hy
    | finite negative' m' k' h' =>
      rw [reading_finite] at hx hy
      obtain rfl := Reading.exactly.inj hx
      obtain rfl := Reading.exactly.inj hy
      rw [lt, decide_eq_true_iff, div_lt_div_iff_of_pos_right (pow_pos two_pos _), Int.cast_lt]

/-- The numbers without a fractional part are the integers among the numbers. -/
theorem isWhole_iff : x.isWhole = true ↔ ∃ n : ℤ, x.reading = .exactly n := by
  cases x with
  | nan => exact iff_of_false Bool.false_ne_true nofun
  | infinite _ => exact iff_of_false Bool.false_ne_true nofun
  | finite negative m k h =>
    have hdvd : 2 ^ f.fractionBits ∣ units m k ↔
        ((2 ^ f.fractionBits : ℕ) : ℤ) ∣ signedUnits negative m k := by
      cases negative with
      | false => exact Int.natCast_dvd_natCast.symm
      | true => exact Int.natCast_dvd_natCast.symm.trans (Int.dvd_neg).symm
    have hwhole : ∀ n : ℤ, (signedUnits negative m k / 2 ^ f.fractionBits : ℚ) = n ↔
        signedUnits negative m k = (2 ^ f.fractionBits : ℕ) * n := by
      intro n
      rw [div_eq_iff (pow_ne_zero _ two_ne_zero), mul_comm]
      norm_cast
    rw [isWhole, beq_iff_eq, ← Nat.dvd_iff_mod_eq_zero, hdvd, reading_finite]
    exact exists_congr fun n => (hwhole n).symm.trans
      ⟨congrArg Reading.exactly, Reading.exactly.inj⟩

/-- The integer read out of a number is that of what the number stands for. -/
theorem clamped_eq (lo hi : ℤ) (x : Binary f) : x.clamped lo hi = x.reading.clamp lo hi := by
  cases x with
  | nan => rfl
  | infinite negative =>
    cases negative with
    | false => rfl
    | true => rfl
  | finite negative m k h =>
    have hfloor : ⌊(units m k / 2 ^ f.fractionBits : ℚ)⌋ =
        (units m k / 2 ^ f.fractionBits : ℕ) := by
      have hquotient := Rat.floor_natCast_div_natCast (units m k) (2 ^ f.fractionBits)
      rwa [Nat.cast_pow, Nat.cast_ofNat] at hquotient
    rw [clamped, reading, Reading.clamp, towardZero_signed negative (by positivity), hfloor]
    rfl

end Binary

end InlineCache
