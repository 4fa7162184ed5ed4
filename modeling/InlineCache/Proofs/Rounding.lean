/-
Rounding to the nearest number of a format, as arithmetic on natural numbers.

A magnitude is a count of units of the format, or a fraction `a / 2 ^ t` of such a count, and a
rounding takes it to the whole count `Format.nearest f a t`.  Nothing else about `Binary.round` is
ever looked at.

* `le_roundShift_iff`: from where on a rounded quotient reaches an integer, which is all that there
  is to "nearest, a tie to the even one";
* `Format.mul_le_nearest_iff`: the same for the numbers of a format, whose grid becomes coarser
  from one power of two to the next;
* `Format.nearest_exact`: the magnitudes of numbers stay as they are;
* `Binary.ofUnits_round`: the result of a rounding is the number of the nearest magnitude, or
  infinity from `Format.overflow` units on;
* `Binary.magnitude_ofInt`, `Binary.ofUnits_convert`: what this means for words and conversions.
-/
import InlineCache.Binary.Rounding
import Mathlib.Algebra.Group.Int.Defs
import Mathlib.Algebra.Group.Nat.Defs

namespace InlineCache

/-! ### Rounded quotients -/

/-- A rounded quotient reaches `c` from half-way between `c - 1` and `c` on, with the tie itself
exactly if `c` is even. -/
theorem le_roundShift_iff {n t c : Nat} :
    c ≤ roundShift n t ↔
      if c % 2 = 0 then 2 * (c * 2 ^ t) ≤ 2 * n + 2 ^ t else 2 * (c * 2 ^ t) < 2 * n + 2 ^ t := by
  have hpos := Nat.two_pow_pos t
  have hn := Nat.div_add_mod' n (2 ^ t)
  have hrest := Nat.mod_lt n hpos
  rw [roundShift]
  generalize n / 2 ^ t = q at *
  generalize n % 2 ^ t = r at *
  generalize 2 ^ t = P at *
  rcases Nat.lt_trichotomy c (q + 1) with hc | rfl | hc
  · -- the quotient itself reaches `c`
    have hle : c * P ≤ q * P := Nat.mul_le_mul_right P (by omega)
    refine iff_of_true ?_ ?_
    · split <;> omega
    · split <;> omega
  · -- the next integer depends on the rest
    rw [Nat.add_mul, Nat.one_mul]
    split <;> split <;> omega
  · -- and further it never goes
    have hle : (q + 2) * P ≤ c * P := Nat.mul_le_mul_right P (by omega)
    rw [Nat.add_mul] at hle
    refine iff_of_false ?_ ?_
    · split <;> omega
    · split <;> omega

theorem le_roundShift {n t c : Nat} (h : c * 2 ^ t ≤ n) : c ≤ roundShift n t := by
  have hq : c ≤ n / 2 ^ t := (Nat.le_div_iff_mul_le (Nat.two_pow_pos t)).mpr h
  rw [roundShift]
  split <;> omega

theorem roundShift_le {n t c : Nat} (h : n ≤ c * 2 ^ t) : roundShift n t ≤ c := by
  have hpos := Nat.two_pow_pos t
  refine Nat.le_of_not_lt fun hlt => ?_
  have hreach := le_roundShift_iff.mp (Nat.succ_le_of_lt hlt)
  rw [Nat.succ_eq_add_one, Nat.add_mul, Nat.one_mul] at hreach
  split at hreach <;> omega

/-- A rounded quotient is that of the fraction, however the fraction is written. -/
theorem roundShift_mul (n t j : Nat) : roundShift (n * 2 ^ j) (t + j) = roundShift n t := by
  have hpos := Nat.two_pow_pos j
  have hhalf : 2 * (n % 2 ^ t) * 2 ^ j < 2 ^ t * 2 ^ j ↔ 2 * (n % 2 ^ t) < 2 ^ t :=
    Nat.mul_lt_mul_right hpos
  have htie : 2 * (n % 2 ^ t) * 2 ^ j = 2 ^ t * 2 ^ j ↔ 2 * (n % 2 ^ t) = 2 ^ t :=
    Nat.mul_right_cancel_iff hpos
  rw [roundShift, Nat.pow_add, Nat.mul_div_mul_right _ _ hpos, Nat.mul_mod_mul_right,
    ← Nat.mul_assoc]
  simp only [hhalf, htie]
  rfl

/-- A whole number stays as it is. -/
theorem roundShift_exact (c t : Nat) : roundShift (c * 2 ^ t) t = c :=
  Nat.le_antisymm (roundShift_le (Nat.le_refl _)) (le_roundShift (Nat.le_refl _))

/-! ### The nearest magnitude -/

namespace Format

variable {f : Format} {a t s c : Nat}

/-- The scale of the numbers around `a / 2 ^ t` units. -/
def scaleOf (f : Format) (a t : Nat) : Nat := bitLength a - (f.precision + t)

/-- The count of units nearest to `a / 2 ^ t` among those that the significands make up. -/
def nearest (f : Format) (a t : Nat) : Nat :=
  roundShift a (f.scaleOf a t + t) * 2 ^ f.scaleOf a t

theorem lt_of_scaleOf_le (h : f.scaleOf a t ≤ s) : a < 2 ^ f.precision * 2 ^ (s + t) := by
  rw [← Nat.pow_add, ← bitLength_le_iff]
  rw [scaleOf] at h
  omega

theorem le_of_lt_scaleOf (h : s < f.scaleOf a t) : 2 ^ f.precision * 2 ^ (s + t) ≤ a := by
  rw [← Nat.pow_add, ← lt_bitLength_iff]
  rw [scaleOf] at h
  omega

/-- The end of one grid is the beginning of the next. -/
theorem two_pow_precision_mul (f : Format) (s : Nat) :
    2 ^ f.precision * 2 ^ s = 2 ^ (f.precision - 1) * 2 ^ (s + 1) := by
  have hpos := f.precision_pos
  rw [← Nat.pow_add, ← Nat.pow_add]
  congr 1
  omega

/-- The significand of a rounded magnitude fits, but for a carry. -/
theorem roundShift_scaleOf_le (f : Format) (a t : Nat) :
    roundShift a (f.scaleOf a t + t) ≤ 2 ^ f.precision :=
  roundShift_le (Nat.le_of_lt (lt_of_scaleOf_le (Nat.le_refl _)))

/-- Above the least scale it is full. -/
theorem le_roundShift_scaleOf (h : 0 < f.scaleOf a t) :
    2 ^ (f.precision - 1) ≤ roundShift a (f.scaleOf a t + t) := by
  have hle := le_of_lt_scaleOf (Nat.sub_lt h Nat.one_pos)
  rw [two_pow_precision_mul, show f.scaleOf a t - 1 + t + 1 = f.scaleOf a t + t by omega] at hle
  exact le_roundShift hle

/-- Up to the next power of two, itself included, the grid is that of one scale. -/
theorem nearest_eq (hlow : s = 0 ∨ 2 ^ (f.precision - 1) * 2 ^ (s + t) ≤ a)
    (hhigh : a ≤ 2 ^ f.precision * 2 ^ (s + t)) : f.nearest a t = roundShift a (s + t) * 2 ^ s := by
  rcases Nat.lt_or_eq_of_le hhigh with hlt | rfl
  · have hscale : f.scaleOf a t = s := by
      rw [← Nat.pow_add, ← bitLength_le_iff] at hlt
      rcases hlow with rfl | hlow
      · rw [scaleOf]
        omega
      · have hpos := f.precision_pos
        rw [← Nat.pow_add, ← lt_bitLength_iff] at hlow
        rw [scaleOf]
        omega
    rw [nearest, hscale]
  · -- the power of two belongs to the next grid too
    have hlength : bitLength (2 ^ (f.precision + (s + t))) = f.precision + (s + t) + 1 :=
      Nat.le_antisymm (bitLength_le_iff.mpr (Nat.pow_lt_pow_right (by decide) (Nat.lt_succ_self _)))
        (lt_bitLength_iff.mpr (Nat.le_refl _))
    have hscale : f.scaleOf (2 ^ f.precision * 2 ^ (s + t)) t = s + 1 := by
      rw [scaleOf, ← Nat.pow_add, hlength]
      omega
    have hcarry : 2 ^ f.precision * 2 ^ (s + t) = 2 ^ (f.precision - 1) * 2 ^ (s + 1 + t) := by
      rw [two_pow_precision_mul, Nat.add_right_comm]
    rw [nearest, hscale, roundShift_exact, hcarry, roundShift_exact, two_pow_precision_mul]

/-- Of the numbers of a format, one with a full significand is reached from half-way below it on. -/
theorem mul_le_nearest_iff (hlow : 2 ^ (f.precision - 1) < c) (hhigh : c ≤ 2 ^ f.precision) :
    c * 2 ^ s ≤ f.nearest a t ↔ c ≤ roundShift a (s + t) := by
  have hpos := Nat.two_pow_pos s
  rcases Nat.lt_trichotomy (f.scaleOf a t) s with hs | rfl | hs
  · -- the fraction belongs to a finer grid, which ends below the number
    have hend : ∀ {x y}, x < y → 2 ^ f.precision * 2 ^ x ≤ 2 ^ (f.precision - 1) * 2 ^ y := by
      intro x y hxy
      rw [two_pow_precision_mul]
      exact Nat.mul_le_mul_left _ (Nat.pow_le_pow_right (by decide) hxy)
    have hsig : roundShift a (s + t) ≤ 2 ^ (f.precision - 1) :=
      roundShift_le (Nat.le_trans (Nat.le_of_lt (lt_of_scaleOf_le (Nat.le_refl _)))
        (hend (Nat.add_lt_add_right hs t)))
    have hnearest : f.nearest a t ≤ 2 ^ (f.precision - 1) * 2 ^ s :=
      Nat.le_trans (Nat.mul_le_mul_right _ (roundShift_scaleOf_le f a t)) (hend hs)
    have hbelow : 2 ^ (f.precision - 1) * 2 ^ s < c * 2 ^ s := (Nat.mul_lt_mul_right hpos).mpr hlow
    exact iff_of_false (by omega) (by omega)
  · exact Nat.mul_le_mul_right_iff hpos
  · -- the fraction belongs to a coarser grid, which begins above the number
    have hsig : c ≤ roundShift a (s + t) :=
      le_roundShift (Nat.le_trans (Nat.mul_le_mul_right _ hhigh) (le_of_lt_scaleOf hs))
    have hnearest : 2 ^ f.precision * 2 ^ s ≤ f.nearest a t := by
      rw [two_pow_precision_mul]
      exact Nat.mul_le_mul (le_roundShift_scaleOf (by omega))
        (Nat.pow_le_pow_right (by decide) hs)
    exact iff_of_true (Nat.le_trans (Nat.mul_le_mul_right _ hhigh) hnearest) hsig

/-- If the significand is even, the half-way point belongs to the number. -/
theorem mul_le_nearest_iff_of_even (hlow : 2 ^ (f.precision - 1) < c)
    (hhigh : c ≤ 2 ^ f.precision) (heven : c % 2 = 0) :
    c * 2 ^ s ≤ f.nearest a t ↔ (2 * c - 1) * 2 ^ (s + t) ≤ 2 * a := by
  rw [mul_le_nearest_iff hlow hhigh, le_roundShift_iff, if_pos heven, Nat.sub_mul, Nat.one_mul,
    Nat.mul_assoc]
  omega

/-- The nearest magnitude is that of the fraction, however the fraction is written. -/
theorem nearest_mul (f : Format) (a t j : Nat) : f.nearest (a * 2 ^ j) (t + j) = f.nearest a t := by
  rcases Nat.eq_zero_or_pos a with rfl | ha
  · rw [Nat.zero_mul, nearest, nearest, Nat.le_zero.mp (roundShift_le (by simp)),
      Nat.le_zero.mp (roundShift_le (by simp)), Nat.zero_mul, Nat.zero_mul]
  · have hscale : f.scaleOf (a * 2 ^ j) (t + j) = f.scaleOf a t := by
      rw [scaleOf, scaleOf, bitLength_mul_two_pow ha]
      omega
    rw [nearest, hscale, ← Nat.add_assoc, roundShift_mul, nearest]

/-- The magnitude of a number stays as it is. -/
theorem nearest_exact (j : Nat) (hc : c < 2 ^ f.precision) :
    f.nearest (c * 2 ^ j * 2 ^ t) t = c * 2 ^ j := by
  have hscale : f.scaleOf (c * 2 ^ j * 2 ^ t) t ≤ j := by
    have hlt : c * 2 ^ j * 2 ^ t < 2 ^ (f.precision + j + t) := by
      rw [Nat.pow_add, Nat.pow_add]
      exact (Nat.mul_lt_mul_right (Nat.two_pow_pos t)).mpr
        ((Nat.mul_lt_mul_right (Nat.two_pow_pos j)).mpr hc)
    have hlength := bitLength_le_iff.mpr hlt
    rw [scaleOf]
    omega
  rw [nearest]
  generalize f.scaleOf (c * 2 ^ j * 2 ^ t) t = s at *
  -- the number is a whole count at its own scale
  have hwhole : c * 2 ^ j = c * 2 ^ (j - s) * 2 ^ s := by
    rw [Nat.mul_assoc, ← Nat.pow_add, Nat.sub_add_cancel hscale]
  rw [hwhole, Nat.mul_assoc _ (2 ^ s), ← Nat.pow_add, roundShift_exact]

/-- The nearest magnitude to an integer with `d` digits too many. -/
theorem nearest_whole_of_bounds {n d : Nat} (hlow : 2 ^ (f.precision - 1) * 2 ^ d ≤ n)
    (hhigh : n ≤ 2 ^ f.precision * 2 ^ d) (F : Nat) :
    f.nearest (n * 2 ^ F) 0 = roundShift n d * 2 ^ (d + F) := by
  rw [← roundShift_mul n d F]
  refine nearest_eq (s := d + F) (t := 0) (Or.inr ?_) ?_
  · rw [Nat.add_zero, Nat.pow_add, ← Nat.mul_assoc]
    exact Nat.mul_le_mul_right _ hlow
  · rw [Nat.add_zero, Nat.pow_add, ← Nat.mul_assoc]
    exact Nat.mul_le_mul_right _ hhigh

/-- An integer has its nearest magnitude on the grid of its own scale. -/
theorem nearest_whole (f : Format) (n F : Nat) :
    f.nearest (n * 2 ^ F) 0 =
      roundShift n (bitLength n - f.precision) * 2 ^ (bitLength n - f.precision + F) := by
  by_cases hshort : bitLength n ≤ f.precision
  · have hlt : n < 2 ^ f.precision := bitLength_le_iff.mp hshort
    have hexact := nearest_exact (f := f) (t := 0) F hlt
    have hsame := roundShift_exact n 0
    rw [Nat.pow_zero, Nat.mul_one] at hexact hsame
    rw [Nat.sub_eq_zero_of_le hshort, hexact, hsame, Nat.zero_add]
  · have hpos := f.precision_pos
    refine nearest_whole_of_bounds ?_ ?_ F
    · rw [← Nat.pow_add, ← lt_bitLength_iff]
      omega
    · rw [← Nat.pow_add, Nat.add_sub_cancel' (by omega)]
      exact Nat.le_of_lt (lt_two_pow_bitLength n)

/-- The first count of units past the largest finite number, were the grid to go on. -/
def overflow (f : Format) : Nat := 2 ^ f.precision * 2 ^ f.maxScale

/-- A magnitude overflows from half-way above the largest finite number on. -/
theorem overflow_le_nearest_iff :
    f.overflow ≤ f.nearest a t ↔ (2 * 2 ^ f.precision - 1) * 2 ^ (f.maxScale + t) ≤ 2 * a := by
  have hcarry := two_pow_precision_mul f 0
  have hpos := Nat.two_pow_pos (f.precision - 1)
  exact mul_le_nearest_iff_of_even (by omega) (Nat.le_refl _) (by omega)

/-- Words do not overflow. -/
theorem nearest_word_lt_overflow (f : Format) {n : Nat} (hn : n ≤ 2 ^ 64) :
    f.nearest (n * 2 ^ f.fractionBits) 0 < f.overflow := by
  have hfraction : 64 + f.fractionBits ≤ f.maxScale := by cases f <;> decide
  have hprecision : 2 ^ 2 ≤ 2 ^ f.precision :=
    Nat.pow_le_pow_right (by decide) (by cases f <;> decide)
  have hword : n * 2 ^ f.fractionBits ≤ 2 ^ f.maxScale := by
    refine Nat.le_trans (Nat.mul_le_mul_right _ hn) ?_
    rw [← Nat.pow_add]
    exact Nat.pow_le_pow_right (by decide) hfraction
  have hpos := Nat.two_pow_pos f.maxScale
  have hlarge : 3 * 2 ^ f.maxScale ≤ (2 * 2 ^ f.precision - 1) * 2 ^ (f.maxScale + 0) :=
    Nat.mul_le_mul_right _ (by omega)
  rw [← Nat.not_le, overflow_le_nearest_iff]
  omega

namespace Canonical

variable {m k m' k' : Nat}

theorem units_lt_overflow (h : f.Canonical m k) : Binary.units m k < f.overflow :=
  Nat.mul_lt_mul_of_lt_of_le h.1 (Nat.pow_le_pow_right (by decide) h.2.1) (Nat.two_pow_pos _)

theorem nearest (h : f.Canonical m k) (t : Nat) :
    f.nearest (Binary.units m k * 2 ^ t) t = Binary.units m k :=
  nearest_exact k h.1

theorem scale_le (h : f.Canonical m k) (h' : f.Canonical m' k')
    (hunits : Binary.units m k = Binary.units m' k') : k ≤ k' := by
  refine Nat.le_of_not_lt fun hlt => ?_
  have hfull : 2 ^ (f.precision - 1) ≤ m := h.2.2.resolve_right (by omega)
  have hle : 2 ^ f.precision * 2 ^ k' ≤ Binary.units m k := by
    rw [two_pow_precision_mul]
    exact Nat.mul_le_mul hfull (Nat.pow_le_pow_right (by decide) hlt)
  have hgt : Binary.units m' k' < 2 ^ f.precision * 2 ^ k' :=
    (Nat.mul_lt_mul_right (Nat.two_pow_pos k')).mpr h'.1
  omega

/-- The significand and the scale are those of the magnitude. -/
theorem eq_of_units_eq (h : f.Canonical m k) (h' : f.Canonical m' k')
    (hunits : Binary.units m k = Binary.units m' k') : m = m' ∧ k = k' := by
  obtain rfl := Nat.le_antisymm (h.scale_le h' hunits) (h'.scale_le h hunits.symm)
  exact ⟨Nat.eq_of_mul_eq_mul_right (Nat.two_pow_pos k) hunits, rfl⟩

end Canonical

/-- Every magnitude that a significand makes up is that of a number. -/
theorem exists_canonical (hc : c < 2 ^ f.precision) (hs : s ≤ f.maxScale) :
    ∃ m k, f.Canonical m k ∧ Binary.units m k = c * 2 ^ s := by
  rcases Nat.eq_zero_or_pos c with rfl | hpos
  · refine ⟨0, 0, f.canonical_subnormal (Nat.two_pow_pos _), ?_⟩
    rw [Binary.units, Nat.zero_mul, Nat.zero_mul]
  · -- the significand is filled up as far as the scale allows
    have hlength : bitLength c ≤ f.precision := bitLength_le_iff.mpr hc
    obtain ⟨d, hd⟩ : ∃ d, d = min (f.precision - bitLength c) s := ⟨_, rfl⟩
    have hlt : c * 2 ^ d < 2 ^ f.precision := by
      rw [← bitLength_le_iff, bitLength_mul_two_pow hpos]
      omega
    refine ⟨c * 2 ^ d, s - d, ⟨hlt, by omega, ?_⟩, ?_⟩
    · by_cases hfull : d = s
      · exact Or.inr (by omega)
      · refine Or.inl ?_
        have hone : 0 < bitLength c := lt_bitLength_iff.mpr hpos
        rw [← lt_bitLength_iff, bitLength_mul_two_pow hpos]
        omega
    · rw [Binary.units, Nat.mul_assoc, ← Nat.pow_add, Nat.add_sub_cancel' (by omega)]

/-- The count of units nearest to `n * 2 ^ e`. -/
def nearestUnits (f : Format) (n : Nat) (e : Int) : Nat :=
  f.nearest (n * 2 ^ (e + f.fractionBits).toNat) (-(e + f.fractionBits)).toNat

theorem nearestUnits_eq {n j : Nat} {e : Int} (h : e + f.fractionBits = (j : Int) - t) :
    f.nearestUnits n e = f.nearest (n * 2 ^ j) t := by
  obtain ⟨d, hj, ht⟩ : ∃ d, j = (e + f.fractionBits).toNat + d ∧
      t = (-(e + f.fractionBits)).toNat + d := ⟨min j t, by omega, by omega⟩
  rw [nearestUnits, hj, ht, Nat.pow_add, ← Nat.mul_assoc, nearest_mul]

end Format

/-! ### The rounded number -/

namespace Binary

variable {f : Format} {negative : Bool} {n : Nat} {e : Int}

/-- A finite number of a sign and a count of units. -/
def Magnitude (x : Binary f) (negative : Bool) (u : Nat) : Prop :=
  ∃ m k, ∃ h : f.Canonical m k, x = .finite negative m k h ∧ units m k = u

theorem Magnitude.unique {x y : Binary f} {u : Nat} (hx : x.Magnitude negative u)
    (hy : y.Magnitude negative u) : x = y := by
  obtain ⟨m, k, h, rfl, hu⟩ := hx
  obtain ⟨m', k', h', rfl, hu'⟩ := hy
  obtain ⟨rfl, rfl⟩ := h.eq_of_units_eq h' (hu.trans hu'.symm)
  rfl

theorem Magnitude.isFinite {x : Binary f} {u : Nat} (hx : x.Magnitude negative u) :
    x.isFinite = true := by
  obtain ⟨m, k, h, rfl, -⟩ := hx
  rfl

theorem Magnitude.eq_iff {x y : Binary f} {u u' : Nat}
    (hx : x.Magnitude negative u) (hy : y.Magnitude negative u') : x = y ↔ u = u' := by
  constructor
  · rintro rfl
    obtain ⟨m, k, h, rfl, rfl⟩ := hx
    obtain ⟨m', k', h', hsame, rfl⟩ := hy
    obtain ⟨-, rfl, rfl⟩ := Binary.finite.inj hsame
    rfl
  · rintro rfl
    exact hx.unique hy

/-- The number of a magnitude, infinity if the magnitude is past the largest finite number. -/
structure OfUnits (x : Binary f) (negative : Bool) (u : Nat) : Prop where
  magnitude : u < f.overflow → x.Magnitude negative u
  eq_infinite : f.overflow ≤ u → x = .infinite negative

theorem OfUnits.isFinite_iff {x : Binary f} {u : Nat} (hx : x.OfUnits negative u) :
    x.isFinite = true ↔ u < f.overflow := by
  by_cases hu : u < f.overflow
  · exact iff_of_true (hx.magnitude hu).isFinite hu
  · rw [hx.eq_infinite (Nat.le_of_not_lt hu)]
    exact iff_of_false Bool.false_ne_true hu

/-- A number is assembled from a full significand unless its magnitude is too large. -/
theorem ofUnits_assemble (f : Format) (negative : Bool) {c s : Nat} (hc : c < 2 ^ f.precision)
    (hfull : 2 ^ (f.precision - 1) ≤ c ∨ s = 0) :
    (assemble f negative c s).OfUnits negative (c * 2 ^ s) := by
  rw [assemble]
  by_cases hs : s ≤ f.maxScale
  · have hcanonical : f.Canonical c s := ⟨hc, hs, hfull⟩
    have hlt : c * 2 ^ s < f.overflow := hcanonical.units_lt_overflow
    rw [dif_pos hcanonical]
    exact ⟨fun _ => ⟨c, s, hcanonical, rfl, rfl⟩, fun hge => absurd hlt (Nat.not_lt.mpr hge)⟩
  · have hge : f.overflow ≤ c * 2 ^ s := by
      rw [Format.overflow, Format.two_pow_precision_mul]
      exact Nat.mul_le_mul (hfull.resolve_right (by omega))
        (Nat.pow_le_pow_right (by decide) (by omega))
    rw [dif_neg fun hcanonical => hs hcanonical.2.1]
    exact ⟨fun hlt => absurd hlt (Nat.not_lt.mpr hge), fun _ => rfl⟩

/-- The number with a rounded significand, which a carry moves to the next scale. -/
def carried (f : Format) (negative : Bool) (c s : Nat) : Binary f :=
  if c = 2 ^ f.precision then assemble f negative (2 ^ (f.precision - 1)) (s + 1)
  else assemble f negative c s

theorem ofUnits_carried (f : Format) (negative : Bool) {c s : Nat} (hc : c ≤ 2 ^ f.precision)
    (hs : 0 < s → 2 ^ (f.precision - 1) ≤ c) :
    (carried f negative c s).OfUnits negative (c * 2 ^ s) := by
  by_cases hcarry : c = 2 ^ f.precision
  · have hhalf : 2 ^ (f.precision - 1) < 2 ^ f.precision :=
      Nat.pow_lt_pow_right (by decide) (Nat.sub_lt f.precision_pos Nat.one_pos)
    rw [carried, if_pos hcarry, hcarry, Format.two_pow_precision_mul]
    exact ofUnits_assemble f negative hhalf (Or.inl (Nat.le_refl _))
  · rw [carried, if_neg hcarry]
    refine ofUnits_assemble f negative (by omega) ?_
    rcases Nat.eq_zero_or_pos s with hzero | hpos
    · exact Or.inr hzero
    · exact Or.inl (hs hpos)

/-- A rounding finds the scale and the significand of the nearest magnitude. -/
theorem round_eq_carried (f : Format) (negative : Bool) (n : Nat) (e : Int) {a t : Nat}
    (ha : a = n * 2 ^ (e + f.fractionBits).toNat) (ht : t = (-(e + f.fractionBits)).toNat) :
    round f negative n e =
      carried f negative (roundShift a (f.scaleOf a t + t)) (f.scaleOf a t) := by
  rcases Nat.eq_zero_or_pos n with rfl | hn
  · -- the zero of the sign
    have hpos := Nat.two_pow_pos f.precision
    have hscale : f.scaleOf a t = 0 := by
      rw [ha, Nat.zero_mul]
      exact Nat.zero_sub _
    have hsig : roundShift a (0 + t) = 0 :=
      Nat.le_zero.mp (roundShift_le (by rw [ha, Nat.zero_mul]; exact Nat.zero_le _))
    have hzero : f.Canonical 0 0 := f.canonical_subnormal (Nat.two_pow_pos _)
    rw [hscale, hsig, carried, if_neg (by omega), assemble, dif_pos hzero]
    rfl
  · have hscale : (bitLength n + (e + f.fractionBits) - f.precision).toNat = f.scaleOf a t := by
      rw [Format.scaleOf, ha, bitLength_mul_two_pow hn]
      omega
    have hsig : (if (f.scaleOf a t : Int) ≤ e + f.fractionBits then
          n * 2 ^ (e + f.fractionBits - f.scaleOf a t).toNat
        else roundShift n (f.scaleOf a t - (e + f.fractionBits)).toNat) =
        roundShift a (f.scaleOf a t + t) := by
      generalize f.scaleOf a t = s at *
      generalize e + (f.fractionBits : Int) = shift at *
      split
      · have hwhole : a = n * 2 ^ (shift - s).toNat * 2 ^ (s + t) := by
          rw [ha, Nat.mul_assoc, ← Nat.pow_add]
          congr 2
          omega
        rw [hwhole, roundShift_exact]
      · rw [ha, show s + t = (s - shift).toNat + shift.toNat by omega, roundShift_mul]
    rw [round, if_neg (by omega)]
    simp only [hscale, hsig]
    rfl

/-- Rounding gives the number of the nearest magnitude. -/
theorem ofUnits_round (f : Format) (negative : Bool) (n : Nat) (e : Int) :
    (round f negative n e).OfUnits negative (f.nearestUnits n e) := by
  rw [round_eq_carried f negative n e rfl rfl]
  exact ofUnits_carried f negative (Format.roundShift_scaleOf_le f _ _)
    Format.le_roundShift_scaleOf

/-- What is the magnitude of a number is rounded to that number. -/
theorem round_exact {m k : Nat} (h : f.Canonical m k)
    (hn : n * 2 ^ (e + f.fractionBits).toNat = units m k * 2 ^ (-(e + f.fractionBits)).toNat) :
    round f negative n e = .finite negative m k h := by
  have hunits : f.nearestUnits n e = units m k := by
    rw [Format.nearestUnits, hn, h.nearest]
  have hlt : f.nearestUnits n e < f.overflow := by
    rw [hunits]
    exact h.units_lt_overflow
  exact ((ofUnits_round f negative n e).magnitude hlt).unique ⟨m, k, h, rfl, hunits.symm⟩

/-! ### Integers and conversions -/

/-- The number nearest to an integer of 64 bits. -/
theorem magnitude_ofInt (f : Format) {n : Int} (hn : n.natAbs ≤ 2 ^ 64) :
    (ofInt f n).Magnitude (n < 0) (f.nearest (n.natAbs * 2 ^ f.fractionBits) 0) := by
  have hunits : f.nearestUnits n.natAbs 0 = f.nearest (n.natAbs * 2 ^ f.fractionBits) 0 :=
    Format.nearestUnits_eq (by omega)
  have hlt := Format.nearest_word_lt_overflow f hn
  rw [← hunits] at hlt ⊢
  exact (ofUnits_round f _ _ 0).magnitude hlt

/-- Conversion to a format with larger units. -/
theorem ofUnits_convert {g : Format} {x : Binary f} {u t : Nat}
    (ht : f.fractionBits = g.fractionBits + t) (hx : x.Magnitude negative u) :
    (x.convert g).OfUnits negative (g.nearest u t) := by
  obtain ⟨m, k, h, rfl, rfl⟩ := hx
  have hunits : g.nearestUnits m (k - f.fractionBits) = g.nearest (units m k) t :=
    Format.nearestUnits_eq (by omega)
  rw [← hunits]
  exact ofUnits_round g negative m (k - f.fractionBits)

/-- A single is a double, of 925 more binary places. -/
theorem Magnitude.convert_double {x : Binary .single} {u : Nat} (hx : x.Magnitude negative u) :
    (x.convert .double).Magnitude negative (u * 2 ^ 925) := by
  obtain ⟨m, k, h, rfl, rfl⟩ := hx
  have hsig : m < 2 ^ 24 := h.1
  have hscale : k ≤ 253 := h.2.1
  have hfraction : Format.fractionBits .single = 149 ∧ Format.fractionBits .double = 1074 := by
    decide
  obtain ⟨m', k', h', hunits⟩ := Format.exists_canonical (f := .double) (c := m) (s := k + 925)
    (Nat.lt_trans hsig (by decide)) (Nat.le_trans (Nat.add_le_add_right hscale 925) (by decide))
  have hplaces : (k - Format.fractionBits .single + Format.fractionBits .double : Int) =
      (k + 925 : Nat) := by omega
  refine ⟨m', k', h', round_exact h' ?_, ?_⟩
  · rw [hplaces, Int.toNat_natCast, Int.toNat_neg_natCast, Nat.pow_zero, Nat.mul_one, hunits]
  · rw [hunits, pow_add, units, mul_assoc]

end Binary

end InlineCache
