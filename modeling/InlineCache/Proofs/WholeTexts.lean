/-
The texts of whole floating-point numbers.

Up to the precision of the format the integers are among its numbers, and so close together that
no other integer is as near to one of them as the middle between the number and its neighbours.
The search for the shortest decimal then ends at the greatest power of ten that divides the
integer, and the layout puts the zeros back.

* `RoundingInterval.contains_iff`: on a grid of integers, only the integer itself reads back;
* `RoundingInterval.isWhole_shortest`: the shortest decimal of such an integer is the integer;
* `Binary.text_whole`: so its text is that of the integer.
-/
import InlineCache.Proofs.Readings
import InlineCache.Binary.Text

namespace InlineCache

/-! ### Decimals without a fraction -/

/-- The digits of a multiple of a power of ten end in zeros. -/
theorem toDigits_mul_pow {n : ℕ} (hn : 0 < n) (e : ℕ) :
    Nat.toDigits 10 (n * 10 ^ e) = Nat.toDigits 10 n ++ List.replicate e '0' := by
  induction e with
  | zero => rw [pow_zero, mul_one, List.replicate_zero, List.append_nil]
  | succ e ih =>
    have hpos : 0 < n * 10 ^ e := Nat.mul_pos hn (Nat.pow_pos (by decide))
    have hstep := Nat.toDigits_append_toDigits (b := 10) (d := 0) (by decide) hpos (by decide)
    have hnext : n * 10 ^ (e + 1) = 10 * (n * 10 ^ e) + 0 := by ring
    rw [hnext, ← hstep, ih, Nat.toDigits_zero, List.replicate_succ', List.append_assoc]

/-- The decimal is the integer, with no place behind the point. -/
def Decimal.IsWhole (d : Decimal) (n : ℕ) : Prop :=
  ∃ e : ℕ, d.exponent = e ∧ d.digits * 10 ^ e = n

theorem Layout.write_plain {d : Decimal} {n : ℕ} (hn : 0 < n) (hd : d.IsWhole n) :
    Layout.plain.write d = n.repr := by
  obtain ⟨e, hexponent, hvalue⟩ := hd
  have hdigits : 0 < d.digits := by
    refine Nat.pos_of_ne_zero fun hzero => ?_
    rw [hzero, Nat.zero_mul] at hvalue
    omega
  show Layout.plain.writePositional d = n.repr
  rw [writePositional]
  simp only [hexponent, Int.natCast_nonneg, if_true, Int.toNat_natCast]
  rw [← toDigits_mul_pow hdigits, hvalue, ← Nat.repr_eq_ofList_toDigits]
  exact String.append_empty

/-! ### The search for the shortest decimal -/

namespace RoundingInterval

theorem bounds_of_contains {i : RoundingInterval} {c : ℕ} {e : ℤ} (h : i.contains c e = true) :
    i.lower * i.numerator e ≤ c * i.step e ∧ c * i.step e ≤ i.upper * i.numerator e := by
  rw [contains] at h
  split at h
  · simpa using h
  · have hstrict : i.lower * i.numerator e < c * i.step e ∧
        c * i.step e < i.upper * i.numerator e := by simpa using h
    exact ⟨hstrict.1.le, hstrict.2.le⟩

theorem contains_of_lt {i : RoundingInterval} {c : ℕ} {e : ℤ}
    (hlow : i.lower * i.numerator e < c * i.step e)
    (hhigh : c * i.step e < i.upper * i.numerator e) : i.contains c e = true := by
  rw [contains]
  split
  · simpa using ⟨hlow.le, hhigh.le⟩
  · simpa using ⟨hlow, hhigh⟩

section

-- the number is the integer `n`, and `2 ^ j` is its significand's place of ones
variable {f : Format} {m k n j : ℕ} (hn : 0 < n) (hm : m = n * 2 ^ j)
  (hk : k + j = f.fractionBits)

theorem exponent_ofFinite (f : Format) (m k : ℕ) :
    (ofFinite f m k).exponent = k - f.fractionBits - 2 := rfl

section

include hm

theorem value_whole : (ofFinite f m k).value = n * 2 ^ (j + 2) := by
  show 4 * m = n * 2 ^ (j + 2)
  rw [hm]
  ring

end

include hk

theorem step_whole (e : ℕ) : (ofFinite f m k).step e = 2 ^ (j + 2) * 10 ^ e := by
  have hplaces : (-(ofFinite f m k).exponent).toNat = j + 2 := by
    rw [exponent_ofFinite]
    omega
  rw [step, hplaces, Int.toNat_natCast]

theorem numerator_whole (e : ℕ) : (ofFinite f m k).numerator e = 1 := by
  have hplaces : (ofFinite f m k).exponent.toNat = 0 := by
    rw [exponent_ofFinite]
    omega
  have hgrid : (-(e : ℤ)).toNat = 0 := by omega
  rw [numerator, hplaces, hgrid, pow_zero, pow_zero, mul_one]

section

include hm

/-- The point of a grid of integers that is next below the number. -/
theorem quotient_whole (e : ℕ) :
    (ofFinite f m k).value * (ofFinite f m k).numerator e / (ofFinite f m k).step e =
      n / 10 ^ e := by
  rw [value_whole hm, numerator_whole hk, step_whole hk, mul_one, Nat.mul_comm (2 ^ (j + 2)),
    Nat.mul_div_mul_right _ _ (Nat.two_pow_pos _)]

end

include hn hm

/-- In quarters of the last place, the next integers are at least four away, and the interval
reaches no farther than two. -/
theorem contains_iff (c e : ℕ) : (ofFinite f m k).contains c e = true ↔ c * 10 ^ e = n := by
  have hpoint : c * (ofFinite f m k).step e = c * 10 ^ e * 2 ^ (j + 2) := by
    rw [step_whole hk]
    ring
  have hvalue : 4 * m = n * 2 ^ (j + 2) := value_whole (f := f) (k := k) hm
  have hplace : 4 ≤ 2 ^ (j + 2) := Nat.pow_le_pow_right (n := 2) (by decide) (by omega : 2 ≤ j + 2)
  have hpos : 0 < n * 2 ^ (j + 2) := Nat.mul_pos hn (by omega)
  have hupper : (ofFinite f m k).upper * (ofFinite f m k).numerator e = n * 2 ^ (j + 2) + 2 := by
    rw [numerator_whole hk, mul_one, ← hvalue]
    rfl
  have hlower : n * 2 ^ (j + 2) ≤ (ofFinite f m k).lower * (ofFinite f m k).numerator e + 2 ∧
      (ofFinite f m k).lower * (ofFinite f m k).numerator e < n * 2 ^ (j + 2) := by
    rw [numerator_whole hk, mul_one, ← hvalue]
    simp only [ofFinite]
    split
    · omega
    · omega
  constructor
  · intro hcontains
    obtain ⟨hlow, hhigh⟩ := bounds_of_contains hcontains
    rw [hpoint] at hlow hhigh
    rcases Nat.lt_trichotomy (c * 10 ^ e) n with hlt | heq | hgt
    · have hfar := Nat.mul_le_mul_right (2 ^ (j + 2)) (Nat.succ_le_of_lt hlt)
      rw [Nat.succ_mul] at hfar
      omega
    · exact heq
    · have hfar := Nat.mul_le_mul_right (2 ^ (j + 2)) (Nat.succ_le_of_lt hgt)
      rw [Nat.succ_mul] at hfar
      omega
  · intro heq
    rw [heq] at hpoint
    exact contains_of_lt (by omega) (by omega)

/-- A grid of integers has a point in the interval if the integer is one of its points. -/
theorem nearestOnGrid?_whole (e : ℕ) :
    (ofFinite f m k).nearestOnGrid? e = if 10 ^ e ∣ n then some (n / 10 ^ e) else none := by
  have hnext : (ofFinite f m k).contains (n / 10 ^ e + 1) e = false := by
    rw [← Bool.not_eq_true, contains_iff hn hm hk]
    have hsplit := Nat.div_add_mod' n (10 ^ e)
    have hrest := Nat.mod_lt n (Nat.pow_pos (n := e) (by decide : 0 < 10))
    rw [Nat.succ_mul]
    omega
  rw [nearestOnGrid?]
  simp only [quotient_whole hm hk, hnext]
  by_cases hdvd : 10 ^ e ∣ n
  · have hcontains : (ofFinite f m k).contains (n / 10 ^ e) e = true :=
      (contains_iff hn hm hk _ _).mpr (Nat.div_mul_cancel hdvd)
    rw [hcontains, if_pos hdvd]
  · have hcontains : (ofFinite f m k).contains (n / 10 ^ e) e = false := by
      rw [← Bool.not_eq_true, contains_iff hn hm hk]
      intro heq
      exact hdvd (Dvd.intro_left _ heq)
    rw [hcontains, if_neg hdvd]

/-- From a grid of integers downwards, the search ends at the integer. -/
theorem isWhole_search {steps e : ℕ} (he : e ≤ steps) :
    ((ofFinite f m k).search steps e).IsWhole n := by
  induction steps generalizing e with
  | zero =>
    obtain rfl := Nat.le_zero.mp he
    refine ⟨0, rfl, ?_⟩
    rw [search, quotient_whole hm hk, pow_zero, Nat.div_one, mul_one]
  | succ steps ih =>
    rw [search, nearestOnGrid?_whole hn hm hk]
    by_cases hdvd : 10 ^ e ∣ n
    · rw [if_pos hdvd]
      exact ⟨e, rfl, Nat.div_mul_cancel hdvd⟩
    · rw [if_neg hdvd]
      cases e with
      | zero => exact absurd (one_dvd n) hdvd
      | succ e =>
        have hnext : ((e + 1 : ℕ) : ℤ) - 1 = (e : ℕ) := by omega
        simp only [hnext]
        exact ih (by omega)

theorem isWhole_shortest : (ofFinite f m k).shortest.IsWhole n := by
  have hbits : bitLength (ofFinite f m k).value = bitLength n + (j + 2) := by
    rw [value_whole hm, bitLength_mul_two_pow hn]
  have hexponent : (ofFinite f m k).exponent = -(j + 2) := by
    rw [exponent_ofFinite]
    omega
  obtain ⟨top, htop⟩ : ∃ top : ℕ, (ofFinite f m k).topExponent = top := by
    refine Int.eq_ofNat_of_zero_le ?_
    rw [topExponent, hbits, hexponent]
    omega
  rw [shortest, htop, hexponent]
  exact isWhole_search hn hm hk (by omega)

end

end RoundingInterval

/-! ### The text -/

namespace Binary

variable {f : Format}

/-- An integer below the precision has a place of ones. -/
theorem exists_place {m k n : ℕ} (h : f.Canonical m k) (hunits : units m k = n * 2 ^ f.fractionBits)
    (hn : n < 2 ^ f.precision) : ∃ j, k + j = f.fractionBits ∧ m = n * 2 ^ j := by
  have hle : k ≤ f.fractionBits := by
    rcases h.2.2 with hfull | rfl
    · -- a full significand in a coarser place would be an integer past the precision
      by_contra hcoarse
      have hplace : 2 ^ (f.fractionBits + 1) ≤ 2 ^ k := Nat.pow_le_pow_right (by decide) (by omega)
      have hlarge : 2 ^ (f.precision - 1) * 2 ^ (f.fractionBits + 1) ≤ units m k :=
        Nat.mul_le_mul hfull hplace
      have hsame : 2 ^ (f.precision - 1) * 2 ^ (f.fractionBits + 1) =
          2 ^ f.precision * 2 ^ f.fractionBits := by
        have hprecision := f.precision_pos
        rw [← Nat.pow_add, ← Nat.pow_add]
        congr 1
        omega
      rw [hunits, hsame] at hlarge
      exact absurd (Nat.le_of_mul_le_mul_right hlarge (Nat.two_pow_pos _)) (Nat.not_le.mpr hn)
    · exact Nat.zero_le _
  obtain ⟨j, hj⟩ := Nat.exists_eq_add_of_le hle
  refine ⟨j, hj.symm, ?_⟩
  rw [units, hj, Nat.add_comm, Nat.pow_add, ← Nat.mul_assoc] at hunits
  exact Nat.eq_of_mul_eq_mul_right (Nat.two_pow_pos k) hunits

/-- A number that is an integer below the precision of its format has the text of the integer. -/
theorem text_whole {x : Binary f} {n : ℤ} (hx : x.reading = .exactly n) (hn : n ≠ 0)
    (hsmall : n.natAbs < 2 ^ f.precision) : x.text .plain = toString n := by
  cases x with
  | nan => cases hx
  | infinite => cases hx
  | finite negative m k h =>
    have hvalue : signedUnits negative m k = n * 2 ^ f.fractionBits := by
      have hquotient := Reading.exactly.inj ((reading_finite h).symm.trans hx)
      rw [div_eq_iff (pow_ne_zero _ two_ne_zero)] at hquotient
      exact_mod_cast hquotient
    have hplaces : (0 : ℤ) < 2 ^ f.fractionBits := by positivity
    have hmagnitude : units m k = n.natAbs * 2 ^ f.fractionBits := by
      have habs := congrArg Int.natAbs hvalue
      rw [Int.natAbs_mul, Int.natAbs_pow] at habs
      rw [← show (2 : ℤ).natAbs = 2 from rfl, ← habs, signedUnits]
      split
      · rw [Int.natAbs_neg, Int.natAbs_natCast]
      · rw [Int.natAbs_natCast]
    have hpos : 0 < n.natAbs := Int.natAbs_pos.mpr hn
    obtain ⟨j, hj, hm⟩ := exists_place h hmagnitude hsmall
    have hm0 : m ≠ 0 := by
      rw [hm]
      exact (Nat.mul_pos hpos (Nat.two_pow_pos j)).ne'
    rw [text, if_neg hm0, Layout.write_plain hpos (RoundingInterval.isWhole_shortest hpos hm hj),
      Int.toString_eq_repr, Int.repr_eq_if]
    cases negative with
    | false =>
      have hsum : (units m k : ℤ) = n * 2 ^ f.fractionBits := hvalue
      have hsign : 0 ≤ n := by
        refine le_of_mul_le_mul_right ?_ hplaces
        rw [← hsum, zero_mul]
        exact Int.natCast_nonneg _
      have hnat : n.toNat = n.natAbs := by omega
      rw [if_pos hsign, hnat]
      exact String.empty_append
    | true =>
      have hsum : -(units m k : ℤ) = n * 2 ^ f.fractionBits := hvalue
      have hnonpos : n ≤ 0 := by
        refine le_of_mul_le_mul_right ?_ hplaces
        rw [← hsum, zero_mul]
        omega
      have hsign : ¬ 0 ≤ n := by omega
      have hnat : (-n).toNat = n.natAbs := by omega
      rw [if_neg hsign, hnat]
      rfl

end Binary

end InlineCache
