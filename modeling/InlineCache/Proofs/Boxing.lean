/-
How an integer is boxed shows in its narrowing to `float`, and nowhere else.

A word is rounded to the nearest `float` at once.  An integer of any size is rounded to the
nearest `double` first, and this moves some integers onto the middle between two `float`s: the
second rounding then breaks a tie where there was none.

* `roundShift_roundShift_eq_iff`: two roundings in a row, on natural numbers;
* `Binary.convert_ofInt_eq_iff`: the `float` nearest to the nearest `double`;
* `NarrowingPolicy.narrow_eq_narrow_iff`: two boxes of one integer narrow alike but for `float`
  and the integers that `RoundsTwice` describes.
-/
import InlineCache.Proofs.Residues
import InlineCache.Proofs.Rounding

namespace InlineCache

/-! ### Rounding twice -/

/-- Close to the middle between two multiples of `2 ^ (j + i)`, at most half of `2 ^ j` away from
it, but on the side of the odd multiple. -/
def Straddles (n j i : Nat) : Prop :=
  let quotient := n / 2 ^ (j + i)
  let twiceMiddle := (2 * quotient + 1) * 2 ^ (j + i)
  if quotient % 2 = 0 then twiceMiddle < 2 * n ∧ 2 * n ≤ twiceMiddle + 2 ^ j
  else twiceMiddle ≤ 2 * n + 2 ^ j ∧ 2 * n < twiceMiddle

instance (n j i : Nat) : Decidable (Straddles n j i) := by unfold Straddles; infer_instance

/-- The quotient is rounded down or up. -/
theorem roundShift_bounds {n t q : Nat} (hlow : q * 2 ^ t ≤ n) (hhigh : n ≤ (q + 1) * 2 ^ t) :
    roundShift n t = q ∨ roundShift n t = q + 1 := by
  have hge := le_roundShift hlow
  have hle := roundShift_le hhigh
  omega

/-- From where on two roundings in a row reach an integer.  Of the half-way point and of what the
first rounding moves there, all or nothing is rounded up. -/
theorem le_roundShift_roundShift_iff {n j i c : Nat} (hi : 2 ≤ i) (hc : 0 < c) :
    c ≤ roundShift (roundShift n j) i ↔
      if c % 2 = 0 then (2 * c - 1) * 2 ^ (j + i) ≤ 2 * n + 2 ^ j
      else (2 * c - 1) * 2 ^ (j + i) + 2 ^ j < 2 * n := by
  obtain ⟨k, rfl⟩ : ∃ k, i = k + 2 := ⟨i - 2, by omega⟩
  -- the half-way point on the finer grid, where its significand is even
  obtain ⟨middle, hmiddle⟩ : ∃ middle, middle = (2 * c - 1) * 2 ^ (k + 1) := ⟨_, rfl⟩
  have heven : middle % 2 = 0 := by
    rw [hmiddle, Nat.pow_succ, ← Nat.mul_assoc, Nat.mul_mod_left]
  have hhalf : (2 * c - 1) * 2 ^ (k + 2) = 2 * middle := by
    rw [hmiddle, Nat.pow_succ, ← Nat.mul_assoc, Nat.mul_comm]
  have hscale : (2 * c - 1) * 2 ^ (j + (k + 2)) = 2 * (middle * 2 ^ j) := by
    rw [Nat.add_comm j, Nat.pow_add, ← Nat.mul_assoc, hhalf, Nat.mul_assoc]
  have hreach := le_roundShift_iff (n := n) (t := j) (c := middle)
  have hpass := le_roundShift_iff (n := n) (t := j) (c := middle + 1)
  rw [if_pos heven] at hreach
  rw [if_neg (by omega), Nat.add_mul, Nat.one_mul] at hpass
  rw [le_roundShift_iff, hscale]
  rw [Nat.sub_mul, Nat.one_mul, Nat.mul_assoc] at hhalf
  have hpos : 2 ^ (k + 2) ≤ c * 2 ^ (k + 2) := Nat.le_mul_of_pos_left _ hc
  split <;> omega

/-- A second rounding, to multiples of at least 4, spoils the first exactly for the integers that
the first moves to a middle. -/
theorem roundShift_roundShift_eq_iff {n j i : Nat} (hi : 2 ≤ i) :
    roundShift (roundShift n j) i = roundShift n (j + i) ↔ ¬ Straddles n j i := by
  have hn := Nat.div_add_mod' n (2 ^ (j + i))
  have hrest := Nat.mod_lt n (Nat.two_pow_pos (j + i))
  rw [Straddles]
  generalize n / 2 ^ (j + i) = q at *
  have hscale : ∀ c, c * 2 ^ (j + i) = c * 2 ^ i * 2 ^ j := by
    intro c
    rw [Nat.mul_assoc, ← Nat.pow_add, Nat.add_comm j]
  have hnext : (q + 1) * 2 ^ (j + i) = q * 2 ^ (j + i) + 2 ^ (j + i) := Nat.succ_mul q _
  -- both ways lead to `q` or to `q + 1`
  have honce := roundShift_bounds (n := n) (t := j + i) (q := q) (by omega) (by omega)
  have htwice := roundShift_bounds (n := roundShift n j) (t := i) (q := q)
    (le_roundShift (by rw [← hscale]; omega)) (roundShift_le (by rw [← hscale]; omega))
  -- and to which of them depends on the side of the middle
  have hup := le_roundShift_iff (n := n) (t := j + i) (c := q + 1)
  have hup' := le_roundShift_roundShift_iff (n := n) (j := j) (c := q + 1) hi (Nat.succ_pos q)
  rw [show 2 * (q + 1) - 1 = 2 * q + 1 by omega] at hup'
  have hmiddle : (2 * q + 1) * 2 ^ (j + i) = 2 * (q * 2 ^ (j + i)) + 2 ^ (j + i) := by
    rw [Nat.add_mul, Nat.one_mul, Nat.mul_assoc]
  have hpos := Nat.two_pow_pos j
  by_cases hparity : q % 2 = 0
  · rw [if_neg (by omega)] at hup hup'
    rw [if_pos hparity]
    omega
  · rw [if_pos (by omega)] at hup hup'
    rw [if_neg hparity]
    omega

/-! ### Integers in the two formats -/

namespace Format

/-- The single nearest to the double nearest to an integer. -/
theorem nearest_nearest (n F : Nat) :
    nearest .single (nearest .double (n * 2 ^ (F + 925)) 0) 925 =
      nearest .single (roundShift n (bitLength n - 53) * 2 ^ (bitLength n - 53) * 2 ^ F) 0 := by
  have hdouble := nearest_whole .double n (F + 925)
  rw [hdouble, ← nearest_mul .single _ 0 925]
  change nearest .single
    (roundShift n (bitLength n - 53) * 2 ^ (bitLength n - 53 + (F + 925))) _ = _
  rw [pow_add, pow_add, mul_assoc, mul_assoc]

/-- It is not the single nearest to the integer if the first rounding crosses a middle. -/
theorem nearest_nearest_eq_iff (n F : Nat) :
    nearest .single (nearest .double (n * 2 ^ (F + 925)) 0) 925 = nearest .single (n * 2 ^ F) 0 ↔
      ¬ Straddles n (bitLength n - 53) 29 := by
  rw [nearest_nearest, ← roundShift_roundShift_eq_iff (by decide)]
  by_cases hshort : bitLength n ≤ 53
  · -- the integer is a double
    have hsame := roundShift_exact n 0
    rw [Nat.pow_zero, Nat.mul_one] at hsame
    rw [Nat.sub_eq_zero_of_le hshort, hsame, Nat.pow_zero, Nat.mul_one, Nat.zero_add]
    exact iff_of_true rfl rfl
  · obtain ⟨j, hj⟩ : ∃ j, bitLength n = 53 + j := ⟨_, (Nat.add_sub_cancel' (by omega)).symm⟩
    have hlow : 2 ^ 52 ≤ roundShift n j := by
      refine le_roundShift ?_
      rw [← Nat.pow_add, ← lt_bitLength_iff]
      omega
    have hhigh : roundShift n j ≤ 2 ^ 53 := by
      refine roundShift_le ?_
      rw [← Nat.pow_add, ← hj]
      exact Nat.le_of_lt (lt_two_pow_bitLength n)
    have htwice : nearest .single (roundShift n j * 2 ^ j * 2 ^ F) 0 =
        roundShift (roundShift n j) 29 * 2 ^ (29 + (j + F)) := by
      rw [Nat.mul_assoc, ← Nat.pow_add]
      exact nearest_whole_of_bounds hlow hhigh (j + F)
    have honce : nearest .single (n * 2 ^ F) 0 = roundShift n (j + 29) * 2 ^ (29 + (j + F)) := by
      have hscale : bitLength n - precision .single = j + 29 := by
        change bitLength n - 24 = j + 29
        omega
      rw [nearest_whole, hscale, Nat.add_comm j 29, Nat.add_assoc]
    rw [hj, Nat.add_sub_cancel_left, htwice, honce]
    exact Nat.mul_right_cancel_iff (Nat.two_pow_pos _)

/-- Words do not overflow on the way through a double either. -/
theorem nearest_nearest_lt_overflow {n : Nat} (hn : n < 2 ^ 64) :
    nearest .single (nearest .double (n * 2 ^ (fractionBits .single + 925)) 0) 925 <
      overflow .single := by
  rw [nearest_nearest]
  refine nearest_word_lt_overflow .single ?_
  -- a double rounded from a word is `2 ^ 64` at most
  have hlength : bitLength n ≤ 64 := bitLength_le_iff.mpr hn
  have hpow : 2 ^ (64 - (bitLength n - 53)) * 2 ^ (bitLength n - 53) = 2 ^ 64 := by
    rw [← Nat.pow_add, Nat.sub_add_cancel (by omega)]
  rw [← hpow]
  refine Nat.mul_le_mul_right _ (roundShift_le ?_)
  rw [hpow]
  exact Nat.le_of_lt hn

end Format

namespace Binary

/-- An integer that has to be rounded to a `double`, and by this gets on the wrong side of the
middle between two `float`s. -/
def RoundsTwice (n : Int) : Prop := Straddles n.natAbs (bitLength n.natAbs - 53) 29

instance (n : Int) : Decidable (RoundsTwice n) := by unfold RoundsTwice; infer_instance

/-- A `double` has 925 more binary places than a `float`. -/
theorem fractionBits_double : Format.fractionBits .double = Format.fractionBits .single + 925 := by
  decide

theorem ofUnits_convert_single {x : Binary .double} {negative : Bool} {u : Nat}
    (hx : x.Magnitude negative u) :
    (x.convert .single).OfUnits negative (Format.nearest .single u 925) :=
  ofUnits_convert fractionBits_double hx

/-- The single from the double from an integer. -/
theorem magnitude_convert_ofInt {n : Int} (hn : n.natAbs < 2 ^ 64) :
    ((ofInt .double n).convert .single).Magnitude (n < 0) (Format.nearest .single
      (Format.nearest .double (n.natAbs * 2 ^ (Format.fractionBits .single + 925)) 0) 925) := by
  have hdouble := magnitude_ofInt .double (Nat.le_of_lt hn)
  rw [fractionBits_double] at hdouble
  exact (ofUnits_convert_single hdouble).magnitude (Format.nearest_nearest_lt_overflow hn)

/-- It is the single from the integer itself, but for the integers that are rounded twice. -/
theorem convert_ofInt_eq_iff {n : Int} (hn : n.natAbs < 2 ^ 64) :
    (ofInt .double n).convert .single = ofInt .single n ↔ ¬ RoundsTwice n := by
  rw [(magnitude_convert_ofInt hn).eq_iff (magnitude_ofInt .single (Nat.le_of_lt hn)),
    Format.nearest_nearest_eq_iff, RoundsTwice]

end Binary

/-! ### Narrowing the boxes of an integer -/

theorem InWidth.natAbs_lt {n : Int} (hn : InWidth 64 n) : n.natAbs < 2 ^ 64 := by
  obtain ⟨hlow, hhigh⟩ := hn
  omega

namespace NarrowingPolicy

variable {n : Int}

/-- Up to 64 bits, all digits of an integer are in its leading word. -/
theorem ofLargeInt_eq_ofInt (f : Format) (hn : InWidth 64 n) :
    Binary.ofLargeInt f n = Binary.ofInt f n :=
  Binary.ofLargeInt_of_bitLength_le f (bitLength_le_iff.mpr hn.natAbs_lt)

/-- An integer type has no way of telling how an integer is boxed. -/
theorem narrowInt_of_width? {t : ElementType} {w : Nat} (hw : t.width? = some w)
    (policy : NarrowingPolicy) (hn : InWidth 64 n) :
    policy.narrowInt n t = policy.narrowWord (Int64.ofInt n) t := by
  cases policy with
  | truncate =>
    rw [← Word.lowBits_eq]
    cases t with
    | byte | short | int | long => rfl
    | float | double => cases hw
  | checked => rw [checked_narrowInt hw, if_pos hn]

/-- A `double` is rounded once, by one way as by the other. -/
theorem narrowInt_double (policy : NarrowingPolicy) (hn : InWidth 64 n) :
    policy.narrowInt n .double = .ok (.double (Binary.ofInt .double n)) := by
  rw [← ofLargeInt_eq_ofInt .double hn]
  cases policy with
  | truncate => rfl
  | checked => rfl

/-- A `float` is rounded twice, unless it comes from a word. -/
theorem narrowInt_float (policy : NarrowingPolicy) (hn : InWidth 64 n) :
    policy.narrowInt n .float = .ok (.float ((Binary.ofInt .double n).convert .single)) := by
  rw [narrowInt, ofLargeInt_eq_ofInt .double hn]
  cases policy with
  | truncate => rfl
  | checked =>
    have hfinite := (Binary.magnitude_convert_ofInt hn.natAbs_lt).isFinite
    rw [narrowDouble, hfinite, Bool.not_true, Bool.and_false]
    rfl

/-- A word is rounded to the format of the target at once. -/
theorem narrowWord_ofInt (policy : NarrowingPolicy) (hn : InWidth 64 n) :
    policy.narrowWord (Int64.ofInt n) .float = .ok (.float (Binary.ofInt .single n)) ∧
    policy.narrowWord (Int64.ofInt n) .double = .ok (.double (Binary.ofInt .double n)) := by
  have hword : policy.narrowWord (Int64.ofInt n) .float =
        .ok (.float (Binary.ofInt .single (Int64.ofInt n).toInt)) ∧
      policy.narrowWord (Int64.ofInt n) .double =
        .ok (.double (Binary.ofInt .double (Int64.ofInt n).toInt)) := by
    cases policy with
    | truncate => exact ⟨rfl, rfl⟩
    | checked => exact ⟨rfl, rfl⟩
  rwa [hn.toInt_ofInt] at hword

/-- An integer of 64 bits is narrowed like the word, but for the `float`s that are rounded twice. -/
theorem narrowInt_eq_narrowWord_iff (policy : NarrowingPolicy) (t : ElementType)
    (hn : InWidth 64 n) :
    policy.narrowInt n t = policy.narrowWord (Int64.ofInt n) t ↔
      ¬ (t = .float ∧ Binary.RoundsTwice n) := by
  obtain ⟨hfloat, hdouble⟩ := narrowWord_ofInt policy hn
  cases t with
  | byte | short | int | long =>
    exact iff_of_true (narrowInt_of_width? rfl policy hn) fun h => nomatch h.1
  | float =>
    rw [narrowInt_float policy hn, hfloat, Except.ok.injEq, Element.float.injEq,
      Binary.convert_ofInt_eq_iff hn.natAbs_lt]
    exact not_congr (iff_and_self.mpr fun _ => rfl)
  | double =>
    exact iff_of_true ((narrowInt_double policy hn).trans hdouble.symm) fun h => nomatch h.1

variable {v w : Value}

/-- The boxes of an integer: one for integers of any size, and words. -/
theorem narrow_of_whole? (hv : v.whole? = some n) :
    v = .bigInteger n ∨ v ≠ .bigInteger n ∧ InWidth 64 n ∧
      ∀ (policy : NarrowingPolicy) h t,
        policy.narrow h v t = policy.narrowWord (Int64.ofInt n) t := by
  have hcode : v.code? = some n := by
    cases v with
    | character c => cases hv
    | _ => exact hv
  by_cases hbig : v = .bigInteger n
  · exact Or.inl hbig
  · obtain ⟨x, rfl, hnarrow⟩ := (narrow_of_code? hcode).resolve_left hbig
    rw [Int64.ofInt_toInt]
    exact Or.inr ⟨hbig, ⟨x.le_toInt, x.toInt_lt⟩, hnarrow⟩

/-- Two boxes of an integer are narrowed alike, to the same element or with the same fault, exactly
if not one of them alone is a box for integers of any size, to be narrowed to a `float`, with an
integer that the way through a `double` rounds to another one. -/
theorem narrow_eq_narrow_iff (hv : v.whole? = some n) (hw : w.whole? = some n)
    (policy : NarrowingPolicy) (h : Heap) (t : ElementType) :
    policy.narrow h v t = policy.narrow h w t ↔
      ¬ (t = .float ∧ ¬ (v = .bigInteger n ↔ w = .bigInteger n) ∧ Binary.RoundsTwice n) := by
  rcases narrow_of_whole? hv with rfl | ⟨hvbig, hword, hnarrow⟩
  · rcases narrow_of_whole? hw with rfl | ⟨hwbig, hword, hnarrow⟩
    · exact iff_of_true rfl fun hall => hall.2.1 Iff.rfl
    · have hdiffer : ¬ (Value.bigInteger n = .bigInteger n ↔ w = .bigInteger n) :=
        fun hiff => hwbig (hiff.mp rfl)
      rw [and_iff_right hdiffer, hnarrow]
      exact narrowInt_eq_narrowWord_iff policy t hword
  · rcases narrow_of_whole? hw with rfl | ⟨hwbig, -, hnarrow'⟩
    · have hdiffer : ¬ (v = .bigInteger n ↔ Value.bigInteger n = .bigInteger n) :=
        fun hiff => hvbig (hiff.mpr rfl)
      rw [and_iff_right hdiffer, hnarrow, eq_comm]
      exact narrowInt_eq_narrowWord_iff policy t hword
    · -- two words of one value
      exact iff_of_true ((hnarrow policy h t).trans (hnarrow' policy h t).symm)
        fun hall => hall.2.1 (iff_of_false hvbig hwbig)

/-! A bit above the middle between two `float`s: the word is rounded up.  The `double` nearest to
the integer is the middle itself, and is rounded down, to the even one. -/

theorem narrow_eq_narrow_iff_aboveMiddle :
    let n : Int := 2 ^ 60 + 2 ^ 36 + 1
    (Value.long (Int64.ofInt n)).whole? = some n ∧ (Value.bigInteger n).whole? = some n ∧
    Binary.RoundsTwice n ∧
    truncate.narrow .empty (.long (Int64.ofInt n)) .float ≠
      truncate.narrow .empty (.bigInteger n) .float ∧
    truncate.narrow .empty (.long (Int64.ofInt n)) .double =
      truncate.narrow .empty (.bigInteger n) .double := by
  intro n
  have hlong : (Value.long (Int64.ofInt n)).whole? = some n := rfl
  have hbig : (Value.bigInteger n).whole? = some n := rfl
  have htwice : Binary.RoundsTwice n := by decide +kernel
  have hdiffer : ¬ (Value.long (Int64.ofInt n) = .bigInteger n ↔
      Value.bigInteger n = .bigInteger n) := fun h => nomatch h.mpr rfl
  have hiff := narrow_eq_narrow_iff hlong hbig truncate .empty
  refine ⟨hlong, hbig, htwice, fun hsame => ?_, (hiff .double).mpr fun hall => nomatch hall.1⟩
  exact (hiff .float).mp hsame ⟨rfl, hdiffer, htwice⟩

theorem boxes_told_apart :
    let n : Int := 2 ^ 60 + 2 ^ 36 + 1
    (Value.long (Int64.ofInt n)).whole? = some n ∧ (Value.bigInteger n).whole? = some n ∧
    truncate.narrow .empty (.long (Int64.ofInt n)) .float =
      .ok (.float (.ofBits .single 0x5d800001)) ∧
    truncate.narrow .empty (.bigInteger n) .float = .ok (.float (.ofBits .single 0x5d800000)) ∧
    Binary.ofBits .single 0x5d800001 ≠ .ofBits .single 0x5d800000 := by
  intro n
  refine ⟨rfl, rfl, congrArg (fun x => Except.ok (Element.float x)) ?_,
    congrArg (fun x => Except.ok (Element.float x)) ?_, ?_⟩
  · decide +kernel
  · decide +kernel
  · decide +kernel

end NarrowingPolicy

end InlineCache
