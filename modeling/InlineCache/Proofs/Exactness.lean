/-
What the checked policy loses on the way to the floating-point types.

To an integer type it takes only what the type holds exactly.  To `float` and `double` it takes
every number that does not overflow, and rounds it without a word: the element is a neighbour of
the number (`Binary.Adjoins`), and is the number itself exactly if the type has it.

* `Format.nearest_mono`: rounding keeps the order of magnitudes;
* `Binary.Adjoins`: no number of the format lies between a number and what it is rounded to, also
  if it is rounded to a `double` first (`Binary.Adjoins.ofDouble`), and to its leading word before
  that (`Binary.adjoins_ofLargeInt`);
* `NarrowingPolicy.checked_narrow_lossless_iff`: narrowing keeps or refuses a number exactly if the
  type has it.
-/
import InlineCache.Proofs.Overflow

namespace InlineCache

/-! ### The order of magnitudes -/

theorem roundShift_mono {a b : Nat} (h : a ≤ b) (t : Nat) : roundShift a t ≤ roundShift b t := by
  have hreach := le_roundShift_iff.mp (Nat.le_refl (roundShift a t))
  refine le_roundShift_iff.mpr ?_
  split at hreach
  · rw [if_pos ‹_›]
    omega
  · rw [if_neg ‹_›]
    omega

namespace Format

variable {f : Format} {a b t c j : Nat}

theorem scaleOf_mono (h : a ≤ b) : f.scaleOf a t ≤ f.scaleOf b t := by
  have hlength : bitLength a ≤ bitLength b :=
    bitLength_le_iff.mpr (Nat.lt_of_le_of_lt h (lt_two_pow_bitLength b))
  exact Nat.sub_le_sub_right hlength _

/-- A larger magnitude is not rounded to a smaller one. -/
theorem nearest_mono (h : a ≤ b) : f.nearest a t ≤ f.nearest b t := by
  rcases Nat.eq_or_lt_of_le (scaleOf_mono (f := f) (t := t) h) with hscale | hscale
  · rw [nearest, nearest, hscale]
    exact Nat.mul_le_mul_right _ (roundShift_mono h _)
  · -- the end of the finer grid is not past the beginning of the coarser one
    calc f.nearest a t
        ≤ 2 ^ f.precision * 2 ^ f.scaleOf a t :=
          Nat.mul_le_mul_right _ (roundShift_scaleOf_le f a t)
      _ = 2 ^ (f.precision - 1) * 2 ^ (f.scaleOf a t + 1) := two_pow_precision_mul f _
      _ ≤ f.nearest b t :=
          Nat.mul_le_mul (le_roundShift_scaleOf (Nat.zero_lt_of_lt hscale))
            (Nat.pow_le_pow_right (by decide) hscale)

/-- No magnitude of a number lies between a fraction and what the fraction is rounded to. -/
theorem le_nearest (hc : c < 2 ^ f.precision) (h : c * 2 ^ j * 2 ^ t ≤ a) :
    c * 2 ^ j ≤ f.nearest a t := by
  rw [← nearest_exact (t := t) j hc]
  exact nearest_mono h

theorem nearest_le (hc : c < 2 ^ f.precision) (h : a ≤ c * 2 ^ j * 2 ^ t) :
    f.nearest a t ≤ c * 2 ^ j := by
  rw [← nearest_exact (t := t) j hc]
  exact nearest_mono h

end Format

/-! ### Neighbours -/

namespace Binary

variable {f : Format} {q : ℚ}

theorem scaled_le_iff {n u F : ℕ} {e : ℤ} :
    (u / 2 ^ F : ℚ) ≤ n * 2 ^ e ↔ u * 2 ^ (-(e + F)).toNat ≤ n * 2 ^ (e + F).toNat := by
  have hF : (0 : ℚ) < 2 ^ F := pow_pos two_pos _
  have ht : (0 : ℚ) < 2 ^ (-(e + F)).toNat := pow_pos two_pos _
  rw [div_le_iff₀ hF, ← mul_le_mul_iff_left₀ ht, mul_assoc, mul_assoc, ← mul_assoc (2 ^ e),
    two_zpow_mul]
  norm_cast

theorem le_scaled_iff {n u F : ℕ} {e : ℤ} :
    (n * 2 ^ e : ℚ) ≤ u / 2 ^ F ↔ n * 2 ^ (e + F).toNat ≤ u * 2 ^ (-(e + F)).toNat := by
  have hF : (0 : ℚ) < 2 ^ F := pow_pos two_pos _
  have ht : (0 : ℚ) < 2 ^ (-(e + F)).toNat := pow_pos two_pos _
  rw [le_div_iff₀ hF, ← mul_le_mul_iff_left₀ ht, mul_assoc, mul_assoc, ← mul_assoc (2 ^ e),
    two_zpow_mul]
  norm_cast

/-- A finite number of the format, such that no number of the format lies between it and a given
number: that number itself, if the format has it, or else the next one below or above. -/
def Adjoins (y : Binary f) (q : ℚ) : Prop :=
  ∃ r, y.reading = .exactly r ∧ ∀ (z : Binary f) p, z.reading = .exactly p →
    (p ≤ q → p ≤ r) ∧ (q ≤ p → r ≤ p)

/-- What adjoins a number of the format is that number. -/
theorem Adjoins.reading_eq {y z : Binary f} (hy : y.Adjoins q) (hz : z.reading = .exactly q) :
    y.reading = .exactly q := by
  obtain ⟨r, hr, hbetween⟩ := hy
  obtain ⟨hlow, hhigh⟩ := hbetween z q hz
  rw [hr, le_antisymm (hhigh le_rfl) (hlow le_rfl)]

theorem adjoins_of_reading {y : Binary f} (hy : y.reading = .exactly q) : y.Adjoins q :=
  ⟨q, hy, fun _ _ _ => ⟨id, id⟩⟩

/-- It is enough to look at the magnitudes. -/
theorem adjoins_of_magnitude {y : Binary f} {negative : Bool} {u : ℕ} {size : ℚ}
    (hy : y.Magnitude negative u) (hsize : 0 ≤ size)
    (hbetween : ∀ m k, f.Canonical m k →
      ((units m k / 2 ^ f.fractionBits : ℚ) ≤ size → units m k ≤ u) ∧
      (size ≤ units m k / 2 ^ f.fractionBits → u ≤ units m k)) :
    y.Adjoins (signed negative size) := by
  have hF : (0 : ℚ) < 2 ^ f.fractionBits := pow_pos two_pos _
  refine ⟨_, hy.reading, fun z p hz => ?_⟩
  cases z with
  | nan => cases hz
  | infinite _ => cases hz
  | finite negative' m k h =>
    obtain rfl := Reading.exactly.inj hz
    obtain ⟨hlow, hhigh⟩ := hbetween m k h
    have hlow' : (units m k / 2 ^ f.fractionBits : ℚ) ≤ size →
        (units m k / 2 ^ f.fractionBits : ℚ) ≤ u / 2 ^ f.fractionBits := fun hle =>
      div_le_div_of_nonneg_right (Nat.cast_le.mpr (hlow hle)) hF.le
    have hhigh' : size ≤ units m k / 2 ^ f.fractionBits →
        (u / 2 ^ f.fractionBits : ℚ) ≤ units m k / 2 ^ f.fractionBits := fun hle =>
      div_le_div_of_nonneg_right (Nat.cast_le.mpr (hhigh hle)) hF.le
    have hm : (0 : ℚ) ≤ units m k / 2 ^ f.fractionBits := div_nonneg (Nat.cast_nonneg _) hF.le
    have hu : (0 : ℚ) ≤ u / 2 ^ f.fractionBits := div_nonneg (Nat.cast_nonneg _) hF.le
    generalize (units m k / 2 ^ f.fractionBits : ℚ) = p at *
    generalize (u / 2 ^ f.fractionBits : ℚ) = r at *
    cases negative with
    | false =>
      cases negative' with
      | false => exact ⟨hlow', hhigh'⟩
      | true =>
        -- a nonnegative number and one that is not positive
        refine ⟨fun _ => (neg_nonpos.mpr hm).trans hu, fun hle => ?_⟩
        have hle : size ≤ -p := hle
        have hzero := hhigh' (by linarith)
        show r ≤ -p
        linarith
    | true =>
      cases negative' with
      | false =>
        refine ⟨fun hle => ?_, fun _ => (neg_nonpos.mpr hu).trans hm⟩
        have hle : p ≤ -size := hle
        have hzero := hhigh' (by linarith)
        show p ≤ -r
        linarith
      | true => exact ⟨fun hle => neg_le_neg (hhigh' (neg_le_neg_iff.mp hle)),
          fun hle => neg_le_neg (hlow' (neg_le_neg_iff.mp hle))⟩

/-- A rounding that does not overflow leads to a neighbour. -/
theorem adjoins_round {negative : Bool} {n : ℕ} {e : ℤ}
    (hfinite : (round f negative n e).isFinite = true) :
    (round f negative n e).Adjoins (signed negative (n * 2 ^ e)) := by
  have hunits := ofUnits_round f negative n e
  have hnonneg : (0 : ℚ) ≤ n * 2 ^ e := mul_nonneg (Nat.cast_nonneg _) (zpow_nonneg zero_le_two _)
  refine adjoins_of_magnitude (hunits.magnitude (hunits.isFinite_iff.mp hfinite)) hnonneg ?_
  exact fun m k h => ⟨fun hle => Format.le_nearest h.1 (scaled_le_iff.mp hle),
    fun hle => Format.nearest_le h.1 (le_scaled_iff.mp hle)⟩

/-- So does a conversion. -/
theorem adjoins_convert {g : Format} {x : Binary f} (hx : x.reading = .exactly q)
    (hfinite : (x.convert g).isFinite = true) : (x.convert g).Adjoins q := by
  cases x with
  | nan => cases hx
  | infinite _ => cases hx
  | finite negative m k h =>
    have hround := adjoins_round (f := g) hfinite
    rwa [scaled_units, Reading.exactly.inj hx] at hround

/-- A second rounding, to fewer digits, does not step over a number either. -/
theorem Adjoins.ofDouble {x : Binary .double} (hx : x.Adjoins q)
    (hfinite : (f.ofDouble x).isFinite = true) : (f.ofDouble x).Adjoins q := by
  cases f with
  | double => exact hx
  | single =>
    obtain ⟨r, hr, hbetween⟩ := hx
    obtain ⟨r', hr', hbetween'⟩ := adjoins_convert hr hfinite
    refine ⟨r', hr', fun z p hz => ?_⟩
    -- a single is a double
    obtain ⟨hlow, hhigh⟩ := hbetween _ p ((reading_convert_double z).trans hz)
    obtain ⟨hlow', hhigh'⟩ := hbetween' z p hz
    exact ⟨fun hle => hlow' (hlow hle), fun hle => hhigh' (hhigh hle)⟩

theorem div_two_pow_le_iff {u n F : ℕ} : (u / 2 ^ F : ℚ) ≤ n ↔ u ≤ n * 2 ^ F := by
  rw [div_le_iff₀ (pow_pos two_pos F)]
  norm_cast

theorem le_div_two_pow_iff {u n F : ℕ} : (n : ℚ) ≤ u / 2 ^ F ↔ n * 2 ^ F ≤ u := by
  rw [le_div_iff₀ (pow_pos two_pos F)]
  norm_cast

/-- An integer is rounded to a neighbour. -/
theorem adjoins_ofInt {n : ℤ} (hfinite : (ofInt f n).isFinite = true) : (ofInt f n).Adjoins n := by
  have hround := adjoins_round (f := f) hfinite
  rwa [zpow_zero, mul_one, signed_natAbs] at hround

/-- No `double` lies between an integer and its leading word. -/
theorem leadingWord_between {n m k F : ℕ} (hm : m < 2 ^ 53) :
    (units m k ≤ n * 2 ^ F → units m k ≤ leadingWord n * 2 ^ (bitLength n - 64) * 2 ^ F) ∧
    (n * 2 ^ F ≤ units m k → leadingWord n * 2 ^ (bitLength n - 64) * 2 ^ F ≤ units m k) := by
  have hpos := Nat.two_pow_pos F
  rcases Nat.lt_or_ge k F with hk | hk
  · have hsmall : units m k < 2 ^ 53 * 2 ^ F :=
      Nat.mul_lt_mul_of_lt_of_le hm (Nat.pow_le_pow_right (by decide) (Nat.le_of_lt hk)) hpos
    rcases Nat.lt_or_ge 64 (bitLength n) with hlong | hshort
    · -- a number with binary places is less than any integer that has to be cut
      have hreach := leadingWord_reach_iff (n := n) (c := 2 ^ 54) (s := 0) (Nat.le_refl _)
      have hlarge : 2 ^ 64 ≤ n := lt_bitLength_iff.mp hlong
      have hword : 2 ^ 53 ≤ leadingWord n * 2 ^ (bitLength n - 64) := by omega
      have hlarge' := Nat.mul_le_mul_right (2 ^ F) hlarge
      have hword' := Nat.mul_le_mul_right (2 ^ F) hword
      exact ⟨fun _ => by omega, fun hle => by omega⟩
    · rw [leadingWord_of_bitLength_le hshort, Nat.sub_eq_zero_of_le hshort, Nat.pow_zero,
        Nat.mul_one]
      exact ⟨id, id⟩
  · obtain ⟨s, rfl⟩ : ∃ s, k = s + F := ⟨k - F, by omega⟩
    have hreach := leadingWord_reach_iff (n := n) (c := m) (s := s + 1) (by omega)
    rw [Nat.pow_succ, ← Nat.mul_assoc] at hreach
    have hunits : units m (s + F) = m * 2 ^ s * 2 ^ F := by
      rw [units, Nat.pow_add, Nat.mul_assoc]
    simp only [hunits, Nat.mul_le_mul_right_iff hpos]
    refine ⟨fun hle => by omega, fun hle => ?_⟩
    rcases Nat.eq_or_lt_of_le hle with heq | hlt
    · -- a `double` is its own leading word
      have hzeros : n % 2 ^ (bitLength n - 64) = 0 :=
        mod_leading_eq_zero (m := m) (k := s) (F := 0) (by omega)
          (by rw [heq, Nat.pow_zero, Nat.mul_one])
      rw [leadingWord_mul hzeros]
      exact hle
    · omega

/-- An integer of any size is rounded to a neighbour, although not always to the nearer one. -/
theorem adjoins_ofLargeInt {n : ℤ} (hfinite : (ofLargeInt .double n).isFinite = true) :
    (ofLargeInt .double n).Adjoins n := by
  have hfraction : Format.fractionBits .double = 1074 := by decide
  have hunits := ofUnits_ofLargeInt n
  rw [← signed_natAbs n]
  refine adjoins_of_magnitude (hunits.magnitude (hunits.isFinite_iff.mp hfinite))
    (Nat.cast_nonneg _) fun m k h => ?_
  obtain ⟨hlow, hhigh⟩ := leadingWord_between (n := n.natAbs) (k := k) (F := 1074) h.1
  rw [hfraction, pow_add, ← mul_assoc]
  rw [div_two_pow_le_iff, le_div_two_pow_iff]
  refine ⟨fun hle => Format.le_nearest h.1 ?_, fun hle => Format.nearest_le h.1 ?_⟩
  · rw [Nat.pow_zero, Nat.mul_one]
    exact hlow hle
  · rw [Nat.pow_zero, Nat.mul_one]
    exact hhigh hle

end Binary

/-! ### Narrowing -/

/-- What a number, or a character by its code, stands for. -/
def Value.number? : Value → Option Reading
  | .float x => some x.reading
  | .double x => some x.reading
  | v => v.code?.map fun n => .exactly n

theorem Value.number?_cases {v : Value} {q : ℚ} (hv : v.number? = some (.exactly q)) :
    (∃ n : ℤ, v.code? = some n ∧ n = q) ∨
      (∃ x : Binary .single, v = .float x ∧ x.reading = .exactly q) ∨
      ∃ x : Binary .double, v = .double x ∧ x.reading = .exactly q := by
  cases v with
  | float x => exact Or.inr (Or.inl ⟨x, rfl, Option.some.inj hv⟩)
  | double x => exact Or.inr (Or.inr ⟨x, rfl, Option.some.inj hv⟩)
  | byte _ | short _ | integer _ | long _ | bigInteger _ | character _ =>
    exact Or.inl ⟨_, rfl, Reading.exactly.inj (Option.some.inj hv)⟩
  | null | boolean | string | template | array => cases hv

namespace NarrowingPolicy

/-- An attempt to narrow a number to a format gives the number itself if the format has it, and is
refused if not. -/
structure Lossless (attempt : Except Fault Element) (f : Format) (q : ℚ) : Prop where
  kept : (∃ z : Binary f, z.reading = .exactly q) →
    ∃ y : Binary f, attempt = .ok (f.element y) ∧ y.reading = .exactly q
  refused : (¬ ∃ z : Binary f, z.reading = .exactly q) →
    ∃ fault, attempt = .error fault ∧ fault.IsUncoercible

variable {f : Format} {q : ℚ}

/-- In the reach of the format, a `double` is taken, rounded. -/
theorem exists_adjoins_of_near {x : Binary .double} (hx : x.Adjoins q) (hnear : x.Near q)
    (hq : |q| < f.reach) :
    ∃ y : Binary f, checked.narrowDouble x f.type = .ok (f.element y) ∧ y.Adjoins q := by
  have hfinite : x.isFinite = true :=
    hnear.finite_iff.mpr (hq.trans_le (Nat.cast_le.mpr f.reach_le_reach_double))
  have hfinite' : (f.ofDouble x).isFinite = true := (hnear.isFinite_ofDouble_iff hfinite).mpr hq
  rw [checked_narrowDouble_type, hfinite, hfinite']
  exact ⟨f.ofDouble x, rfl, hx.ofDouble hfinite'⟩

/-- So is every number, whatever it comes as. -/
theorem exists_adjoins_of_lt_reach {v : Value} (hv : v.number? = some (.exactly q))
    (hq : |q| < f.reach) (h : Heap) :
    ∃ y : Binary f, checked.narrow h v f.type = .ok (f.element y) ∧ y.Adjoins q := by
  rcases Value.number?_cases hv with ⟨n, hn, rfl⟩ | ⟨x, rfl, hx⟩ | ⟨x, rfl, hx⟩
  · rcases narrow_of_code? hn with rfl | ⟨x, rfl, hnarrow⟩
    · have hnear := Binary.near_ofLargeInt n
      have hfinite : (Binary.ofLargeInt .double n).isFinite = true :=
        hnear.finite_iff.mpr (hq.trans_le (Nat.cast_le.mpr f.reach_le_reach_double))
      rw [narrow, narrowInt_type]
      exact exists_adjoins_of_near (Binary.adjoins_ofLargeInt hfinite) hnear hq
    · have hword : InWidth 64 x.toInt := ⟨x.le_toInt, x.toInt_lt⟩
      have hfinite := (Binary.magnitude_ofInt f (Nat.le_of_lt hword.natAbs_lt)).isFinite
      have htaken := checked_narrowWord_type hword f
      rw [Int64.ofInt_toInt] at htaken
      rw [hnarrow]
      exact ⟨_, htaken, Binary.adjoins_ofInt hfinite⟩
  · have hdouble := (Binary.reading_convert_double x).trans hx
    exact exists_adjoins_of_near (Binary.adjoins_of_reading hdouble)
      (Binary.near_of_reading hdouble) hq
  · exact exists_adjoins_of_near (Binary.adjoins_of_reading hx) (Binary.near_of_reading hx) hq

/-- **Which numbers the checked policy keeps.**  Let a number, or a character by its code, be no
larger than some finite number of `float` or of `double`.  Whatever the number comes as, narrowing
it to this type under the checked policy succeeds, with a neighbour of the number.  So it keeps the
numbers that the type has, and only these are treated as a policy without losses would treat them:
of all others something is lost, and none is refused. -/
theorem checked_narrow_lossless_iff {v : Value} (hv : v.number? = some (.exactly q))
    {largest : Binary f} {p : ℚ} (hlargest : largest.reading = .exactly p) (hq : |q| ≤ |p|)
    (h : Heap) :
    (∃ y : Binary f, checked.narrow h v f.type = .ok (f.element y) ∧ y.Adjoins q) ∧
    (Lossless (checked.narrow h v f.type) f q ↔ ∃ z : Binary f, z.reading = .exactly q) := by
  obtain ⟨y, hy, hadjoins⟩ :=
    exists_adjoins_of_lt_reach hv (hq.trans_lt (Binary.lt_reach_of_reading hlargest)) h
  refine ⟨⟨y, hy, hadjoins⟩, fun hlossless => ?_, fun hz => ⟨fun _ => ?_, fun hnone => ?_⟩⟩
  · by_contra hnone
    obtain ⟨fault, hrefused, -⟩ := hlossless.refused hnone
    rw [hy] at hrefused
    cases hrefused
  · obtain ⟨z, hz⟩ := hz
    exact ⟨y, hy, hadjoins.reading_eq hz⟩
  · exact absurd hz hnone

/-! The least `double` is taken as a `float`, which is zero. -/

theorem checked_narrow_lossless_iff_leastDouble :
    let least : Binary .double := .finite false 1 0 (by decide)
    let largest : Binary .single := .finite false (2 ^ 24 - 1) 253 (by decide)
    let q : ℚ := signed false (Binary.units 1 0 / 2 ^ 1074)
    let p : ℚ := signed false (Binary.units (2 ^ 24 - 1) 253 / 2 ^ 149)
    (Value.double least).number? = some (.exactly q) ∧
    largest.reading = .exactly p ∧ |q| ≤ |p| ∧
    checked.narrow .empty (.double least) .float = .ok (.float (.zero .single false)) ∧
    (Binary.zero .single false).Adjoins q ∧
    ¬ Lossless (checked.narrow .empty (.double least) .float) .single q := by
  intro least largest q p
  have hpos : 0 < q := div_pos (by norm_num [Binary.units]) (pow_pos two_pos _)
  have hone : q ≤ 1 :=
    (div_le_one (pow_pos two_pos _)).mpr (by simpa [Binary.units] using one_le_pow₀ one_le_two)
  have hlarge : 1 ≤ p := by norm_num [p, signed, Binary.units]
  have hle : |q| ≤ |p| := by
    rw [abs_of_pos hpos, abs_of_pos (zero_lt_one.trans_le hlarge)]
    exact hone.trans hlarge
  have hzero : least.convert .single = .zero .single false := by decide +kernel
  have hnarrow : checked.narrow .empty (.double least) .float =
      .ok (.float (.zero .single false)) := by
    rw [narrow, narrowDouble, hzero]
    rfl
  have hnumber : (Value.double least).number? = some (.exactly q) := rfl
  have hlargest : largest.reading = .exactly p := rfl
  obtain ⟨⟨y, hy, hadjoins⟩, hiff⟩ := checked_narrow_lossless_iff hnumber hlargest hle .empty
  obtain rfl : .zero .single false = y :=
    Element.float.inj (Except.ok.inj (hnarrow.symm.trans hy))
  refine ⟨hnumber, hlargest, hle, hnarrow, hadjoins, fun hlossless => ?_⟩
  obtain ⟨z, hz⟩ := hiff.mp hlossless
  have hvalue := Reading.exactly.inj (hadjoins.reading_eq hz)
  rw [← hvalue] at hpos
  norm_num [signed, Binary.units] at hpos

/-! The least positive integer that is no `float` is taken, as its neighbour. -/

theorem rounded_silently :
    let q : ℚ := (16777217 : ℤ)
    let largest : Binary .single := .finite false (2 ^ 24 - 1) 253 (by decide)
    let p : ℚ := signed false (Binary.units (2 ^ 24 - 1) 253 / 2 ^ 149)
    (Value.integer 16777217).number? = some (.exactly q) ∧
    largest.reading = .exactly p ∧ |q| ≤ |p| ∧
    (¬ ∃ z : Binary .single, z.reading = .exactly q) ∧
    checked.narrow .empty (.integer 16777217) .float = .ok (.float (.ofBits .single 0x4b800000)) ∧
    ¬ Lossless (checked.narrow .empty (.integer 16777217) .float) .single q := by
  intro q largest p
  have hrounded : Binary.ofInt .single 16777217 = .ofBits .single 0x4b800000 := by decide +kernel
  have hbits : Binary.ofBits .single 0x4b800000 = .finite false (2 ^ 23) 150 (by decide) := by
    decide +kernel
  have hadjoins : (Binary.ofBits .single 0x4b800000).Adjoins q := by
    rw [← hrounded]
    exact Binary.adjoins_ofInt (by rw [hrounded]; decide +kernel)
  have hnone : ¬ ∃ z : Binary .single, z.reading = .exactly q := by
    rintro ⟨z, hz⟩
    have hfraction : Format.fractionBits .single = 149 := by decide
    have hreading := hadjoins.reading_eq hz
    rw [hbits] at hreading
    have hvalue := Reading.exactly.inj hreading
    rw [hfraction] at hvalue
    norm_num [q, signed, Binary.units] at hvalue
  have hnarrow : checked.narrow .empty (.integer 16777217) .float =
      .ok (.float (.ofBits .single 0x4b800000)) :=
    congrArg (fun x => Except.ok (Element.float x)) hrounded
  refine ⟨rfl, rfl, ?_, hnone, hnarrow, fun hlossless => ?_⟩
  · norm_num [q, p, signed, Binary.units]
  · obtain ⟨fault, hrefused, -⟩ := hlossless.refused hnone
    rw [hnarrow] at hrefused
    cases hrefused

end NarrowingPolicy

end InlineCache
