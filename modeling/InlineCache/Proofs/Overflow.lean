/-
Where the checked policy lets numbers overflow.

On the way to `float` it refuses the finite numbers that become infinite, and to `double` there is
nothing to refuse, as long as the numbers come as words or as floating-point numbers.  An integer of
any size comes as the `double` nearest to it, and from `2 ^ 1024 - 2 ^ 970` on this is an infinity
already: no longer a finite number that would have to be refused.

* `leadingWord_reach_iff`: for the numbers of a format, an integer and its leading word are on the
  same side;
* `Binary.Near`: what a `double` has to do with a number that it is nearest to;
* `NarrowingPolicy.checked_narrow_finite`: what becomes of all finite numbers.
-/
import InlineCache.Proofs.Boxing
import InlineCache.Proofs.Readings

namespace InlineCache

/-! ### Leading words -/

/-- The last bit of a leading word is set if it was not and a trailing bit is seen. -/
theorem leadingWord_cases (n : Nat) :
    leadingWord n = n / 2 ^ (bitLength n - 64) ∨
      leadingWord n = n / 2 ^ (bitLength n - 64) + 1 ∧ n / 2 ^ (bitLength n - 64) % 2 = 0 := by
  rw [leadingWord]
  generalize n / 2 ^ (bitLength n - 64) = q
  cases trailingBitSeen n with
  | false => exact Or.inl (Nat.or_zero q)
  | true =>
    have hset : 2 * (q / 2) + 1 = 2 * (q / 2) ||| 1 :=
      Nat.two_pow_add_eq_or_of_lt (i := 1) (by decide) (q / 2)
    rcases Nat.mod_two_eq_zero_or_one q with heven | hodd
    · have hq : 2 * (q / 2) = q := by omega
      rw [hq] at hset
      exact Or.inr ⟨hset.symm, heven⟩
    · have hq : 2 * (q / 2) + 1 = q := by omega
      rw [hq] at hset
      refine Or.inl ?_
      rw [Bool.toNat_true, hset, Nat.or_assoc, Nat.or_self]

/-- There is no number with few digits between an integer and its leading word. -/
theorem leadingWord_reach_iff {n c s : Nat} (hc : c ≤ 2 ^ 54) :
    c * 2 ^ s ≤ 2 * (leadingWord n * 2 ^ (bitLength n - 64)) ↔ c * 2 ^ s ≤ 2 * n := by
  rcases Nat.lt_or_ge 64 (bitLength n) with hlong | hshort
  · have hword := leadingWord_cases n
    have hfull : 2 ^ 63 * 2 ^ (bitLength n - 64) ≤ n := by
      rw [← Nat.pow_add, ← lt_bitLength_iff]
      omega
    generalize bitLength n - 64 = e at *
    have hpos := Nat.two_pow_pos e
    have hn := Nat.div_add_mod' n (2 ^ e)
    have hrest := Nat.mod_lt n hpos
    have hq : 2 ^ 63 ≤ n / 2 ^ e := (Nat.le_div_iff_mul_le hpos).mpr hfull
    have hdiv : ∀ y, y ≤ n / 2 ^ e ↔ y * 2 ^ e ≤ n := fun y => Nat.le_div_iff_mul_le hpos
    generalize n / 2 ^ e = q at *
    rcases Nat.lt_or_ge s (e + 2) with hs | hs
    · -- the number is below the leading digits
      have hsmall : c * 2 ^ s ≤ 2 ^ 54 * 2 ^ (e + 1) :=
        Nat.mul_le_mul hc (Nat.pow_le_pow_right (by decide) (by omega))
      have hleading : 2 ^ 63 * 2 ^ e ≤ leadingWord n * 2 ^ e := Nat.mul_le_mul_right _ (by omega)
      rw [Nat.pow_succ 2 e] at hsmall
      exact iff_of_true (by omega) (by omega)
    · -- the number is an even multiple of the last digit
      obtain ⟨d, rfl⟩ : ∃ d, s = d + 1 + (e + 1) := ⟨s - e - 2, by omega⟩
      have hy : c * 2 ^ (d + 1 + (e + 1)) = 2 * (2 * (c * 2 ^ d) * 2 ^ e) := by
        rw [Nat.pow_add, Nat.pow_succ, Nat.pow_succ]
        ring
      have hleading : 2 * (c * 2 ^ d) * 2 ^ e ≤ leadingWord n * 2 ^ e ↔
          2 * (c * 2 ^ d) ≤ leadingWord n := Nat.mul_le_mul_right_iff hpos
      have hquotient := hdiv (2 * (c * 2 ^ d))
      rw [hy]
      omega
  · rw [leadingWord_of_bitLength_le hshort, Nat.sub_eq_zero_of_le hshort, Nat.pow_zero, Nat.mul_one]

/-- An integer with zeros below its leading word is that word, in its place. -/
theorem leadingWord_mul {n : Nat} (hn : n % 2 ^ (bitLength n - 64) = 0) :
    leadingWord n * 2 ^ (bitLength n - 64) = n := by
  have hseen : trailingBitSeen n = false := by
    rw [← Bool.not_eq_true]
    exact fun hseen => mod_ne_zero_of_trailingBitSeen hseen hn
  rw [leadingWord, hseen, Bool.toNat_false, Nat.or_zero]
  exact Nat.div_mul_cancel (Nat.dvd_of_mod_eq_zero hn)

/-- An integer made of few digits and a power of two ends in zeros below its leading word. -/
theorem mod_leading_eq_zero {n m k F : Nat} (hm : m < 2 ^ 64) (hn : n * 2 ^ F = m * 2 ^ k) :
    n % 2 ^ (bitLength n - 64) = 0 := by
  rcases Nat.lt_or_ge 64 (bitLength n) with hlong | hshort
  · have hpos : 0 < n := lt_bitLength_iff.mp (Nat.zero_lt_of_lt hlong)
    have hlength : bitLength n + F ≤ 64 + k := by
      rw [← bitLength_mul_two_pow hpos, hn, bitLength_le_iff, Nat.pow_add]
      exact (Nat.mul_lt_mul_right (Nat.two_pow_pos k)).mpr hm
    have hdvd : 2 ^ (bitLength n - 64 + F) ∣ n * 2 ^ F := by
      rw [hn]
      exact Nat.dvd_mul_left_of_dvd (Nat.pow_dvd_pow 2 (by omega)) m
    rw [Nat.pow_add] at hdvd
    exact Nat.mod_eq_zero_of_dvd (Nat.dvd_of_mul_dvd_mul_right (Nat.two_pow_pos F) hdvd)
  · rw [Nat.sub_eq_zero_of_le hshort, Nat.pow_zero, Nat.mod_one]

/-! ### Doubles near to a number -/

/-- The first integer out of the reach of a format: half-way above the largest of its numbers and,
for `single`, as much below that as the nearest `double` makes good for. -/
def Format.reach : Format → ℕ
  | .single => 2 ^ 128 - 2 ^ 103 - 2 ^ 74
  | .double => 2 ^ 1024 - 2 ^ 970

namespace Binary

/-- What the `double` nearest to a number says of the number: whether it is in the reach of the two
formats, and which it is, if it is one of the numbers of the format. -/
structure Near (x : Binary .double) (q : ℚ) : Prop where
  finite_iff : x.isFinite = true ↔ |q| < Format.reach .double
  convert_iff : x.isFinite = true →
    ((x.convert .single).isFinite = true ↔ |q| < Format.reach .single)
  exact : ∀ y : Binary .double, y.reading = .exactly q → x.reading = .exactly q
  sign : x.isFinite = false → x = .infinite (q < 0)

/-- A `double` becomes an infinite `float` from half-way above the largest `float` on. -/
theorem isFinite_convert_iff {x : Binary .double} {negative : Bool} {u : Nat}
    (hx : x.Magnitude negative u) :
    (x.convert .single).isFinite = true ↔ u < (2 ^ 53 - 2 ^ 28) * 2 ^ (75 + 1074) := by
  have hhalf : (2 * 2 ^ Format.precision .single - 1) * 2 ^ (Format.maxScale .single + 925) =
      2 * ((2 ^ 53 - 2 ^ 28) * 2 ^ (75 + 1074)) := by
    decide +kernel
  rw [(ofUnits_convert_single hx).isFinite_iff, ← Nat.not_le, ← Nat.not_le,
    Format.overflow_le_nearest_iff, hhalf]
  generalize (2 ^ 53 - 2 ^ 28) * 2 ^ (75 + 1074) = limit
  omega

/-- Units of a `double` and a number are on the same side of all numbers with few digits. -/
def SameSide (U : Nat) (q : ℚ) : Prop :=
  ∀ c s, c ≤ 2 ^ 54 → (c * 2 ^ (s + 1074) ≤ 2 * U ↔ ((c * 2 ^ s : ℕ) : ℚ) ≤ 2 * |q|)

/-- From where on a number is rounded to an even significand, or past it. -/
theorem SameSide.le_nearest_iff {U c s n : Nat} {q : ℚ} (hU : SameSide U q) (hlow : 2 ^ 52 < c)
    (hhigh : c ≤ 2 ^ 53) (heven : c % 2 = 0) (hn : (2 * c - 1) * 2 ^ s = 2 * n) :
    c * 2 ^ (s + 1074) ≤ Format.nearest .double U 0 ↔ (n : ℚ) ≤ |q| := by
  rw [Format.mul_le_nearest_iff_of_even hlow hhigh heven, Nat.add_zero, hU _ s (by omega), hn,
    Nat.cast_mul, Nat.cast_ofNat]
  exact mul_le_mul_iff_right₀ two_pos

/-- What is in the reach of a number that is rounded in units. -/
theorem isFinite_iff_of_sameSide {x : Binary .double} {negative : Bool} {U : Nat} {q : ℚ}
    (hx : x.OfUnits negative (Format.nearest .double U 0)) (hU : SameSide U q) :
    (x.isFinite = true ↔ |q| < Format.reach .double) ∧
      (x.isFinite = true → ((x.convert .single).isFinite = true ↔ |q| < Format.reach .single)) := by
  have hoverflow : Format.overflow .double = 2 ^ 53 * 2 ^ (971 + 1074) := by decide +kernel
  have hdouble := hU.le_nearest_iff (c := 2 ^ 53) (s := 971) (n := Format.reach .double)
    (by decide) (by decide) (by decide) (by decide +kernel)
  have hsingle := hU.le_nearest_iff (c := 2 ^ 53 - 2 ^ 28) (s := 75) (n := Format.reach .single)
    (by decide) (by decide) (by decide) (by decide +kernel)
  constructor
  · rw [hx.isFinite_iff, hoverflow, ← Nat.not_le, hdouble, not_le]
  · intro hfinite
    rw [isFinite_convert_iff (hx.magnitude (hx.isFinite_iff.mp hfinite)), ← Nat.not_le, hsingle,
      not_le]

theorem le_two_mul_div_iff {a u F : ℕ} : (a : ℚ) ≤ 2 * (u / 2 ^ F) ↔ a * 2 ^ F ≤ 2 * u := by
  rw [← mul_div_assoc, le_div_iff₀ (pow_pos two_pos F)]
  norm_cast

theorem div_two_pow_eq_iff {u n F : ℕ} : (u / 2 ^ F : ℚ) = n ↔ n * 2 ^ F = u := by
  rw [div_eq_iff (pow_ne_zero F two_ne_zero), eq_comm]
  norm_cast

/-- A `double` is near to what it stands for. -/
theorem near_of_reading {x : Binary .double} {q : ℚ} (hx : x.reading = .exactly q) : x.Near q := by
  cases x with
  | nan => cases hx
  | infinite _ => cases hx
  | finite negative m k h =>
    obtain rfl := Reading.exactly.inj hx
    have hunits : (finite negative m k h).OfUnits negative
        (Format.nearest .double (units m k) 0) := by
      have hexact := h.nearest 0
      rw [Nat.pow_zero, Nat.mul_one] at hexact
      rw [hexact]
      exact ⟨fun _ => ⟨m, k, h, rfl, rfl⟩, fun hge => absurd h.units_lt_overflow hge.not_gt⟩
    have hside : SameSide (units m k) (signed negative (units m k / 2 ^ 1074)) := by
      intro c s _
      have hnonneg : (0 : ℚ) ≤ units m k / 2 ^ 1074 :=
        div_nonneg (Nat.cast_nonneg _) (pow_nonneg zero_le_two _)
      rw [abs_signed, abs_of_nonneg hnonneg, le_two_mul_div_iff, pow_add, mul_assoc]
    obtain ⟨hfinite, hconvert⟩ := isFinite_iff_of_sameSide hunits hside
    exact ⟨hfinite, hconvert, fun _ _ => rfl, fun hinfinite => nomatch hinfinite⟩

/-- An integer is made of its sign and its magnitude. -/
theorem signed_natAbs (n : ℤ) : signed (n < 0) n.natAbs = n := by
  rw [signed, Nat.cast_natAbs, Int.cast_abs]
  by_cases hn : n < 0
  · rw [if_pos (decide_eq_true hn), abs_of_neg (Int.cast_lt_zero.mpr hn), neg_neg]
  · rw [if_neg (by simpa using hn), abs_of_nonneg (Int.cast_nonneg (Int.not_lt.mp hn))]

/-- An integer of any size comes as the number nearest to the units of its leading word. -/
theorem ofUnits_ofLargeInt (n : ℤ) :
    (ofLargeInt .double n).OfUnits (n < 0) (Format.nearest .double
      (leadingWord n.natAbs * 2 ^ (bitLength n.natAbs - 64 + 1074)) 0) := by
  have hfraction : Format.fractionBits .double = 1074 := by decide
  have hunits := Format.nearestUnits_eq (f := .double) (t := 0) (n := leadingWord n.natAbs)
    (e := (bitLength n.natAbs - 64 : ℕ)) (j := bitLength n.natAbs - 64 + 1074) (by omega)
  rw [← hunits]
  exact ofUnits_round .double _ _ _

theorem sameSide_leadingWord (n : ℤ) :
    SameSide (leadingWord n.natAbs * 2 ^ (bitLength n.natAbs - 64 + 1074)) n := by
  intro c s hc
  have hcast : ((c * 2 ^ s : ℕ) : ℚ) ≤ 2 * |(n : ℚ)| ↔ c * 2 ^ s ≤ 2 * n.natAbs := by
    rw [← Int.cast_abs, ← Nat.cast_natAbs]
    norm_cast
  rw [hcast, ← leadingWord_reach_iff (n := n.natAbs) hc]
  generalize bitLength n.natAbs - 64 = e
  have hscale : 2 * (leadingWord n.natAbs * 2 ^ (e + 1074)) =
      2 * (leadingWord n.natAbs * 2 ^ e) * 2 ^ 1074 := by
    rw [pow_add, ← mul_assoc (leadingWord n.natAbs), ← mul_assoc 2]
  rw [hscale, pow_add, ← mul_assoc]
  exact Nat.mul_le_mul_right_iff (pow_pos two_pos 1074)

/-- An integer that is a `double` keeps its value when it is cut to its leading word. -/
theorem reading_ofLargeInt {y : Binary .double} {n : ℤ} (hy : y.reading = .exactly n) :
    (ofLargeInt .double n).reading = .exactly n := by
  have hwhole : leadingWord n.natAbs * 2 ^ (bitLength n.natAbs - 64) = n.natAbs := by
    cases y with
    | nan => cases hy
    | infinite _ => cases hy
    | finite negative m k h =>
      have hvalue : signed negative (units m k / 2 ^ 1074) = n := Reading.exactly.inj hy
      rw [← signed_natAbs] at hvalue
      have hmagnitude : (units m k / 2 ^ 1074 : ℚ) = n.natAbs :=
        eq_of_signed_eq (div_nonneg (Nat.cast_nonneg _) (pow_nonneg zero_le_two _))
          (Nat.cast_nonneg _) hvalue
      have hm : m < 2 ^ 64 := Nat.lt_trans h.1 (by decide)
      exact leadingWord_mul (mod_leading_eq_zero hm (div_two_pow_eq_iff.mp hmagnitude))
  have hcast : (leadingWord n.natAbs : ℚ) * 2 ^ (bitLength n.natAbs - 64) = n.natAbs := by
    exact_mod_cast hwhole
  refine reading_round hy ?_
  rw [zpow_natCast, hcast]
  exact signed_natAbs n

/-- The `double` that an integer of any size comes as is near to the integer. -/
theorem near_ofLargeInt (n : ℤ) : (ofLargeInt .double n).Near n := by
  have hunits := ofUnits_ofLargeInt n
  obtain ⟨hfinite, hconvert⟩ := isFinite_iff_of_sameSide hunits (sameSide_leadingWord n)
  refine ⟨hfinite, hconvert, fun _ => reading_ofLargeInt, fun hinfinite => ?_⟩
  rw [hunits.eq_infinite (Nat.le_of_not_lt fun hlt => ?_)]
  · exact congrArg Binary.infinite (decide_eq_decide.mpr Int.cast_lt_zero.symm)
  · rw [← hunits.isFinite_iff, hinfinite] at hlt
    cases hlt

end Binary

/-! ### Narrowing to the formats -/

/-- What a number among the values stands for. -/
def Value.reading? : Value → Option Reading
  | .float x => some x.reading
  | .double x => some x.reading
  | v => v.whole?.map fun n => .exactly n

/-- What finite numbers come as. -/
theorem Value.reading?_cases {v : Value} {q : ℚ} (hv : v.reading? = some (.exactly q)) :
    (∃ n : ℤ, v.whole? = some n ∧ n = q) ∨
      (∃ x : Binary .single, v = .float x ∧ x.reading = .exactly q) ∨
      ∃ x : Binary .double, v = .double x ∧ x.reading = .exactly q := by
  cases v with
  | float x => exact Or.inr (Or.inl ⟨x, rfl, Option.some.inj hv⟩)
  | double x => exact Or.inr (Or.inr ⟨x, rfl, Option.some.inj hv⟩)
  | byte _ | short _ | integer _ | long _ | bigInteger _ =>
    exact Or.inl ⟨_, rfl, Reading.exactly.inj (Option.some.inj hv)⟩
  | null | boolean | character | string | template | array => cases hv

namespace Format

/-- The element type with the numbers of a format. -/
def type : Format → ElementType
  | .single => .float
  | .double => .double

/-- The element that a number of a format is. -/
def element : (f : Format) → Binary f → Element
  | .single, y => .float y
  | .double, y => .double y

/-- The first power of two past all finite numbers of a format. -/
def limit : Format → ℕ
  | .single => 2 ^ 128
  | .double => 2 ^ 1024

/-- The number of a format nearest to a `double`. -/
def ofDouble : (f : Format) → Binary .double → Binary f
  | .single, x => x.convert .single
  | .double, x => x

theorem reach_le_limit (f : Format) : f.reach ≤ f.limit := by
  cases f with
  | single => decide +kernel
  | double => decide +kernel

theorem reach_le_reach_double (f : Format) : f.reach ≤ reach .double := by
  cases f with
  | single => decide +kernel
  | double => exact Nat.le_refl _

/-- Words are in the reach of both formats. -/
theorem word_lt_reach (f : Format) : 2 ^ 64 < f.reach := by
  cases f with
  | single => decide +kernel
  | double => decide +kernel

end Format

theorem abs_intCast_lt_iff {n : ℤ} {m : ℕ} : |(n : ℚ)| < m ↔ n.natAbs < m := by
  rw [← Int.cast_abs, ← Nat.cast_natAbs, Nat.cast_lt]

namespace Binary

variable {f : Format} {x : Binary .double} {q : ℚ}

/-- The numbers of a format are in its reach. -/
theorem lt_reach_of_reading {y : Binary f} (hy : y.reading = .exactly q) : |q| < f.reach := by
  cases f with
  | single =>
    have hx : (y.convert .double).reading = .exactly q := (reading_convert_double y).trans hy
    have hfinite : (y.convert .double).isFinite = true := isFinite_iff.mpr ⟨q, hx⟩
    have hconvert : ((y.convert .double).convert .single).isFinite = true :=
      isFinite_iff.mpr ⟨q, reading_convert hx hy⟩
    exact ((near_of_reading hx).convert_iff hfinite).mp hconvert
  | double => exact (near_of_reading hy).finite_iff.mp (isFinite_iff.mpr ⟨q, hy⟩)

/-- A `double` that is near to a number of a format is narrowed to that number. -/
theorem Near.reading_ofDouble (hx : x.Near q) {y : Binary f} (hy : y.reading = .exactly q) :
    (f.ofDouble x).reading = .exactly q := by
  cases f with
  | single => exact reading_convert (hx.exact _ ((reading_convert_double y).trans hy)) hy
  | double => exact hx.exact y hy

theorem Near.isFinite_ofDouble_iff (hx : x.Near q) (hfinite : x.isFinite = true) :
    (f.ofDouble x).isFinite = true ↔ |q| < f.reach := by
  cases f with
  | single => exact hx.convert_iff hfinite
  | double => exact hx.finite_iff

end Binary

namespace NarrowingPolicy

/-- How an attempt to narrow a number to a format ends. -/
structure Narrows (attempt : Except Fault Element) (f : Format) (q : ℚ) : Prop where
  infinite : (Format.reach .double : ℚ) ≤ |q| → attempt = .ok (f.element (.infinite (q < 0)))
  refused : |q| < Format.reach .double → (f.reach : ℚ) ≤ |q| →
    ∃ fault, attempt = .error fault ∧ fault.IsUncoercible
  taken : |q| < f.reach → ∃ y : Binary f, attempt = .ok (f.element y) ∧ y.isFinite = true ∧
    ∀ z : Binary f, z.reading = .exactly q → y.reading = .exactly q

variable {f : Format} {q : ℚ}

theorem checked_narrowDouble_type (x : Binary .double) (f : Format) :
    checked.narrowDouble x f.type =
      if x.isFinite && !(f.ofDouble x).isFinite then
        .error (.uncoercible (x.text .plain) f.type.name)
      else .ok (f.element (f.ofDouble x)) := by
  cases f with
  | single => rfl
  | double =>
    have hnever : (x.isFinite && !(Format.ofDouble .double x).isFinite) = false :=
      Bool.and_not_self x.isFinite
    exact (if_neg (Bool.eq_false_iff.mp hnever)).symm

/-- A number that comes as a `double` near to it. -/
theorem narrows_narrowDouble {x : Binary .double} (hx : x.Near q) (f : Format) :
    Narrows (checked.narrowDouble x f.type) f q := by
  rw [checked_narrowDouble_type]
  refine ⟨fun hq => ?_, fun hreach hq => ?_, fun hq => ?_⟩
  · have hinfinite : x.isFinite = false := by
      rw [← Bool.not_eq_true, hx.finite_iff]
      exact not_lt.mpr hq
    rw [hinfinite, Bool.false_and, if_neg Bool.false_ne_true, hx.sign hinfinite]
    cases f <;> rfl
  · have hfinite : x.isFinite = true := hx.finite_iff.mpr hreach
    have hinfinite : (f.ofDouble x).isFinite = false := by
      rw [← Bool.not_eq_true, hx.isFinite_ofDouble_iff hfinite]
      exact not_lt.mpr hq
    rw [hfinite, hinfinite]
    exact ⟨_, rfl, _, _, rfl⟩
  · have hfinite : x.isFinite = true :=
      hx.finite_iff.mpr (hq.trans_le (Nat.cast_le.mpr f.reach_le_reach_double))
    have hfinite' : (f.ofDouble x).isFinite = true := (hx.isFinite_ofDouble_iff hfinite).mpr hq
    rw [hfinite, hfinite']
    exact ⟨f.ofDouble x, rfl, hfinite', fun _ hz => hx.reading_ofDouble hz⟩

/-- A word is taken, rounded. -/
theorem checked_narrowWord_type {n : ℤ} (hn : InWidth 64 n) (f : Format) :
    checked.narrowWord (Int64.ofInt n) f.type = .ok (f.element (Binary.ofInt f n)) := by
  cases f with
  | single => exact (narrowWord_ofInt checked hn).1
  | double => exact (narrowWord_ofInt checked hn).2

/-- A number that comes as a word. -/
theorem narrows_narrowWord {n : ℤ} (hn : InWidth 64 n) (f : Format) :
    Narrows (checked.narrowWord (Int64.ofInt n) f.type) f n := by
  have hreach : ∀ g : Format, |(n : ℚ)| < g.reach := fun g =>
    abs_intCast_lt_iff.mpr (Nat.lt_trans hn.natAbs_lt g.word_lt_reach)
  refine ⟨fun hq => absurd (hreach .double) hq.not_gt, fun _ hq => absurd (hreach f) hq.not_gt,
    fun _ => ⟨Binary.ofInt f n, checked_narrowWord_type hn f, ?_,
      fun z hz => Binary.reading_round hz ?_⟩⟩
  · exact (Binary.magnitude_ofInt f (Nat.le_of_lt hn.natAbs_lt)).isFinite
  · rw [zpow_zero, mul_one]
    exact Binary.signed_natAbs n

/-- An integer of any size is narrowed as a `double`. -/
theorem narrowInt_type (policy : NarrowingPolicy) (n : ℤ) (f : Format) :
    policy.narrowInt n f.type = policy.narrowDouble (Binary.ofLargeInt .double n) f.type := by
  cases f with
  | single => rfl
  | double => rfl

variable {v : Value}

/-- Every number, whatever it comes as. -/
theorem narrows_narrow (hv : v.reading? = some (.exactly q)) (h : Heap) (f : Format) :
    Narrows (checked.narrow h v f.type) f q := by
  rcases Value.reading?_cases hv with ⟨n, hn, rfl⟩ | ⟨x, rfl, hx⟩ | ⟨x, rfl, hx⟩
  · rcases narrow_of_whole? hn with rfl | ⟨-, hword, hnarrow⟩
    · rw [narrow, narrowInt_type]
      exact narrows_narrowDouble (Binary.near_ofLargeInt n) f
    · rw [hnarrow]
      exact narrows_narrowWord hword f
  · have hdouble := (Binary.reading_convert_double x).trans hx
    exact narrows_narrowDouble (Binary.near_of_reading hdouble) f
  · exact narrows_narrowDouble (Binary.near_of_reading hx) f

/-- Only integers of any size are out of the reach of `double`. -/
theorem eq_bigInteger_of_reach_le (hv : v.reading? = some (.exactly q))
    (hq : (Format.reach .double : ℚ) ≤ |q|) : ∃ n : ℤ, v = .bigInteger n := by
  have hreach : ∀ f : Format, ¬ |q| < f.reach := fun f hlt =>
    (hlt.trans_le (Nat.cast_le.mpr f.reach_le_reach_double)).not_ge hq
  rcases Value.reading?_cases hv with ⟨n, hn, rfl⟩ | ⟨x, -, hx⟩ | ⟨x, -, hx⟩
  · rcases narrow_of_whole? hn with hbig | ⟨-, hword, -⟩
    · exact ⟨n, hbig⟩
    · refine absurd (abs_intCast_lt_iff.mpr ?_) (hreach .double)
      exact Nat.lt_trans hword.natAbs_lt (Format.word_lt_reach .double)
  · exact absurd (Binary.lt_reach_of_reading hx) (hreach .single)
  · exact absurd (Binary.lt_reach_of_reading hx) (hreach .double)

/-- Narrowing a finite number `q` to a floating-point type under the checked policy, whatever the
number comes as.  A number of the type is taken as it is.  Below `2 ^ 1024 - 2 ^ 970` the result is
a finite element or a refusal, numbers past the finite ones of the type are refused, and if a number
is refused, so are the larger ones.  From there on, where only integers of any size are, nothing is
refused, and the element is an infinity. -/
theorem checked_narrow_finite (hv : v.reading? = some (.exactly q)) (h : Heap) (f : Format) :
    (|q| < Format.reach .double →
      (∃ y : Binary f, checked.narrow h v f.type = .ok (f.element y) ∧ y.isFinite = true) ∨
      ∃ fault, checked.narrow h v f.type = .error fault ∧ fault.IsUncoercible) ∧
    (|q| < Format.reach .double → (f.limit : ℚ) ≤ |q| →
      ∃ fault, checked.narrow h v f.type = .error fault ∧ fault.IsUncoercible) ∧
    (∀ z : Binary f, z.reading = .exactly q →
      ∃ y : Binary f, checked.narrow h v f.type = .ok (f.element y) ∧ y.reading = .exactly q) ∧
    (∀ fault, checked.narrow h v f.type = .error fault →
      ∀ (w : Value) r, w.reading? = some (.exactly r) → |q| ≤ |r| → |r| < Format.reach .double →
        ∃ fault', checked.narrow h w f.type = .error fault' ∧ fault'.IsUncoercible) ∧
    ((Format.reach .double : ℚ) ≤ |q| → (∃ n : ℤ, v = .bigInteger n) ∧
      checked.narrow h v f.type = .ok (f.element (.infinite (q < 0)))) := by
  have hnarrow := narrows_narrow hv h f
  refine ⟨fun hreach => ?_, fun hreach hlimit => hnarrow.refused hreach ?_, fun z hz => ?_,
    fun fault hfault w r hw hle hr => (narrows_narrow hw h f).refused hr ?_,
    fun hq => ⟨eq_bigInteger_of_reach_le hv hq, hnarrow.infinite hq⟩⟩
  · rcases lt_or_ge |q| f.reach with hq | hq
    · obtain ⟨y, hy, hfinite, -⟩ := hnarrow.taken hq
      exact Or.inl ⟨y, hy, hfinite⟩
    · exact Or.inr (hnarrow.refused hreach hq)
  · exact (Nat.cast_le.mpr f.reach_le_limit).trans hlimit
  · obtain ⟨y, hy, -, hexact⟩ := hnarrow.taken (Binary.lt_reach_of_reading hz)
    exact ⟨y, hy, hexact z hz⟩
  · -- what is refused is not in reach
    refine le_trans (not_lt.mp fun hq => ?_) hle
    obtain ⟨y, hy, -⟩ := hnarrow.taken hq
    rw [hfault] at hy
    cases hy

/-! The first power of two past the `float`s is refused. -/

theorem checked_narrow_finite_pastSingles :
    let n : Int := 2 ^ 128
    (Value.bigInteger n).reading? = some (.exactly n) ∧ |(n : ℚ)| < Format.reach .double ∧
    (Format.limit .single : ℚ) ≤ |(n : ℚ)| ∧
    ∃ fault, checked.narrow .empty (.bigInteger n) .float = .error fault ∧
      fault.IsUncoercible := by
  intro n
  have hreading : (Value.bigInteger n).reading? = some (.exactly n) := rfl
  have hreach : |(n : ℚ)| < Format.reach .double := abs_intCast_lt_iff.mpr (by decide +kernel)
  have hlimit : (Format.limit .single : ℚ) ≤ |(n : ℚ)| :=
    not_lt.mp fun hlt => absurd (abs_intCast_lt_iff.mp hlt) (by decide)
  exact ⟨hreading, hreach, hlimit,
    (checked_narrow_finite hreading .empty .single).2.1 hreach hlimit⟩

/-! The first power of two past the `double`s is taken, as an infinity, by both types. -/

theorem infinity_taken :
    (Value.bigInteger (2 ^ 1024)).reading? = some (.exactly (2 ^ 1024 : ℤ)) ∧
    checked.narrow .empty (.bigInteger (2 ^ 1024)) .float = .ok (.float (.infinite false)) ∧
    checked.narrow .empty (.bigInteger (2 ^ 1024)) .double = .ok (.double (.infinite false)) := by
  have hinfinite : Binary.ofLargeInt .double (2 ^ 1024) = .infinite false := by decide +kernel
  refine ⟨rfl, ?_, ?_⟩
  · rw [narrow, narrowInt, hinfinite]
    rfl
  · rw [narrow, narrowInt, hinfinite]
    rfl

end NarrowingPolicy

end InlineCache
