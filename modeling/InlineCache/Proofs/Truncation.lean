/-
Floating-point numbers narrow to integers by what they stand for.

Truncation drops the fractional part, saturates at the words of 32 bits (of 64 bits for `long`)
and keeps the low bits.  The checked policy compares the number with a decimal that is not quite
`2 ^ 63`; the `double` next to that decimal is, so the comparison lets through exactly the numbers
that a word can hold, and the conversion behind it never saturates.

* `NarrowingPolicy.refused_iff`: what the checked policy lets through;
* `NarrowingPolicy.narrow_ofBits`: both policies, on every bit pattern of both formats.
-/
import InlineCache.Proofs.Readings
import InlineCache.Proofs.Residues

namespace InlineCache

/-- The floating-point value with the given bits. -/
def Value.ofBits : Format → ℕ → Value
  | .single, bits => .float (.ofBits .single bits)
  | .double, bits => .double (.ofBits .double bits)

/-- The width at which floating-point numbers saturate on the way to an integer type. -/
def ElementType.saturationWidth : ElementType → ℕ
  | .long => 64
  | _ => 32

/-- The integer part, saturating at a signed width. -/
def Reading.saturate (w : ℕ) (r : Reading) : ℤ := r.clamp (-2 ^ (w - 1)) (2 ^ (w - 1) - 1)

theorem Reading.saturate_exactly {w : ℕ} {n : ℤ} (hn : InWidth w n) :
    (Reading.exactly n).saturate w = n := by
  obtain ⟨hlow, hhigh⟩ := hn
  rw [saturate, clamp, towardZero_intCast, min_eq_right (by omega), max_eq_right hlow]

namespace NarrowingPolicy

variable {t : ElementType} {w : ℕ} {x : Binary .double} {n : ℤ}

/-- Floating-point numbers are narrowed as `double`s. -/
theorem narrow_eq_narrowDouble (f : Format) (bits : ℕ) :
    ∃ x : Binary .double, x.reading = f.read bits ∧ ∀ (policy : NarrowingPolicy) h t,
      policy.narrow h (.ofBits f bits) t = policy.narrowDouble x t := by
  cases f with
  | single =>
    refine ⟨(Binary.ofBits .single bits).convert .double, ?_, fun _ _ _ => rfl⟩
    rw [Binary.reading_convert_double, Binary.reading_ofBits]
  | double => exact ⟨.ofBits .double bits, Binary.reading_ofBits .double bits, fun _ _ _ => rfl⟩

/-- Words of 32 and 64 bits saturate alike. -/
theorem clamped_word (x : Binary .double) :
    x.clamped Int64.minValue.toInt Int64.maxValue.toInt = x.reading.saturate 64 := by
  have hmin : Int64.minValue.toInt = -2 ^ 63 := by decide
  have hmax : Int64.maxValue.toInt = 2 ^ 63 - 1 := by decide
  rw [hmin, hmax, Binary.clamped_eq]
  rfl

theorem clamped_int (x : Binary .double) :
    x.clamped Int32.minValue.toInt Int32.maxValue.toInt = x.reading.saturate 32 := by
  have hmin : Int32.minValue.toInt = -2 ^ 31 := by decide
  have hmax : Int32.maxValue.toInt = 2 ^ 31 - 1 := by decide
  rw [hmin, hmax, Binary.clamped_eq]
  rfl

/-- Truncation keeps the low bits of the saturated integer part. -/
theorem truncate_narrowDouble (hw : t.width? = some w) (x : Binary .double) :
    truncate.narrowDouble x t =
      .ok (Element.ofWord (Int64.ofInt (x.reading.saturate t.saturationWidth)) t) := by
  cases t with
  | long => exact congrArg (fun n => Except.ok (Element.long (Int64.ofInt n))) (clamped_word x)
  | byte | short | int =>
    exact congrArg (fun n => Except.ok (Element.ofWord (Int64.ofInt n) _)) (clamped_int x)
  | float | double => cases hw

/-! ### The checked policy -/

/-- The decimal is rounded to `2 ^ 63`, with either sign. -/
theorem reading_pastWord (negative : Bool) :
    (Binary.ofInt .double (if negative then -pastWord else pastWord)).reading =
      .exactly (signed negative (2 ^ 63)) := by
  have hround : Binary.ofInt .double (if negative then -pastWord else pastWord) =
      .round .double negative (Binary.units 1 63) 0 := by
    cases negative <;> decide +kernel
  rw [hround, Binary.reading_round_whole .double negative (by decide) (by decide)]
  exact congrArg (fun q => Reading.exactly (signed negative q)) (by norm_num [Binary.units])

/-- Refused are all numbers but the integers of 64 bits. -/
theorem refused_iff (x : Binary .double) :
    (!x.isFinite || !x.isWhole || x.lt (.ofInt .double (-pastWord)) ||
        !x.lt (.ofInt .double pastWord)) = true ↔
      ∀ n : ℤ, x.reading = .exactly n → ¬ InWidth 64 n := by
  by_cases hinteger : ∃ n : ℤ, x.reading = .exactly n
  · obtain ⟨m, hm⟩ := hinteger
    have hfinite : x.isFinite = true := Binary.isFinite_iff.mpr ⟨m, hm⟩
    have hwhole : x.isWhole = true := Binary.isWhole_iff.mpr ⟨m, hm⟩
    have hlow : x.lt (.ofInt .double (-pastWord)) = true ↔ m < -2 ^ 63 :=
      (Binary.lt_iff hm (reading_pastWord true)).trans (by rw [signed]; norm_cast)
    have hhigh : x.lt (.ofInt .double pastWord) = true ↔ m < 2 ^ 63 :=
      (Binary.lt_iff hm (reading_pastWord false)).trans (by rw [signed]; norm_cast)
    have hrange : (x.lt (.ofInt .double (-pastWord)) || !x.lt (.ofInt .double pastWord)) = true ↔
        ¬ InWidth 64 m := by
      rw [Bool.or_eq_true, Bool.not_eq_true', ← Bool.not_eq_true, hlow, hhigh, InWidth]
      omega
    rw [hfinite, hwhole, Bool.not_true, Bool.false_or, Bool.false_or, hrange]
    constructor
    · intro hnot n hn
      rw [hm] at hn
      rwa [← Int.cast_injective (Reading.exactly.inj hn)]
    · exact fun hall => hall m hm
  · have hwhole : x.isWhole = false := by
      rw [← Bool.not_eq_true, Binary.isWhole_iff]
      exact hinteger
    rw [hwhole, Bool.not_false, Bool.or_true, Bool.true_or, Bool.true_or]
    exact iff_of_true rfl fun n hn _ => hinteger ⟨n, hn⟩

theorem checked_narrowDouble (hw : t.width? = some w) (x : Binary .double) :
    checked.narrowDouble x t =
      if !x.isFinite || !x.isWhole || x.lt (.ofInt .double (-pastWord)) ||
          !x.lt (.ofInt .double pastWord) then .error (.uncoercible (x.text .plain) t.name)
      else checked.narrowWord (Int64.ofInt (x.reading.saturate 64)) t := by
  rw [← clamped_word]
  cases t with
  | byte | short | int | long => rfl
  | float | double => cases hw

/-- The integers of the width are taken as they are. -/
theorem checked_narrowDouble_of_inWidth (hw : t.width? = some w) (hx : x.reading = .exactly n)
    (hn : InWidth w n) : checked.narrowDouble x t = .ok (Element.ofWord (Int64.ofInt n) t) := by
  have hword : InWidth 64 n := hn.mono (ElementType.width?_bounds hw).2
  rw [checked_narrowDouble hw, if_neg fun hrefused => (refused_iff x).mp hrefused n hx hword, hx,
    Reading.saturate_exactly hword, checked_narrowWord hw, hword.toInt_ofInt, if_pos hn]

/-- Everything else is refused. -/
theorem checked_narrowDouble_of_not_inWidth (hw : t.width? = some w)
    (hx : ∀ n : ℤ, x.reading = .exactly n → ¬ InWidth w n) :
    ∃ fault, checked.narrowDouble x t = .error fault ∧ fault.IsUncoercible := by
  rw [checked_narrowDouble hw]
  split
  · exact ⟨_, rfl, _, _, rfl⟩
  · -- an integer of 64 bits, but not of the width
    rename_i htaken
    rw [refused_iff] at htaken
    push Not at htaken
    obtain ⟨n, hn, hword⟩ := htaken
    rw [hn, Reading.saturate_exactly hword, checked_narrowWord hw, hword.toInt_ofInt,
      if_neg (hx n hn)]
    exact ⟨_, rfl, _, _, rfl⟩

/-- Narrowing the floating-point value with the given bits to the integer type of `w` bits.
Truncation succeeds with the low `w` bits of the integer part, toward zero, after clamping it to
32 bits (64 bits for `long`).  The checked policy succeeds exactly if the bits stand for an integer
of `w` bits, and then with that integer. -/
theorem narrow_ofBits (hw : t.width? = some w) (h : Heap) (f : Format) (bits : ℕ) :
    (∃ e, truncate.narrow h (.ofBits f bits) t = .ok e ∧
      ∀ e', e'.IsResidue t w ((f.read bits).saturate t.saturationWidth) ↔ e' = e) ∧
    (∀ n : ℤ, f.read bits = .exactly n → InWidth w n →
      ∃ e, checked.narrow h (.ofBits f bits) t = .ok e ∧ e.type = t ∧ e.whole? = some n) ∧
    ((∀ n : ℤ, f.read bits = .exactly n → ¬ InWidth w n) →
      ∃ fault, checked.narrow h (.ofBits f bits) t = .error fault ∧ fault.IsUncoercible) := by
  obtain ⟨x, hx, hnarrow⟩ := narrow_eq_narrowDouble f bits
  simp only [hnarrow, ← hx]
  refine ⟨⟨_, truncate_narrowDouble hw x, Element.isResidue_iff hw _⟩, fun n hn hrange => ?_,
    checked_narrowDouble_of_not_inWidth hw⟩
  refine ⟨_, checked_narrowDouble_of_inWidth hw hn hrange, Element.type_ofWord _ t, ?_⟩
  rw [Element.whole?_ofWord_ofInt hw, hrange.bmod_eq (ElementType.width?_bounds hw).1]

/-! The least word is taken, although the comparison is made at its magnitude. -/

theorem narrow_ofBits_leastWord :
    let bits := 0xc3e0000000000000
    ElementType.long.width? = some 64 ∧ Format.double.read bits = .exactly (-2 ^ 63 : ℤ) ∧
    InWidth 64 (-2 ^ 63) ∧
    checked.narrow .empty (.ofBits .double bits) .long = .ok (.long Int64.minValue) := by
  intro bits
  have hleast : Binary.ofBits .double bits = .ofInt .double (-pastWord) := by decide +kernel
  have hread : Format.double.read bits = .exactly (-2 ^ 63 : ℤ) := by
    rw [← Binary.reading_ofBits, hleast]
    exact (reading_pastWord true).trans (congrArg Reading.exactly (by norm_num [signed]))
  have hrange : InWidth 64 (-2 ^ 63) := by decide
  obtain ⟨-, htaken, -⟩ := narrow_ofBits (t := .long) rfl .empty .double bits
  obtain ⟨e, hnarrow, htype, hwhole⟩ := htaken _ hread hrange
  have hwhole' : (Element.long Int64.minValue).whole? = some (-2 ^ 63) := rfl
  obtain rfl := Element.eq_of_whole? htype hwhole hwhole'
  exact ⟨rfl, hread, hrange, hnarrow⟩

end NarrowingPolicy

end InlineCache
