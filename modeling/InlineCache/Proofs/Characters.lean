/-
Numbers as characters.

A number becomes a character by way of a word of 64 bits, which is cut to 16 bits under truncation
and left as it is under the checked policy.  For integers of any size the way does not show: under
truncation it is their residue that has to be the code of a character, and under the checked policy
the integer itself.

* `exists_char_iff`: the codes of characters, with the gap in them;
* `NarrowingPolicy.character_eq_ok_iff`: the characters of integers, for both policies;
* `NarrowingPolicy.characters_of_numbers`: which values have a character, and which one.
-/
import InlineCache.Proofs.CharacterCodes

namespace InlineCache

/-! ### Codes -/

/-- Codes in the gap, which no character has. -/
def IsSurrogate (n : ℤ) : Prop := 0xd800 ≤ n ∧ n ≤ 0xdfff

instance (n : ℤ) : Decidable (IsSurrogate n) := by unfold IsSurrogate; infer_instance

theorem isValidChar_toNat_iff {n : ℤ} (hn : 0 ≤ n) :
    n.toNat.isValidChar ↔ n ≤ 0x10ffff ∧ ¬ IsSurrogate n := by
  rw [Nat.isValidChar, IsSurrogate]
  omega

theorem scalar?_eq_some_iff {n : ℤ} {c : Char} : scalar? n = some c ↔ (c.toNat : ℤ) = n := by
  rw [scalar?]
  constructor
  · intro h
    split at h
    · rename_i hcode
      obtain rfl := Option.some.inj h
      have hvalue : (Char.ofNat n.toNat).toNat = n.toNat := by
        rw [Char.ofNat, dif_pos hcode.2]
        rfl
      rw [hvalue, Int.toNat_of_nonneg hcode.1]
    · cases h
  · rintro rfl
    rw [Int.toNat_natCast, if_pos ⟨Int.natCast_nonneg _, c.valid⟩, Char.ofNat_toNat]

/-- The codes of characters go up to `0x10ffff`, but for the surrogates. -/
theorem exists_char_iff {n : ℤ} :
    (∃ c : Char, (c.toNat : ℤ) = n) ↔ 0 ≤ n ∧ n ≤ 0x10ffff ∧ ¬ IsSurrogate n := by
  constructor
  · rintro ⟨c, rfl⟩
    have hvalid := (isValidChar_toNat_iff (Int.natCast_nonneg c.toNat)).mp c.valid
    exact ⟨Int.natCast_nonneg _, hvalid⟩
  · rintro ⟨hn, hcode⟩
    have hvalid := (isValidChar_toNat_iff hn).mpr hcode
    exact ⟨Char.ofNat n.toNat, scalar?_eq_some_iff.mp (if_pos ⟨hn, hvalid⟩)⟩

namespace NarrowingPolicy

variable {policy : NarrowingPolicy} {h : Heap} {v : Value} {n : ℤ} {c : Char}

/-! ### Numbers that are narrowed to words -/

/-- The code of the word decides, and the refusal is one of the number. -/
theorem characterOfNumber_of_narrow {x : Int64} (hx : policy.narrow h v .long = .ok (.long x)) :
    policy.characterOfNumber h v =
      match scalar? (policy.characterCode x) with
      | some c => .ok c
      | none => .error (.uncoercible (v.display h) "char") := by
  rw [characterOfNumber, hx]
  rfl

theorem characterOfNumber_of_narrow_eq_error {f : Fault} (hf : policy.narrow h v .long = .error f) :
    policy.characterOfNumber h v = .error f := by
  rw [characterOfNumber, hf]
  rfl

/-- Narrowing to `long` gives a word, or fails. -/
theorem narrow_long_cases (policy : NarrowingPolicy) (h : Heap) (v : Value) :
    (∃ x, policy.narrow h v .long = .ok (.long x)) ∨ ∃ f, policy.narrow h v .long = .error f := by
  cases hnarrow : policy.narrow h v .long with
  | error f => exact Or.inr ⟨f, rfl⟩
  | ok e =>
    have htype := CoercionService.typed_standard policy h v .long e hnarrow
    cases e with
    | long x => exact Or.inl ⟨x, rfl⟩
    | byte | short | int | float | double => cases htype

/-- The characters of a number are those with the code of its word. -/
theorem characterOfNumber_eq_ok_iff :
    policy.characterOfNumber h v = .ok c ↔
      ∃ x, policy.narrow h v .long = .ok (.long x) ∧ (c.toNat : ℤ) = policy.characterCode x := by
  rcases policy.narrow_long_cases h v with ⟨x, hx⟩ | ⟨f, hf⟩
  · have hcode : policy.characterOfNumber h v = .ok c ↔
        scalar? (policy.characterCode x) = some c := by
      rw [characterOfNumber_of_narrow hx]
      cases scalar? (policy.characterCode x) with
      | some c' => simp
      | none => simp
    rw [hcode, scalar?_eq_some_iff]
    constructor
    · intro hc
      exact ⟨x, hx, hc⟩
    · rintro ⟨y, hy, hc⟩
      obtain rfl : x = y := Element.long.inj (Except.ok.inj (hx.symm.trans hy))
      exact hc
  · rw [characterOfNumber_of_narrow_eq_error hf, hf]
    simp

theorem character_of_isNumeric (hv : v.isNumeric = true) :
    policy.character h v = policy.characterOfNumber h v := by
  cases v with
  | null | boolean | character | string | template | array => cases hv
  | _ => rfl

/-! ### Integers -/

theorem isNumeric_of_whole? (hv : v.whole? = some n) : v.isNumeric = true := by
  cases v with
  | byte | short | integer | long | bigInteger => rfl
  | _ => cases hv

theorem code?_of_whole? (hv : v.whole? = some n) : v.code? = some n := by
  cases v with
  | character => cases hv
  | _ => exact hv

/-- The residue modulo `2 ^ 64` has all that truncation looks at. -/
theorem characterCode_truncate (n : ℤ) :
    truncate.characterCode (Int64.ofInt n) = n % 2 ^ 16 := by
  have hdvd : ((2 ^ 16 : ℕ) : ℤ) ∣ n.bmod (2 ^ 64) - n :=
    Int.dvd_trans (by decide) Int.dvd_bmod_sub_self
  rw [characterCode, Int64.toInt_ofInt]
  exact Int.emod_eq_emod_iff_emod_sub_eq_zero.mpr (Int.emod_eq_zero_of_dvd hdvd)

/-- The character of an integer has the integer for its code, under truncation its low 16 bits. -/
theorem character_eq_ok_iff (hv : v.whole? = some n) (h : Heap) :
    (checked.character h v = .ok c ↔ (c.toNat : ℤ) = n) ∧
      (truncate.character h v = .ok c ↔ (c.toNat : ℤ) = n % 2 ^ 16) := by
  have hcode := code?_of_whole? hv
  have hnumeric := isNumeric_of_whole? hv
  constructor
  · rw [character_of_isNumeric hnumeric, characterOfNumber_eq_ok_iff]
    by_cases hword : InWidth 64 n
    · have hnarrow : checked.narrow h v .long = .ok (.long (Int64.ofInt n)) :=
        checked_narrow hcode rfl hword h
      have hvalue : checked.characterCode (Int64.ofInt n) = n := hword.toInt_ofInt
      constructor
      · rintro ⟨x, hx, hc⟩
        rw [hnarrow] at hx
        obtain rfl := Element.long.inj (Except.ok.inj hx)
        rw [hc, hvalue]
      · intro hc
        exact ⟨_, hnarrow, hc.trans hvalue.symm⟩
    · -- no character has a code of more than 64 bits
      have hlt := toNat_lt_of_char c
      obtain ⟨f, hf, -⟩ := checked_narrow_of_not_inWidth hcode (t := .long) rfl hword h
      refine iff_of_false ?_ ?_
      · rintro ⟨x, hx, -⟩
        rw [hf] at hx
        cases hx
      · rintro rfl
        exact hword ⟨by omega, by omega⟩
  · have hnarrow : truncate.narrow h v .long = .ok (.long (Int64.ofInt n)) :=
      truncate_narrow hcode rfl h
    rw [character_of_isNumeric hnumeric, characterOfNumber_eq_ok_iff]
    constructor
    · rintro ⟨x, hx, hc⟩
      rw [hnarrow] at hx
      obtain rfl := Element.long.inj (Except.ok.inj hx)
      rw [hc, characterCode_truncate]
    · intro hc
      exact ⟨_, hnarrow, hc.trans (characterCode_truncate n).symm⟩

/-! ### Words in the place of other numbers -/

/-- A word is its own narrowing to `long`. -/
theorem narrow_long_self (policy : NarrowingPolicy) (h : Heap) (x : Int64) :
    policy.narrow h (.long x) .long = .ok (.long x) :=
  policy.narrow_box h (.long x)

/-- A number has the character of its word. -/
theorem character_eq_ok_iff_of_narrow (hv : v.isNumeric = true) {x : Int64}
    (hx : policy.narrow h v .long = .ok (.long x)) :
    policy.character h v = .ok c ↔ policy.character h (.long x) = .ok c := by
  rw [character_of_isNumeric hv, character_of_isNumeric rfl, characterOfNumber_eq_ok_iff,
    characterOfNumber_eq_ok_iff, hx, narrow_long_self]

theorem character_eq_error_of_narrow (hv : v.isNumeric = true) {f : Fault}
    (hf : policy.narrow h v .long = .error f) : policy.character h v = .error f := by
  rw [character_of_isNumeric hv, characterOfNumber_of_narrow_eq_error hf]

/-- **Which numbers are characters.**  Under the checked policy an integer, boxed in whatever
class, has a character exactly if it is a code, so from 0 to `0x10ffff` and no surrogate, and then
the character with this code.  Under truncation it has one exactly if its residue modulo `2 ^ 16`
is no surrogate, and then the character with the residue for its code.  A floating-point number has
the character of the `Long` that it is narrowed to under the same policy, and none if it is not
narrowed.  `null`, the booleans and the arrays have none.  Every refusal says that a value has no
counterpart in a type. -/
theorem characters_of_numbers (h : Heap) :
    (∀ (v : Value) (n : ℤ), v.whole? = some n →
      ((∃ c, checked.character h v = .ok c) ↔ 0 ≤ n ∧ n ≤ 0x10ffff ∧ ¬ IsSurrogate n) ∧
      (∀ c, checked.character h v = .ok c ↔ (c.toNat : ℤ) = n) ∧
      ((∃ c, truncate.character h v = .ok c) ↔ ¬ IsSurrogate (n % 2 ^ 16)) ∧
      ∀ c, truncate.character h v = .ok c ↔ (c.toNat : ℤ) = n % 2 ^ 16) ∧
    (∀ (policy : NarrowingPolicy) (v : Value), (∃ x, v = .float x) ∨ (∃ x, v = .double x) →
      (∃ x : Int64, policy.narrow h v .long = .ok (.long x) ∧
        ∀ c, policy.character h v = .ok c ↔ policy.character h (.long x) = .ok c) ∨
      (∃ f, policy.narrow h v .long = .error f) ∧ ∃ f, policy.character h v = .error f) ∧
    (∀ (policy : NarrowingPolicy) (v : Value),
      v = .null ∨ (∃ b, v = .boolean b) ∨ (∃ a, v = .array a) →
        ∃ f, policy.character h v = .error f) ∧
    ∀ (policy : NarrowingPolicy) (v : Value) f, policy.character h v = .error f →
      f.IsUncoercible := by
  refine ⟨fun v n hv => ?_, fun policy v hv => ?_, fun policy v hv => ?_,
    fun policy v f => isUncoercible_character policy⟩
  · have hchecked : ∀ c, checked.character h v = .ok c ↔ (c.toNat : ℤ) = n :=
      fun c => (character_eq_ok_iff hv h).1
    have htruncate : ∀ c, truncate.character h v = .ok c ↔ (c.toNat : ℤ) = n % 2 ^ 16 :=
      fun c => (character_eq_ok_iff hv h).2
    refine ⟨?_, hchecked, ?_, htruncate⟩
    · rw [exists_congr hchecked, exists_char_iff]
    · -- a residue is never past the codes
      rw [exists_congr htruncate, exists_char_iff, and_iff_right (by omega),
        and_iff_right (by omega)]
  · have hnumeric : v.isNumeric = true := by
      rcases hv with ⟨x, rfl⟩ | ⟨x, rfl⟩
      · rfl
      · rfl
    rcases policy.narrow_long_cases h v with ⟨x, hx⟩ | ⟨f, hf⟩
    · exact Or.inl ⟨x, hx, fun c => character_eq_ok_iff_of_narrow hnumeric hx⟩
    · exact Or.inr ⟨⟨f, hf⟩, f, character_eq_error_of_narrow hnumeric hf⟩
  · rcases hv with rfl | ⟨b, rfl⟩ | ⟨a, rfl⟩
    · exact ⟨_, rfl⟩
    · exact ⟨_, rfl⟩
    · exact ⟨_, rfl⟩

/-! Integers past the words, on and off the surrogates; and numbers that saturate or have a
fraction. -/

theorem characters_of_numbers_pastWords :
    let letter : Value := .bigInteger (0x41 - 2 ^ 70)
    let surrogate : Value := .bigInteger (0xd800 + 2 ^ 70)
    let large : Value := .double (.ofBits .double 0x7e37e43c8800759c)
    let half : Value := .double (.ofBits .double 0x3fe0000000000000)
    letter.whole? = some (0x41 - 2 ^ 70) ∧ truncate.character .empty letter = .ok 'A' ∧
    (¬ ∃ c, checked.character .empty letter = .ok c) ∧
    surrogate.whole? = some (0xd800 + 2 ^ 70) ∧
    (¬ ∃ c, truncate.character .empty surrogate = .ok c) ∧
    truncate.character .empty large = .ok '\uffff' ∧
    (∃ f, checked.character .empty half = .error f) ∧
    ∃ f, checked.character .empty .null = .error f := by
  intro letter surrogate large half
  obtain ⟨hwhole, hnumber, hnone, -⟩ := characters_of_numbers .empty
  obtain ⟨hchecked, -, -, htruncate⟩ := hwhole letter _ rfl
  obtain ⟨-, -, hresidue, -⟩ := hwhole surrogate _ rfl
  have hlarge : truncate.narrow .empty large .long = .ok (.long Int64.maxValue) := by
    decide +kernel
  have hhalf : checked.narrow .empty half .long = .error (.uncoercible "0.5" "long") := by
    decide +kernel
  refine ⟨rfl, (htruncate 'A').mpr (by decide), mt hchecked.mp (by decide), rfl,
    mt hresidue.mp (by decide), ?_, ?_, hnone .checked .null (Or.inl rfl)⟩
  · rcases hnumber .truncate large (Or.inr ⟨_, rfl⟩) with ⟨x, hx, hsame⟩ | ⟨⟨f, hf⟩, -⟩
    · rw [hlarge] at hx
      obtain rfl := Element.long.inj (Except.ok.inj hx)
      exact (hsame _).mpr (((hwhole (.long Int64.maxValue) _ rfl).2.2.2 _).mpr (by decide))
    · rw [hlarge] at hf
      cases hf
  · rcases hnumber .checked half (Or.inr ⟨_, rfl⟩) with ⟨x, hx, -⟩ | ⟨-, hrefused⟩
    · rw [hhalf] at hx
      cases hx
    · exact hrefused

end NarrowingPolicy

end InlineCache
