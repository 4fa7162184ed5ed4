/-
What the faults of coercion name.

A number that is narrowed is turned into other numbers on the way, and a refusal shows what it has
become by then (`Value.refusedAs`): a character its code, a `double` that is a word this word, and
what is to be a floating-point number the `double` before it.  Often that has the same text.  A
refusal to narrow always names the target; a refusal to make a character of a number names `long`
if the number is no word, for then it has been refused on the way to one.

* `NarrowingPolicy.eq_of_narrow_eq_error`: the fault of narrowing;
* `NarrowingPolicy.eq_uncoercible_char_iff`: when that of making a character names `char`;
* `NarrowingPolicy.display_refusedAs_of_textKept`: numbers whose text comes through narrowing;
* `NarrowingPolicy.faults_name_iff`: when a fault is about the value and the target asked for.
-/
import InlineCache.Proofs.Characters
import InlineCache.Proofs.WholeTexts

namespace InlineCache

/-! ### Numbers that are words -/

/-- The integer of 64 bits that is stood for. -/
def Reading.word? : Reading → Option ℤ
  | .exactly q => if q.den = 1 ∧ InWidth 64 q.num then some q.num else none
  | _ => none

theorem Reading.word?_eq_some_iff {r : Reading} {n : ℤ} :
    r.word? = some n ↔ r = .exactly n ∧ InWidth 64 n := by
  cases r with
  | nan | infinite => exact iff_of_false nofun fun h => nomatch h.1
  | exactly q =>
    rw [word?]
    constructor
    · intro h
      split at h
      · rename_i hword
        obtain rfl := Option.some.inj h
        exact ⟨congrArg exactly (Rat.den_eq_one_iff q |>.mp hword.1).symm, hword.2⟩
      · cases h
    · rintro ⟨hq, hn⟩
      obtain rfl := Reading.exactly.inj hq
      rw [if_pos ⟨Rat.den_intCast n, by rwa [Rat.num_intCast]⟩, Rat.num_intCast]

theorem Reading.word?_eq_none_iff {r : Reading} :
    r.word? = none ↔ ∀ n : ℤ, r = .exactly n → ¬ InWidth 64 n := by
  rw [Option.eq_none_iff_forall_ne_some]
  constructor
  · intro h n hr hn
    exact h n (word?_eq_some_iff.mpr ⟨hr, hn⟩)
  · intro h n hn
    obtain ⟨hr, hrange⟩ := word?_eq_some_iff.mp hn
    exact h n hr hrange

/-! ### What is refused in the place of a value -/

/-- What a `double` has become when a type refuses it: the word that it is, if the type is one of
integers and there is such a word. -/
def ElementType.refusedDouble (t : ElementType) (x : Binary .double) : Value :=
  match t.width?, x.reading.word? with
  | some _, some n => .long (Int64.ofInt n)
  | _, _ => .double x

namespace ElementType

variable {t : ElementType} {x : Binary .double}

theorem refusedDouble_of_width?_eq_none (ht : t.width? = none) (x : Binary .double) :
    t.refusedDouble x = .double x := by
  rw [refusedDouble, ht]

theorem refusedDouble_of_word?_eq_none (hx : x.reading.word? = none) (t : ElementType) :
    t.refusedDouble x = .double x := by
  rw [refusedDouble, hx]
  cases t.width? <;> rfl

end ElementType

theorem Format.width?_type (g : Format) : g.type.width? = none := by
  cases g with
  | single => rfl
  | double => rfl

/-- What a value has become when a type refuses it. -/
def Value.refusedAs (t : ElementType) : Value → Value
  | .character c => .long (Int64.ofNat c.toNat)
  | .float x => t.refusedDouble (x.convert .double)
  | .double x => t.refusedDouble x
  | .bigInteger n => if t.width? = none then .double (.ofLargeInt .double n) else .bigInteger n
  | v => v

/-- A number that is no integer of 64 bits. -/
def Value.Wordless (v : Value) : Prop :=
  v.isNumeric = true ∧ v.number?.bind Reading.word? = none

/-- How a value is to be shown by a fault: as it is displayed, and in quotes if it is a text. -/
def Value.shown (h : Heap) (v : Value) : String :=
  match v.text? h with
  | some text => quoted text
  | none => v.display h

namespace NarrowingPolicy

variable {policy : NarrowingPolicy} {h : Heap} {v : Value} {t : ElementType} {f : Fault}

/-! ### The fault of narrowing -/

theorem eq_of_narrowWord_eq_error {x : Int64} (hf : policy.narrowWord x t = .error f) :
    f = .uncoercible (toString x) t.name := by
  cases policy with
  | truncate => cases hf
  | checked =>
    rw [narrowWord] at hf
    split at hf
    · cases hf
    · exact (Except.error.inj hf).symm

/-- Truncation refuses no number. -/
theorem eq_checked_of_narrowDouble_eq_error {x : Binary .double}
    (hf : policy.narrowDouble x t = .error f) : policy = .checked := by
  cases policy with
  | truncate =>
    obtain ⟨e, he⟩ := exists_truncate_narrowDouble x t
    rw [he] at hf
    cases hf
  | checked => rfl

theorem eq_of_narrowDouble_eq_error {x : Binary .double} (h : Heap)
    (hf : policy.narrowDouble x t = .error f) :
    f = .uncoercible ((t.refusedDouble x).display h) t.name := by
  obtain rfl := eq_checked_of_narrowDouble_eq_error hf
  rcases t.width?_or_type with ⟨w, hw⟩ | ⟨g, rfl⟩
  · rw [checked_narrowDouble hw] at hf
    split at hf
    · rename_i hrefused
      have hword : x.reading.word? = none :=
        Reading.word?_eq_none_iff.mpr ((refused_iff x).mp hrefused)
      rw [ElementType.refusedDouble_of_word?_eq_none hword]
      exact (Except.error.inj hf).symm
    · -- a word that the type has no room for
      rename_i htaken
      rw [refused_iff] at htaken
      push Not at htaken
      obtain ⟨n, hn, hrange⟩ := htaken
      have hword : x.reading.word? = some n := Reading.word?_eq_some_iff.mpr ⟨hn, hrange⟩
      rw [hn, Reading.saturate_exactly hrange] at hf
      rw [ElementType.refusedDouble, hw, hword]
      exact eq_of_narrowWord_eq_error hf
  · rw [checked_narrowDouble_type] at hf
    split at hf
    · rw [ElementType.refusedDouble_of_width?_eq_none g.width?_type]
      exact (Except.error.inj hf).symm
    · cases hf

theorem eq_of_narrowInt_eq_error {n : ℤ} (h : Heap) (hf : policy.narrowInt n t = .error f) :
    f = .uncoercible (((Value.bigInteger n).refusedAs t).display h) t.name := by
  rcases t.width?_or_type with ⟨w, hw⟩ | ⟨g, rfl⟩
  · have hkept : (Value.bigInteger n).refusedAs t = .bigInteger n := by
      rw [Value.refusedAs, if_neg (by rw [hw]; exact Option.some_ne_none w)]
    rw [hkept]
    cases policy with
    | truncate =>
      have hnarrow := truncate_narrow (v := .bigInteger n) rfl hw h
      rw [narrow, hf] at hnarrow
      cases hnarrow
    | checked =>
      rw [checked_narrowInt hw] at hf
      split at hf
      · rename_i hrange
        have htext : toString (Int64.ofInt n) = toString n :=
          congrArg (toString : ℤ → String) hrange.toInt_ofInt
        rw [eq_of_narrowWord_eq_error hf, htext]
        rfl
      · exact (Except.error.inj hf).symm
  · rw [narrowInt_type] at hf
    rw [Value.refusedAs, if_pos g.width?_type, eq_of_narrowDouble_eq_error h hf,
      ElementType.refusedDouble_of_width?_eq_none g.width?_type]

/-- A refusal to narrow names the target, and shows what the value has become. -/
theorem eq_of_narrow_eq_error (hf : policy.narrow h v t = .error f) :
    f = .uncoercible ((v.refusedAs t).display h) t.name := by
  cases v with
  | byte n | short n | integer n =>
    have htext : toString n.toInt64 = toString n :=
      congrArg (toString : ℤ → String) n.toInt_toInt64
    rw [eq_of_narrowWord_eq_error hf, htext]
    rfl
  | long | character => exact eq_of_narrowWord_eq_error hf
  | bigInteger => exact eq_of_narrowInt_eq_error h hf
  | float | double => exact eq_of_narrowDouble_eq_error h hf
  | null | boolean | string | template | array => exact (Except.error.inj hf).symm

/-! ### The fault of making a character -/

theorem checked_narrowDouble_long_eq_error_iff {x : Binary .double} :
    (∃ f, checked.narrowDouble x .long = .error f) ↔ x.reading.word? = none := by
  constructor
  · rintro ⟨f, hf⟩
    refine Reading.word?_eq_none_iff.mpr fun n hn hrange => ?_
    rw [checked_narrowDouble_of_inWidth rfl hn hrange] at hf
    cases hf
  · intro hnone
    obtain ⟨f, hf, -⟩ :=
      checked_narrowDouble_of_not_inWidth (t := .long) rfl (Reading.word?_eq_none_iff.mp hnone)
    exact ⟨f, hf⟩

/-- A number is refused on the way to a word if it is none, and only under the checked policy. -/
theorem narrow_long_eq_error_iff (hv : v.isNumeric = true) :
    (∃ f, policy.narrow h v .long = .error f) ↔
      policy = .checked ∧ v.number?.bind Reading.word? = none := by
  cases policy with
  | truncate =>
    obtain ⟨e, he⟩ := exists_truncate_narrow (Or.inl hv) h .long
    rw [he]
    exact iff_of_false nofun fun hfalse => nomatch hfalse.1
  | checked =>
    rw [and_iff_right rfl]
    have hinteger : ∀ {n : ℤ}, v.code? = some n →
        ((∃ f, checked.narrow h v .long = .error f) ↔ (Reading.exactly n).word? = none) := by
      intro n hn
      by_cases hrange : InWidth 64 n
      · rw [checked_narrow hn rfl hrange, Reading.word?_eq_some_iff.mpr ⟨rfl, hrange⟩]
        exact iff_of_false nofun nofun
      · obtain ⟨f, hf, -⟩ := checked_narrow_of_not_inWidth hn (t := .long) rfl hrange h
        refine iff_of_true ⟨f, hf⟩ (Reading.word?_eq_none_iff.mpr fun m hm => ?_)
        rwa [← Int.cast_injective (Reading.exactly.inj hm)]
    cases v with
    | byte | short | integer | long | bigInteger => exact hinteger rfl
    | float x =>
      have hreading := Binary.reading_convert_double x
      show _ ↔ x.reading.word? = none
      rw [← hreading]
      exact checked_narrowDouble_long_eq_error_iff
    | double => exact checked_narrowDouble_long_eq_error_iff
    | null | boolean | character | string | template | array => cases hv

/-- A refusal to make a character shows the value and names `char`, or else the value is a number
that was refused on the way. -/
theorem eq_of_character_eq_error (hf : policy.character h v = .error f) :
    f = .uncoercible (v.shown h) "char" ∨
      v.isNumeric = true ∧ policy.narrow h v .long = .error f := by
  cases v with
  | character => cases hf
  | string | template =>
    rw [character_of_isTextLike policy h rfl, characterOfText] at hf
    split at hf
    · cases hf
    · exact Or.inl (Except.error.inj hf).symm
  | null | boolean | array => exact Or.inl (Except.error.inj hf).symm
  | byte | short | integer | long | bigInteger | float | double =>
    rw [character_of_isNumeric rfl] at hf
    rcases policy.narrow_long_cases h _ with ⟨x, hx⟩ | ⟨f', hf'⟩
    · rw [characterOfNumber_of_narrow hx] at hf
      split at hf
      · cases hf
      · exact Or.inl (Except.error.inj hf).symm
    · rw [characterOfNumber_of_narrow_eq_error hf'] at hf
      obtain rfl := Except.error.inj hf
      exact Or.inr ⟨rfl, hf'⟩

theorem eq_uncoercible_char_iff (hf : policy.character h v = .error f) :
    f = .uncoercible (v.shown h) "char" ↔ ¬ (policy = .checked ∧ v.Wordless) := by
  constructor
  · rintro rfl ⟨rfl, hnumeric, hword⟩
    obtain ⟨f', hf'⟩ := (narrow_long_eq_error_iff (h := h) hnumeric).mpr ⟨rfl, hword⟩
    have hsame : f' = .uncoercible (v.shown h) "char" :=
      Except.error.inj ((character_eq_error_of_narrow hnumeric hf').symm.trans hf)
    rw [eq_of_narrow_eq_error hf'] at hsame
    exact absurd (Fault.uncoercible.inj hsame).2 (by decide)
  · intro hword
    rcases eq_of_character_eq_error hf with hchar | ⟨hnumeric, hnarrow⟩
    · exact hchar
    · obtain ⟨hpolicy, hnone⟩ := (narrow_long_eq_error_iff hnumeric).mp ⟨f, hnarrow⟩
      exact absurd ⟨hpolicy, hnumeric, hnone⟩ hword

end NarrowingPolicy

/-! ### Texts that are kept on the way -/

/-- Values that have their own text when a type refuses them, whatever that text is: not characters,
and of the numbers at least those that are refused as they are, and the integers that come with all
their digits. -/
def Value.TextKept (t : ElementType) : Value → Prop
  | .character _ => False
  | .float x => (∀ q, x.reading ≠ .exactly q) ∨
      ∃ n : ℤ, x.reading = .exactly n ∧ n.natAbs < 2 ^ Format.single.precision
  | .double x => t.width? = none ∨ x.reading.word? = none ∨
      ∃ n : ℤ, x.reading = .exactly n ∧ n.natAbs < 2 ^ Format.double.precision
  | .bigInteger _ => t.width? ≠ none
  | _ => True

/-- A `double` that is an integer of few digits keeps the text of the integer. -/
theorem ElementType.display_refusedDouble {x : Binary .double} {n : ℤ}
    (hx : x.reading = .exactly n) (hn : n ≠ 0) (hsmall : n.natAbs < 2 ^ Format.double.precision)
    (h : Heap) (t : ElementType) : (t.refusedDouble x).display h = toString n := by
  have hbound : n.natAbs < 2 ^ 53 := hsmall
  have hword : InWidth 64 n := ⟨by omega, by omega⟩
  have htext : x.text .plain = toString n := x.text_whole hx hn hsmall
  rw [refusedDouble, Reading.word?_eq_some_iff.mpr ⟨hx, hword⟩]
  cases t.width? with
  | none => exact htext
  | some w => exact congrArg (toString : ℤ → String) hword.toInt_ofInt

namespace NarrowingPolicy

variable {policy : NarrowingPolicy} {h : Heap} {v : Value} {t : ElementType} {f : Fault}

/-- Zero is taken by every type. -/
theorem ne_zero_of_narrowDouble_eq_error {x : Binary .double} {n : ℤ} (hx : x.reading = .exactly n)
    (hf : policy.narrowDouble x t = .error f) : n ≠ 0 := by
  rintro rfl
  obtain rfl := eq_checked_of_narrowDouble_eq_error hf
  rcases t.width?_or_type with ⟨w, hw⟩ | ⟨g, rfl⟩
  · have hzero : InWidth w 0 := ⟨neg_nonpos.mpr (by positivity), by positivity⟩
    rw [checked_narrowDouble_of_inWidth hw hx hzero] at hf
    cases hf
  · have hfinite : x.isFinite = true := Binary.isFinite_iff.mpr ⟨_, hx⟩
    have hreach : |((0 : ℤ) : ℚ)| < g.reach := by
      rw [abs_intCast_lt_iff]
      exact Nat.zero_lt_of_lt g.word_lt_reach
    have hplace : (g.ofDouble x).isFinite = true :=
      ((Binary.near_of_reading hx).isFinite_ofDouble_iff hfinite).mpr hreach
    rw [checked_narrowDouble_type, hfinite, hplace] at hf
    cases hf

/-- So their fault shows them as they are. -/
theorem display_refusedAs_of_textKept (hf : policy.narrow h v t = .error f) (hv : v.TextKept t) :
    (v.refusedAs t).display h = v.display h := by
  cases v with
  | null | boolean | byte | short | integer | long | string | template | array => rfl
  | character => exact hv.elim
  | bigInteger n => rw [Value.refusedAs, if_neg hv]
  | float x =>
    rcases hv with hnone | ⟨n, hx, hsmall⟩
    · cases x with
      | nan =>
        have hkept := ElementType.refusedDouble_of_word?_eq_none (x := .nan) rfl t
        exact (congrArg (Value.display h) hkept).trans rfl
      | infinite negative =>
        have hkept := ElementType.refusedDouble_of_word?_eq_none (x := .infinite negative) rfl t
        exact (congrArg (Value.display h) hkept).trans rfl
      | finite negative m k hcanonical => exact absurd (Binary.reading_finite hcanonical) (hnone _)
    · have hdouble : (x.convert .double).reading = .exactly n :=
        (Binary.reading_convert_double x).trans hx
      have hn : n ≠ 0 := ne_zero_of_narrowDouble_eq_error hdouble hf
      have hbound : n.natAbs < 2 ^ Format.double.precision :=
        hsmall.trans (Nat.pow_lt_pow_right (by decide) (by decide))
      exact (ElementType.display_refusedDouble hdouble hn hbound h t).trans
        (x.text_whole hx hn hsmall).symm
  | double x =>
    rcases hv with ht | hword | ⟨n, hx, hsmall⟩
    · exact congrArg (Value.display h) (t.refusedDouble_of_width?_eq_none ht x)
    · exact congrArg _ (ElementType.refusedDouble_of_word?_eq_none hword t)
    · have hn : n ≠ 0 := ne_zero_of_narrowDouble_eq_error hx hf
      exact (ElementType.display_refusedDouble hx hn hsmall h t).trans
        (x.text_whole hx hn hsmall).symm

end NarrowingPolicy

/-- No character is the decimal of its code. -/
theorem toString_toNat_ne_toString (c : Char) : toString c.toNat ≠ c.toString := by
  intro htext
  have hdigits : Nat.toDigits 10 c.toNat = [c] := by
    rw [← Nat.toList_repr, ← Nat.toString_eq_repr, htext, Char.toString_eq_singleton,
      String.toList_singleton]
  have hlt : c.toNat < 10 := by
    have hlength : (Nat.toDigits 10 c.toNat).length ≤ 1 := by rw [hdigits]; rfl
    exact (Nat.length_toDigits_le_iff (by decide) (by decide)).mp hlength
  rw [Nat.toDigits_of_lt_base hlt] at hdigits
  have hcode : (Nat.digitChar c.toNat).toNat = c.toNat :=
    congrArg Char.toNat (List.head_eq_of_cons_eq hdigits)
  have hdiffer : ∀ d < 10, (Nat.digitChar d).toNat ≠ d := by decide
  exact hdiffer _ hlt hcode

/-- What a character has become when a type refuses it has another text. -/
theorem Value.display_refusedAs_character_ne (h : Heap) (t : ElementType) (c : Char) :
    ((Value.character c).refusedAs t).display h ≠ (Value.character c).display h := by
  have hword : (Int64.ofNat c.toNat).toInt = c.toNat := by
    have hc := toNat_lt_of_char c
    exact Int64.toInt_ofNat_of_lt (by omega)
  have htext : toString (Int64.ofNat c.toNat) = toString c.toNat :=
    congrArg (toString : ℤ → String) hword
  intro hsame
  exact toString_toNat_ne_toString c (htext.symm.trans hsame)

namespace NarrowingPolicy

/-- The faults of coercion name the value and the target that were asked for, but for two things.
A refusal to narrow shows what the value has become by then.  That has the text of the value unless
this is a floating-point number of many digits or an integer that a floating-point type refuses, but
never the text of a character.  And under the checked policy a number that is to become a character,
and is no word, is refused as if `long` had been asked for. -/
theorem faults_name_iff (policy : NarrowingPolicy) (h : Heap) (v : Value) :
    (∀ t f, policy.narrow h v t = .error f →
      f = .uncoercible ((v.refusedAs t).display h) t.name ∧
      (f = .uncoercible (v.display h) t.name ↔ (v.refusedAs t).display h = v.display h) ∧
      (v.TextKept t → f = .uncoercible (v.display h) t.name) ∧
      ∀ c, v = .character c → f ≠ .uncoercible (v.display h) t.name) ∧
    ∀ f, policy.character h v = .error f →
      (f = .uncoercible (v.shown h) "char" ↔ ¬ (policy = .checked ∧ v.Wordless)) ∧
      (policy = .checked ∧ v.Wordless →
        f = .uncoercible ((v.refusedAs .long).display h) "long") := by
  refine ⟨fun t f hf => ?_, fun f hf => ⟨eq_uncoercible_char_iff hf, ?_⟩⟩
  · have hnamed := eq_of_narrow_eq_error hf
    have hshown : f = .uncoercible (v.display h) t.name ↔
        (v.refusedAs t).display h = v.display h := by
      rw [hnamed, Fault.uncoercible.injEq, and_iff_left rfl]
    refine ⟨hnamed, hshown, fun hkept => ?_, ?_⟩
    · exact hshown.mpr (display_refusedAs_of_textKept hf hkept)
    · rintro c rfl hchar
      exact Value.display_refusedAs_character_ne h t c (hshown.mp hchar)
  · rintro ⟨rfl, hnumeric, hword⟩
    obtain ⟨f', hf'⟩ := (narrow_long_eq_error_iff (h := h) hnumeric).mpr ⟨rfl, hword⟩
    obtain rfl : f' = f :=
      Except.error.inj ((character_eq_error_of_narrow hnumeric hf').symm.trans hf)
    exact eq_of_narrow_eq_error hf'

/-- An integer past the bytes is named as it is, and a half with `long` for `char`. -/
theorem faults_name_iff_pastBytes :
    let half : Binary .double := .ofBits .double 0x3fe0000000000000
    (∃ f, checked.narrow .empty (.integer 128) .byte = .error f ∧
      f = .uncoercible "128" "byte") ∧
    ∃ f, checked.character .empty (.double half) = .error f ∧ f = .uncoercible "0.5" "long" ∧
      f ≠ .uncoercible ((Value.double half).shown .empty) "char" := by
  intro half
  have hbyte : checked.narrow .empty (.integer 128) .byte = .error (.uncoercible "128" "byte") := by
    decide +kernel
  have hhalf : checked.character .empty (.double half) = .error (.uncoercible "0.5" "long") := by
    decide +kernel
  have hwordless : (Value.double half).Wordless := ⟨rfl, by decide +kernel⟩
  obtain ⟨hchar, -⟩ := (faults_name_iff checked .empty (.double half)).2 _ hhalf
  refine ⟨⟨_, hbyte, ?_⟩, _, hhalf, rfl, fun hnamed => hchar.mp hnamed ⟨rfl, hwordless⟩⟩
  exact ((faults_name_iff checked .empty (.integer 128)).1 .byte _ hbyte).2.2.1 trivial

/-- A half that is to become a character is refused as a `long`, and U+0100 as the integer 256. -/
theorem other_names_given :
    checked.character .empty (.double (.ofBits .double 0x3fe0000000000000)) =
      .error (.uncoercible "0.5" "long") ∧
    checked.narrow .empty (.character '\u0100') .byte = .error (.uncoercible "256" "byte") ∧
    ¬ ∀ (policy : NarrowingPolicy) (h : Heap) (v : Value),
      (∀ t f, policy.narrow h v t = .error f → f = .uncoercible (v.display h) t.name) ∧
      ∀ f, policy.character h v = .error f → f = .uncoercible (v.shown h) "char" := by
  have hhalf : checked.character .empty (.double (.ofBits .double 0x3fe0000000000000)) =
      .error (.uncoercible "0.5" "long") := by
    decide +kernel
  have hcode : checked.narrow .empty (.character '\u0100') .byte =
      .error (.uncoercible "256" "byte") := by
    decide +kernel
  refine ⟨hhalf, hcode, fun hnamed => ?_⟩
  have hchar := (hnamed checked .empty (.double (.ofBits .double 0x3fe0000000000000))).2 _ hhalf
  exact absurd (Fault.uncoercible.inj hchar).2 (by decide)

end NarrowingPolicy

end InlineCache
