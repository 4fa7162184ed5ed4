/-
Texts are stored as the codes of characters.

A character, a string and a template are one and the same payload if they show the same text
(`ElementType.coerce_of_display`), and a text of one character is the same payload as the code of
that character in an `Integer`, although the one goes through two steps of coercion and the other
through one, or none.  The digits of a text mean nothing.

* `ElementType.coerce_number`: a number is narrowed, also where it need not be;
* `ElementType.texts_are_codes`: which texts are stored, as what, and with which faults.
-/
import InlineCache.Proofs.Exactness
import InlineCache.Proofs.Idempotence
import InlineCache.Proofs.Policies

namespace InlineCache

/-! ### Texts -/

namespace NarrowingPolicy

theorem characterOfText_toString (c : Char) : characterOfText c.toString = .ok c := by
  rw [characterOfText, Char.toString_eq_singleton, String.toList_singleton]

/-- The empty text has no character, and a longer one has too many. -/
theorem characterOfText_of_length_ne {text : String} (hlength : text.length ≠ 1) :
    characterOfText text = .error (.uncoercible (quoted text) "char") := by
  rw [characterOfText]
  split
  · rename_i c hc
    rw [← String.length_toList, hc] at hlength
    exact absurd rfl hlength
  · rfl

/-- Nothing counts of a character or a text but what it shows. -/
theorem character_of_isTextLike (policy : NarrowingPolicy) (h : Heap) {v : Value}
    (hv : v.isTextLike = true) : policy.character h v = characterOfText (v.display h) := by
  cases v with
  | character c => exact (characterOfText_toString c).symm
  | string | template => rfl
  | _ => cases hv

end NarrowingPolicy

namespace ElementType

variable (t : ElementType) (policy : NarrowingPolicy) (h : Heap) {v : Value}

theorem coerce_of_display (hv : v.isTextLike = true) :
    (t.coerce (.standard policy) h v).1 =
      (NarrowingPolicy.characterOfText (v.display h)).bind fun c =>
        policy.narrow h (.character c) t := by
  have hcharacter : (CoercionService.standard policy).character h v =
      NarrowingPolicy.characterOfText (v.display h) := policy.character_of_isTextLike h hv
  rw [coerce_of_isTextLike hv, hcharacter]
  cases NarrowingPolicy.characterOfText (v.display h) <;> rfl

/-- Numbers that are not narrowed might as well be. -/
theorem coerce_number (hv : v.isNumeric = true) :
    (t.coerce (.standard policy) h v).1 = policy.narrow h v t := by
  cases hunbox : t.unbox? v with
  | some e => rw [coerce, classify_eq_exact_iff.mpr hunbox, policy.narrow_of_unbox? h hunbox]
  | none =>
    rw [coerce, classify_of_isNumeric hv hunbox]
    rfl

end ElementType

/-! ### Codes -/

theorem toNat_lt_of_char (c : Char) : c.toNat < 2 ^ 21 := by
  have hvalid : c.toNat < 0xd800 ∨ 0xdfff < c.toNat ∧ c.toNat < 0x110000 := c.valid
  omega

/-- The code of every character is an `Integer`. -/
theorem exists_integer_of_char (c : Char) : ∃ n : Int32, n.toInt = c.toNat := by
  have hc := toNat_lt_of_char c
  exact ⟨Int32.ofNat c.toNat, Int32.toInt_ofNat_of_lt (by omega)⟩

namespace NarrowingPolicy

/-- Words and characters of one code are narrowed alike. -/
theorem narrow_eq_of_code? {v v' : Value} {n : ℤ} (hv : v.code? = some n) (hv' : v'.code? = some n)
    (hword : ∀ m, v ≠ .bigInteger m) (hword' : ∀ m, v' ≠ .bigInteger m) (policy : NarrowingPolicy)
    (h : Heap) (t : ElementType) : policy.narrow h v t = policy.narrow h v' t := by
  obtain ⟨x, hx, hnarrow⟩ := (narrow_of_code? hv).resolve_left (hword n)
  obtain ⟨x', hx', hnarrow'⟩ := (narrow_of_code? hv').resolve_left (hword' n)
  rw [hnarrow, hnarrow', Int64.toInt_inj.mp (hx.trans hx'.symm)]

/-- A `float` has all codes of characters, and so has a `double`. -/
theorem narrow_character_type (policy : NarrowingPolicy) (h : Heap) (c : Char) (f : Format) :
    ∃ y : Binary f, policy.narrow h (.character c) f.type = .ok (f.element y) ∧
      y.reading = .exactly c.toNat := by
  have hc := toNat_lt_of_char c
  have hword : InWidth 64 (c.toNat : ℤ) := ⟨by omega, by omega⟩
  have hchecked := checked_narrowWord_type hword f
  have hnarrow : policy.narrow h (.character c) f.type =
      .ok (f.element (Binary.ofInt f c.toNat)) := by
    cases policy with
    | checked => exact hchecked
    | truncate => exact truncate_narrowWord_of_checked hchecked
  have hreading := Binary.reading_round_whole f false (c := c.toNat) (s := 0)
    (Nat.lt_of_lt_of_le hc (by cases f <;> decide)) (by cases f <;> decide)
  rw [Binary.units, Nat.pow_zero, Nat.mul_one] at hreading
  exact ⟨_, hnarrow, hreading⟩

/-- If an element is the code of a character, the character is narrowed to it, or to its equal. -/
theorem narrow_character_kept (policy : NarrowingPolicy) (h : Heap) {c : Char} {e : Element}
    (he : e.box.number? = some (.exactly c.toNat)) :
    ∃ e', policy.narrow h (.character c) e.type = .ok e' ∧
      e'.box.number? = some (.exactly c.toNat) := by
  rcases Value.number?_cases he with ⟨n, hn, hcode⟩ | ⟨x, hx, -⟩ | ⟨x, hx, -⟩
  · -- the box has the code of the character, and is narrowed to what it holds
    obtain rfl : n = c.toNat := by exact_mod_cast hcode
    refine ⟨e, ?_, he⟩
    rw [← policy.narrow_box h e]
    exact narrow_eq_of_code? rfl hn (fun _ => Value.noConfusion) (by cases e <;> nofun) policy h _
  · obtain ⟨y, hy, hreading⟩ := policy.narrow_character_type h c .single
    have htype : e.type = .float := by cases e <;> cases hx; rfl
    exact ⟨.float y, by rw [htype]; exact hy, congrArg some hreading⟩
  · obtain ⟨y, hy, hreading⟩ := policy.narrow_character_type h c .double
    have htype : e.type = .double := by cases e <;> cases hx; rfl
    exact ⟨.double y, by rw [htype]; exact hy, congrArg some hreading⟩

end NarrowingPolicy

/-- **Texts are stored as codes.**  Let an array hold elements of any type, and let the policy be
either.  The code of a character is an `Integer`, and it makes no difference whether this is the
payload, or the character itself, or a string or a template, however it is made up, that shows just
this character: they all become the same element, or the same fault.  If the type has the code, that
element is the code.  A string or a template that shows nothing, or two characters and more, digits
or not, is refused as a text that is no character. -/
theorem ElementType.texts_are_codes (t : ElementType) (policy : NarrowingPolicy) (h : Heap) :
    (∀ c : Char, ∃ n : Int32, n.toInt = c.toNat ∧
      (∀ v : Value, v.isTextLike = true → v.display h = c.toString →
        (t.coerce (.standard policy) h v).1 =
          (t.coerce (.standard policy) h (.integer n)).1) ∧
      ((∃ e : Element, e.type = t ∧ e.box.number? = some (.exactly c.toNat)) →
        ∃ e : Element, (t.coerce (.standard policy) h (.integer n)).1 = .ok e ∧ e.type = t ∧
          e.box.number? = some (.exactly c.toNat))) ∧
    ∀ v : Value, v.isTextLike = true → (v.display h).length ≠ 1 →
      (t.coerce (.standard policy) h v).1 =
        .error (.uncoercible (quoted (v.display h)) "char") := by
  refine ⟨fun c => ?_, fun v hv hlength => ?_⟩
  · obtain ⟨n, hn⟩ := exists_integer_of_char c
    have hvalue : (Value.integer n).code? = some (c.toNat : ℤ) := congrArg some hn
    have hcode : (t.coerce (.standard policy) h (.integer n)).1 =
        policy.narrow h (.character c) t :=
      (t.coerce_number policy h rfl).trans (NarrowingPolicy.narrow_eq_of_code? hvalue rfl
        (fun _ => Value.noConfusion) (fun _ => Value.noConfusion) policy h t)
    refine ⟨n, hn, fun v hv hdisplay => ?_, ?_⟩
    · rw [hcode, t.coerce_of_display policy h hv, hdisplay,
        NarrowingPolicy.characterOfText_toString]
      rfl
    · rintro ⟨e, rfl, he⟩
      obtain ⟨e', hnarrow, he'⟩ := policy.narrow_character_kept h he
      have htype := CoercionService.typed_standard policy h (.character c) e.type e' hnarrow
      exact ⟨e', hcode.trans hnarrow, htype, he'⟩
  · rw [t.coerce_of_display policy h hv, NarrowingPolicy.characterOfText_of_length_ne hlength]
    rfl

/-! A template in a template that shows one character, whose code `int` has and `short` has not; and
the two digits of a number, in a template too. -/

def pictured : Value := .template ["", ""] [.template ["", "😀"] [.string ""]]

def twoDigits : Value := .template ["6", ""] [.integer 5]

theorem ElementType.texts_are_codes_nested :
    pictured.isTextLike = true ∧ pictured.display .empty = '😀'.toString ∧
    (ElementType.int.coerce (.standard .checked) .empty pictured).1 = .ok (.int 128512) ∧
    (ElementType.short.coerce (.standard .checked) .empty pictured).1 =
      .error (.uncoercible "128512" "short") ∧
    (Element.int 128512).box.number? = some (.exactly '😀'.toNat) ∧
    (∃ e : Element, (ElementType.int.coerce (.standard .truncate) .empty (.integer 128512)).1 =
      .ok e ∧ e.type = .int ∧ e.box.number? = some (.exactly '😀'.toNat)) ∧
    twoDigits.isTextLike = true ∧ (twoDigits.display .empty).length ≠ 1 ∧
    (ElementType.int.coerce (.standard .truncate) .empty twoDigits).1 =
      .error (.uncoercible "\"65\"" "char") := by
  have hdisplay : pictured.display .empty = '😀'.toString := by decide +kernel
  have hlength : (twoDigits.display .empty).length ≠ 1 := by decide +kernel
  have hquoted : quoted (twoDigits.display .empty) = "\"65\"" := by decide +kernel
  have hvalue : (128512 : Int32).toInt = ('😀'.toNat : ℤ) := rfl
  have hcode : (Element.int 128512).box.number? = some (.exactly '😀'.toNat) := by
    rw [← Int.cast_natCast, ← hvalue]
    rfl
  -- there is but one `Integer` that is the code
  have hsame : ∀ n : Int32, n.toInt = '😀'.toNat → n = 128512 := fun n hn => Int32.toInt_inj.mp hn
  obtain ⟨n, hn, hint, -⟩ := (texts_are_codes .int .checked .empty).1 '😀'
  obtain ⟨n', hn', hshort, -⟩ := (texts_are_codes .short .checked .empty).1 '😀'
  obtain ⟨n'', hn'', -, hkept⟩ := (texts_are_codes .int .truncate .empty).1 '😀'
  obtain rfl := hsame n hn
  obtain rfl := hsame n' hn'
  obtain rfl := hsame n'' hn''
  refine ⟨rfl, hdisplay, hint _ rfl hdisplay, (hshort _ rfl hdisplay).trans ?_, hcode,
    hkept ⟨_, rfl, hcode⟩, rfl, hlength, ?_⟩
  · decide +kernel
  · rw [(texts_are_codes .int .truncate .empty).2 twoDigits rfl hlength, hquoted]

end InlineCache
