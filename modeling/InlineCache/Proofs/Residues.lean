/-
Integers narrow modulo a power of two.

An integer of any size is known by its bytes (`Word.byteAt`), which go on for ever: past the end of
the shortest encoding they only repeat the sign.  So it makes no difference where an encoding is
cut off or how far it is extended, and the low bits of an integer are its residue.

* `Word.lowBits_eq`: the low bits are the integer modulo `2 ^ 64`;
* `Element.isResidue_iff`: an integer type has one element in each residue class, and that is the
  element made of the low bits;
* `NarrowingPolicy.narrow_code`: truncation gives the element of the residue class, whatever the
  integer is boxed in, and the checked policy takes exactly the integers that are elements.
-/
import InlineCache.Proofs.CoercionFaults

namespace InlineCache

/-! ### The low bits of an integer -/

namespace Word

/-- The byte of an integer at a position of its two's complement encoding. -/
def byteAt (n : Int) (i : Nat) : UInt8 := UInt8.ofNat (n / 256 ^ i % 256).toNat

/-- The magnitude whose bits an encoding has to hold fits into as many bytes. -/
theorem lt_of_byteCount_le {n : Int} {i : Nat} (hi : byteCount n ≤ i) :
    (if n < 0 then -n - 1 else n) < 256 ^ i := by
  have hbits : bitLength (if n < 0 then -n - 1 else n).toNat ≤ 8 * i := by
    rw [byteCount] at hi
    omega
  have hlt : (if n < 0 then -n - 1 else n).toNat < 256 ^ i := by
    have hlt := bitLength_le_iff.mp hbits
    rwa [Nat.pow_mul] at hlt
  have hcast : ((256 ^ i : Nat) : Int) = 256 ^ i := Int.natCast_pow 256 i
  split at hlt <;> split <;> omega

/-- Past the end of the shortest encoding there are bytes of the sign only. -/
theorem byteAt_of_byteCount_le {n : Int} {i : Nat} (hi : byteCount n ≤ i) :
    byteAt n i = if n < 0 then 0xff else 0 := by
  have hlt := lt_of_byteCount_le hi
  have hpos : (0 : Int) < 256 ^ i := Int.pow_pos (by decide)
  rw [byteAt]
  by_cases hn : n < 0
  · rw [if_pos hn] at hlt ⊢
    have hquotient : n / 256 ^ i = -1 :=
      ((Int.ediv_emod_unique hpos).mpr ⟨by omega, by omega, by omega⟩ :
        _ ∧ n % 256 ^ i = n + 256 ^ i).1
    rw [hquotient]
    rfl
  · rw [if_neg hn] at hlt ⊢
    rw [Int.ediv_eq_zero_of_lt (by omega) hlt]
    rfl

/-- An encoding brought to eight bytes has the first eight bytes of the integer. -/
theorem resize_encode (n : Int) : resize (n < 0) (encode n) = (List.range 8).map (byteAt n) := by
  have hencode : encode n = (List.range (byteCount n)).map (byteAt n) := rfl
  rw [resize, hencode]
  refine List.ext_getElem? fun i => ?_
  rw [List.getElem?_take, List.getElem?_map]
  by_cases hi : i < 8
  · rw [if_pos hi, List.getElem?_range hi, Option.map_some]
    by_cases hcount : i < byteCount n
    · rw [List.getElem?_append_left (by simpa using hcount), List.getElem?_map,
        List.getElem?_range hcount, Option.map_some]
    · rw [List.getElem?_append_right (by simpa using hcount), List.getElem?_replicate,
        if_pos (by omega), byteAt_of_byteCount_le (by omega)]
      simp
  · rw [if_neg hi, List.getElem?_eq_none (by simpa using hi)]
    rfl

theorem toNat_byteAt (n : Int) (i : Nat) : ((byteAt n i).toNat : Int) = n / 256 ^ i % 256 := by
  rw [byteAt, UInt8.toNat_ofNat']
  omega

/-- The first bytes of an integer stand for its residue. -/
theorem decode_map_byteAt (n : Int) (k : Nat) :
    (decode ((List.range k).map (byteAt n)) : Int) = n % 256 ^ k := by
  induction k generalizing n with
  | zero =>
    rw [Int.pow_zero, Int.emod_one]
    rfl
  | succ k ih =>
    have hshift : byteAt n ∘ Nat.succ = byteAt (n / 256) := by
      funext i
      rw [Function.comp_apply, byteAt, byteAt, Int.pow_succ', Int.ediv_ediv_of_nonneg (by decide)]
    have hcut : n % 256 ^ (k + 1) = n % 256 + 256 * (n / 256 % 256 ^ k) := by
      rw [Int.pow_succ', Int.emod_def, Int.emod_def n, Int.emod_def (n / 256),
        Int.ediv_ediv_of_nonneg (by decide), Int.mul_sub, Int.mul_assoc]
      omega
    rw [List.range_succ_eq_map, List.map_cons, List.map_map, hshift, decode, Int.natCast_add,
      Int.natCast_mul, ih, toNat_byteAt, hcut, Int.pow_zero, Int.ediv_one]
    rfl

/-- The low bits of an integer are its residue modulo `2 ^ 64`. -/
theorem lowBits_eq (n : Int) : lowBits n = Int64.ofInt n := by
  have hdecode : (decode (resize (n < 0) (encode n)) : Int) = n % (2 ^ 64 : Nat) := by
    rw [resize_encode, decode_map_byteAt]
    rfl
  refine Int64.toInt_inj.mp ?_
  rw [lowBits, Int64.toInt_ofNat', hdecode, Int64.toInt_ofInt]
  exact Int.emod_bmod n _

end Word

/-! ### Elements of integer types -/

/-- The integers of a signed width. -/
def InWidth (w : Nat) (n : Int) : Prop := -2 ^ (w - 1) ≤ n ∧ n < 2 ^ (w - 1)

namespace InWidth

instance (w : Nat) (n : Int) : Decidable (InWidth w n) := by unfold InWidth; infer_instance

variable {w : Nat} {n : Int}

theorem natCast_two_pow (hw : 0 < w) : ((2 ^ w : Nat) : Int) = 2 * 2 ^ (w - 1) := by
  obtain ⟨k, rfl⟩ := Nat.exists_eq_add_of_lt hw
  rw [Int.natCast_pow, Nat.zero_add, Nat.add_sub_cancel, Int.pow_succ']
  rfl

/-- In every residue class there is an integer of the width. -/
theorem bmod (hw : 0 < w) (n : Int) : InWidth w (n.bmod (2 ^ w)) := by
  have hlow := Int.le_bmod (x := n) (Nat.two_pow_pos w)
  have hhigh := Int.bmod_lt (x := n) (Nat.two_pow_pos w)
  rw [natCast_two_pow hw] at hlow hhigh
  exact ⟨by omega, by omega⟩

theorem bmod_eq (hw : 0 < w) (hn : InWidth w n) : n.bmod (2 ^ w) = n := by
  obtain ⟨hlow, hhigh⟩ := hn
  refine Int.bmod_eq_of_le ?_ ?_
  · rw [natCast_two_pow hw]
    omega
  · rw [natCast_two_pow hw]
    omega

theorem mono {w' : Nat} (hw : w ≤ w') (hn : InWidth w n) : InWidth w' n := by
  have hpow : (2 : Int) ^ (w - 1) ≤ 2 ^ (w' - 1) := by
    have h := Nat.pow_le_pow_right (n := 2) (by decide) (by omega : w - 1 ≤ w' - 1)
    exact_mod_cast h
  obtain ⟨hlow, hhigh⟩ := hn
  exact ⟨by omega, by omega⟩

/-- An integer of 64 bits is the value of a word. -/
theorem toInt_ofInt (hn : InWidth 64 n) : (Int64.ofInt n).toInt = n := by
  rw [Int64.toInt_ofInt]
  exact hn.bmod_eq (by decide)

theorem fits_iff (n : Int) : Word.fits n = true ↔ InWidth 64 n := by
  have hmin : Int64.minValue.toInt = -2 ^ 63 := by decide
  have hmax : Int64.maxValue.toInt = 2 ^ 63 - 1 := by decide
  rw [Word.fits, Bool.and_eq_true, decide_eq_true_iff, decide_eq_true_iff, hmin, hmax, InWidth]
  omega

end InWidth

namespace ElementType

variable {t : ElementType} {w : Nat}

/-- The width of an integer type in bits. -/
def width? : ElementType → Option Nat
  | .byte => some 8
  | .short => some 16
  | .int => some 32
  | .long => some 64
  | .float | .double => none

theorem width?_bounds (hw : t.width? = some w) : 0 < w ∧ w ≤ 64 := by
  cases t <;> simp [width?] at hw <;> omega

/-- An integer type admits the integers of its width. -/
theorem admits_iff (hw : t.width? = some w) (x : Int64) :
    t.admits x = true ↔ InWidth w x.toInt := by
  have hword : InWidth 64 x.toInt := ⟨x.le_toInt, x.toInt_lt⟩
  cases t with
  | byte =>
    obtain rfl := Option.some.inj hw
    have hmin : Int8.minValue.toInt = -2 ^ 7 := by decide
    have hmax : Int8.maxValue.toInt = 2 ^ 7 - 1 := by decide
    simp only [admits, hmin, hmax, Bool.and_eq_true, decide_eq_true_iff, InWidth]
    omega
  | short =>
    obtain rfl := Option.some.inj hw
    have hmin : Int16.minValue.toInt = -2 ^ 15 := by decide
    have hmax : Int16.maxValue.toInt = 2 ^ 15 - 1 := by decide
    simp only [admits, hmin, hmax, Bool.and_eq_true, decide_eq_true_iff, InWidth]
    omega
  | int =>
    obtain rfl := Option.some.inj hw
    have hmin : Int32.minValue.toInt = -2 ^ 31 := by decide
    have hmax : Int32.maxValue.toInt = 2 ^ 31 - 1 := by decide
    simp only [admits, hmin, hmax, Bool.and_eq_true, decide_eq_true_iff, InWidth]
    omega
  | long =>
    obtain rfl := Option.some.inj hw
    simp only [admits, hword]
  | float | double => cases hw

end ElementType

namespace Element

/-- The integer that an element of an integer type is. -/
def whole? (e : Element) : Option Int := e.box.whole?

/-- The element of an integer type, given by its width, that lies in the residue class of an
integer. -/
def IsResidue (t : ElementType) (w : Nat) (n : Int) (e : Element) : Prop :=
  e.type = t ∧ ∃ m, e.whole? = some m ∧ InWidth w m ∧ (2 : Int) ^ w ∣ m - n

variable {t : ElementType} {w : Nat}

/-- The elements of a type are told apart by the integers that they are. -/
theorem eq_of_whole? {e e' : Element} {m : Int} (htype : e.type = e'.type)
    (he : e.whole? = some m) (he' : e'.whole? = some m) : e = e' := by
  have hword := he.trans he'.symm
  cases e with
  | byte x =>
    cases e' with
    | byte y => exact congrArg byte (Int8.toInt_inj.mp (Option.some.inj hword))
    | _ => cases htype
  | short x =>
    cases e' with
    | short y => exact congrArg short (Int16.toInt_inj.mp (Option.some.inj hword))
    | _ => cases htype
  | int x =>
    cases e' with
    | int y => exact congrArg int (Int32.toInt_inj.mp (Option.some.inj hword))
    | _ => cases htype
  | long x =>
    cases e' with
    | long y => exact congrArg long (Int64.toInt_inj.mp (Option.some.inj hword))
    | _ => cases htype
  | float x => cases he
  | double x => cases he

/-- The low bits of a word are an element of the width. -/
theorem whole?_ofWord (hw : t.width? = some w) (x : Int64) :
    (ofWord x t).whole? = some (x.toInt.bmod (2 ^ w)) := by
  cases t with
  | byte =>
    obtain rfl := Option.some.inj hw
    exact congrArg some x.toInt_toInt8
  | short =>
    obtain rfl := Option.some.inj hw
    exact congrArg some x.toInt_toInt16
  | int =>
    obtain rfl := Option.some.inj hw
    exact congrArg some x.toInt_toInt32
  | long =>
    obtain rfl := Option.some.inj hw
    exact congrArg some (InWidth.bmod_eq (by decide) ⟨x.le_toInt, x.toInt_lt⟩).symm
  | float | double => cases hw

/-- The low bits of an integer, cut to an integer type, are the integer modulo the power of two. -/
theorem whole?_ofWord_ofInt (hw : t.width? = some w) (n : Int) :
    (ofWord (Int64.ofInt n) t).whole? = some (n.bmod (2 ^ w)) := by
  have hdvd : 2 ^ w ∣ Int64.size := Nat.pow_dvd_pow 2 (ElementType.width?_bounds hw).2
  rw [whole?_ofWord hw, Int64.toInt_ofInt, Int.bmod_bmod_of_dvd hdvd]

/-- An integer type has one element in each residue class. -/
theorem isResidue_iff (hw : t.width? = some w) (n : Int) (e : Element) :
    e.IsResidue t w n ↔ e = ofWord (Int64.ofInt n) t := by
  have hpos := (ElementType.width?_bounds hw).1
  have hpow : ((2 ^ w : Nat) : Int) = 2 ^ w := Int.natCast_pow 2 w
  constructor
  · rintro ⟨htype, m, hm, hrange, hdvd⟩
    have hsame : m = n.bmod (2 ^ w) := by
      rw [← hpow, Int.dvd_iff_bmod_eq_zero, ← Int.bmod_eq_bmod_iff_bmod_sub_eq_zero] at hdvd
      rw [← hdvd, hrange.bmod_eq hpos]
    subst hsame
    exact eq_of_whole? (htype.trans (type_ofWord _ t).symm) hm (whole?_ofWord_ofInt hw n)
  · rintro rfl
    refine ⟨type_ofWord _ t, _, whole?_ofWord_ofInt hw n, .bmod hpos n, ?_⟩
    rw [← hpow]
    exact Int.dvd_bmod_sub_self

end Element

/-! ### Narrowing integers -/

/-- The integer that an integral value or a character stands for. -/
def Value.code? : Value → Option Int
  | .character c => some c.toNat
  | v => v.whole?

namespace NarrowingPolicy

variable {v : Value} {n : Int} {t : ElementType} {w : Nat}

/-- Only integers of any size are narrowed otherwise than as words. -/
theorem narrow_of_code? (hv : v.code? = some n) :
    v = .bigInteger n ∨ ∃ x : Int64, x.toInt = n ∧
      ∀ (policy : NarrowingPolicy) h t, policy.narrow h v t = policy.narrowWord x t := by
  cases v with
  | byte x =>
    exact Or.inr ⟨x.toInt64, x.toInt_toInt64.trans (Option.some.inj hv), fun _ _ _ => rfl⟩
  | short x =>
    exact Or.inr ⟨x.toInt64, x.toInt_toInt64.trans (Option.some.inj hv), fun _ _ _ => rfl⟩
  | integer x =>
    exact Or.inr ⟨x.toInt64, x.toInt_toInt64.trans (Option.some.inj hv), fun _ _ _ => rfl⟩
  | long x => exact Or.inr ⟨x, Option.some.inj hv, fun _ _ _ => rfl⟩
  | bigInteger m => exact Or.inl (congrArg Value.bigInteger (Option.some.inj hv))
  | character c =>
    refine Or.inr ⟨Int64.ofNat c.toNat, ?_, fun _ _ _ => rfl⟩
    have hc : c.toNat < UInt32.size := c.val.toNat_lt
    have hsize : UInt32.size = 2 ^ 32 := rfl
    rw [Int64.toInt_ofNat_of_lt (by omega)]
    exact Option.some.inj hv
  | null | boolean | float | double | string | template | array => cases hv

/-- Truncation keeps the low bits. -/
theorem truncate_narrow (hv : v.code? = some n) (hw : t.width? = some w) (h : Heap) :
    truncate.narrow h v t = .ok (Element.ofWord (Int64.ofInt n) t) := by
  rcases narrow_of_code? hv with rfl | ⟨x, rfl, hnarrow⟩
  · have hlow : truncate.narrowInt n t = truncate.narrowWord (Word.lowBits n) t := by
      cases t with
      | byte | short | int | long => rfl
      | float | double => cases hw
    rw [narrow, hlow, Word.lowBits_eq]
    rfl
  · rw [hnarrow, Int64.ofInt_toInt]
    rfl

theorem checked_narrowWord (hw : t.width? = some w) (x : Int64) :
    checked.narrowWord x t =
      if InWidth w x.toInt then .ok (Element.ofWord x t)
      else .error (.uncoercible (toString x) t.name) := by
  rw [narrowWord]
  simp only [ElementType.admits_iff hw]

theorem checked_narrowInt (hw : t.width? = some w) (n : Int) :
    checked.narrowInt n t =
      if InWidth 64 n then checked.narrowWord (Int64.ofInt n) t
      else .error (.uncoercible (toString n) t.name) := by
  simp only [← InWidth.fits_iff]
  cases t with
  | byte | short | int | long => rfl
  | float | double => cases hw

/-- The checked policy keeps the integers of the width. -/
theorem checked_narrow (hv : v.code? = some n) (hw : t.width? = some w) (hn : InWidth w n)
    (h : Heap) : checked.narrow h v t = .ok (Element.ofWord (Int64.ofInt n) t) := by
  have hword : InWidth 64 n := hn.mono (ElementType.width?_bounds hw).2
  rcases narrow_of_code? hv with rfl | ⟨x, rfl, hnarrow⟩
  · rw [narrow, checked_narrowInt hw, if_pos hword, checked_narrowWord hw, hword.toInt_ofInt,
      if_pos hn]
  · rw [hnarrow, checked_narrowWord hw, if_pos hn, Int64.ofInt_toInt]

/-- It refuses all others. -/
theorem checked_narrow_of_not_inWidth (hv : v.code? = some n) (hw : t.width? = some w)
    (hn : ¬ InWidth w n) (h : Heap) :
    ∃ f, checked.narrow h v t = .error f ∧ f.IsUncoercible := by
  rcases narrow_of_code? hv with rfl | ⟨x, rfl, hnarrow⟩
  · rw [narrow, checked_narrowInt hw]
    by_cases hword : InWidth 64 n
    · rw [if_pos hword, checked_narrowWord hw, hword.toInt_ofInt, if_neg hn]
      exact ⟨_, rfl, _, _, rfl⟩
    · rw [if_neg hword]
      exact ⟨_, rfl, _, _, rfl⟩
  · rw [hnarrow, checked_narrowWord hw, if_neg hn]
    exact ⟨_, rfl, _, _, rfl⟩

/-- Narrowing an integral value or a character, of value `n`, to the integer type of `w` bits.
Truncation succeeds with the one element that is congruent to `n` modulo `2 ^ w`.  The checked
policy succeeds exactly if `n` is an integer of `w` bits, and then with the element `n`. -/
theorem narrow_code (hv : v.code? = some n) (hw : t.width? = some w) (h : Heap) :
    (∃ e, truncate.narrow h v t = .ok e ∧ ∀ e', e'.IsResidue t w n ↔ e' = e) ∧
    (InWidth w n → ∃ e, checked.narrow h v t = .ok e ∧ e.type = t ∧ e.whole? = some n) ∧
    (¬ InWidth w n → ∃ f, checked.narrow h v t = .error f ∧ f.IsUncoercible) := by
  refine ⟨⟨_, truncate_narrow hv hw h, Element.isResidue_iff hw n⟩, fun hn => ?_,
    fun hn => checked_narrow_of_not_inWidth hv hw hn h⟩
  refine ⟨_, checked_narrow hv hw hn h, Element.type_ofWord _ t, ?_⟩
  rw [Element.whole?_ofWord_ofInt hw, hn.bmod_eq (ElementType.width?_bounds hw).1]

/-! An integer with an encoding of nine bytes, the last of them the sign only. -/

theorem narrow_code_nineBytes :
    let n : Int := -2 ^ 64 + 2 ^ 15
    (Word.encode n).length = 9 ∧ (Value.bigInteger n).code? = some n ∧
    ElementType.short.width? = some 16 ∧ ¬ InWidth 16 n ∧
    truncate.narrow .empty (.bigInteger n) .short = .ok (.short Int16.minValue) ∧
    ∃ f, checked.narrow .empty (.bigInteger n) .short = .error f ∧ f.IsUncoercible := by
  intro n
  have hn : ¬ InWidth 16 n := by decide
  obtain ⟨⟨e, hnarrow, hunique⟩, -, hrefuse⟩ :=
    narrow_code (v := .bigInteger n) (t := .short) rfl rfl .empty
  have he : Element.short Int16.minValue = e :=
    (hunique _).mp ⟨rfl, -2 ^ 15, rfl, by decide, 2 ^ 48 - 1, by decide⟩
  subst he
  exact ⟨by decide, rfl, rfl, hn, hnarrow, hrefuse hn⟩

end NarrowingPolicy

end InlineCache
