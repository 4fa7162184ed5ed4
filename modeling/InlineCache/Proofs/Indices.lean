/-
Indices as integers.

An index is an integral value of any width.  It stands for an integer (`Value.whole?`), and that
integer names a slot of a container: counted from the front, or from the end if it is negative
(`Value.Denotes`).

* `Value.logicalIndex_eq`: reading an index off a value fails exactly if the value is not integral,
  and otherwise gives the nearest word;
* `Value.resolve_of_whole?`: that the nearest word may be another integer does not matter, for no
  container is so long that either of the two would name a slot;
* `Value.exists_denotes_iff`: the indices with a slot are those from `-length` up to `length`.
-/
import InlineCache.Assignment
import Mathlib.Algebra.Group.Int.Defs
import Mathlib.Algebra.Group.Nat.Defs

namespace InlineCache

/-! ### Words -/

theorem Word.toInt_saturate (n : Int) :
    (Word.saturate n).toInt = max (-2 ^ 63) (min (2 ^ 63 - 1) n) := by
  have hmin : Int64.minValue.toInt = -2 ^ 63 := by decide
  have hmax : Int64.maxValue.toInt = 2 ^ 63 - 1 := by decide
  rw [saturate, hmin, hmax]
  exact Int64.toInt_ofInt_of_le (by omega) (by omega)

/-- A word is the nearest word to the integer that it is. -/
theorem Word.eq_saturate {x : Int64} {n : Int} (h : x.toInt = n) : x = Word.saturate n := by
  have hlow : -2 ^ 63 ≤ x.toInt := x.le_toInt
  have hhigh : x.toInt < 2 ^ 63 := x.toInt_lt
  refine Int64.toInt_inj.mp ?_
  rw [toInt_saturate]
  omega

/-! ### Slots -/

/-- The slot that an integer names in a container, counted from the end if it is negative. -/
def slotOf (n : Int) (length : Nat) : Nat := (if 0 ≤ n then n else length + n).toNat

/-- Among words, exactly the integers from `-length` up to `length` have a slot. -/
theorem resolveIndex_eq {length : Nat} (hlength : length < 2 ^ 63) (i : Int64) :
    resolveIndex i length =
      if -length ≤ i.toInt ∧ i.toInt < length then .ok (slotOf i.toInt length)
      else .error (.outOfRange i length) := by
  have hsize : (Int64.ofNat length).toInt = length := Int64.toInt_ofNat_of_lt hlength
  have hlow : -2 ^ 63 ≤ i.toInt := i.le_toInt
  have hzero : (0 : Int64).toInt = 0 := rfl
  have hsign : 0 ≤ i ↔ 0 ≤ i.toInt := Int64.le_iff_toInt_le
  rw [resolveIndex, if_pos hlength, slotOf]
  dsimp only
  by_cases hi : 0 ≤ i.toInt
  · rw [if_pos (hsign.mpr hi), if_pos hi]
    simp only [Int64.lt_iff_toInt_lt, Int64.le_iff_toInt_le, hsize, hzero]
    by_cases hrange : i.toInt < length
    · rw [if_neg (by omega), if_pos (by omega)]
      rfl
    · rw [if_pos (by omega), if_neg (by omega)]
  · -- a negative word and a length cannot overflow when they are added
    have hsum : (Int64.ofNat length + i).toInt = length + i.toInt := by
      rw [Int64.toInt_add, hsize]
      exact Int.bmod_eq_of_le (by omega) (by omega)
    rw [if_neg (mt hsign.mp hi), if_neg hi]
    simp only [Int64.lt_iff_toInt_lt, Int64.le_iff_toInt_le, hsize, hzero, hsum]
    by_cases hrange : -(length : Int) ≤ i.toInt
    · rw [if_neg (by omega), if_pos (by omega), ← hsum]
      rfl
    · rw [if_pos (by omega), if_neg (by omega)]

/-- Containers that are too long for words have no slots. -/
theorem length_lt_of_resolveIndex {length i : Nat} {logical : Int64}
    (h : resolveIndex logical length = .ok i) : length < 2 ^ 63 := by
  by_cases hlength : length < 2 ^ 63
  · exact hlength
  · rw [resolveIndex, if_neg hlength] at h
    cases h

theorem lt_of_resolveIndex {length i : Nat} (hlength : length < 2 ^ 63) {logical : Int64}
    (h : resolveIndex logical length = .ok i) : i < length := by
  rw [resolveIndex_eq hlength] at h
  split at h
  · obtain rfl := Except.ok.inj h
    rw [slotOf]
    split <;> omega
  · cases h

namespace Value

/-- The integer that an integral value stands for. -/
def whole? : Value → Option Int
  | byte n => some n.toInt
  | short n => some n.toInt
  | integer n => some n.toInt
  | long n => some n.toInt
  | bigInteger n => some n
  | _ => none

theorem isSome_whole? (v : Value) : v.whole?.isSome = v.isIntegral := by
  cases v <;> rfl

theorem logicalIndex_eq (v : Value) :
    v.logicalIndex = match v.whole? with
      | some n => .ok (Word.saturate n)
      | none => .error (.typeMismatch "Integer" v.typeName) := by
  cases v with
  | byte n => exact congrArg Except.ok (Word.eq_saturate (Int8.toInt_toInt64 n))
  | short n => exact congrArg Except.ok (Word.eq_saturate (Int16.toInt_toInt64 n))
  | integer n => exact congrArg Except.ok (Word.eq_saturate (Int32.toInt_toInt64 n))
  | long n => exact congrArg Except.ok (Word.eq_saturate rfl)
  | _ => rfl

/-- The slot of an index is that of the integer it stands for, however large that is. -/
theorem resolve_of_whole? {length : Nat} (hlength : length < 2 ^ 63) (n : Int) :
    resolveIndex (Word.saturate n) length =
      if -length ≤ n ∧ n < length then .ok (slotOf n length)
      else .error (.outOfRange (Word.saturate n) length) := by
  rw [resolveIndex_eq hlength, Word.toInt_saturate]
  by_cases hrange : -length ≤ n ∧ n < length
  · have hsame : max (-2 ^ 63) (min (2 ^ 63 - 1) n) = n := by omega
    rw [hsame]
  · rw [if_neg hrange, if_neg (by omega)]

/-- The slot that an index names in a container, if it names one. -/
def slot? (index : Value) (length : Nat) : Option Nat :=
  index.whole?.bind fun n =>
    if -length ≤ n ∧ n < length then some (slotOf n length) else none

theorem slot?_eq {index : Value} {length : Nat} (hlength : length < 2 ^ 63) {logical : Int64}
    (hlogical : index.logicalIndex = .ok logical) :
    index.slot? length = (resolveIndex logical length).toOption := by
  rw [logicalIndex_eq] at hlogical
  cases hn : index.whole? with
  | none =>
    rw [hn] at hlogical
    cases hlogical
  | some n =>
    rw [hn] at hlogical
    obtain rfl : Word.saturate n = logical := Except.ok.inj hlogical
    rw [slot?, hn, Option.bind_some, resolve_of_whole? hlength]
    split <;> rfl

/-- The index names slot `i` of a container: it is `i`, or `i` counted from the end. -/
def Denotes (index : Value) (length i : Nat) : Prop :=
  i < length ∧ (index.whole? = some (i : Int) ∨ index.whole? = some ((i : Int) - length))

theorem exists_denotes_iff (index : Value) (length : Nat) :
    (∃ i, index.Denotes length i) ↔ ∃ n, index.whole? = some n ∧ -length ≤ n ∧ n < length := by
  constructor
  · rintro ⟨i, hi, hfront | hback⟩
    · exact ⟨i, hfront, by omega, by omega⟩
    · exact ⟨i - length, hback, by omega, by omega⟩
  · rintro ⟨n, hn, hlow, hhigh⟩
    by_cases hsign : 0 ≤ n
    · refine ⟨n.toNat, by omega, Or.inl ?_⟩
      rw [hn, Int.toNat_of_nonneg hsign]
    · refine ⟨(length + n).toNat, by omega, Or.inr ?_⟩
      rw [hn, Int.toNat_of_nonneg (by omega)]
      congr 1
      omega

theorem Denotes.resolve {index : Value} {length i : Nat} (h : index.Denotes length i)
    (hlength : length < 2 ^ 63) :
    ∃ logical, index.logicalIndex = .ok logical ∧ resolveIndex logical length = .ok i := by
  obtain ⟨hi, hfront | hback⟩ := h
  · refine ⟨Word.saturate i, by rw [logicalIndex_eq, hfront], ?_⟩
    rw [resolve_of_whole? hlength, if_pos (by omega), slotOf, if_pos (by omega), Int.toNat_natCast]
  · refine ⟨Word.saturate (i - length), by rw [logicalIndex_eq, hback], ?_⟩
    rw [resolve_of_whole? hlength, if_pos (by omega), slotOf, if_neg (by omega)]
    congr 1
    omega

end Value

end InlineCache
