/-
Rounding integers of any size through their leading word.

An integer of more than 64 bits is first cut to the word of its leading 64 bits, whose last bit is
also set when a trailing bit is seen below it.  Not every bit below is looked at: the magnitude
stands in limbs of 64 bits, and of each limb under the top one only the low bits are seen, as many
as the top limb has.  The word is then rounded to the nearest number, a tie to the even one.

* `leadingWord_of_bitLength_le`: a magnitude of at most 64 bits is its own leading word;
* `mod_ne_zero_of_trailingBitSeen`: a trailing bit that is seen does lie below the leading 64 bits;
* `Binary.ofLargeInt_of_bitLength_le`: up to 64 bits the result is the nearest number to the
  integer itself.
-/
import InlineCache.Binary.Rounding

namespace InlineCache

-- `2 ^ n` is the power of core also beside an import that has another
attribute [local instance (2000)] instPowNat

/-- The number of bits in the top limb of a positive magnitude, from 1 to 64. -/
def topLimbBits (n : Nat) : Nat := (bitLength n - 1) % 64 + 1

/-- Whether a bit is set among the low `topLimbBits n` bits of a limb under the top one. -/
def trailingBitSeen (n : Nat) : Bool :=
  (List.range ((bitLength n - 1) / 64)).any fun i => n / 2 ^ (64 * i) % 2 ^ topLimbBits n != 0

/-- The leading 64 bits of a magnitude, the last one also set by a trailing bit. -/
def leadingWord (n : Nat) : Nat := n / 2 ^ (bitLength n - 64) ||| (trailingBitSeen n).toNat

theorem leadingWord_of_bitLength_le {n : Nat} (h : bitLength n ≤ 64) : leadingWord n = n := by
  have hcut : bitLength n - 64 = 0 := by omega
  have hlimbs : (bitLength n - 1) / 64 = 0 := by omega
  simp [leadingWord, trailingBitSeen, hcut, hlimbs]

/-- A trailing bit that is seen lies below the leading 64 bits, so an integer with zeros there
keeps its exact value. -/
theorem mod_ne_zero_of_trailingBitSeen {n : Nat} (h : trailingBitSeen n = true) :
    n % 2 ^ (bitLength n - 64) ≠ 0 := by
  obtain ⟨i, hi, hbits⟩ := List.any_eq_true.1 h
  have hi : i < (bitLength n - 1) / 64 := List.mem_range.1 hi
  have hbits : n / 2 ^ (64 * i) % 2 ^ topLimbBits n ≠ 0 := by simpa using hbits
  have hdvd : 2 ^ (64 * i) * 2 ^ topLimbBits n ∣ 2 ^ (bitLength n - 64) := by
    rw [← Nat.pow_add]
    exact Nat.pow_dvd_pow 2 (by unfold topLimbBits; omega)
  intro hzero
  obtain ⟨q, hq⟩ := Nat.dvd_trans hdvd (Nat.dvd_of_mod_eq_zero hzero)
  have hrest : n / 2 ^ (64 * i) = 2 ^ topLimbBits n * q :=
    Nat.div_eq_of_eq_mul_right (Nat.two_pow_pos _) (by rw [← Nat.mul_assoc, ← hq])
  exact hbits (by rw [hrest, Nat.mul_mod_right])

namespace Binary

/-- The number nearest to the leading word of an integer, in its place. -/
def ofLargeInt (f : Format) (n : Int) : Binary f :=
  round f (n < 0) (leadingWord n.natAbs) (bitLength n.natAbs - 64 : Nat)

theorem ofLargeInt_of_bitLength_le (f : Format) {n : Int} (h : bitLength n.natAbs ≤ 64) :
    ofLargeInt f n = ofInt f n := by
  have hcut : bitLength n.natAbs - 64 = 0 := by omega
  simp [ofLargeInt, ofInt, leadingWord_of_bitLength_le h, hcut]

/-- Half a unit above `2 ^ 129` and a bit more rounds up, if the bit is low enough to be seen. -/
example : (ofLargeInt .double (2 ^ 129 + 2 ^ 76 + 2)).toBits = 0x4800000000000001 := by
  decide +kernel

example : (ofLargeInt .double (2 ^ 129 + 2 ^ 76 + 2 ^ 17)).toBits = 0x4800000000000000 := by
  decide +kernel

end Binary

end InlineCache
