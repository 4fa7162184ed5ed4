/-
Integers as signed words of 64 bits.

An integer of any size becomes a word in one of three ways: exactly, if it fits; saturating at the
least and the greatest word; or by its low bits, read off its two's complement encoding.
-/
import InlineCache.Binary.Rounding

namespace InlineCache

-- `2 ^ n` is the power of core also beside an import that has another
attribute [local instance (2000)] instPowNat

namespace Word

/-- Whether an integer is the value of a word. -/
def fits (n : Int) : Bool := Int64.minValue.toInt ≤ n && n ≤ Int64.maxValue.toInt

/-- The word nearest to an integer. -/
def saturate (n : Int) : Int64 :=
  Int64.ofInt (max Int64.minValue.toInt (min Int64.maxValue.toInt n))

/-- The number of bytes in the shortest two's complement encoding: the significant bits and one
for the sign. -/
def byteCount (n : Int) : Nat := bitLength (if n < 0 then -n - 1 else n).toNat / 8 + 1

/-- The shortest two's complement encoding, least significant byte first. -/
def encode (n : Int) : List UInt8 :=
  (List.range (byteCount n)).map fun i => UInt8.ofNat (n / 256 ^ i % 256).toNat

/-- An encoding brought to eight bytes: cut off, or extended by bytes of the sign. -/
def resize (negative : Bool) (bytes : List UInt8) : List UInt8 :=
  (bytes ++ List.replicate 8 (if negative then 0xff else 0)).take 8

/-- The number that bytes stand for, least significant byte first. -/
def decode : List UInt8 → Nat
  | [] => 0
  | byte :: bytes => byte.toNat + 256 * decode bytes

/-- The low 64 bits of an integer. -/
def lowBits (n : Int) : Int64 := Int64.ofNat (decode (resize (n < 0) (encode n)))

end Word

end InlineCache
