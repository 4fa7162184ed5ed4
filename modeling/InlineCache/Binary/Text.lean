/-
The decimal text of floating-point numbers.

Two layouts of the shortest digits are in use.  `Layout.plain` always writes the point where it
belongs, however many zeros that takes, and no fraction on whole numbers; `Layout.inspected` marks
every number as a fraction and moves to scientific notation outside a range of magnitudes.
-/
import InlineCache.Binary.Shortest

namespace InlineCache

/-- How digits are laid out. -/
structure Layout where
  /-- The decimal exponents of the leading digit that are written positionally; all if none. -/
  positional : Option (Int × Int)
  /-- What follows a positional number without a fraction. -/
  wholeSuffix : String

namespace Layout

/-- Positional throughout, whole numbers without a fraction. -/
def plain : Layout := ⟨none, ""⟩

/-- Positional from a ten-thousandth to below ten to the sixteenth, whole numbers with `.0`. -/
def inspected : Layout := ⟨some (-4, 15), ".0"⟩

/-- Digits with the point where it belongs. -/
def writePositional (l : Layout) (d : Decimal) : String :=
  let digits := Nat.toDigits 10 d.digits
  let point : Int := digits.length + d.exponent
  if 0 ≤ d.exponent then
    String.ofList (digits ++ List.replicate d.exponent.toNat '0') ++ l.wholeSuffix
  else if 0 < point then
    String.ofList (digits.take point.toNat ++ '.' :: digits.drop point.toNat)
  else
    String.ofList ('0' :: '.' :: List.replicate (-point).toNat '0' ++ digits)

/-- One digit before the point, the others behind it, then the exponent of the leading digit. -/
def writeScientific (d : Decimal) : String :=
  let digits := Nat.toDigits 10 d.digits
  let fraction := digits.drop 1
  String.ofList (digits.take 1 ++ (if fraction.isEmpty then [] else '.' :: fraction)) ++ "e" ++
    toString (digits.length - 1 + d.exponent)

/-- The text of a positive decimal. -/
def write (l : Layout) (d : Decimal) : String :=
  let leading : Int := (Nat.toDigits 10 d.digits).length - 1 + d.exponent
  match l.positional with
  | none => l.writePositional d
  | some (least, greatest) =>
    if least ≤ leading ∧ leading ≤ greatest then l.writePositional d else writeScientific d

end Layout

namespace Binary

variable {f : Format}

/-- The text of a number.  A zero is a whole number of one digit; a negative sign is written on
zero and infinity too. -/
def text (l : Layout) : Binary f → String
  | .nan => "NaN"
  | .infinite negative => (if negative then "-" else "") ++ "inf"
  | .finite negative m k _ =>
    (if negative then "-" else "") ++
      if m = 0 then l.writePositional ⟨0, 0⟩
      else l.write (RoundingInterval.ofFinite f m k).shortest

/-- One tenth, in either format. -/
example : (ofBits .double 0x3fb999999999999a).text .plain = "0.1" := by decide +kernel

example : (ofBits .single 0x3dcccccd).text .plain = "0.1" := by decide +kernel

/-- The bounds of the positional range. -/
example : (ofBits .double 0x4341c37937e08000).text .inspected = "1e16" := by decide +kernel

example : (ofBits .double 0x430c6bf526340000).text .inspected = "1000000000000000.0" := by
  decide +kernel

example : (ofBits .double 0x3f1a36e2eb1c432d).text .inspected = "0.0001" := by decide +kernel

/-- A number exactly between two decimals of equal length takes the upper one. -/
example : (ofBits .double 0x430a32bbbfdd9d12).text .plain = "921766419215266.3" := by
  decide +kernel

end Binary

end InlineCache
