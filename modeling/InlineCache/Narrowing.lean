/-
Narrowing numbers to an element type.

Under `truncate` every number has a counterpart: integers keep their low bits, floating-point
numbers go through the nearest word of 32 bits (of 64 bits for `long`) toward zero.  Under
`checked` an integer target takes only integers in its range, and `float` no finite `double` that
would become infinite.  Under both, words and floating-point numbers round to the nearest
floating-point target, and integers of any size to the `double` nearest to their leading word
first.
-/
import InlineCache.Binary.LeadingWord
import InlineCache.Binary.Text
import InlineCache.Element
import InlineCache.Fault
import InlineCache.Word

namespace InlineCache

/-- What happens to numbers that do not fit. -/
inductive NarrowingPolicy
  | truncate
  | checked
  deriving DecidableEq, Repr

/-- Whether an integer is in the range of an element type.  The floating-point types take every
word, rounded. -/
def ElementType.admits (n : Int64) : ElementType → Bool
  | .byte => Int8.minValue.toInt ≤ n.toInt && n.toInt ≤ Int8.maxValue.toInt
  | .short => Int16.minValue.toInt ≤ n.toInt && n.toInt ≤ Int16.maxValue.toInt
  | .int => Int32.minValue.toInt ≤ n.toInt && n.toInt ≤ Int32.maxValue.toInt
  | .long | .float | .double => true

/-- The low bits of a word, or its nearest floating-point number. -/
def Element.ofWord (n : Int64) : ElementType → Element
  | .byte => .byte n.toInt8
  | .short => .short n.toInt16
  | .int => .int n.toInt32
  | .long => .long n
  | .float => .float (Binary.ofInt .single n.toInt)
  | .double => .double (Binary.ofInt .double n.toInt)

namespace NarrowingPolicy

/-- Narrows a word. -/
def narrowWord (policy : NarrowingPolicy) (n : Int64) (target : ElementType) :
    Except Fault Element :=
  match policy with
  | truncate => .ok (Element.ofWord n target)
  | checked =>
    if target.admits n then .ok (Element.ofWord n target)
    else .error (.uncoercible (toString n) target.name)

/-- `2 ^ 63` to sixteen decimal digits.  The `double` nearest to it is the first past the words. -/
def pastWord : Int := 9223372036854776000

/-- Narrows a floating-point number. -/
def narrowDouble (policy : NarrowingPolicy) (x : Binary .double) (target : ElementType) :
    Except Fault Element :=
  let refusal : Except Fault Element := .error (.uncoercible (x.text .plain) target.name)
  match target, policy with
  | .double, _ => .ok (.double x)
  | .float, truncate => .ok (.float (x.convert .single))
  | .float, checked =>
    let y := x.convert .single
    if x.isFinite && !y.isFinite then refusal else .ok (.float y)
  | .long, truncate =>
    .ok (.long (Int64.ofInt (x.clamped Int64.minValue.toInt Int64.maxValue.toInt)))
  | _, truncate =>
    narrowWord truncate (Int64.ofInt (x.clamped Int32.minValue.toInt Int32.maxValue.toInt))
      target
  | _, checked =>
    if !x.isFinite || !x.isWhole || x.lt (.ofInt .double (-pastWord)) ||
        !x.lt (.ofInt .double pastWord) then refusal
    else narrowWord checked (Int64.ofInt (x.clamped Int64.minValue.toInt Int64.maxValue.toInt))
      target

/-- Narrows an integer of any size.  Floating-point targets are reached through the
`double` nearest to its leading word. -/
def narrowInt (policy : NarrowingPolicy) (n : Int) (target : ElementType) :
    Except Fault Element :=
  match target with
  | .float | .double => policy.narrowDouble (Binary.ofLargeInt .double n) target
  | _ =>
    match policy with
    | truncate => narrowWord truncate (Word.lowBits n) target
    | checked =>
      if Word.fits n then narrowWord checked (Int64.ofInt n) target
      else .error (.uncoercible (toString n) target.name)

end NarrowingPolicy

end InlineCache
