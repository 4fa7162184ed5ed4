/-
Coercion services.

A service turns values into characters and narrows them to element types.  The standard service
takes a text of exactly one character as that character, and a number as a character code.
-/
import InlineCache.Narrowing
import InlineCache.Text.Quoted
import InlineCache.Value.Display

namespace InlineCache

-- `2 ^ n` is the power of core also beside an import that has another
attribute [local instance (2000)] instPowNat

/-- How values become characters and elements.  Both may look at the arrays in the heap.

A service has no state and no effects of its own: what it answers is settled by the heap, the value
and the target, and asking it changes nothing.  This is an assumption about services other than the
standard one, which is so by definition. -/
structure CoercionService where
  character : Heap → Value → Except Fault Char
  narrow : Heap → Value → ElementType → Except Fault Element

/-- The character with a given code, if it is a Unicode scalar value. -/
def scalar? (code : Int) : Option Char :=
  if 0 ≤ code ∧ code.toNat.isValidChar then some (Char.ofNat code.toNat) else none

namespace NarrowingPolicy

/-- The code that a number means as a character: its low 16 bits under `truncate`. -/
def characterCode (policy : NarrowingPolicy) (n : Int64) : Int :=
  match policy with
  | truncate => n.toInt % 2 ^ (16 : Nat)
  | checked => n.toInt

/-- Narrows a number, or a character by its code. -/
def narrow (policy : NarrowingPolicy) (h : Heap) (v : Value) (target : ElementType) :
    Except Fault Element :=
  match v with
  | .byte n => policy.narrowWord n.toInt64 target
  | .short n => policy.narrowWord n.toInt64 target
  | .integer n => policy.narrowWord n.toInt64 target
  | .long n => policy.narrowWord n target
  | .bigInteger n => policy.narrowInt n target
  | .float x => policy.narrowDouble (x.convert .double) target
  | .double x => policy.narrowDouble x target
  | .character c => policy.narrowWord (Int64.ofNat c.toNat) target
  | v => .error (.uncoercible (v.display h) target.name)

/-- The character whose code a number is, after narrowing it to `long`. -/
def characterOfNumber (policy : NarrowingPolicy) (h : Heap) (v : Value) : Except Fault Char := do
  let refusal := Fault.uncoercible (v.display h) "char"
  match ← policy.narrow h v .long with
  | .long n =>
    match scalar? (policy.characterCode n) with
    | some c => .ok c
    | none => .error refusal
  | _ => .error refusal

/-- The only character of a text. -/
def characterOfText (text : String) : Except Fault Char :=
  match text.toList with
  | [c] => .ok c
  | _ => .error (.uncoercible (quoted text) "char")

/-- Turns a value into a character. -/
def character (policy : NarrowingPolicy) (h : Heap) (v : Value) : Except Fault Char :=
  match v with
  | .character c => .ok c
  | v =>
    match v.text? h with
    | some text => characterOfText text
    | none =>
      if v.isNumeric then policy.characterOfNumber h v
      else .error (.uncoercible (v.display h) "char")

end NarrowingPolicy

/-- The standard service under a narrowing policy. -/
def CoercionService.standard (policy : NarrowingPolicy) : CoercionService where
  character := policy.character
  narrow := policy.narrow

end InlineCache
