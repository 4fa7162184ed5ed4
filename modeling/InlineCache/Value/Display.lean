/-
The text of a value, as faults and interpolation show it.

Numbers are decimal, texts appear as they are, a template alternates its fragments with the texts
of its values, and an array lists its present elements.
-/
import InlineCache.Binary.Text
import InlineCache.Heap
import InlineCache.Value

namespace InlineCache

/-- Follows each fragment by the next text, as long as there is one; surplus texts are dropped. -/
def interleave : List String → List String → String
  | [], _ => ""
  | fragment :: fragments, [] => fragment ++ interleave fragments []
  | fragment :: fragments, text :: texts => fragment ++ text ++ interleave fragments texts

/-- The text of an element in a layout for its floating-point numbers. -/
def Element.text (l : Layout) : Element → String
  | .byte n => toString n
  | .short n => toString n
  | .int n => toString n
  | .long n => toString n
  | .float x => x.text l
  | .double x => x.text l

/-- Texts in brackets, separated by commas. -/
def bracketed (texts : List String) : String := "[" ++ ", ".intercalate texts ++ "]"

mutual

/-- The text of a value, with arrays as they stand in the heap. -/
def Value.display (h : Heap) : Value → String
  | .null => "null"
  | .boolean b => toString b
  | .byte n => toString n
  | .short n => toString n
  | .integer n => toString n
  | .long n => toString n
  | .bigInteger n => toString n
  | .float x => x.text .plain
  | .double x => x.text .plain
  | .character c => c.toString
  | .string s => s
  | .template fragments values => interleave fragments (Value.displayAll h values)
  | .array a => bracketed ((h.elements a).map (Element.text .plain))

/-- The texts of several values. -/
def Value.displayAll (h : Heap) : List Value → List String
  | [] => []
  | v :: vs => v.display h :: Value.displayAll h vs

end

/-- The text that a string or a template stands for. -/
def Value.text? (h : Heap) : Value → Option String
  | .string s => some s
  | .template fragments values => some (interleave fragments (Value.displayAll h values))
  | _ => none

end InlineCache
