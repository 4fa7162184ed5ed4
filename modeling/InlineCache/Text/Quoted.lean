/-
Quoted text: a text between double quotes in which every character can be told apart by eye.

Quotes, backslashes and the common control characters have escapes of one letter; the other
characters that cannot be read on their own are written by code point.
-/
import InlineCache.Text.DefaultIgnorable
import InlineCache.Text.GraphemeExtend
import InlineCache.Text.Unprintable

namespace InlineCache

/-- The code point in lower-case hexadecimal, between braces. -/
def escapeCode (c : Char) : List Char :=
  '\\' :: 'u' :: '\x7b' :: Nat.toDigits 16 c.toNat ++ ['\x7d']

/-- Whether a character cannot be read on its own: a combining mark, one that shows nothing, or one
without a printed form. -/
def illegible (c : Char) : Bool :=
  isCombining c || defaultIgnorable.contains c || unprintable.contains c

/-- One character of a quoted text. -/
def escapeChar (c : Char) : List Char :=
  match c with
  | '\x00' => ['\\', '0']
  | '\t' => ['\\', 't']
  | '\r' => ['\\', 'r']
  | '\n' => ['\\', 'n']
  | '"' => ['\\', '"']
  | '\\' => ['\\', '\\']
  | c => if illegible c then escapeCode c else [c]

/-- The text between double quotes, with escapes. -/
def quoted (s : String) : String :=
  String.ofList ('"' :: s.toList.flatMap escapeChar ++ ['"'])

/-- A single quote stands for itself, and a combining mark is written by code point. -/
example : quoted "it's\te\u0301" = "\"it's\\te\\u\x7b301\x7d\"" := by decide +kernel

/-- A halfwidth sound mark is a letter and stands for itself. -/
example : quoted "\uff76\uff9e" = "\"\uff76\uff9e\"" := by decide +kernel

/-- A filler is a letter that shows nothing. -/
example : quoted "\u3164" = "\"\\u\x7b3164\x7d\"" := by decide +kernel

end InlineCache
