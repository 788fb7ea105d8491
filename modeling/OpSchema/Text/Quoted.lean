import OpSchema.Text.DefaultIgnorable
import OpSchema.Text.ExtendingMark
import OpSchema.Text.Printable

/-!
# Quoted texts in messages

A text quoted in a message stands between double quotes.  The quote, the backslash
and every character that would not show as itself are written as escapes, so that
the message stays on one line and all of the text can be seen.
-/

namespace OpSchema.Text

/-- The character is seen as itself wherever it stands. -/
def isVisible (c : Char) : Bool :=
  isPrintable c && !isExtendingMark c && !isDefaultIgnorable c

/-- The characters that stand for `c` between quotes. -/
def quotedChar (c : Char) : List Char :=
  if c = '"' then ['\\', '"']
  else if c = '\\' then ['\\', '\\']
  else if c = '\n' then ['\\', 'n']
  else if c = '\r' then ['\\', 'r']
  else if c = '\t' then ['\\', 't']
  else if c = '\x00' then ['\\', '0']
  else if isVisible c then [c]
  else ['\\', 'u', '\x7b'] ++ Nat.toDigits 16 c.toNat ++ ['\x7d']

/-- The text in double quotes. -/
def quoted (s : String) : String :=
  "\"" ++ String.ofList (s.toList.flatMap quotedChar) ++ "\""

example : quoted "a\"\\\n\x1fé" = "\"a\\\"\\\\\\n\\u\x7b1f\x7dé\"" := by decide

example : quotedChar '\u0301' = "\\u\x7b301\x7d".toList := by decide

example : quotedChar '\u3164' = "\\u\x7b3164\x7d".toList := by decide +kernel

example : quotedChar '\uFF9E' = ['\uFF9E'] := by decide +kernel

end OpSchema.Text
