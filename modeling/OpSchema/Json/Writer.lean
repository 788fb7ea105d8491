import OpSchema.Json.Document

/-!
# Writing documents

A document is written in one of two layouts.  The compact one has no blanks at
all; the indented one puts every item and every member on a line of its own,
two spaces deeper than the bracket that holds it.

Inside a text the quote, the backslash and the characters below the space are
escaped, the common ones with a letter and the others by their code, and all
other characters stand for themselves.
-/

namespace OpSchema.Json

/-- The escape of a control character by its code: four hexadecimal digits. -/
def codeEscape (c : Char) : List Char :=
  let digits := Nat.toDigits 16 c.toNat
  '\\' :: 'u' :: List.replicate (4 - digits.length) '0' ++ digits

/-- The characters that stand for `c` inside a text. -/
def escapeChar (c : Char) : List Char :=
  if c = '"' then ['\\', '"']
  else if c = '\\' then ['\\', '\\']
  else if c = '\x08' then ['\\', 'b']
  else if c = '\t' then ['\\', 't']
  else if c = '\n' then ['\\', 'n']
  else if c = '\x0c' then ['\\', 'f']
  else if c = '\r' then ['\\', 'r']
  else if c.toNat < 0x20 then codeEscape c
  else [c]

/-- A text between quotes. -/
def writeText (s : String) : List Char :=
  '"' :: (s.toList.flatMap escapeChar ++ ['"'])

namespace Document

/-! ## The compact layout -/

mutual

/-- The characters of a document without blanks. -/
def compactChars : Document → List Char
  | null => ['n', 'u', 'l', 'l']
  | flag true => ['t', 'r', 'u', 'e']
  | flag false => ['f', 'a', 'l', 's', 'e']
  | number n => n.write.toList
  | text s => writeText s
  | list [] => ['[', ']']
  | list (d :: ds) => '[' :: (compactChars d ++ compactItems ds)
  | object [] => ['\x7b', '\x7d']
  | object ((key, d) :: ms) =>
    '\x7b' :: (writeText key ++ ':' :: (compactChars d ++ compactMembers ms))

/-- The items after the first, each behind a comma, and the closing bracket. -/
def compactItems : List Document → List Char
  | [] => [']']
  | d :: ds => ',' :: (compactChars d ++ compactItems ds)

/-- The members after the first, each behind a comma, and the closing bracket. -/
def compactMembers : List (String × Document) → List Char
  | [] => ['\x7d']
  | (key, d) :: ms => ',' :: (writeText key ++ ':' :: (compactChars d ++ compactMembers ms))

end

/-- The document without blanks. -/
def compact (d : Document) : String :=
  String.ofList d.compactChars

/-! ## The indented layout -/

/-- A new line, indented by `depth` steps of two spaces. -/
def newLine (depth : Nat) : List Char :=
  '\n' :: List.replicate (2 * depth) ' '

mutual

/-- The characters of a document whose own line is indented by `depth` steps. -/
def indentedChars (depth : Nat) : Document → List Char
  | list [] => ['[', ']']
  | list (d :: ds) =>
    '[' :: (newLine (depth + 1) ++ (indentedChars (depth + 1) d ++ indentedItems depth ds))
  | object [] => ['\x7b', '\x7d']
  | object ((key, d) :: ms) =>
    '\x7b' :: (newLine (depth + 1) ++
      (writeText key ++ ':' :: ' ' :: (indentedChars (depth + 1) d ++ indentedMembers depth ms)))
  | null => ['n', 'u', 'l', 'l']
  | flag true => ['t', 'r', 'u', 'e']
  | flag false => ['f', 'a', 'l', 's', 'e']
  | number n => n.write.toList
  | text s => writeText s

/-- The items after the first and the closing bracket. -/
def indentedItems (depth : Nat) : List Document → List Char
  | [] => newLine depth ++ [']']
  | d :: ds => ',' :: (newLine (depth + 1) ++ (indentedChars (depth + 1) d ++ indentedItems depth ds))

/-- The members after the first and the closing bracket. -/
def indentedMembers (depth : Nat) : List (String × Document) → List Char
  | [] => newLine depth ++ ['\x7d']
  | (key, d) :: ms =>
    ',' :: (newLine (depth + 1) ++
      (writeText key ++ ':' :: ' ' :: (indentedChars (depth + 1) d ++ indentedMembers depth ms)))

end

/-- The document with one item or member a line. -/
def indented (d : Document) : String :=
  String.ofList (d.indentedChars 0)

end Document

end OpSchema.Json
