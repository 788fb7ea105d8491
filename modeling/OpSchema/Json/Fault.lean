import OpSchema.Json.Document
import OpSchema.Text.Cut
import OpSchema.Text.Position
import OpSchema.Text.Quoted

/-!
# Why a text is refused

A reader stops at the first thing that is wrong.  The cause says what it is; the
fault also says where, by what was left to read.

## Main definitions

* `Cause`, `Cause.message`: what is wrong, and the wording.
* `Fault`: a cause, the characters not yet read, and how many bytes of them the
  report still counts in.
* `Fault.describe`: the wording with line and column.
-/

namespace OpSchema.Json

open Text (Position byteCount quoted)

/-- The form of a value that was met in place of another one. -/
inductive Found where
  | null
  | flag (value : Bool)
  | number (value : Number)
  | text (value : String)
  | list
  | object
  deriving DecidableEq, Repr

namespace Found

/-- The wording for a value that was met. -/
def describe : Found → String
  | null => "null"
  | flag value => "boolean `" ++ (if value then "true" else "false") ++ "`"
  | number (.real isNegative magnitude) =>
    "floating point `" ++ (Number.real isNegative magnitude).write ++ "`"
  | number n => "integer `" ++ n.write ++ "`"
  | text value => "string " ++ quoted value
  | list => "sequence"
  | object => "map"

end Found

/-- What is wrong with a text. -/
inductive Cause where
  | endOfValue
  | endOfList
  | endOfObject
  | endOfText
  | expectedColon
  | expectedCommaOrBracket
  | expectedCommaOrBrace
  | expectedWord
  | expectedValue
  | invalidEscape
  | invalidNumber
  | numberOutOfRange
  | loneSurrogate
  | halfSurrogatePair
  | controlCharacter
  | keyMustBeText
  | trailingComma
  | trailingCharacters
  | nestingLimit
  | wrongForm (found : Found) (expected : String)
  | negativeCount (n : Number) (expected : String)
  | unknownVariant (name : String) (variants : List String)
  | unknownField (name : String) (fields : List String)
  | duplicateField (name : String)
  | missingField (name : String)
  | tooFewItems (count : Nat) (title : String) (fields : Nat)
  deriving DecidableEq, Repr

/-- The names that would have been right, each between grave accents. -/
def listAlternatives : List String → String
  | [] => "nothing"
  | [a] => "`" ++ a ++ "`"
  | [a, b] => "`" ++ a ++ "` or `" ++ b ++ "`"
  | a :: rest => "one of `" ++ a ++ "`" ++ String.join (rest.map fun b => ", `" ++ b ++ "`")

namespace Cause

/-- The wording of a cause. -/
def message : Cause → String
  | endOfValue => "EOF while parsing a value"
  | endOfList => "EOF while parsing a list"
  | endOfObject => "EOF while parsing an object"
  | endOfText => "EOF while parsing a string"
  | expectedColon => "expected `:`"
  | expectedCommaOrBracket => "expected `,` or `]`"
  | expectedCommaOrBrace => "expected `,` or `\x7d`"
  | expectedWord => "expected ident"
  | expectedValue => "expected value"
  | invalidEscape => "invalid escape"
  | invalidNumber => "invalid number"
  | numberOutOfRange => "number out of range"
  | loneSurrogate => "lone leading surrogate in hex escape"
  | halfSurrogatePair => "unexpected end of hex escape"
  | controlCharacter => "control character (\\u0000-\\u001F) found while parsing a string"
  | keyMustBeText => "key must be a string"
  | trailingComma => "trailing comma"
  | trailingCharacters => "trailing characters"
  | nestingLimit => "recursion limit exceeded"
  | wrongForm found expected => "invalid type: " ++ found.describe ++ ", expected " ++ expected
  | negativeCount n expected => "invalid value: integer `" ++ n.write ++ "`, expected " ++ expected
  | unknownVariant name variants =>
    "unknown variant `" ++ name ++ "`, expected " ++ listAlternatives variants
  | unknownField name fields =>
    "unknown field `" ++ name ++ "`, expected " ++ listAlternatives fields
  | duplicateField name => "duplicate field `" ++ name ++ "`"
  | missingField name => "missing field `" ++ name ++ "`"
  | tooFewItems count title fields =>
    "invalid length " ++ toString count ++ ", expected " ++ title ++ " with " ++ toString fields ++
      (if fields = 1 then " element" else " elements")

end Cause

/-- A cause and its place: what was left to read, and how many bytes of that the
report counts as read. -/
structure Fault where
  cause : Cause
  rest : List Char
  ahead : Nat
  deriving DecidableEq, Repr

namespace Fault

/-- A fault reported after what was read. -/
def behind (cause : Cause) (rest : List Char) : Fault := ⟨cause, rest, 0⟩

/-- A fault reported on the first byte of what was left. -/
def facing (cause : Cause) (rest : List Char) : Fault := ⟨cause, rest, 1⟩

/-- The number of bytes of the source that count as read. -/
def offset (fault : Fault) (source : List Char) : Nat :=
  min (byteCount source) (byteCount source - byteCount fault.rest + fault.ahead)

/-- Line and column of the fault. -/
def position (fault : Fault) (source : List Char) : Position :=
  .ofByteCount source (fault.offset source)

/-- The wording with line and column. -/
def describe (fault : Fault) (source : List Char) : String :=
  let p := fault.position source
  fault.cause.message ++ " at line " ++ toString p.line ++ " column " ++ toString p.column

end Fault

/-- What a scanner gives: a value and what remains to be read, or a fault. -/
abbrev Scanned (α : Type) : Type := Except Fault (α × List Char)

end OpSchema.Json
