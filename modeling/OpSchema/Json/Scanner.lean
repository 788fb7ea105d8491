import OpSchema.Json.Fault

/-!
# Scanning the pieces of a text

Blanks, words, texts and numbers.  A scanner takes the characters that are left
and gives a value with what remains after it.

Texts are read up to a bound on their number of characters; the number of
characters of the whole source is such a bound, so it is never the bound that
ends a text before the source does.
-/

namespace OpSchema.Json

open Decimal (Magnitude)
open Text (byteCount)

/-! ## Blanks and words -/

/-- The four characters that may stand between the pieces of a text. -/
def isBlank (c : Char) : Bool :=
  c = ' ' || c = '\n' || c = '\t' || c = '\r'

/-- What is left after the blanks at the front. -/
def skipBlanks (rest : List Char) : List Char :=
  rest.dropWhile isBlank

/-- Reads the rest of a word whose first character has been read. -/
def scanWord : List Char → List Char → Except Fault (List Char)
  | [], rest => .ok rest
  | _ :: _, [] => .error (.behind .endOfValue [])
  | w :: word, c :: rest =>
    if c = w then scanWord word rest else .error (.facing .expectedWord (c :: rest))

/-- The rest of `null`. -/
def scanNull : List Char → Except Fault (List Char) := scanWord ['u', 'l', 'l']

/-- The rest of `true`. -/
def scanTrue : List Char → Except Fault (List Char) := scanWord ['r', 'u', 'e']

/-- The rest of `false`. -/
def scanFalse : List Char → Except Fault (List Char) := scanWord ['a', 'l', 's', 'e']

/-! ## Texts -/

/-- The value of a hexadecimal digit of either case. -/
def hexValue? (c : Char) : Option Nat :=
  if '0' ≤ c ∧ c ≤ '9' then some (c.toNat - '0'.toNat)
  else if 'a' ≤ c ∧ c ≤ 'f' then some (c.toNat - 'a'.toNat + 10)
  else if 'A' ≤ c ∧ c ≤ 'F' then some (c.toNat - 'A'.toNat + 10)
  else none

/-- Four hexadecimal digits.  They are taken as four bytes, whatever they are. -/
def scanHex (rest : List Char) : Scanned Nat :=
  match rest with
  | a :: b :: c :: d :: more =>
    match hexValue? a, hexValue? b, hexValue? c, hexValue? d with
    | some a, some b, some c, some d => .ok (((a * 16 + b) * 16 + c) * 16 + d, more)
    | _, _, _, _ => .error ⟨.invalidEscape, rest, 4⟩
  | _ =>
    if byteCount rest < 4 then .error (.behind .endOfText []) else .error ⟨.invalidEscape, rest, 4⟩

/-- The code is the second half of a surrogate pair. -/
def isLowSurrogate (code : Nat) : Bool := 0xDC00 ≤ code && code ≤ 0xDFFF

/-- The code is the first half of a surrogate pair. -/
def isHighSurrogate (code : Nat) : Bool := 0xD800 ≤ code && code ≤ 0xDBFF

/-- The code that the two halves of a surrogate pair stand for. -/
def pairCode (high low : Nat) : Nat := (high - 0xD800) * 0x400 + (low - 0xDC00) + 0x10000

/-- The second half of a surrogate pair: a backslash, `u` and four digits. -/
def scanLowSurrogate (high : Nat) : List Char → Scanned Char
  | [] => .error (.behind .endOfText [])
  | '\\' :: rest =>
    match rest with
    | [] => .error (.behind .endOfText [])
    | 'u' :: digits =>
      match scanHex digits with
      | .error fault => .error fault
      | .ok (low, more) =>
        if isLowSurrogate low then .ok (Char.ofNat (pairCode high low), more)
        else .error (.behind .loneSurrogate more)
    | other => .error (.facing .halfSurrogatePair other)
  | other => .error (.facing .halfSurrogatePair other)

/-- The character that the letter of a short escape stands for. -/
def shortEscape? (c : Char) : Option Char :=
  if c = '"' then some '"'
  else if c = '\\' then some '\\'
  else if c = '/' then some '/'
  else if c = 'b' then some '\x08'
  else if c = 'f' then some '\x0c'
  else if c = 'n' then some '\n'
  else if c = 'r' then some '\r'
  else if c = 't' then some '\t'
  else none

/-- An escape whose backslash has been read. -/
def scanEscape : List Char → Scanned Char
  | [] => .error (.behind .endOfText [])
  | c :: rest =>
    match shortEscape? c with
    | some x => .ok (x, rest)
    | none =>
      if c = 'u' then
        match scanHex rest with
        | .error fault => .error fault
        | .ok (code, more) =>
          if isLowSurrogate code then .error (.behind .loneSurrogate more)
          else if isHighSurrogate code then scanLowSurrogate code more
          else .ok (Char.ofNat code, more)
      else .error (.facing .invalidEscape (c :: rest))

/-- The rest of a text after the characters `read`, which are kept in reverse,
up to its closing quote. -/
def scanTextFrom : Nat → List Char → List Char → Scanned String
  | 0, _, rest => .error (.behind .endOfText rest)
  | _ + 1, _, [] => .error (.behind .endOfText [])
  | bound + 1, read, c :: rest =>
    if c = '"' then .ok (String.ofList read.reverse, rest)
    else if c = '\\' then
      match scanEscape rest with
      | .error fault => .error fault
      | .ok (x, more) => scanTextFrom bound (x :: read) more
    else if c.toNat < 0x20 then .error (.facing .controlCharacter (c :: rest))
    else scanTextFrom bound (c :: read) rest

/-- A text whose opening quote has been read. -/
def scanText (bound : Nat) (rest : List Char) : Scanned String :=
  scanTextFrom bound [] rest

/-! ## Numbers

The significand has at most 64 bits.  Digits before the point that do not fit
any more count as zeros, digits after it that do not fit are passed over. -/

/-- The character is a decimal digit. -/
def isDigit (c : Char) : Bool := '0' ≤ c && c ≤ '9'

/-- The value of a decimal digit. -/
def digitValue (c : Char) : Nat := c.toNat - '0'.toNat

/-- The digits at the front and what follows them. -/
def spanDigits (rest : List Char) : List Char × List Char :=
  (rest.takeWhile isDigit, rest.dropWhile isDigit)

/-- The number of values of 64 bits, two to the power of 64. -/
def wordLimit : Nat := 18446744073709551616

/-- Half the number of values of 64 bits, which bounds a negative number. -/
def signedWordLimit : Nat := 9223372036854775808

/-- Half the number of values of 32 bits, which an exponent stays below. -/
def exponentLimit : Nat := 2147483648

/-- Appends digits to a significand as long as it fits, and says how many digits
were left over. -/
def appendDigits : Nat → List Char → Nat × Nat
  | significand, [] => (significand, 0)
  | significand, d :: ds =>
    let next := significand * 10 + digitValue d
    if next < wordLimit then appendDigits next ds else (significand, ds.length + 1)

/-- Reads the digits of an exponent after its first.  An exponent that does not
fit ends the reading with the digits that follow. -/
def scanExponentDigits : Nat → List Char → (Nat × List Char) ⊕ List Char
  | value, [] => .inl (value, [])
  | value, c :: rest =>
    if isDigit c then
      let next := value * 10 + digitValue c
      if next < exponentLimit then scanExponentDigits next rest else .inr rest
    else .inl (value, c :: rest)

/-- The double `significand * 10 ^ exponent` with a sign. -/
def scanReal (isNegative : Bool) (significand : Nat) (exponent : Int) (rest : List Char) :
    Scanned Number :=
  match Magnitude.ofDecimal? significand exponent with
  | some magnitude => .ok (.real isNegative magnitude, rest)
  | none => .error (.behind .numberOutOfRange rest)

/-- The sign of an exponent, as whether it is negative, and what follows it. -/
def exponentSign : List Char → Bool × List Char
  | '+' :: more => (false, more)
  | '-' :: more => (true, more)
  | more => (false, more)

/-- An exponent whose sign has been read. -/
def scanUnsignedExponent (isNegative : Bool) (significand : Nat) (scale : Int) (below : Bool) :
    List Char → Scanned Number
  | [] => .error (.behind .endOfValue [])
  | c :: more =>
    if isDigit c then
      match scanExponentDigits (digitValue c) more with
      | .inl (value, after) =>
        scanReal isNegative significand (if below then scale - value else scale + value) after
      | .inr after =>
        if significand ≠ 0 ∧ below = false then .error (.behind .numberOutOfRange after)
        else .ok (.real isNegative .zero, (spanDigits after).2)
    else .error (.facing .invalidNumber (c :: more))

/-- An exponent whose mark has been read. -/
def scanExponent (isNegative : Bool) (significand : Nat) (scale : Int) (rest : List Char) :
    Scanned Number :=
  let (below, digits) := exponentSign rest
  scanUnsignedExponent isNegative significand scale below digits

/-- What may follow the whole part of a number: an exponent, or nothing more. -/
def scanScale (isNegative : Bool) (significand : Nat) (scale : Int) (rest : List Char) :
    Scanned Number :=
  match rest with
  | c :: more =>
    if c = 'e' ∨ c = 'E' then scanExponent isNegative significand scale more
    else scanReal isNegative significand scale rest
  | [] => scanReal isNegative significand scale []

/-- The places of a number whose point has been read. -/
def scanPlaces (isNegative : Bool) (significand : Nat) (scale : Int) (rest : List Char) :
    Scanned Number :=
  match spanDigits rest with
  | ([], []) => .error (.facing .endOfValue [])
  | ([], more) => .error (.facing .invalidNumber more)
  | (places, more) =>
    let (significand, left) := appendDigits significand places
    scanScale isNegative significand (scale - (places.length - left : Nat)) more

/-- A whole number: natural, negative or, beyond 64 bits, a double. -/
def wholeNumber (isNegative : Bool) (significand : Nat) (rest : List Char) : Scanned Number :=
  if isNegative = false then .ok (.natural significand, rest)
  else if significand ≠ 0 ∧ significand ≤ signedWordLimit then .ok (.negative significand, rest)
  else scanReal true significand 0 rest

/-- What follows the whole digits of a number. -/
def scanAfterWhole (isNegative : Bool) (digits rest : List Char) : Scanned Number :=
  let (significand, left) := appendDigits 0 digits
  match rest with
  | '.' :: more => scanPlaces isNegative significand left more
  | 'e' :: more => scanExponent isNegative significand left more
  | 'E' :: more => scanExponent isNegative significand left more
  | _ =>
    if left = 0 then wholeNumber isNegative significand rest
    else scanReal isNegative significand left rest

/-- A number whose sign has been read. -/
def scanUnsigned (isNegative : Bool) : List Char → Scanned Number
  | [] => .error (.behind .endOfValue [])
  | c :: rest =>
    if c = '0' then
      match rest with
      | d :: _ =>
        if isDigit d then .error (.facing .invalidNumber rest)
        else scanAfterWhole isNegative ['0'] rest
      | [] => scanAfterWhole isNegative ['0'] []
    else if isDigit c then
      let (digits, more) := spanDigits rest
      scanAfterWhole isNegative (c :: digits) more
    else .error (.facing .invalidNumber (c :: rest))

/-- A number, from its sign or its first digit on. -/
def scanNumber : List Char → Scanned Number
  | '-' :: rest => scanUnsigned true rest
  | rest => scanUnsigned false rest

end OpSchema.Json
