import OpSchema.Text.CodeRanges

/-!
# White space

The characters with the Unicode property `White_Space`.  An operator name made
of such characters only counts as blank.
-/

namespace OpSchema.Text

/-- The code point ranges of the property, in ascending order. -/
def whiteSpaceRanges : List (Nat × Nat) :=
  [(0x0009, 0x000D), (0x0020, 0x0020), (0x0085, 0x0085), (0x00A0, 0x00A0), (0x1680, 0x1680),
    (0x2000, 0x200A), (0x2028, 0x2029), (0x202F, 0x202F), (0x205F, 0x205F), (0x3000, 0x3000)]

/-- The character has the property `White_Space`. -/
def isWhiteSpace (c : Char) : Bool :=
  inRanges whiteSpaceRanges c.toNat

/-- The text has no character other than white space. -/
def isBlank (s : String) : Bool :=
  s.toList.all isWhiteSpace

example : ascending whiteSpaceRanges = true := by decide

example : rangesSize whiteSpaceRanges = 25 := by decide

end OpSchema.Text
