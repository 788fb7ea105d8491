/-!
# Lines and columns

A place in a text is given by the number of bytes before it.  For a reader it is
shown as a line, counted from one, and a column, the number of bytes since that
line began.
-/

namespace OpSchema.Text

/-- A line, counted from one, and the number of bytes before the place in it. -/
structure Position where
  line : Nat
  column : Nat
  deriving DecidableEq, Repr

namespace Position

/-- The position after the next `count` bytes of the characters `cs`, of which
the last one may be counted in part. -/
def advance (p : Position) (count : Nat) : List Char → Position
  | [] => p
  | c :: cs =>
    if count = 0 then p
    else if c = '\n' then advance ⟨p.line + 1, 0⟩ (count - 1) cs
    else advance ⟨p.line, p.column + min c.utf8Size count⟩ (count - c.utf8Size) cs

/-- The position after the first `count` bytes of a text. -/
def ofByteCount (cs : List Char) (count : Nat) : Position :=
  advance ⟨1, 0⟩ count cs

example : ofByteCount "ab\ncé".toList 6 = ⟨2, 3⟩ := by decide

end Position

end OpSchema.Text
