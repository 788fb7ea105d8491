import OpSchema.Decimal.Shortest

/-!
# Writing a decimal

Numbers whose leading digit stands between the fifth place after the point and
the sixteenth before it are written plainly, with at least one place after the
point.  All others are written as one digit, the rest after a point, and the
power of ten with its sign.
-/

namespace OpSchema.Decimal

/-- Where plain writing begins and ends, by the exponent of the leading digit. -/
structure PlainRange where
  least : Int
  greatest : Int

/-- Numbers are written plainly from `0.00001` up to sixteen digits before the
point. -/
def plainRange : PlainRange := ⟨-5, 15⟩

namespace Scaled

/-- Plain writing with at least one place after the point. -/
def plain (x : Scaled) : String :=
  let digits := Nat.toDigits 10 x.digits
  if 0 ≤ x.exponent then
    String.ofList (digits ++ List.replicate x.exponent.toNat '0' ++ ['.', '0'])
  else
    let places := (-x.exponent).toNat
    if places < digits.length then
      String.ofList (digits.take (digits.length - places) ++ '.' :: digits.drop (digits.length - places))
    else
      String.ofList ('0' :: '.' :: List.replicate (places - digits.length) '0' ++ digits)

/-- One digit, the rest after a point, and the power of ten with its sign. -/
def scientific (x : Scaled) : String :=
  let power := x.leading
  let sign := if power < 0 then "-" else "+"
  let mantissa := match Nat.toDigits 10 x.digits with
    | first :: second :: rest => first :: '.' :: second :: rest
    | digits => digits
  String.ofList mantissa ++ "e" ++ sign ++ toString power.natAbs

/-- The number in the notation that its size calls for. -/
def write (x : Scaled) : String :=
  if x.digits = 0 then "0.0"
  else if plainRange.least ≤ x.leading ∧ x.leading ≤ plainRange.greatest then x.plain
  else x.scientific

end Scaled

/-- The number with the fewest digits that read back. -/
def Magnitude.write (x : Magnitude) : String :=
  x.shortest.write

end OpSchema.Decimal
