/-!
# Rounding to binary precision

The absolute value of a finite double is `mantissa * 2 ^ exponent` with at most
53 bits in the mantissa.  Everything here is exact arithmetic on natural
numbers: a quotient is rounded once, to the nearest such value, a half going to
the even mantissa.

## Main definitions

* `Magnitude.ofRatio?`: a quotient rounded to a magnitude, unless it is too large.
* `Magnitude.ofDecimal?`: a decimal significand with its power of ten.
-/

namespace OpSchema.Decimal

/-- The quotient rounded to the nearest natural number, a half to the even one. -/
def divideToEven (num den : Nat) : Nat :=
  let quotient := num / den
  let twice := 2 * (num % den)
  if twice < den then quotient
  else if den < twice then quotient + 1
  else if quotient % 2 = 0 then quotient
  else quotient + 1

/-- Numerator and denominator of `num / den` divided by `2 ^ e`. -/
def overPowerOfTwo (num den : Nat) (e : Int) : Nat × Nat :=
  if 0 ≤ e then (num, den * Nat.pow 2 e.toNat) else (num * Nat.pow 2 (-e).toNat, den)

/-- The greatest `e` with `2 ^ e ≤ num / den`, for positive numbers. -/
def binaryOrder (num den : Nat) : Int :=
  let guess : Int := (num.log2 : Int) - (den.log2 : Int)
  let (n, d) := overPowerOfTwo num den guess
  if d ≤ n then guess else guess - 1

/-- The value `mantissa * 2 ^ exponent`. -/
structure Magnitude where
  mantissa : Nat
  exponent : Int
  deriving DecidableEq, Repr

namespace Magnitude

/-- The value zero. -/
def zero : Magnitude := ⟨0, 0⟩

/-- The number of bits of a full mantissa. -/
def precision : Nat := 53

/-- The least mantissa with all its bits: two to the power of 52. -/
def fullMantissa : Nat := 4503599627370496

/-- The least exponent; with it the mantissa may have fewer bits. -/
def leastExponent : Int := -1074

/-- The greatest exponent of a full mantissa. -/
def greatestExponent : Int := 971

/-- The quotient rounded to the nearest magnitude, or none if it is too large. -/
def ofRatio? (num den : Nat) : Option Magnitude :=
  if num = 0 then some zero
  else
    let e := max (binaryOrder num den - (precision - 1 : Nat)) leastExponent
    let (n, d) := overPowerOfTwo num den e
    let m := divideToEven n d
    let rounded : Magnitude :=
      if m = 0 then zero
      else if m = fullMantissa * 2 then ⟨fullMantissa, e + 1⟩
      else ⟨m, e⟩
    if greatestExponent < rounded.exponent then none else some rounded

/-- The product, rounded. -/
def mul? (x y : Magnitude) : Option Magnitude :=
  let (n, d) := overPowerOfTwo (x.mantissa * y.mantissa) 1 (-(x.exponent + y.exponent))
  ofRatio? n d

/-- The quotient, rounded. -/
def div? (x y : Magnitude) : Option Magnitude :=
  let (n, d) := overPowerOfTwo x.mantissa y.mantissa (y.exponent - x.exponent)
  ofRatio? n d

/-- The greatest power of ten that is a magnitude. -/
def greatestPowerOfTen : Nat := 308

/-- The power of ten rounded to a magnitude; zero stands for one too large. -/
def powerOfTen (k : Nat) : Magnitude :=
  (ofRatio? (Nat.pow 10 k) 1).getD zero

/-- Divides by `10 ^ k`, at most `10 ^ 308` at a time.  Three steps take every
significand of 64 bits to zero. -/
def divPowerOfTen? : Nat → Magnitude → Nat → Option Magnitude
  | 0, _, _ => some zero
  | steps + 1, x, k =>
    if k ≤ greatestPowerOfTen then x.div? (powerOfTen k)
    else (x.div? (powerOfTen greatestPowerOfTen)).bind fun y =>
      divPowerOfTen? steps y (k - greatestPowerOfTen)

/-- The value `significand * 10 ^ exponent`, or none if it is too large.  The
significand is rounded first and the product or quotient after it. -/
def ofDecimal? (significand : Nat) (exponent : Int) : Option Magnitude :=
  if significand = 0 then some zero
  else (ofRatio? significand 1).bind fun x =>
    if exponent < 0 then divPowerOfTen? 3 x (-exponent).toNat
    else if exponent.toNat ≤ greatestPowerOfTen then x.mul? (powerOfTen exponent.toNat)
    else none

example : ofDecimal? 15 (-1) = some ⟨3 * 2 ^ 51, -52⟩ := by decide

end Magnitude

end OpSchema.Decimal
