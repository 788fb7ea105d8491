import OpSchema.Decimal.Magnitude

/-!
# The fewest digits that read back

A magnitude is written with the fewest significant digits that still round to
it.  The reals that round to `m * 2 ^ e` form an interval, whose ends belong to
it when `m` is even.  For 1, 2, ... 17 digits the two neighbours of the value on
that decimal grid are tried; on the first grid with a hit the nearer one wins,
and of two equally near ones the even one.
-/

namespace OpSchema.Decimal

/-- The value `digits * 10 ^ exponent`. -/
structure Scaled where
  digits : Nat
  exponent : Int
  deriving DecidableEq, Repr

namespace Scaled

/-- Moves the zeros at the end of the digits into the exponent. -/
def stripZeros : Nat → Scaled → Scaled
  | 0, x => x
  | steps + 1, x =>
    if x.digits ≠ 0 ∧ x.digits % 10 = 0 then stripZeros steps ⟨x.digits / 10, x.exponent + 1⟩ else x

/-- The exponent of the leading digit. -/
def leading (x : Scaled) : Int :=
  x.exponent + ((Nat.toDigits 10 x.digits).length - 1 : Nat)

end Scaled

/-- Numerator and denominator of `num / den` times `10 ^ k`. -/
def timesPowerOfTen (num den : Nat) (k : Int) : Nat × Nat :=
  if 0 ≤ k then (num * Nat.pow 10 k.toNat, den) else (num, den * Nat.pow 10 (-k).toNat)

/-- The quotient `num / den` is at least `10 ^ k`. -/
def reachesPowerOfTen (num den : Nat) (k : Int) : Bool :=
  let (n, d) := timesPowerOfTen num den (-k)
  d ≤ n

/-- The greatest `k` with `10 ^ k ≤ num / den`, for positive numbers within the
range of magnitudes.  The order in base two gives it up to one, the logarithm of
two being about `0.30103`. -/
def decimalOrder (num den : Nat) : Int :=
  let guess := binaryOrder num den * 30103 / 100000
  if reachesPowerOfTen num den (guess + 1) then guess + 1
  else if reachesPowerOfTen num den guess then guess
  else guess - 1

namespace Magnitude

/-- The room below a magnitude for reals that round to it, in quarters of its last
place.  Below a full mantissa the magnitudes are twice as dense. -/
def roomBelow (x : Magnitude) : Nat :=
  if x.mantissa = fullMantissa ∧ leastExponent < x.exponent then 1 else 2

/-- The room above a magnitude, in quarters of its last place. -/
def roomAbove : Nat := 2

/-- A real at a distance from the magnitude rounds to it.  The ends of the room
belong to an even mantissa. -/
def isWithin (x : Magnitude) (distance room : Nat) : Bool :=
  if x.mantissa % 2 = 0 then distance ≤ room else distance < room

/-- The neighbour of the magnitude on a decimal grid that rounds to it, if one of
the two does, the nearer one first.  A quarter of the last place is `num / den`
units of the grid. -/
def onGrid? (x : Magnitude) (num den : Nat) : Option Nat :=
  let value := 4 * x.mantissa * num
  let below := value / den
  let distance := value % den
  let above := den - distance
  let isBelow := x.isWithin distance (x.roomBelow * num)
  let isAbove := x.isWithin above (roomAbove * num)
  if distance < above ∨ distance = above ∧ below % 2 = 0 then
    if isBelow then some below else if isAbove then some (below + 1) else none
  else
    if isAbove then some (below + 1) else if isBelow then some below else none

/-- The number of digits that is enough for every magnitude. -/
def mostDigits : Nat := 17

/-- The decimal with the fewest digits that rounds to the magnitude. -/
def shortest (x : Magnitude) : Scaled :=
  if x.mantissa = 0 then ⟨0, 0⟩
  else
    let (quarter, scale) := overPowerOfTwo 1 1 (2 - x.exponent)
    let order := decimalOrder (4 * x.mantissa * quarter) scale
    let (num, den) := timesPowerOfTen quarter scale ((mostDigits - 1 : Nat) - order)
    let found := (List.range mostDigits).findSome? fun n =>
      (x.onGrid? num (den * Nat.pow 10 (mostDigits - 1 - n))).map fun digits =>
        (⟨digits, order - n⟩ : Scaled)
    (found.getD ⟨0, 0⟩).stripZeros (mostDigits + 1)

end Magnitude

end OpSchema.Decimal
