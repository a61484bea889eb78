import Playthrough.Decimal.Binary

/-!
# The shortest decimal

Every decimal near enough to a floating-point number reads back as that number. Of these, the text
of a number uses one with the fewest digits, and of those the nearest to the number. Where two are
as near, a `Tie` decides.

The decimals that read back lie between the midpoints to the two neighbouring numbers; the midpoints
themselves belong to numbers with an even mantissa. For each number of digits only the multiples of
the last place right below and right above the number have to be tried.
-/

namespace Playthrough.Decimal

/-- The decimal `significand · 10 ^ scale`. -/
structure Numeral where
  significand : Nat
  scale : Int
  deriving DecidableEq, Repr

/-- The digits of the significand. -/
def Numeral.digits (decimal : Numeral) : List Char := Nat.toDigits 10 decimal.significand

/-- The power of ten that belongs to the first digit. -/
def Numeral.exponent (decimal : Numeral) : Int := decimal.scale + decimal.digits.length - 1

/-- Moves the zeros at the end of a significand into the scale. -/
def Numeral.strip (decimal : Numeral) : Numeral :=
  let zeros := (decimal.digits.reverse.takeWhile (· = '0')).length
  ⟨decimal.significand / Nat.pow 10 zeros, decimal.scale + zeros⟩

/-- The decimals that read back as a number. -/
structure Interval where
  low : Fraction
  high : Fraction
  closed : Bool

/-- The decimals that read back as `mantissa · 2 ^ exponent`. -/
def Interval.around (mantissa : Nat) (exponent : Int) (narrow : Bool) : Interval where
  low := Fraction.scaled (4 * mantissa - if narrow then 1 else 2) 2 (exponent - 2)
  high := Fraction.scaled (4 * mantissa + 2) 2 (exponent - 2)
  closed := mantissa % 2 = 0

/-- Whether a value lies in the interval. -/
def Interval.contains (interval : Interval) (value : Fraction) : Bool :=
  if interval.closed then interval.low.le value && value.le interval.high
  else interval.low.lt value && value.lt interval.high

/-- The greatest `e` such that `10 ^ e` is at most the value. -/
def magnitude (value : Fraction) : Int :=
  let guess : Int :=
    (Nat.toDigits 10 value.num).length - ((Nat.toDigits 10 value.den).length : Int)
  if (Fraction.scaled 1 10 guess).le value then guess else guess - 1

/-- Which of two neighbouring decimals stands for a number in the middle. -/
inductive Tie where
  /-- The upper one. -/
  | up
  /-- The one with an even last digit. -/
  | even
  deriving DecidableEq, Repr

/-- The choice between a multiple and the next one. -/
def Tie.choose (below : Nat) : Tie → Nat
  | up => below + 1
  | even => if below % 2 = 0 then below else below + 1

/-- The nearest of the two multiples of `10 ^ scale` around a value that lie in the interval. -/
def candidate? (tie : Tie) (interval : Interval) (value : Fraction) (scale : Int) : Option Nat :=
  let below := value.floorAt scale
  let fits (multiple : Nat) := interval.contains (Fraction.scaled multiple 10 scale)
  let middle := Fraction.scaled (10 * below + 5) 10 (scale - 1)
  if fits below && fits (below + 1) then
    some (if value.lt middle then below
      else if middle.lt value then below + 1
      else tie.choose below)
  else if fits below then some below
  else if fits (below + 1) then some (below + 1)
  else none

/-- A decimal with the fewest digits that reads back as `mantissa · 2 ^ exponent`. Seventeen digits
    are always enough. -/
def shortest (tie : Tie) (mantissa : Nat) (exponent : Int) (narrow : Bool) : Numeral :=
  if mantissa = 0 then ⟨0, 0⟩
  else
    let value := Fraction.scaled mantissa 2 exponent
    let interval := Interval.around mantissa exponent narrow
    let first := magnitude value
    let found := (List.range 17).findSome? fun (places : Nat) =>
      let scale : Int := first - places
      (candidate? tie interval value scale).map fun multiple => Numeral.strip ⟨multiple, scale⟩
    found.getD ⟨value.floorAt (first - 16), first - 16⟩

end Playthrough.Decimal
