/-!
# Binary floating point

A finite floating-point number is a whole number times a power of two. This is the exact value that
the decimal texts of a number approximate.
-/

namespace Playthrough.Decimal

/-- What a floating-point number stands for. -/
inductive Binary where
  | nan
  | infinite (negative : Bool)
  /-- The number `mantissa · 2 ^ exponent`, or its negative. `narrow` says that the next smaller
      number is at half the distance of the next larger one. -/
  | finite (negative : Bool) (mantissa : Nat) (exponent : Int) (narrow : Bool)
  deriving DecidableEq, Repr

/-- Takes a number apart into sign, exponent and fraction. -/
def Binary.ofFloat (x : Float) : Binary :=
  let bits := x.toBits.toNat
  let negative := bits / Nat.pow 2 63 == 1
  let exponent : Nat := bits / Nat.pow 2 52 % 2048
  let fraction := bits % Nat.pow 2 52
  if exponent = 2047 then
    if fraction = 0 then .infinite negative else .nan
  else if exponent = 0 then .finite negative fraction (-1074) false
  else
    .finite negative (fraction + Nat.pow 2 52) ((exponent : Int) - 1075)
      (fraction = 0 && 1 < exponent)

/-- A non-negative fraction. -/
structure Fraction where
  num : Nat
  den : Nat

/-- The number `mantissa · base ^ exponent` as a fraction. -/
def Fraction.scaled (mantissa base : Nat) (exponent : Int) : Fraction :=
  if 0 ≤ exponent then ⟨mantissa * Nat.pow base exponent.toNat, 1⟩
  else ⟨mantissa, Nat.pow base (-exponent).toNat⟩

/-- Whether one fraction is at most another. -/
def Fraction.le (a b : Fraction) : Bool := a.num * b.den ≤ b.num * a.den

/-- Whether one fraction is less than another. -/
def Fraction.lt (a b : Fraction) : Bool := a.num * b.den < b.num * a.den

/-- The multiple of `10 ^ scale` at or below a fraction, in units of it. -/
def Fraction.floorAt (scale : Int) (value : Fraction) : Nat :=
  let unit := Fraction.scaled 1 10 scale
  value.num * unit.den / (value.den * unit.num)

end Playthrough.Decimal
