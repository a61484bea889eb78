import Playthrough.Decimal.Shortest

/-!
# Texts of numbers

A style says how the shortest decimal of a number is laid out: from which to which exponent
positionally, and with an exponent outside of that.

* `Style.plain`: always positional, whole numbers without a fraction; for messages and headings.
* `Style.json`: positional in the middle range, always with a fraction; for data.
* `fixed`: a given number of decimal places, rounded from the exact value, ties to even.
-/

namespace Playthrough.Decimal

/-- How the decimal of a number is laid out. -/
structure Style where
  /-- Whether a number whose first digit has this power of ten is written positionally. -/
  positional : Int → Bool
  /-- Whether a whole number is written with a fraction. -/
  wholeFraction : Bool
  /-- Which of two decimals is written that are as near. -/
  tie : Tie

/-- Always positional, whole numbers without a fraction. -/
def Style.plain : Style where
  positional := fun _ => true
  wholeFraction := false
  tie := .up

/-- Positional from `0.00001` to below `10 ^ 16`, always with a fraction. -/
def Style.json : Style where
  positional := fun exponent => -5 ≤ exponent && exponent < 16
  wholeFraction := true
  tie := .even

/-- A sign in front of a text. -/
def signed (negative : Bool) (text : List Char) : List Char :=
  if negative then '-' :: text else text

/-- The digits of a natural number. -/
def digitsOf (n : Nat) : List Char := Nat.toDigits 10 n

/-- A decimal with its point in place. -/
def pointed (wholeFraction : Bool) (decimal : Numeral) : List Char :=
  let digits := decimal.digits
  if 0 ≤ decimal.scale then
    digits ++ List.replicate decimal.scale.toNat '0' ++ (if wholeFraction then ['.', '0'] else [])
  else
    let places := (-decimal.scale).toNat
    let padded := List.replicate (places + 1 - digits.length) '0' ++ digits
    let whole := padded.length - places
    padded.take whole ++ '.' :: padded.drop whole

/-- A decimal with one digit in front of the point and its exponent. -/
def scientific (decimal : Numeral) : List Char :=
  let exponent := decimal.exponent
  let mantissa :=
    match decimal.digits with
    | first :: second :: rest => first :: '.' :: second :: rest
    | digits => digits
  mantissa ++ 'e' :: (if exponent < 0 then '-' else '+') :: digitsOf exponent.natAbs

/-- The text of a number. -/
def Style.format (style : Style) (x : Float) : String :=
  match Binary.ofFloat x with
  | .nan => "NaN"
  | .infinite negative => String.ofList (signed negative "inf".toList)
  | .finite negative mantissa exponent narrow =>
    let decimal := shortest style.tie mantissa exponent narrow
    let text :=
      if style.positional decimal.exponent then pointed style.wholeFraction decimal
      else scientific decimal
    String.ofList (signed negative text)

/-- The whole number nearest to a fraction, ties to even. -/
def roundHalfEven (value : Fraction) : Nat :=
  let quotient := value.num / value.den
  let rest := 2 * (value.num % value.den)
  if rest < value.den || (rest = value.den && quotient % 2 = 0) then quotient else quotient + 1

/-- The text of a number with the given number of decimal places. -/
def fixed (places : Nat) (x : Float) : String :=
  match Binary.ofFloat x with
  | .nan => "NaN"
  | .infinite negative => String.ofList (signed negative "inf".toList)
  | .finite negative mantissa exponent _ =>
    let units := roundHalfEven (Fraction.scaled (mantissa * Nat.pow 10 places) 2 exponent)
    String.ofList (signed negative (pointed false ⟨units, -places⟩))

end Playthrough.Decimal
