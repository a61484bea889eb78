import Playthrough.Text.DecimalDigit

/-!
# Reading numbers

* `Literal`: a decimal as it is written, digits and exponent.
* `Literal.read?`: reads digits with an optional point and an optional exponent.
* `readFloat?`: reads a number with a sign, or one of the words for infinity and not-a-number.
* `Duration`: the plain decimals that scripts use for seconds, read into any number type.
-/

namespace Playthrough.Decimal

/-- A decimal as it is written: its digits before and after the point, and its exponent. -/
structure Literal where
  whole : List Char
  fraction : List Char
  exponent : Int

/-- The value of a run of decimal digits. -/
def digitsValue (digits : List Char) : Nat :=
  digits.foldl (fun value digit => 10 * value + (digit.toNat - 48)) 0

/-- A whole number with an optional sign. -/
def readExponent? (cs : List Char) : Option Int :=
  let (negative, digits) :=
    match cs with
    | '+' :: rest => (false, rest)
    | '-' :: rest => (true, rest)
    | _ => (false, cs)
  if digits.isEmpty || !digits.all Char.isDigit then none
  else some (if negative then -(digitsValue digits : Int) else digitsValue digits)

/-- Reads digits with an optional point and an optional exponent. One digit at least stands before
    or after the point. -/
def Literal.read? (cs : List Char) : Option Literal :=
  let whole := cs.takeWhile Char.isDigit
  let (fraction, rest) :=
    match cs.dropWhile Char.isDigit with
    | '.' :: rest => (rest.takeWhile Char.isDigit, rest.dropWhile Char.isDigit)
    | rest => ([], rest)
  if whole.isEmpty && fraction.isEmpty then none
  else
    match rest with
    | [] => some ⟨whole, fraction, 0⟩
    | c :: digits =>
      if c = 'e' || c = 'E' then
        (readExponent? digits).map fun exponent => ⟨whole, fraction, exponent⟩
      else none

/-- The floating-point number nearest to a literal. Beyond the range of the format a literal is
    infinite or zero, whatever its digits. -/
def Literal.toFloat (literal : Literal) : Float :=
  let digits := (literal.whole ++ literal.fraction).dropWhile (· = '0')
  let scale := literal.exponent - literal.fraction.length
  if digits.isEmpty || digits.length + scale < -400 then 0
  else if 400 < digits.length + scale then 1 / 0
  else OfScientific.ofScientific (digitsValue digits) (scale < 0) scale.natAbs

/-- Reads a number without its sign. -/
def readUnsigned? (cs : List Char) : Option Float :=
  match String.ofList (cs.map Char.toLower) with
  | "inf" | "infinity" => some (1 / 0)
  | "nan" => some (0 / 0)
  | _ => (Literal.read? cs).map Literal.toFloat

/-- Reads a number. -/
def readFloat? (text : String) : Option Float :=
  match text.toList with
  | '+' :: rest => readUnsigned? rest
  | '-' :: rest => (readUnsigned? rest).map fun x => -x
  | cs => readUnsigned? cs

/-! ## Durations -/

/-- A plain decimal: digits, digits with a point and maybe more digits, or a point and digits.
    Digits of any script are allowed. -/
structure Duration where
  whole : List Char
  fraction : List Char

/-- Reads a plain decimal at the start of a text, as long as possible, and returns what follows. -/
def Duration.readPrefix? (cs : List Char) : Option (Duration × List Char) :=
  let whole := cs.takeWhile Text.isDecimalDigit
  match cs.dropWhile Text.isDecimalDigit with
  | '.' :: rest =>
    let fraction := rest.takeWhile Text.isDecimalDigit
    if whole.isEmpty && fraction.isEmpty then none
    else some (⟨whole, fraction⟩, rest.dropWhile Text.isDecimalDigit)
  | rest => if whole.isEmpty then none else some (⟨whole, []⟩, rest)

/-- The seconds of a plain decimal, which has a value only if its digits are ASCII digits. -/
def Duration.value? {κ : Type} [OfScientific κ] (duration : Duration) : Option κ :=
  let digits := duration.whole ++ duration.fraction
  if digits.all Char.isDigit then
    some (OfScientific.ofScientific (digitsValue digits) true duration.fraction.length)
  else none

end Playthrough.Decimal
