import Playthrough.Decimal.Literal
import Playthrough.Toml.Quoted

/-!
# Numbers of TOML documents

Integers have 64 bits and may be written in base 10, 16, 8 or 2. Floats have a fraction, an exponent
or both, or are one of the words for infinity and not-a-number. Underscores may stand between
digits.
-/

namespace Playthrough.Toml

/-- A run of digits with single underscores between them, without the underscores, and what follows.
    -/
def digitRun (isDigit : Char → Bool) : List Char → List Char × List Char
  | c :: '_' :: d :: rest =>
    if isDigit c && isDigit d then
      let (digits, rest) := digitRun isDigit (d :: rest)
      (c :: digits, rest)
    else if isDigit c then ([c], '_' :: d :: rest)
    else ([], c :: '_' :: d :: rest)
  | c :: rest =>
    if isDigit c then
      let (digits, rest) := digitRun isDigit rest
      (c :: digits, rest)
    else ([], c :: rest)
  | [] => ([], [])

/-- A sign in front of a number, and the rest. -/
def sign : List Char → Bool × List Char
  | '+' :: rest => (false, rest)
  | '-' :: rest => (true, rest)
  | cs => (false, cs)

/-- The digits of a decimal number, which has no leading zero, and what follows. -/
def decimalRun? (cs : List Char) : Option (List Char × List Char) :=
  match cs with
  | '0' :: rest => some (['0'], rest)
  | _ =>
    let (digits, rest) := digitRun Char.isDigit cs
    if digits.isEmpty then none else some (digits, rest)

/-- A run of digits that may start with zeros. -/
def zeroRun? (cs : List Char) : Option (List Char × List Char) :=
  let (digits, rest) := digitRun Char.isDigit cs
  if digits.isEmpty then none else some (digits, rest)

/-- The exponent of a float, if there is one. -/
def exponent? (cs : List Char) : Option (Int × List Char) :=
  match cs with
  | c :: rest =>
    if c = 'e' || c = 'E' then do
      let (negative, rest) := sign rest
      let (digits, rest) ← zeroRun? rest
      let value : Int := Decimal.digitsValue digits
      return (if negative then -value else value, rest)
    else none
  | [] => none

/-- The fraction of a float, if there is one. -/
def fraction? (cs : List Char) : Option (List Char × List Char) :=
  match cs with
  | '.' :: rest => zeroRun? rest
  | _ => none

/-- A float given by digits, without its sign. A float beyond the positive range is refused. -/
def float? (cs : List Char) : Option (Float × List Char) := do
  let (negative, cs) := sign cs
  let (whole, rest) ← decimalRun? cs
  let (literal, rest) ←
    match fraction? rest with
    | some (fraction, rest) =>
      match exponent? rest with
      | some (exponent, rest) => some (Decimal.Literal.mk whole fraction exponent, rest)
      | none => some (⟨whole, fraction, 0⟩, rest)
    | none => (exponent? rest).map fun (exponent, rest) => (⟨whole, [], exponent⟩, rest)
  let value := if negative then -literal.toFloat else literal.toFloat
  if value == 1 / 0 then none else some (value, rest)

/-- One of the words for infinity and not-a-number. -/
def specialFloat? (cs : List Char) : Option (Float × List Char) :=
  let (negative, rest) := sign cs
  let signed (x : Float) := if negative then -x else x
  match rest with
  | 'i' :: 'n' :: 'f' :: rest => some (signed (1 / 0), rest)
  | 'n' :: 'a' :: 'n' :: rest => some (signed (0 / 0), rest)
  | _ => none

/-- An integer that fits in 64 bits. -/
def inRange (value : Int) : Bool :=
  let bound : Int := Nat.pow 2 63
  value < bound && -bound ≤ value

/-- An integer in the given base, behind the mark of the base. -/
def based? (base : Nat) (cs : List Char) : Option (Int × List Char) := do
  let isDigit (c : Char) : Bool := ((hexDigit? c).map fun digit => decide (digit < base)).getD false
  let (digits, rest) := digitRun isDigit cs
  if digits.isEmpty then none
  else
    let value := digits.foldl (fun n digit => base * n + (hexDigit? digit).getD 0) 0
    if inRange value then some (value, rest) else none

/-- An integer. -/
def integer? (cs : List Char) : Option (Int × List Char) :=
  match cs with
  | '0' :: 'x' :: rest => based? 16 rest
  | '0' :: 'o' :: rest => based? 8 rest
  | '0' :: 'b' :: rest => based? 2 rest
  | _ => do
    let (negative, cs) := sign cs
    let (digits, rest) ← decimalRun? cs
    let value : Int := Decimal.digitsValue digits
    let value := if negative then -value else value
    if inRange value then some (value, rest) else none

end Playthrough.Toml
