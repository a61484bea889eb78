import Playthrough.Decimal.Style

/-!
# JSON texts

Reports can be printed as JSON. A value keeps the order of its keys.

* `Json.pretty`: a value over several lines, two spaces to a level.
* `Json.compact`: a value on one line.
-/

namespace Playthrough

/-- A JSON value. -/
inductive Json where
  | null
  | bool (value : Bool)
  | natural (value : Nat)
  /-- A number; one that is not finite is written as `null`. -/
  | float (value : Float)
  | string (value : String)
  | array (items : List Json)
  | object (members : List (String × Json))
  deriving Inhabited

namespace Json

/-- A character inside a JSON string: quotes, backslashes and controls are escaped. -/
def escapedChar (c : Char) : List Char :=
  if c = '"' || c = '\\' then ['\\', c]
  else if c = '\x08' then ['\\', 'b']
  else if c = '\x0c' then ['\\', 'f']
  else if c = '\n' then ['\\', 'n']
  else if c = '\r' then ['\\', 'r']
  else if c = '\t' then ['\\', 't']
  else if c.toNat < 0x20 then
    "\\u00".toList ++ (if c.toNat < 0x10 then ['0'] else []) ++ Nat.toDigits 16 c.toNat
  else [c]

/-- A JSON string. -/
def quote (text : String) : String :=
  String.ofList ('"' :: text.toList.flatMap escapedChar ++ ['"'])

/-- A JSON number. -/
def number (x : Float) : String := if x.isFinite then Decimal.Style.json.format x else "null"

/-- Texts between two brackets, each on a line of its own that starts with `inner`. -/
def enclose (opening closing : String) (outer inner : String) (items : List String) : String :=
  if items.isEmpty then opening ++ closing
  else
    let lines := items.map (inner ++ ·)
    opening ++ "\n" ++ String.intercalate ",\n" lines ++ "\n" ++ outer ++ closing

mutual

/-- A value over several lines; `margin` stands in front of each line but the first. -/
def prettyAt (margin : String) : Json → String
  | null => "null"
  | bool value => if value then "true" else "false"
  | natural value => toString value
  | float value => number value
  | string value => quote value
  | array items => enclose "[" "]" margin (margin ++ "  ") (prettyItems (margin ++ "  ") items)
  | object members =>
    enclose "\x7b" "\x7d" margin (margin ++ "  ") (prettyMembers (margin ++ "  ") members)

/-- The items of an array. -/
def prettyItems (margin : String) : List Json → List String
  | [] => []
  | item :: items => prettyAt margin item :: prettyItems margin items

/-- The members of an object. -/
def prettyMembers (margin : String) : List (String × Json) → List String
  | [] => []
  | (key, value) :: members =>
    (quote key ++ ": " ++ prettyAt margin value) :: prettyMembers margin members

end

/-- A value over several lines. -/
def pretty (value : Json) : String := prettyAt "" value

mutual

/-- A value on one line. -/
def compact : Json → String
  | null => "null"
  | bool value => if value then "true" else "false"
  | natural value => toString value
  | float value => number value
  | string value => quote value
  | array items => "[" ++ String.intercalate "," (compactItems items) ++ "]"
  | object members => "\x7b" ++ String.intercalate "," (compactMembers members) ++ "\x7d"

/-- The items of an array. -/
def compactItems : List Json → List String
  | [] => []
  | item :: items => compact item :: compactItems items

/-- The members of an object. -/
def compactMembers : List (String × Json) → List String
  | [] => []
  | (key, value) :: members => (quote key ++ ":" ++ compact value) :: compactMembers members

end

end Json

end Playthrough
