import Playthrough.Toml.Number

/-!
# TOML documents

Settings are kept in TOML documents: keys with their values, one to a line, and headers that name
the table that the following keys belong to. The settings need strings, numbers, truth values and
one table of strings; a document with an array, a date or a table inside an inline table is refused
here already.

* `Item`: a line of a document that says something.
* `items?`: the items of a document, if it is well formed. Whether its keys make sense together is
  for the reader of the items to say.
-/

namespace Playthrough.Toml

/-- A value without parts. -/
inductive Scalar where
  | string (text : String)
  | integer (value : Int)
  | float (value : Float)
  | boolean (value : Bool)

/-- A value. -/
inductive Value where
  | scalar (value : Scalar)
  /-- An inline table: its keys with their values. -/
  | table (entries : List (List String × Scalar))

/-- What a line of a document says. -/
inductive Item where
  /-- The following keys belong to this table. -/
  | header (path : List String)
  | entry (path : List String) (value : Value)

/-- A text without the spaces it starts with. -/
def skipSpaces (cs : List Char) : List Char := cs.dropWhile isSpace

/-- Whether a character may stand in a key without quotes. -/
def isBareChar (c : Char) : Bool := c.isAlphanum || c = '_' || c = '-'

/-- A key without dots. -/
def simpleKey? (cs : List Char) : Option (String × List Char) :=
  match cs with
  | '"' :: rest => (basic rest).map fun (key, rest) => (String.ofList key, rest)
  | '\'' :: rest => (literal rest).map fun (key, rest) => (String.ofList key, rest)
  | _ =>
    let key := cs.takeWhile isBareChar
    if key.isEmpty then none else some (String.ofList key, cs.dropWhile isBareChar)

/-- A key with dots, and the spaces around it. The limit bounds the number of its parts. -/
def key? : (limit : Nat) → List Char → Option (List String × List Char)
  | 0, _ => none
  | limit + 1, cs => do
    let (part, rest) ← simpleKey? (skipSpaces cs)
    match skipSpaces rest with
    | '.' :: rest => do
      let (parts, rest) ← key? limit rest
      return (part :: parts, rest)
    | rest => return ([part], rest)

/-- A truth value. -/
def boolean? (cs : List Char) : Option (Bool × List Char) :=
  match cs with
  | 't' :: 'r' :: 'u' :: 'e' :: rest => some (true, rest)
  | 'f' :: 'a' :: 'l' :: 's' :: 'e' :: rest => some (false, rest)
  | _ => none

/-- A value without parts. -/
def scalar? (cs : List Char) : Option (Scalar × List Char) :=
  ((string? cs).map fun r => (.string (String.ofList r.1), r.2))
    <|> ((boolean? cs).map fun r => (.boolean r.1, r.2))
    <|> ((specialFloat? cs).map fun r => (.float r.1, r.2))
    <|> ((float? cs).map fun r => (.float r.1, r.2))
    <|> ((integer? cs).map fun r => (.integer r.1, r.2))

/-- What stands behind an equals sign, and the spaces in front of it. -/
def afterEquals? (cs : List Char) : Option (List Char) :=
  match skipSpaces cs with
  | '=' :: rest => some (skipSpaces rest)
  | _ => none

/-- The entries of an inline table up to its closing brace. The limit bounds their number. -/
def inlineEntries : (limit : Nat) → List Char → Option (List (List String × Scalar) × List Char)
  | 0, _ => none
  | limit + 1, cs => do
    let (path, rest) ← key? (cs.length + 1) cs
    let (value, rest) ← scalar? (← afterEquals? rest)
    match skipSpaces rest with
    | '\x7d' :: rest => return ([(path, value)], rest)
    | ',' :: rest => do
      let (entries, rest) ← inlineEntries limit rest
      return ((path, value) :: entries, rest)
    | _ => none

/-- A value. -/
def value? (cs : List Char) : Option (Value × List Char) :=
  match cs with
  | '\x7b' :: rest =>
    match skipSpaces rest with
    | '\x7d' :: rest => some (.table [], rest)
    | rest => (inlineEntries (rest.length + 1) rest).map fun r => (.table r.1, r.2)
  | _ => (scalar? cs).map fun r => (.scalar r.1, r.2)

/-- A header, behind its opening bracket. -/
def header? (cs : List Char) : Option (Item × List Char) := do
  let (path, rest) ← key? (cs.length + 1) cs
  match rest with
  | ']' :: rest => return (.header path, rest)
  | _ => none

/-- A key with its value. -/
def pair? (cs : List Char) : Option (Item × List Char) := do
  let (path, rest) ← key? (cs.length + 1) cs
  let (value, rest) ← value? (← afterEquals? rest)
  return (.entry path value, rest)

/-- The text behind the blanks and the comment at the end of a line. -/
def skipComment (cs : List Char) : List Char :=
  match skipSpaces cs with
  | '#' :: rest => rest.dropWhile isTextChar
  | rest => rest

/-- The items of the rest of a document. The limit bounds the number of its lines. -/
def itemsFrom : (limit : Nat) → List Char → Option (List Item)
  | 0, _ => none
  | limit + 1, cs => do
    let (items, rest) ←
      match skipSpaces cs with
      | [] => some ([], [])
      | '[' :: rest => (header? rest).map fun r => ([r.1], r.2)
      | c :: rest =>
        if c = '#' || c = '\n' || c = '\r' then some ([], c :: rest)
        else (pair? (c :: rest)).map fun r => ([r.1], r.2)
    match skipComment rest with
    | [] => return items
    | rest => do
      let rest ← newline? rest
      return items ++ (← itemsFrom limit rest)

/-- A text without a byte-order mark. -/
def dropMark : List Char → List Char
  | '\ufeff' :: rest => rest
  | cs => cs

/-- The items of a document. -/
def items? (text : String) : Option (List Item) :=
  let cs := dropMark text.toList
  itemsFrom (cs.length + 1) cs

end Playthrough.Toml
