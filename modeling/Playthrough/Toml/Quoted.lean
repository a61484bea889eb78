/-!
# Strings of TOML documents

A basic string stands between double quotes and knows escapes, a literal string stands between
single quotes and is taken as it is. Both have a form between triple quotes that may span lines. All
readers here take the text behind the opening quotes, and return the string and what follows the
closing quotes.
-/

namespace Playthrough.Toml

/-- Puts characters in front of a string that was read. -/
def prepend (front : List Char) (read : Option (List Char × List Char)) :
    Option (List Char × List Char) :=
  read.map fun r => (front ++ r.1, r.2)

/-- Whether a character separates the parts of a line. -/
def isSpace (c : Char) : Bool := c = ' ' || c = '\t'

/-- Whether a character may stand in a comment or a string: no control but the tab. -/
def isTextChar (c : Char) : Bool := c = '\t' || (0x20 ≤ c.toNat && c.toNat ≠ 0x7f)

/-- What follows a line end, if the text starts with one. -/
def newline? : List Char → Option (List Char)
  | '\n' :: rest => some rest
  | '\r' :: '\n' :: rest => some rest
  | _ => none

/-- The character that an escape by a letter stands for. -/
def escapeLetter? : Char → Option Char
  | 'b' => some '\x08'
  | 't' => some '\t'
  | 'n' => some '\n'
  | 'f' => some '\x0c'
  | 'r' => some '\r'
  | '"' => some '"'
  | '\\' => some '\\'
  | _ => none

/-- The value of a hexadecimal digit. -/
def hexDigit? (c : Char) : Option Nat :=
  if c.isDigit then some (c.toNat - 48)
  else if 'a' ≤ c && c ≤ 'f' then some (c.toNat - 87)
  else if 'A' ≤ c && c ≤ 'F' then some (c.toNat - 55)
  else none

/-- The character with a number given in hexadecimal. -/
def numberedChar? (digits : List Char) : Option Char := do
  let values ← digits.mapM hexDigit?
  let number := values.foldl (fun n digit => 16 * n + digit) 0
  if number.isValidChar then some (Char.ofNat number) else none

/-- A basic string on one line. -/
def basic : List Char → Option (List Char × List Char)
  | '\\' :: 'u' :: a :: b :: c :: d :: rest => do
    let char ← numberedChar? [a, b, c, d]
    prepend [char] (basic rest)
  | '\\' :: 'U' :: a :: b :: c :: d :: e :: f :: g :: h :: rest => do
    let char ← numberedChar? [a, b, c, d, e, f, g, h]
    prepend [char] (basic rest)
  | '\\' :: c :: rest => do
    let char ← escapeLetter? c
    prepend [char] (basic rest)
  | '"' :: rest => some ([], rest)
  | c :: rest => if isTextChar c && c ≠ '\\' then prepend [c] (basic rest) else none
  | [] => none

/-- A literal string on one line. -/
def literal : List Char → Option (List Char × List Char)
  | '\'' :: rest => some ([], rest)
  | c :: rest => if isTextChar c then prepend [c] (literal rest) else none
  | [] => none

/-- A text without the line ends and spaces it starts with. -/
def skipBlankLines : List Char → List Char
  | '\r' :: '\n' :: rest => skipBlankLines rest
  | c :: rest => if isSpace c || c = '\n' then skipBlankLines rest else c :: rest
  | [] => []

/-- The text behind a backslash at the end of a line: the line ends and spaces after it are
    skipped. -/
def continuation? (rest : List Char) : Option (List Char) :=
  (newline? (rest.dropWhile isSpace)).map skipBlankLines

/-- A basic string that may span lines. Up to two quotes may stand right before the closing quotes.
    The limit bounds the number of characters. -/
def multilineBasic : (limit : Nat) → List Char → Option (List Char × List Char)
  | 0, _ => none
  | limit + 1, cs =>
    match cs with
    | '"' :: '"' :: '"' :: '"' :: '"' :: rest => some (['"', '"'], rest)
    | '"' :: '"' :: '"' :: '"' :: rest => some (['"'], rest)
    | '"' :: '"' :: '"' :: rest => some ([], rest)
    | '\\' :: rest =>
      match continuation? rest with
      | some rest => multilineBasic limit rest
      | none =>
        match rest with
        | 'u' :: a :: b :: c :: d :: rest => do
          let char ← numberedChar? [a, b, c, d]
          prepend [char] (multilineBasic limit rest)
        | 'U' :: a :: b :: c :: d :: e :: f :: g :: h :: rest => do
          let char ← numberedChar? [a, b, c, d, e, f, g, h]
          prepend [char] (multilineBasic limit rest)
        | c :: rest => do
          let char ← escapeLetter? c
          prepend [char] (multilineBasic limit rest)
        | [] => none
    | c :: rest =>
      match newline? cs with
      | some rest => prepend ['\n'] (multilineBasic limit rest)
      | none => if isTextChar c then prepend [c] (multilineBasic limit rest) else none
    | [] => none

/-- A literal string that may span lines. -/
def multilineLiteral : (limit : Nat) → List Char → Option (List Char × List Char)
  | 0, _ => none
  | limit + 1, cs =>
    match cs with
    | '\'' :: '\'' :: '\'' :: '\'' :: '\'' :: rest => some (['\'', '\''], rest)
    | '\'' :: '\'' :: '\'' :: '\'' :: rest => some (['\''], rest)
    | '\'' :: '\'' :: '\'' :: rest => some ([], rest)
    | c :: rest =>
      match newline? cs with
      | some rest => prepend ['\n'] (multilineLiteral limit rest)
      | none => if isTextChar c then prepend [c] (multilineLiteral limit rest) else none
    | [] => none

/-- A line end right behind opening triple quotes does not count. -/
def dropFirstNewline (cs : List Char) : List Char := (newline? cs).getD cs

/-- A string of any kind, from its opening quotes on. -/
def string? (cs : List Char) : Option (List Char × List Char) :=
  match cs with
  | '"' :: '"' :: '"' :: rest =>
    let rest := dropFirstNewline rest
    multilineBasic (rest.length + 1) rest
  | '\'' :: '\'' :: '\'' :: rest =>
    let rest := dropFirstNewline rest
    multilineLiteral (rest.length + 1) rest
  | '"' :: rest => basic rest
  | '\'' :: rest => literal rest
  | _ => none

end Playthrough.Toml
