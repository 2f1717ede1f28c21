import Syndication.Json.Token
/-!
# TOML characters, strings and keys

A reader takes something off the front of a text. Strings come in four kinds: with escapes or
without, on one line or on several. A key is one or more names with points between them.
-/

namespace Syndication.Toml

/-- Takes a value off the front of a text. -/
abbrev Reader (α : Type) := List Char → Option (α × List Char)

/-! ## Characters -/

/-- Blanks within a line. -/
def isBlank (c : Char) : Bool := c = ' ' || c = '\t'

/-- Characters that may stand in comments and strings as they are. -/
def isPlain (c : Char) : Bool := (' ' ≤ c && c ≠ '\x7f') || c = '\t'

/-- The text after the blanks at its start. -/
def skipBlanks (text : List Char) : List Char := text.dropWhile isBlank

/-- The text after blanks and a comment. -/
def skipComment (text : List Char) : List Char :=
  match skipBlanks text with
  | '#' :: rest => rest.dropWhile isPlain
  | rest => rest

/-- The text after the end of a line, before which only blanks and a comment may stand. -/
def endLine? (text : List Char) : Option (List Char) :=
  match skipComment text with
  | [] => some []
  | '\n' :: rest => some rest
  | '\r' :: '\n' :: rest => some rest
  | _ => none

/-- The text after blanks, line ends and comments. -/
def skipGaps (comment : Bool) : List Char → List Char
  | [] => []
  | '\n' :: rest => skipGaps false rest
  | '\r' :: '\n' :: rest => skipGaps false rest
  | c :: rest =>
    if comment then if isPlain c then skipGaps true rest else c :: rest
    else if isBlank c then skipGaps false rest
    else if c = '#' then skipGaps true rest
    else c :: rest

/-! ## Escapes -/

/-- The character with a code in hexadecimal digits. -/
def coded? (digits : List Char) : Option Char := do
  let values ← digits.mapM Json.hexValue?
  let code := values.foldl (fun n d => 16 * n + d) 0
  if code.isValidChar then some (Char.ofNat code) else none

/-- The character that a short escape stands for. -/
def shortEscape? (c : Char) : Option Char := if c = '/' then none else Json.shortEscape? c

/-! ## Strings -/

/-- The rest of a string with escapes on one line. -/
def basicString (before : List Char) : Reader (List Char)
  | '"' :: rest => some (before.reverse, rest)
  | '\\' :: 'u' :: a :: b :: c :: d :: rest => do
    let e ← coded? [a, b, c, d]
    basicString (e :: before) rest
  | '\\' :: 'U' :: a :: b :: c :: d :: e :: f :: g :: h :: rest => do
    let i ← coded? [a, b, c, d, e, f, g, h]
    basicString (i :: before) rest
  | '\\' :: c :: rest => do
    let e ← shortEscape? c
    basicString (e :: before) rest
  | c :: rest => if isPlain c ∧ c ≠ '\\' then basicString (c :: before) rest else none
  | [] => none

/-- The rest of a string without escapes on one line. -/
def literalString (before : List Char) : Reader (List Char)
  | '\'' :: rest => some (before.reverse, rest)
  | c :: rest => if isPlain c then literalString (c :: before) rest else none
  | [] => none

/-- The text after the blanks and line ends that a backslash at the end of a line takes away; the
line has to end. -/
def joinLines (ended : Bool) : List Char → Option (List Char)
  | '\n' :: rest => joinLines true rest
  | '\r' :: '\n' :: rest => joinLines true rest
  | c :: rest =>
    if isBlank c then joinLines ended rest else if ended then some (c :: rest) else none
  | [] => none

/-- The rest of a string of several lines, with escapes. Up to two quotes may stand before the
three that end it. -/
def basicLines (before : List Char) : (fuel : Nat) → Reader (List Char)
  | 0, _ => none
  | fuel + 1, text =>
    match text with
    | '"' :: '"' :: '"' :: '"' :: '"' :: rest => some (('"' :: '"' :: before).reverse, rest)
    | '"' :: '"' :: '"' :: '"' :: rest => some (('"' :: before).reverse, rest)
    | '"' :: '"' :: '"' :: rest => some (before.reverse, rest)
    | '\n' :: rest => basicLines ('\n' :: before) fuel rest
    | '\r' :: '\n' :: rest => basicLines ('\n' :: before) fuel rest
    | '\\' :: 'u' :: a :: b :: c :: d :: rest => do
      let e ← coded? [a, b, c, d]
      basicLines (e :: before) fuel rest
    | '\\' :: 'U' :: a :: b :: c :: d :: e :: f :: g :: h :: rest => do
      let i ← coded? [a, b, c, d, e, f, g, h]
      basicLines (i :: before) fuel rest
    | '\\' :: c :: rest =>
      match shortEscape? c with
      | some e => basicLines (e :: before) fuel rest
      | none => do
        let rest ← joinLines false (c :: rest)
        basicLines before fuel rest
    | c :: rest => if isPlain c ∧ c ≠ '\\' then basicLines (c :: before) fuel rest else none
    | [] => none

/-- The rest of a string of several lines, without escapes. -/
def literalLines (before : List Char) : Reader (List Char)
  | '\'' :: '\'' :: '\'' :: '\'' :: '\'' :: rest => some (('\'' :: '\'' :: before).reverse, rest)
  | '\'' :: '\'' :: '\'' :: '\'' :: rest => some (('\'' :: before).reverse, rest)
  | '\'' :: '\'' :: '\'' :: rest => some (before.reverse, rest)
  | '\r' :: '\n' :: rest => literalLines ('\n' :: before) rest
  | '\n' :: rest => literalLines ('\n' :: before) rest
  | c :: rest => if isPlain c then literalLines (c :: before) rest else none
  | [] => none

/-- A string of several lines without the line end that may follow its opening. -/
def dropLineEnd : List Char → List Char
  | '\n' :: rest => rest
  | '\r' :: '\n' :: rest => rest
  | text => text

/-- A string of any kind. -/
def string? : Reader (List Char)
  | '"' :: '"' :: '"' :: rest => basicLines [] (rest.length + 1) (dropLineEnd rest)
  | '\'' :: '\'' :: '\'' :: rest => literalLines [] (dropLineEnd rest)
  | '"' :: rest => basicString [] rest
  | '\'' :: rest => literalString [] rest
  | _ => none

/-! ## Keys -/

/-- Characters of a name without quotes. -/
def isBare (c : Char) : Bool := c.isAlphanum || c = '_' || c = '-'

/-- A name, with quotes or without. -/
def name? : Reader String
  | '"' :: rest => (basicString [] rest).map fun (name, rest) => (String.ofList name, rest)
  | '\'' :: rest => (literalString [] rest).map fun (name, rest) => (String.ofList name, rest)
  | text =>
    if (text.takeWhile isBare).isEmpty then none
    else some (String.ofList (text.takeWhile isBare), text.dropWhile isBare)

/-- The names of a key, at most so many, with blanks around each. -/
def key? : (limit : Nat) → Reader (List String)
  | 0, _ => none
  | limit + 1, text => do
    let (name, rest) ← name? (skipBlanks text)
    match skipBlanks rest with
    | '.' :: rest => do
      let (names, rest) ← key? limit rest
      some (name :: names, rest)
    | rest => some ([name], rest)

/-- How many names a key may have, and how deep values may be nested. -/
def nesting : Nat := 79

end Syndication.Toml
