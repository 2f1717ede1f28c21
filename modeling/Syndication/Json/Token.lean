import Syndication.Json.Basic
import Syndication.Text.Decimal
/-!
# JSON tokens

A text is cut into brackets, commas, colons and scalars by a machine that reads one character at
a time. Words and numbers are the longest runs of their characters and are checked when the run
ends; a string collects pieces, in which a surrogate written as an escape stands for itself until
the whole string is known.
-/

namespace Syndication.Json

/-- The pieces of a text that carry meaning. -/
inductive Token
  | beginArray
  | endArray
  | beginObject
  | endObject
  | comma
  | colon
  | scalar (value : Json)

/-! ## Strings -/

/-- A character of a string or a surrogate given by an escape. -/
inductive Piece
  | char (c : Char)
  | surrogate (code : Nat)

/-- The piece with the given code. -/
def Piece.ofCode (code : Nat) : Piece :=
  if 0xd800 ≤ code ∧ code < 0xe000 then .surrogate code else .char (Char.ofNat code)

/-- Pieces as text: surrogates come in pairs, the high one first. -/
def joinPieces? : List Piece → Option (List Char)
  | [] => some []
  | .char c :: rest => do
    let others ← joinPieces? rest
    some (c :: others)
  | .surrogate high :: .surrogate low :: rest => do
    if high < 0xdc00 ∧ 0xdc00 ≤ low then
      let others ← joinPieces? rest
      some (Char.ofNat (0x10000 + (high - 0xd800) * 1024 + (low - 0xdc00)) :: others)
    else none
  | .surrogate _ :: _ => none

/-- The string of the given pieces. -/
def stringOf (pieces : List Piece) : Json := .str ((joinPieces? pieces).map String.ofList)

/-- The character that a short escape stands for. -/
def shortEscape? (c : Char) : Option Char :=
  if c = '"' then some '"'
  else if c = '\\' then some '\\'
  else if c = '/' then some '/'
  else if c = 'b' then some '\x08'
  else if c = 'f' then some '\x0c'
  else if c = 'n' then some '\n'
  else if c = 'r' then some '\r'
  else if c = 't' then some '\t'
  else none

/-- The value of a hexadecimal digit. -/
def hexValue? (c : Char) : Option Nat :=
  if '0' ≤ c ∧ c ≤ '9' then some (c.toNat - '0'.toNat)
  else if 'a' ≤ c ∧ c ≤ 'f' then some (c.toNat - 'a'.toNat + 10)
  else if 'A' ≤ c ∧ c ≤ 'F' then some (c.toNat - 'A'.toNat + 10)
  else none

/-! ## Words and numbers -/

/-- The value of a word. -/
def wordValue? (word : List Char) : Option Json :=
  if word = ['n', 'u', 'l', 'l'] then some .null
  else if word = ['t', 'r', 'u', 'e'] then some (.bool true)
  else if word = ['f', 'a', 'l', 's', 'e'] then some (.bool false)
  else none

/-- Digits, at least one. -/
def isDigits (text : List Char) : Bool := !text.isEmpty && text.all Char.isDigit

/-- Digits without a leading zero. -/
def isWhole (text : List Char) : Bool :=
  isDigits text && (text.length = 1 || text.head? ≠ some '0')

/-- An exponent without its letter: digits after an optional sign. -/
def isExponent : List Char → Bool
  | '+' :: rest => isDigits rest
  | '-' :: rest => isDigits rest
  | text => isDigits text

/-- Nothing, or a letter and an exponent. -/
def isExponentPart : List Char → Bool
  | [] => true
  | c :: rest => (c = 'e' || c = 'E') && isExponent rest

/-- What may follow the whole digits of a number: a fraction, an exponent, or both. -/
def isFractionPart : List Char → Bool
  | '.' :: rest =>
    isDigits (rest.takeWhile Char.isDigit) && isExponentPart (rest.dropWhile Char.isDigit)
  | text => isExponentPart text

/-- The value of a number without its sign. -/
def magnitude? (negative : Bool) (text : List Char) : Option Json :=
  let whole := text.takeWhile Char.isDigit
  let rest := text.dropWhile Char.isDigit
  let n := Decimal.toNat whole
  if isWhole whole && isFractionPart rest then
    if negative then some (if rest.isEmpty && n ≠ 0 then .int (-n) else .real ('-' :: text))
    else some (if rest.isEmpty then .int n else .real text)
  else none

/-- The value of a number. -/
def numberValue? : List Char → Option Json
  | '-' :: rest => magnitude? true rest
  | text => magnitude? false text

/-! ## The machine -/

/-- What is being read; runs are kept in reverse. -/
inductive Lexing
  | between
  | word (run : List Char)
  | number (run : List Char)
  | string (pieces : List Piece)
  | escape (pieces : List Piece)
  | unicode (pieces : List Piece) (digits code : Nat)

/-- Blanks between tokens. -/
def isSpace (c : Char) : Bool := c = ' ' || c = '\t' || c = '\n' || c = '\r'

/-- Characters of numbers. -/
def isNumeric (c : Char) : Bool :=
  c.isDigit || c = '-' || c = '+' || c = '.' || c = 'e' || c = 'E'

/-- The tokens found, in reverse, and what is being read. -/
abbrev Lexed := List Token × Lexing

/-- A character outside of every run. -/
def begin? (found : List Token) (c : Char) : Option Lexed :=
  if isSpace c then some (found, .between)
  else if c = '[' then some (.beginArray :: found, .between)
  else if c = ']' then some (.endArray :: found, .between)
  else if c = '\x7b' then some (.beginObject :: found, .between)
  else if c = '\x7d' then some (.endObject :: found, .between)
  else if c = ',' then some (.comma :: found, .between)
  else if c = ':' then some (.colon :: found, .between)
  else if c = '"' then some (found, .string [])
  else if c.isDigit || c = '-' then some (found, .number [c])
  else if c.isAlpha then some (found, .word [c])
  else none

/-- One character. -/
def step? (found : List Token) (state : Lexing) (c : Char) : Option Lexed :=
  match state with
  | .between => begin? found c
  | .word run =>
    if c.isAlpha then some (found, .word (c :: run))
    else do
      let value ← wordValue? run.reverse
      begin? (.scalar value :: found) c
  | .number run =>
    if isNumeric c then some (found, .number (c :: run))
    else do
      let value ← numberValue? run.reverse
      begin? (.scalar value :: found) c
  | .string pieces =>
    if c = '"' then some (.scalar (stringOf pieces.reverse) :: found, .between)
    else if c = '\\' then some (found, .escape pieces)
    else if c < ' ' then none
    else some (found, .string (.char c :: pieces))
  | .escape pieces =>
    if c = 'u' then some (found, .unicode pieces 0 0)
    else do
      let d ← shortEscape? c
      some (found, .string (.char d :: pieces))
  | .unicode pieces digits code => do
    let code := 16 * code + (← hexValue? c)
    if digits < 3 then some (found, .unicode pieces (digits + 1) code)
    else some (found, .string (.ofCode code :: pieces))

/-- The tokens once the text has ended. -/
def finish? (found : List Token) : Lexing → Option (List Token)
  | .between => some found.reverse
  | .word run => do
    let value ← wordValue? run.reverse
    some (.scalar value :: found).reverse
  | .number run => do
    let value ← numberValue? run.reverse
    some (.scalar value :: found).reverse
  | _ => none

/-- The tokens of the rest of a text. -/
def tokensFrom? (found : List Token) (state : Lexing) : List Char → Option (List Token)
  | [] => finish? found state
  | c :: rest =>
    match step? found state c with
    | some (found, state) => tokensFrom? found state rest
    | none => none

/-- The tokens of a text. -/
def tokens? (text : List Char) : Option (List Token) := tokensFrom? [] .between text

end Syndication.Json
