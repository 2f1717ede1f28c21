import Syndication.Json.Basic
import Syndication.Text.Decimal
/-!
# Writing JSON

`compact` writes a value without any blanks; `pretty` gives each item and member a line of its
own, indented by two blanks for each level. Only the quote, the backslash and the controls below
the blank are escaped in strings.
-/

namespace Syndication.Json

/-- The hexadecimal digit of a value below sixteen. -/
def hexDigit (n : Nat) : Char := Nat.digitChar n

/-- One character of a string. -/
def escaped (c : Char) : List Char :=
  if c = '"' then ['\\', '"']
  else if c = '\\' then ['\\', '\\']
  else if c = '\x08' then ['\\', 'b']
  else if c = '\x0c' then ['\\', 'f']
  else if c = '\n' then ['\\', 'n']
  else if c = '\r' then ['\\', 'r']
  else if c = '\t' then ['\\', 't']
  else if c < ' ' then ['\\', 'u', '0', '0', hexDigit (c.toNat / 16), hexDigit (c.toNat % 16)]
  else [c]

/-- A string between quotes. Half a surrogate pair stands for every string that names no text. -/
def quotedText : Option String → List Char
  | some s => '"' :: (s.toList.flatMap escaped ++ ['"'])
  | none => ['"', '\\', 'u', 'd', '8', '0', '0', '"']

/-- A value without items and members. -/
def scalarText : Json → List Char
  | .null => ['n', 'u', 'l', 'l']
  | .bool true => ['t', 'r', 'u', 'e']
  | .bool false => ['f', 'a', 'l', 's', 'e']
  | .int n => Decimal.ofInt n
  | .real literal => literal
  | .str text => quotedText text
  | .arr _ => ['[', ']']
  | .obj _ => ['\x7b', '\x7d']

/-! ## Without blanks -/

mutual

/-- The value without blanks. -/
def compact : Json → List Char
  | .arr (item :: items) => '[' :: (compact item ++ (compactItems items ++ [']']))
  | .obj (member :: members) =>
    '\x7b' :: (compactMember member ++ (compactMembers members ++ ['\x7d']))
  | value => scalarText value

/-- Items after the first, each with the comma before it. -/
def compactItems : List Json → List Char
  | [] => []
  | item :: items => ',' :: (compact item ++ compactItems items)

/-- A name and its value. -/
def compactMember : Option String × Json → List Char
  | (name, value) => quotedText name ++ ':' :: compact value

/-- Members after the first, each with the comma before it. -/
def compactMembers : List (Option String × Json) → List Char
  | [] => []
  | member :: members => ',' :: (compactMember member ++ compactMembers members)

end

/-! ## On lines -/

/-- A new line at a level. -/
def newLine (level : Nat) : List Char := '\n' :: List.replicate (2 * level) ' '

mutual

/-- The value with its items and members on lines of their own, one level below `level`. -/
def prettyAt (level : Nat) : Json → List Char
  | .arr (item :: items) =>
    '[' :: (newLine (level + 1) ++ (prettyAt (level + 1) item ++
      (prettyItems (level + 1) items ++ (newLine level ++ [']']))))
  | .obj (member :: members) =>
    '\x7b' :: (newLine (level + 1) ++ (prettyMember (level + 1) member ++
      (prettyMembers (level + 1) members ++ (newLine level ++ ['\x7d']))))
  | value => scalarText value

/-- Items after the first. -/
def prettyItems (level : Nat) : List Json → List Char
  | [] => []
  | item :: items => ',' :: (newLine level ++ (prettyAt level item ++ prettyItems level items))

/-- A name and its value. -/
def prettyMember (level : Nat) : Option String × Json → List Char
  | (name, value) => quotedText name ++ ':' :: ' ' :: prettyAt level value

/-- Members after the first. -/
def prettyMembers (level : Nat) : List (Option String × Json) → List Char
  | [] => []
  | member :: members =>
    ',' :: (newLine level ++ (prettyMember level member ++ prettyMembers level members))

end

/-- The value as text without blanks. -/
def toCompact (value : Json) : String := String.ofList value.compact

/-- The value as text on lines. -/
def toPretty (value : Json) : String := String.ofList (prettyAt 0 value)

end Syndication.Json
