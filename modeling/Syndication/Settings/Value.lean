import Syndication.Number.Reading
import Syndication.Number.Shortest
/-!
# Values of settings

A setting is given as a truth value, a number or a text, in whatever form its source has, and is
read as the text or the count that is wanted. Lists and tables of settings, and what is null, are
read as neither.
-/

namespace Syndication

/-- The value of a setting. -/
inductive Setting
  | null
  | flag (b : Bool)
  | int (n : Int)
  | real (x : Double)
  | text (s : String)
  /-- A list of the given length. Where `items` has none, its item is null. -/
  | list (length : Nat) (items : List (Nat × Setting))
  | table (members : List (String × Setting))

namespace Setting

/-- The list of the given items. -/
def ofItems (items : List Setting) : Setting :=
  .list items.length (items.zipIdx.map fun (item, i) => (i, item))

/-- The settings in a table; there are none in anything else. -/
def members : Setting → List (String × Setting)
  | .table members => members
  | _ => []

/-- The length and the items of a list; anything else has no items. -/
def items : Setting → Nat × List (Nat × Setting)
  | .list length items => (length, items)
  | _ => (0, [])

/-- A truth value by its name. -/
def flagName (b : Bool) : String := if b then "true" else "false"

/-- A character as a small letter, if it is a letter from A to Z or the sign of the kelvin. -/
def lowerChar (c : Char) : Char := if c = '\u212a' then 'k' else c.toLower

/-- A text with its letters in lower case. -/
def lower (text : String) : String := String.ofList (text.toList.map lowerChar)

/-! ## What a variable gives -/

/-- The value that a text gives which may stand for a truth value or a number. -/
def ofVariable (text : String) : Setting :=
  if lower text = flagName true then .flag true
  else if lower text = flagName false then .flag false
  else
    match Decimal.toInt64? text.toList, Double.parse? text.toList with
    | some n, _ => .int n
    | none, some x => .real x
    | none, none => .text text

/-! ## What is wanted -/

/-- The setting as a text. -/
def toText? : Setting → Option String
  | .flag b => some (flagName b)
  | .int n => some (String.ofList (Decimal.ofInt n))
  | .real x => some (String.ofList x.toText)
  | .text s => some s
  | _ => none

/-- Digits after an optional plus sign as a natural number of 64 bits. -/
def digits? : List Char → Option Nat
  | '+' :: digits => (Decimal.toNat? digits).filter (· ≤ Double.maxNat64)
  | digits => (Decimal.toNat? digits).filter (· ≤ Double.maxNat64)

/-- A text as a count: a word for one or zero, or digits. -/
def textCount? (text : String) : Option Nat :=
  let word := lower text
  if word = "true" ∨ word = "on" ∨ word = "yes" then some 1
  else if word = "false" ∨ word = "off" ∨ word = "no" then some 0
  else digits? text.toList

/-- The setting as a count. A fraction is rounded; a whole number below zero is no count. -/
def toCount? : Setting → Option Nat
  | .flag b => some b.toNat
  | .int n => if 0 ≤ n then some n.toNat else none
  | .real x => some x.toNat64
  | .text s => textCount? s
  | _ => none

end Setting

end Syndication
