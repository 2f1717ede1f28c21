import Syndication.Json.Token
/-!
# Addresses of stores

An address is a text that begins with `file:`. What follows is a path, in which a percent sign and
two hexadecimal digits stand for a byte, and after a question mark options, each a name and a value
with an equals sign between them. A number sign ends the address. Before the path two slashes and
the name of this machine may stand.
-/

namespace Syndication

/-- The parts of an address: a path, and the names and values of options. -/
structure Address where
  path : List UInt8
  options : List (List UInt8 × List UInt8)

namespace Address

/-! ## Reading addresses -/

/-- The bytes of a text with percent signs and hexadecimal digits. The byte zero ends what it
stands in. -/
def bytes : List Char → List UInt8
  | [] => []
  | '%' :: a :: b :: rest =>
    match Json.hexValue? a, Json.hexValue? b with
    | some high, some low =>
      if high = 0 ∧ low = 0 then [] else UInt8.ofNat (16 * high + low) :: bytes rest
    | _, _ => String.utf8EncodeChar '%' ++ bytes (a :: b :: rest)
  | c :: rest => String.utf8EncodeChar c ++ bytes rest

/-- An option of an address. -/
def option (text : List Char) : List UInt8 × List UInt8 :=
  (bytes (text.takeWhile (· ≠ '=')), bytes ((text.dropWhile (· ≠ '=')).drop 1))

/-- What follows two slashes and the name of this machine, if they are there. The name of a machine
goes on up to the next slash, whatever else stands before it. -/
def afterHost? : List Char → Option (List Char)
  | '/' :: '/' :: rest =>
    let host := rest.takeWhile (· ≠ '/')
    if host = [] ∨ host = "localhost".toList then some (rest.dropWhile (· ≠ '/')) else none
  | rest => some rest

/-- The address after `file:`, unless it is on another machine. -/
def ofText? (text : List Char) : Option Address := do
  let rest := (← afterHost? text).takeWhile (· ≠ '#')
  let options := (String.ofList ((rest.dropWhile (· ≠ '?')).drop 1)).splitOn "&"
  some ⟨bytes (rest.takeWhile (· ≠ '?')), options.map fun text => option text.toList⟩

/-! ## Options -/

/-- Whether bytes are a name. -/
def named (bytes : List UInt8) (name : String) : Bool := bytes = name.toUTF8.toList

/-- The values of the options of one name. -/
def values (a : Address) (name : String) : List (List UInt8) :=
  a.options.filterMap fun (n, value) => if named n name then some value else none

/-- The greatest number that an option gives. -/
def maxNumber : Nat := 2147483647

/-- The number that digits in a base stand for, zero if it is too great. -/
def number (base : Nat) (digits : List Char) : Nat :=
  let n := digits.foldl (fun n c => base * n + (Json.hexValue? c).getD 0) 0
  if n ≤ maxNumber then n else 0

/-- The number that a text begins with, in decimal digits or after `0x` in hexadecimal ones. -/
def leadingNumber (text : List Char) : Nat :=
  let isHex (c : Char) : Bool := (Json.hexValue? c).isSome
  match text with
  | '0' :: x :: d :: rest =>
    if (x = 'x' ∨ x = 'X') ∧ isHex d then number 16 ((d :: rest).takeWhile isHex)
    else number 10 (text.takeWhile Char.isDigit)
  | text => number 10 (text.takeWhile Char.isDigit)

/-- Whether a value says yes: by a word, or by a number of which the low byte is not zero. -/
def isYes (value : List UInt8) : Bool :=
  let text := value.map fun b => (Char.ofNat b.toNat).toLower
  if text.head?.any Char.isDigit then leadingNumber text % 256 ≠ 0
  else ["on", "yes", "true"].any fun word => text = word.toList

/-- Whether the first option of a name says yes. -/
def flag (a : Address) (name : String) : Bool := ((a.values name).head?).any isYes

end Address

end Syndication
