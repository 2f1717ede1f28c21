/-!
# Decimal numbers

Whole numbers as decimal text: the shortest form, a form of fixed width, and reading digits back.
-/

namespace Syndication.Decimal

/-- The character of a digit below ten. -/
def digit (n : Nat) : Char := Char.ofNat ('0'.toNat + n)

/-- The value of a digit. -/
def value (c : Char) : Nat := c.toNat - '0'.toNat

/-- A natural number without leading zeros. -/
def ofNat (n : Nat) : List Char :=
  if n < 10 then [digit n] else ofNat (n / 10) ++ [digit (n % 10)]

/-- A whole number, with a sign if it is negative. -/
def ofInt : Int → List Char
  | .ofNat n => ofNat n
  | .negSucc n => '-' :: ofNat (n + 1)

/-- The last `width` digits of a number, leading zeros included. -/
def padded : (width : Nat) → Nat → List Char
  | 0, _ => []
  | width + 1, n => padded width (n / 10) ++ [digit (n % 10)]

/-- A natural number with at least `width` digits. -/
def atLeast (width n : Nat) : List Char :=
  if n < Nat.pow 10 width then padded width n else ofNat n

/-- The number that digits stand for. -/
def toNat (digits : List Char) : Nat := digits.foldl (fun n c => 10 * n + value c) 0

/-- A text of digits only, at least one, as a number. -/
def toNat? (text : List Char) : Option Nat :=
  if !text.isEmpty && text.all Char.isDigit then some (toNat text) else none

/-- A text of digits, with an optional sign in front, as a number. -/
def toInt? : List Char → Option Int
  | '-' :: rest => (toNat? rest).map fun n => -(n : Int)
  | '+' :: rest => (toNat? rest).map fun n => (n : Int)
  | text => (toNat? text).map fun n => (n : Int)

/-- A text of digits with an optional sign as a number that fits 64 bits with a sign. -/
def toInt64? (text : List Char) : Option Int :=
  (toInt? text).filter fun n => -9223372036854775808 ≤ n && n ≤ 9223372036854775807

end Syndication.Decimal
