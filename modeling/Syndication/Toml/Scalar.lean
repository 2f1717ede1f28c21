import Syndication.Settings.Value
import Syndication.Time.Local
import Syndication.Toml.Text
/-!
# TOML scalars without quotes

Truth values, numbers, dates and times. A scalar is the longest run of the characters that such
scalars have, and the whole run has to be one of them. Dates and times are settings as texts.
-/

namespace Syndication.Toml

/-! ## Runs -/

/-- Characters of scalars without quotes. -/
def isScalar (c : Char) : Bool :=
  c.isAlphanum || c = '_' || c = '+' || c = '-' || c = '.' || c = ':'

/-- Whether a text has the form of a date. -/
def looksLikeDate (text : List Char) : Bool :=
  match text with
  | [a, b, c, d, '-', e, f, '-', g, h] => [a, b, c, d, e, f, g, h].all Char.isDigit
  | _ => false

/-- The run at the start of a text. A date may be followed by a blank and a time. -/
def run (text : List Char) : List Char × List Char :=
  let first := text.takeWhile isScalar
  match text.dropWhile isScalar with
  | ' ' :: c :: rest =>
    if looksLikeDate first && c.isDigit then
      (first ++ 'T' :: (c :: rest).takeWhile isScalar, (c :: rest).dropWhile isScalar)
    else (first, ' ' :: c :: rest)
  | rest => (first, rest)

/-! ## Numbers -/

/-- Digits with single underscores between them, without the underscores. -/
def plainDigits? (isDigit : Char → Bool) : List Char → Option (List Char)
  | [] => none
  | [c] => if isDigit c then some [c] else none
  | c :: '_' :: rest =>
    if isDigit c then (plainDigits? isDigit rest).map (c :: ·) else none
  | c :: rest => if isDigit c then (plainDigits? isDigit rest).map (c :: ·) else none

/-- Decimal digits without a leading zero. -/
def wholeDigits? (text : List Char) : Option (List Char) :=
  (plainDigits? Char.isDigit text).filter fun digits =>
    digits.length = 1 || digits.head? ≠ some '0'

/-- A sign and what follows it. -/
def sign : List Char → Bool × List Char
  | '-' :: rest => (true, rest)
  | '+' :: rest => (false, rest)
  | text => (false, text)

/-- A whole number that fits 64 bits with a sign. -/
def fitted? (n : Int) : Option Setting :=
  if -9223372036854775808 ≤ n ∧ n ≤ 9223372036854775807 then some (.int n) else none

/-- The whole number of digits in a base. -/
def based? (base : Nat) (text : List Char) : Option Setting := do
  let isDigit (c : Char) : Bool := (Json.hexValue? c).any (· < base)
  let digits ← plainDigits? isDigit text
  let values ← digits.mapM Json.hexValue?
  fitted? (values.foldl (fun n d => base * n + d) 0 : Nat)

/-- A whole number; none also when the run is one but too great. -/
def integer? (text : List Char) : Option Setting :=
  match text with
  | '0' :: 'x' :: digits => based? 16 digits
  | '0' :: 'o' :: digits => based? 8 digits
  | '0' :: 'b' :: digits => based? 2 digits
  | text =>
    match sign text with
    | (negative, digits) => do
      let n := Decimal.toNat (← wholeDigits? digits)
      fitted? (if negative then -(n : Int) else n)

/-- Digits of an exponent without its letter, with an optional sign. -/
def exponentDigits? (text : List Char) : Option (List Char) :=
  match text with
  | '-' :: digits => (plainDigits? Char.isDigit digits).map ('-' :: ·)
  | '+' :: digits => plainDigits? Char.isDigit digits
  | digits => plainDigits? Char.isDigit digits

/-- The exponent that a number may end with. -/
def exponentPart? : List Char → Option (List Char)
  | [] => some []
  | c :: rest => if c = 'e' ∨ c = 'E' then (exponentDigits? rest).map ('e' :: ·) else none

/-- Whether a character belongs to the digits before a point or an exponent. -/
def isSpaced (c : Char) : Bool := c.isDigit || c = '_'

/-- A point with its digits and an exponent, or an exponent alone. -/
def fractionPart? : List Char → Option (List Char)
  | '.' :: rest => do
    let places ← plainDigits? Char.isDigit (rest.takeWhile isSpaced)
    let exponent ← exponentPart? (rest.dropWhile isSpaced)
    some ('.' :: (places ++ exponent))
  | [] => none
  | rest => exponentPart? rest

/-- A number with a fraction or an exponent. One too great is refused, one too small below zero
is not. -/
def real? (text : List Char) : Option Setting :=
  match sign text with
  | (negative, ['i', 'n', 'f']) => some (.real (.infinite negative))
  | (_, ['n', 'a', 'n']) => some (.real .nan)
  | (negative, rest) => do
    let whole ← wholeDigits? (rest.takeWhile isSpaced)
    let places ← fractionPart? (rest.dropWhile isSpaced)
    let x ← Double.digits? negative (whole ++ places)
    if x = .infinite false then none else some (.real x)

/-! ## Dates and times -/

/-- Two digits. -/
def two? : Reader Nat
  | a :: b :: rest => do
    let n ← Decimal.toNat? [a, b]
    some (n, rest)
  | _ => none

/-- A date that exists. -/
def date? : Reader Time.Date
  | a :: b :: c :: d :: '-' :: rest => do
    let year ← Decimal.toNat? [a, b, c, d]
    let (month, rest) ← two? rest
    match rest with
    | '-' :: rest => do
      let (day, rest) ← two? rest
      let date : Time.Date := ⟨year, month, day⟩
      if date.IsValid then some (date, rest) else none
    | _ => none
  | _ => none

/-- A fraction of a second as nanoseconds, of which nine digits count. -/
def fraction? : Reader Nat
  | '.' :: rest =>
    let digits := rest.takeWhile Char.isDigit
    if digits.isEmpty then none
    else
      some (Decimal.toNat ((digits ++ List.replicate 9 '0').take 9), rest.dropWhile Char.isDigit)
  | rest => some (0, rest)

/-- Whether a time exists. The hour 24 does only where times are read leniently. -/
def isClock (lenient : Bool) (c : Time.Clock) : Bool :=
  c.hour ≤ (if lenient then 24 else 23) && c.minute ≤ 59 && c.second ≤ 60

/-- A time that exists. -/
def time? (lenient : Bool) (text : List Char) : Option (Time.Clock × List Char) := do
  let (hour, rest) ← two? text
  match rest with
  | ':' :: rest => do
    let (minute, rest) ← two? rest
    match rest with
    | ':' :: rest => do
      let (second, rest) ← two? rest
      let (nano, rest) ← fraction? rest
      let clock : Time.Clock := ⟨hour, minute, second, nano⟩
      if isClock lenient clock then some (clock, rest) else none
    | _ => none
  | _ => none

/-- The digits of a fraction without zeros at the end. -/
def fractionText (nano : Nat) : List Char :=
  if nano = 0 then []
  else '.' :: ((Decimal.padded 9 nano).reverse.dropWhile (· = '0')).reverse

/-- A date as text. -/
def dateText (d : Time.Date) : List Char :=
  Decimal.padded 4 d.year.toNat ++ '-' :: (Decimal.padded 2 d.month ++
    '-' :: Decimal.padded 2 d.day)

/-- A time as text. -/
def timeText (c : Time.Clock) : List Char :=
  Decimal.padded 2 c.hour ++ ':' :: (Decimal.padded 2 c.minute ++
    ':' :: (Decimal.padded 2 c.second ++ fractionText c.nano))

/-- Whether an offset exists. Read leniently, it may be a whole day and have more minutes than an
hour has. -/
def isOffset (lenient : Bool) (hour minute : Nat) : Bool :=
  if lenient then 60 * hour + minute ≤ 1440 else hour ≤ 23 && minute ≤ 59

/-- An offset of so many minutes as text. -/
def offsetText (negative : Bool) (minutes : Nat) : List Char :=
  (if negative && minutes ≠ 0 then '-' else '+') ::
    (Decimal.padded 2 (minutes / 60) ++ ':' :: Decimal.padded 2 (minutes % 60))

/-- An offset at the end of a time, as text. -/
def offset? (lenient : Bool) : List Char → Option (List Char)
  | [] => some []
  | ['Z'] => some ['Z']
  | ['z'] => some ['Z']
  | s :: rest => do
    let (hour, rest) ← two? rest
    match rest with
    | ':' :: rest => do
      let (minute, rest) ← two? rest
      if (s = '+' ∨ s = '-') ∧ isOffset lenient hour minute ∧ rest.isEmpty then
        some (offsetText (s = '-') (60 * hour + minute))
      else none
    | _ => none

/-- A date, a time, or both with or without an offset. -/
def moment? (lenient : Bool) (text : List Char) : Option Setting :=
  match date? text with
  | some (date, []) => some (.text (String.ofList (dateText date)))
  | some (date, t :: rest) =>
    if t = 'T' ∨ t = 't' ∨ t = ' ' then do
      let (clock, rest) ← time? lenient rest
      let offset ← offset? lenient rest
      some (.text (String.ofList (dateText date ++ 'T' :: (timeText clock ++ offset))))
    else none
  | none =>
    match time? lenient text with
    | some (clock, []) => some (.text (String.ofList (timeText clock)))
    | _ => none

/-! ## All of them -/

/-- The setting that a run stands for. -/
def scalar? (text : List Char) : Option Setting :=
  if text = ['t', 'r', 'u', 'e'] then some (.flag true)
  else if text = ['f', 'a', 'l', 's', 'e'] then some (.flag false)
  else (moment? false text).or ((integer? text).or (real? text))

end Syndication.Toml
