import Syndication.Text.Blank
import Syndication.Text.Decimal
import Syndication.Time.Local
/-!
# Reading instants in records

The relaxed reader of instants. Besides RFC 3339 it accepts years with a sign and any number of
digits, fields of one digit, blanks before each number and around the separators, `UTC` for the
offset, and colons and blanks in any number between the hours and the minutes of an offset.
-/

namespace Syndication.Instant

open Time Text

/-- The part of a text not yet read; nothing when it cannot be read. -/
abbrev Scan := StateT (List Char) Option

namespace Scan

/-- Skips blanks. -/
def blanks : Scan Unit := fun text => some ((), trimStart text)

/-- The given character. -/
def char (c : Char) : Scan Unit := fun text =>
  match text with
  | d :: rest => if d = c then some ((), rest) else none
  | [] => none

/-- At least one digit, from the first `most` characters. -/
def digits (most : Nat) : Scan Nat := fun text =>
  let found := (text.take most).takeWhile Char.isDigit
  if found.isEmpty then none else some (Decimal.toNat found, text.drop found.length)

/-- A number of at most two digits after blanks. -/
def short : Scan Nat := do
  blanks
  digits 2

/-- A year: up to four digits, or a sign and any number of digits. -/
def year : Scan Int := fun text =>
  match trimStart text with
  | '-' :: rest => do
    let (n, rest) ← digits rest.length rest
    some (-n, rest)
  | '+' :: rest => do
    let (n, rest) ← digits rest.length rest
    some (n, rest)
  | text => do
    let (n, rest) ← digits 4 text
    some (n, rest)

/-- A separator with blanks before it. -/
def separator (c : Char) : Scan Unit := do
  blanks
  char c

/-- The character between date and time. -/
def between : Scan Unit := fun text =>
  match text with
  | c :: rest => if c = 'T' || c = 't' || c = ' ' then some ((), rest) else none
  | [] => none

/-- A fraction directly after the seconds, as nanoseconds; the first nine digits count. -/
def fraction : Scan Nat := fun text =>
  match text with
  | '.' :: rest =>
    let found := rest.takeWhile Char.isDigit
    let kept := found.take 9
    if found.isEmpty then none
    else some (Decimal.toNat kept * Nat.pow 10 (9 - kept.length), rest.drop found.length)
  | _ => some (0, text)

/-- Hours, any run of colons and blanks, and minutes below 60; in minutes. -/
def offsetMinutes : Scan Nat := fun text =>
  match text with
  | h₁ :: h₂ :: rest =>
    match rest.dropWhile fun c => c = ':' || isBlank c with
    | m₁ :: m₂ :: rest =>
      if h₁.isDigit && h₂.isDigit && m₁.isDigit && m₂.isDigit && Decimal.value m₁ < 6 then
        some (Decimal.toNat [h₁, h₂] * 60 + Decimal.toNat [m₁, m₂], rest)
      else none
    | _ => none
  | _ => none

/-- The offset from universal time, in minutes to the east. -/
def offset : Scan Int := fun text =>
  match text with
  | '+' :: rest => do
    let (n, rest) ← offsetMinutes rest
    some (n, rest)
  | '-' :: rest => do
    let (n, rest) ← offsetMinutes rest
    some (-n, rest)
  | '\u2212' :: rest => do
    let (n, rest) ← offsetMinutes rest
    some (-n, rest)
  | c :: rest =>
    if c = 'Z' || c = 'z' then some (0, rest)
    else if String.ofList ((text.take 3).map Char.toUpper) = "UTC" then some (0, text.drop 3)
    else none
  | [] => none

/-- A date, a time and an offset, up to the end of the text. -/
def instant : Scan Instant := do
  let year ← year
  separator '-'
  let month ← short
  separator '-'
  let day ← short
  between
  let hour ← short
  separator ':'
  let minute ← short
  separator ':'
  let second ← short
  let nano ← fraction
  blanks
  let offset ← offset
  blanks
  let rest ← get
  if rest.isEmpty && isOffset offset then
    match toInstant? ⟨year, month, day⟩ ⟨hour, minute, second, nano⟩ offset with
    | some t => pure t
    | none => failure
  else failure

end Scan

/-- The instant that a text stands for, if it stands for one. -/
def parse? (text : String) : Option Instant := (Scan.instant.run text.toList).map (·.1)

end Syndication.Instant
