import Syndication.Text.Decimal
import Syndication.Time.Local
/-!
# Reading stamps

The strict reader of stored instants. It accepts RFC 3339 with any offset and any number of
fraction digits, letters in either case and a blank for the `T`; it refuses everything else, with
the first fault in the order in which the text is checked: the length, the characters of the date,
the date, the characters of the time, the fraction, the time, the offset, and what follows it.
-/

namespace Syndication.Stamp

open Time

/-- Why a text is no stamp. -/
inductive Fault
  /-- The text ends before the stamp does. -/
  | tooShort
  /-- A character that cannot stand where it stands. -/
  | invalid
  /-- A number or a date that does not exist. -/
  | outOfRange
  /-- The text goes on after the stamp. -/
  | tooLong
  deriving DecidableEq, Repr

/-- The wording of a fault. -/
def Fault.message : Fault → String
  | .tooShort => "premature end of input"
  | .invalid => "input contains invalid characters"
  | .outOfRange => "input is out of range"
  | .tooLong => "trailing input"

/-! ## Pieces -/

/-- Reads part of the text or stops with a fault. -/
abbrev Reader := StateT (List Char) (Except Fault)

/-- Exactly `count` digits, where the text is known to be long enough. -/
def digits (count : Nat) : Reader Nat := fun text =>
  let found := text.take count
  if found.length = count ∧ found.all Char.isDigit then
    .ok (Decimal.toNat found, text.drop count)
  else .error .invalid

/-- One of the given characters, where the text is known to be long enough. -/
def oneOf (allowed : List Char) : Reader Unit := fun text =>
  match text with
  | c :: rest => if c ∈ allowed then .ok ((), rest) else .error .invalid
  | [] => .error .invalid

/-- The digits of a fraction as nanoseconds: the first nine count, the others are dropped. -/
def fraction : Reader Nat := fun text =>
  match text with
  | '.' :: rest =>
    match rest with
    | [] => .error .tooShort
    | c :: _ =>
      if c.isDigit then
        let found := rest.takeWhile Char.isDigit
        let kept := found.take 9
        .ok (Decimal.toNat kept * Nat.pow 10 (9 - kept.length), rest.dropWhile Char.isDigit)
      else .error .invalid
  | _ => .ok (0, text)

/-- Two digits of an offset. A lone ASCII character is too short, any other pair of bytes that is
not two digits is invalid. -/
def offsetPair : Reader (Nat × Nat) := fun text =>
  match text with
  | a :: b :: rest =>
    if a.isDigit && b.isDigit then .ok ((Decimal.value a, Decimal.value b), rest)
    else .error .invalid
  | [a] => .error (if a.utf8Size = 1 then .tooShort else .invalid)
  | [] => .error .tooShort

/-- The colon of an offset. -/
def offsetColon : Reader Unit := fun text =>
  match text with
  | ':' :: rest => .ok ((), rest)
  | _ :: _ => .error .invalid
  | [] => .error .tooShort

/-- Hours and minutes of an offset, in minutes. -/
def offsetMinutes : Reader Nat := do
  let (h₁, h₂) ← offsetPair
  offsetColon
  let (m₁, m₂) ← offsetPair
  if 6 ≤ m₁ then throw .outOfRange
  pure ((10 * h₁ + h₂) * 60 + (10 * m₁ + m₂))

/-- The offset from universal time, in minutes to the east. -/
def offset : Reader Int := fun text =>
  match text with
  | 'Z' :: rest => .ok (0, rest)
  | 'z' :: rest => .ok (0, rest)
  | '+' :: rest => do
    let (n, rest) ← offsetMinutes rest
    .ok (n, rest)
  | '-' :: rest => do
    let (n, rest) ← offsetMinutes rest
    .ok (-n, rest)
  | '\u2212' :: rest => do
    let (n, rest) ← offsetMinutes rest
    .ok (-n, rest)
  | _ :: _ => .error .invalid
  | [] => .error .tooShort

/-! ## The whole stamp -/

/-- Year, month and day. -/
def date : Reader Date := do
  let year ← digits 4
  oneOf ['-']
  let month ← digits 2
  oneOf ['-']
  let day ← digits 2
  let date : Date := ⟨year, month, day⟩
  unless date.IsValid do throw .outOfRange
  pure date

/-- Hour, minute, second and fraction. -/
def clock : Reader Clock := do
  let hour ← digits 2
  oneOf [':']
  let minute ← digits 2
  oneOf [':']
  let second ← digits 2
  let nano ← fraction
  let clock : Clock := ⟨hour, minute, second, nano⟩
  unless clock.IsValid do throw .outOfRange
  pure clock

/-- The instant that a text stands for. -/
def decode (text : String) : Except Fault Instant := do
  if text.utf8ByteSize < 19 then throw .tooShort
  let (date, rest) ← date text.toList
  let ((), rest) ← oneOf ['T', 't', ' '] rest
  let (clock, rest) ← clock rest
  let (offset, rest) ← offset rest
  unless rest.isEmpty do throw .tooLong
  unless isOffset offset do throw .outOfRange
  match toInstant? date clock offset with
  | some t => pure t
  | none => throw .outOfRange

end Syndication.Stamp
