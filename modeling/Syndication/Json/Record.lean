import Syndication.Json.Basic
import Syndication.Time.Relaxed
/-!
# Reading records

A record is an object with named fields or an array of them in order. Names that the record does
not know are passed over, a name it knows may come only once. Scalars are read by what they have
to be: whole numbers of 32 or 64 bits, texts, instants.
-/

namespace Syndication.Json

/-! ## Fields -/

/-- When a field may be left out. -/
inductive Presence
  /-- Never. -/
  | required
  /-- From an object. -/
  | nullable
  /-- From an object, and from the end of an array. -/
  | omissible
  deriving DecidableEq

/-- The field of an object under a name. -/
def member? (members : List (Option String × Json)) (name : String) (presence : Presence) :
    Option (Option Json) :=
  match members.filter fun m => m.1 = some name with
  | [] => if presence = .required then none else some none
  | [(_, value)] => some (some value)
  | _ => none

/-- The fields of an array in their order. -/
def items? : List Presence → List Json → Option (List (Option Json))
  | [], [] => some []
  | [], _ :: _ => none
  | .omissible :: fields, [] => (items? fields []).map (none :: ·)
  | _ :: _, [] => none
  | _ :: fields, value :: values => (items? fields values).map (some value :: ·)

/-- The fields of a record in the order given, none where one has been left out. -/
def fields? (fields : List (String × Presence)) : Json → Option (List (Option Json))
  | .obj members =>
    if members.all fun m => m.1.isSome then
      fields.mapM fun (name, presence) => member? members name presence
    else none
  | .arr values => items? (fields.map (·.2)) values
  | _ => none

/-! ## Field values -/

/-- A field that has to be there. -/
def present {α : Type} (read : Json → Option α) : Option Json → Option α
  | some value => read value
  | none => none

/-- A field that may be left out or null. -/
def optional {α : Type} (read : Json → Option α) : Option Json → Option (Option α)
  | none => some none
  | some .null => some none
  | some value => (read value).map some

/-- A whole number within bounds. -/
def between? (low high : Int) : Json → Option Int
  | .int n => if low ≤ n ∧ n ≤ high then some n else none
  | _ => none

/-- The least signed number of 64 bits. -/
def minInt64 : Int := -9223372036854775808

/-- The greatest signed number of 64 bits. -/
def maxInt64 : Int := 9223372036854775807

/-- A signed number of 64 bits. -/
def int64? : Json → Option Int := between? minInt64 maxInt64

/-- A signed number of 32 bits. -/
def int32? : Json → Option Int := between? (-2147483648) 2147483647

/-- An unsigned number of 64 bits. -/
def nat64? (value : Json) : Option Nat := (between? 0 18446744073709551615 value).map Int.toNat

/-- A text. -/
def text? : Json → Option String
  | .str text => text
  | _ => none

/-- An instant. -/
def instant? (value : Json) : Option Instant := do Instant.parse? (← text? value)

/-- An array of values of one kind. -/
def list? {α : Type} (read : Json → Option α) : Json → Option (List α)
  | .arr items => items.mapM read
  | _ => none

end Syndication.Json
