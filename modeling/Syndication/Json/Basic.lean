/-!
# JSON values

The values that records are read from and written to. A number that is not a whole number written
as one is kept as it is written, and a string is kept only if its escapes name a text: nothing in
a record is a fraction or half a surrogate pair, but what a record does not know about may be.
-/

namespace Syndication

/-- A JSON value. -/
inductive Json
  | null
  | bool (b : Bool)
  /-- A number without fraction and exponent, other than minus zero. -/
  | int (n : Int)
  /-- Any other number, as it is written. -/
  | real (literal : List Char)
  /-- A string; none when its escapes name no text. -/
  | str (text : Option String)
  | arr (items : List Json)
  /-- The members in their order; a name may come again. -/
  | obj (members : List (Option String × Json))
  deriving Inhabited

namespace Json

/-- A string with the given text. -/
def text (s : String) : Json := .str (some s)

/-- The value or null. -/
def nullable {α : Type} (toJson : α → Json) : Option α → Json
  | some a => toJson a
  | none => .null

/-- An object with the given members. -/
def object (members : List (String × Json)) : Json :=
  .obj (members.map fun (name, value) => (some name, value))

end Json

end Syndication
