import Syndication.Json.Token
/-!
# Reading JSON

A text is one JSON value. Its tokens drive a machine with a stack of the arrays and objects that
have been opened, so values may be nested to any depth.
-/

namespace Syndication.Json

/-- An array or object that has been opened, with what stands in it so far in reverse. -/
inductive Frame
  | items (before : List Json)
  /-- The value under the given name is being read. -/
  | members (before : List (Option String × Json)) (name : Option String)

/-- What may come next. -/
inductive Expecting
  /-- A value. -/
  | value
  /-- An item or the end of an array just opened. -/
  | firstItem
  /-- A name or, in an object just opened, its end. -/
  | name (before : List (Option String × Json)) (opened : Bool)
  /-- The colon after a name. -/
  | colon (before : List (Option String × Json)) (name : Option String)
  /-- Whatever may follow the given value. -/
  | after (value : Json)

/-- The first token of a value. -/
def enter? (stack : List Frame) : Token → Option (List Frame × Expecting)
  | .scalar value => some (stack, .after value)
  | .beginArray => some (stack, .firstItem)
  | .beginObject => some (stack, .name [] true)
  | _ => none

/-- The token after a value, which stands in the innermost array or object. -/
def leave? (value : Json) : List Frame → Token → Option (List Frame × Expecting)
  | .items before :: stack, .comma => some (.items (value :: before) :: stack, .value)
  | .items before :: stack, .endArray => some (stack, .after (.arr (value :: before).reverse))
  | .members before name :: stack, .comma => some (stack, .name ((name, value) :: before) false)
  | .members before name :: stack, .endObject =>
    some (stack, .after (.obj ((name, value) :: before).reverse))
  | _, _ => none

/-- One token. -/
def accept? (stack : List Frame) (expecting : Expecting) (token : Token) :
    Option (List Frame × Expecting) :=
  match expecting with
  | .value => enter? stack token
  | .firstItem =>
    match token with
    | .endArray => some (stack, .after (.arr []))
    | token => enter? (.items [] :: stack) token
  | .name before opened =>
    match token with
    | .scalar (.str name) => some (stack, .colon before name)
    | .endObject => if opened then some (stack, .after (.obj [])) else none
    | _ => none
  | .colon before name =>
    match token with
    | .colon => some (.members before name :: stack, .value)
    | _ => none
  | .after value => leave? value stack token

/-- The value that the rest of the tokens complete. -/
def valueFrom? (stack : List Frame) (expecting : Expecting) : List Token → Option Json
  | [] =>
    match stack, expecting with
    | [], .after value => some value
    | _, _ => none
  | token :: rest =>
    match accept? stack expecting token with
    | some (stack, expecting) => valueFrom? stack expecting rest
    | none => none

/-- The value that a text stands for, if it stands for one. -/
def parse? (text : String) : Option Json := do
  let tokens ← tokens? text.toList
  valueFrom? [] .value tokens

end Syndication.Json
