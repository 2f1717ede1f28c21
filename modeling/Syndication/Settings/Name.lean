import Syndication.Settings.Value
/-!
# Names of settings

In the name of a setting the case of letters does not count. A name may lead from a setting to
something inside it, by a point and a name into a table or by a number in brackets into a list. A
name that only begins like that is one name.
-/

namespace Syndication.Setting

/-- A step into a setting. -/
inductive Step
  /-- To what has a name in a table. -/
  | name (name : String)
  /-- To an item of a list, counted from zero on, or back from its end if the number is negative. -/
  | index (i : Int)
  deriving DecidableEq

/-- Characters that may stand between the points and brackets of a name. -/
def isInName (c : Char) : Bool := c.isAlphanum || c = '_' || c = '-' || c = ' '

/-- Blanks around a number in brackets. -/
def isIndexBlank (c : Char) : Bool := c = ' ' || c = '\t'

/-- The number that stands in brackets. -/
def index? (text : List Char) : Option Int :=
  let number := ((text.dropWhile isIndexBlank).reverse.dropWhile isIndexBlank).reverse
  if number.head? = some '+' then none else Decimal.toInt64? number

/-- The steps that lead on from a setting. -/
def steps? (text : List Char) : Option (List Step) :=
  match text with
  | [] => some []
  | '.' :: rest =>
    let name := rest.takeWhile isInName
    if name.isEmpty then none
    else (steps? (rest.dropWhile isInName)).map (.name (String.ofList name) :: ·)
  | '[' :: rest => do
    let i ← index? (rest.takeWhile (· ≠ ']'))
    if (rest.dropWhile (· ≠ ']')).isEmpty then none
    let others ← steps? ((rest.dropWhile (· ≠ ']')).drop 1)
    some (.index i :: others)
  | _ => none
  termination_by text.length
  decreasing_by
  · have := (List.dropWhile_sublist isInName (l := rest)).length_le
    simp only [List.length_cons]; omega
  · have := (List.dropWhile_sublist (fun c : Char => decide (c ≠ ']')) (l := rest)).length_le
    simp only [List.length_cons, List.length_drop]; omega

/-- The steps that a name stands for, from the table of all settings on. -/
def path (name : String) : List Step :=
  let text := (lower name).toList
  let root := text.takeWhile isInName
  match steps? (text.dropWhile isInName) with
  | some others =>
    if root.isEmpty then [.name (lower name)] else .name (String.ofList root) :: others
  | none => [.name (lower name)]

end Syndication.Setting
