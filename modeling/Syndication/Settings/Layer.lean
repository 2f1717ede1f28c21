import Syndication.Json.Reader
import Syndication.Number.Stepwise
import Syndication.Settings.Assignment
import Syndication.Toml.Document
import Syndication.Workspace.Path
/-!
# Layers of settings

Settings come in layers: one from a file and above it one from variables. A layer gives settings
by name, and `Layer.settle` assigns them one after another. A file that is no text, or that is in
no known format by its name, gives nothing; one that is malformed gives no layer.
-/

namespace Syndication

/-- Settings by their names, the later ones above the earlier. -/
abbrev Layer := List (String × Setting)

/-- The table of all settings of a layer. -/
def Layer.settle (layer : Layer) : Except Setting.Misplacement Setting :=
  layer.foldlM (fun all (name, value) => Setting.assign value (Setting.path name) all) (.table [])

/-! ## Files -/

/-- How deep arrays and objects may be nested in a file. -/
def Setting.maxDepth : Nat := 127

/-- A number other than a whole one of 64 bits with a sign, as a setting. It is read in steps. -/
def Setting.ofLiteral? (literal : List Char) : Option Setting :=
  (Double.stepwise? literal).map .real

/-- A JSON value as a setting, nested at most to the given depth. -/
def Setting.ofJson? : (depth : Nat) → Json → Option Setting
  | _, .null => some .null
  | _, .bool b => some (.flag b)
  | _, .int n =>
    if -9223372036854775808 ≤ n ∧ n ≤ 9223372036854775807 then some (.int n)
    else Setting.ofLiteral? (Decimal.ofInt n)
  | _, .real literal => Setting.ofLiteral? literal
  | _, .str s => s.map .text
  | 0, _ => none
  | depth + 1, .arr items => do
    let items ← items.mapM (Setting.ofJson? depth)
    some (.ofItems items)
  | depth + 1, .obj members => do
    let members ← members.mapM fun (name, value) => do
      let name ← name
      let setting ← Setting.ofJson? depth value
      some (name, setting)
    some (.table members)

/-- The settings of an object. -/
def Layer.ofJson? (value : Json) : Option Layer :=
  match Setting.ofJson? Setting.maxDepth value with
  | some (.table members) => some members
  | _ => none

/-- The settings of a file. -/
def Layer.ofFile? (path : String) (bytes : List UInt8) : Option Layer :=
  match String.fromUTF8? ⟨bytes.toArray⟩, Path.extension path with
  | some text, "toml" => Toml.parse? text
  | some text, "json" => (Json.parse? text).bind Layer.ofJson?
  | _, _ => some []

/-- The files that hold settings under a path, of which the first that exists counts. -/
def Layer.files (path : String) : List String :=
  path :: [".toml", ".json"].filterMap (Path.extend? path)

/-- The settings of the first file that exists. -/
def Layer.read? {m : Type → Type} [Monad m] (readFile : String → m (Option (List UInt8))) :
    List String → m (Option Layer)
  | [] => pure (some [])
  | path :: others => do
    match ← readFile path with
    | some bytes => pure (Layer.ofFile? path bytes)
    | none => Layer.read? readFile others

/-! ## Variables -/

/-- What the names of variables begin with, in lower case. -/
def Layer.variableStart : String := "feedsync_"

/-- A variable as a setting, if its name is one of a setting. -/
def Layer.ofVariable? : String × String → Option (String × Setting)
  | (name, value) =>
    (variableStart.toList.isPrefixOf? (Setting.lower name).toList).map fun rest =>
      (String.ofList rest, .ofVariable value)

/-- The settings of variables. -/
def Layer.ofVariables (environment : List (String × String)) : Layer :=
  environment.filterMap Layer.ofVariable?

end Syndication
