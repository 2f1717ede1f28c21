import Syndication.Settings.Layer
/-!
# Settings

Where the store is kept and how many rows are inserted at a time. `Settings.load` puts the layer
of a file under that of the environment and takes what neither gives from the defaults.
-/

namespace Syndication

/-- Where the store is kept and how many rows are inserted at a time. -/
structure Settings where
  storePath : String
  batchSize : Nat
  deriving DecidableEq

namespace Settings

/-- Why there are no settings. -/
inductive Fault
  /-- The file is malformed. -/
  | malformed
  /-- The name of a setting leads nowhere. -/
  | misplaced (cause : Setting.Misplacement)
  /-- A setting has a value of another kind or out of range. -/
  | unusable
  deriving DecidableEq

/-- Where the store is kept if nothing says otherwise. -/
def defaultStorePath : String := "feedsync.db"

/-- How many rows are inserted at a time if nothing says otherwise. -/
def defaultBatchSize : Nat := 500

/-- The user's home among the variables. -/
def home? (environment : List (String × String)) : Option String := environment.lookup "HOME"

/-- The setting under a name, read as what is wanted, or its default. -/
def wanted? {α : Type} (table : List (String × Setting)) (name : String)
    (read : Setting → Option α) (default : α) : Option α :=
  match table.lookup name with
  | some setting => read setting
  | none => some default

/-- The settings of a table. -/
def ofTable? (home : Option String) (table : List (String × Setting)) : Option Settings := do
  let path ← wanted? table "store_path" Setting.toText? defaultStorePath
  let size ← wanted? table "batch_size" Setting.toCount? defaultBatchSize
  some ⟨Path.expandHome home path, size⟩

/-- The settings of the layer of a file, if it has one, and of the variables, which win. -/
def ofLayers (environment : List (String × String)) : Option Layer → Except Fault Settings
  | none => .error .malformed
  | some file =>
    match Layer.settle (file ++ Layer.ofVariables environment) with
    | .error cause => .error (.misplaced cause)
    | .ok all =>
      match ofTable? (home? environment) all.members with
      | none => .error .unusable
      | some settings => .ok settings

/-- The settings of the file at a path, if there is one, and of the variables. -/
def load {m : Type → Type} [Monad m] (readFile : String → m (Option (List UInt8)))
    (environment : List (String × String)) (path : String) : m (Except Fault Settings) := do
  let file ← Layer.read? readFile (Layer.files path)
  pure (ofLayers environment file)

end Settings

end Syndication
