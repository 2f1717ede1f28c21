import Syndication.Store.Tables
import Syndication.Workspace.Path
/-!
# Workspaces

A workspace is a directory with files, directories and stores in it, in which commands run one
after another. Paths lead from the directory and nowhere outside of it, and are followed name by
name.
-/

namespace Syndication

/-- What stands at a place. -/
inductive Entry
  | directory
  | file (bytes : List UInt8)
  /-- A store, which may keep its changes in a log. -/
  | store (store : Store) (logged : Bool)

/-- What stands at the places of a directory. -/
structure Workspace where
  entries : List (Place × Entry)

namespace Workspace

/-- A directory with nothing in it. -/
def empty : Workspace := ⟨[]⟩

/-- What stands at a place. -/
def entry? (w : Workspace) (place : Place) : Option Entry :=
  if place.isEmpty then some .directory else w.entries.lookup place

/-- Takes away what stands at a place. -/
def remove (w : Workspace) (place : Place) : Workspace := ⟨w.entries.filter fun e => e.1 ≠ place⟩

/-- Puts something at a place. -/
def put (w : Workspace) (place : Place) (entry : Entry) : Workspace :=
  ⟨(place, entry) :: (w.remove place).entries⟩

/-- Whether a place is a directory. -/
def isDirectory (w : Workspace) (place : Place) : Bool :=
  match w.entry? place with
  | some .directory => true
  | _ => false

/-- Puts something at a path, and directories on the way to it. -/
def write (w : Workspace) (path : String) (entry : Entry) : Workspace :=
  let place := (Path.names (Path.bytes path)).filter fun name => !name.isIdle
  let ways := (List.range place.length).map place.take
  let w := ways.foldl (fun w way => if (w.entry? way).isNone then w.put way .directory else w) w
  w.put place entry

/-! ## Following paths -/

/-- The place that names lead to from a place. All of it but the end has to be there. -/
def follow? (w : Workspace) : (place : Place) → List Name → Option Place
  | place, [] => some place
  | place, name :: names =>
    if !w.isDirectory place then none
    else if name.isIdle then w.follow? place names
    else if name.isUp then
      if place.isEmpty then none else w.follow? place.dropLast names
    else w.follow? (place ++ [name]) names

/-- What a path leads to. -/
def find? (w : Workspace) (path : List UInt8) : Option Entry := do
  if path.isEmpty ∨ Path.isAbsolute path then none
  w.entry? (← w.follow? [] (Path.names path))

/-- The bytes of the file at a path. -/
def readFile? (w : Workspace) (path : String) : Option (List UInt8) :=
  match w.find? (Path.bytes path) with
  | some (.file bytes) => some bytes
  | _ => none

end Workspace

end Syndication
