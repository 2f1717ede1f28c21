import Syndication.Workspace.Basic
import Syndication.Workspace.Location
/-!
# Opening stores in a workspace

A store's path is first made plain, and only then the directory it is in has to exist. A file that
is not there is made, and stays there even if no store can be opened in it afterwards: because
something stands where its companions have to be, because it is taken for one that never changes,
or because the store keeps a log and is opened in a way that cannot. Whether memory can be shared
turns out only when the store is there already.
-/

namespace Syndication.Workspace

/-! ## Places of stores -/

/-- The longest name, in bytes. -/
def maxName : Nat := 255

/-- The most bytes that the path to a store takes, made plain and with a slash before every name. -/
def maxPath : Nat := 471

/-- The place of a store's path as far as it has been made plain. No name leads on from a file and
none above the directory; a name that is too long cannot be looked up. -/
def plainStep? (w : Workspace) (place : Place) (name : Name) : Option Place :=
  if name.isIdle then some place
  else if name.isUp then if place.isEmpty then none else some place.dropLast
  else if maxPath < (place ++ [name]).size then none
  else
    match w.entry? place with
    | some .directory => if name.length ≤ maxName then some (place ++ [name]) else none
    | none => some (place ++ [name])
    | some _ => none

/-- The place of a store. -/
def storePlace? (w : Workspace) (path : List UInt8) : Option Place := do
  if Path.isAbsolute path then none
  let place ← (Path.names path).foldlM w.plainStep? []
  if !place.isEmpty ∧ w.isDirectory place.dropLast then some place else none

/-! ## Opening -/

/-- The places of the files that come and go beside a store. -/
def companions (place : Place) : List Place := ["-journal", "-wal"].map place.beside

/-- Whether a file can be made at a place, or is there and can be replaced. -/
def isFree (w : Workspace) (place : Place) : Bool :=
  (place.getLastD []).length ≤ maxName && !w.isDirectory place

/-- Whether a store can be written in a file as far as that does not depend on the file itself. -/
def admits (w : Workspace) (file : StoreFile) (place : Place) : Bool :=
  !file.frozen && (companions place).all w.isFree &&
    file.guard.lockName?.all fun name => (w.entry? (place.beside name)).isNone

/-- The store in a file. A file of less than two bytes is a new store. -/
def storeIn? (w : Workspace) (file : StoreFile) (place : Place) : Option Store :=
  match w.entry? place with
  | some (.file bytes) => if bytes.length < 2 then some .empty else none
  | some (.store store logged) => if logged && !file.guard.canLog then none else some store
  | _ => none

/-- The workspace with an empty file at a place where nothing has stood, unless it has to. -/
def provide (w : Workspace) (file : StoreFile) (place : Place) : Workspace :=
  if (w.entry? place).isNone && !file.existing then w.put place (.file []) else w

/-- The workspace with a store that has been written, whose companions are gone. -/
def settle (w : Workspace) (file : StoreFile) (place : Place) (store : Store) : Workspace :=
  ((companions place).foldl remove w).put place (.store store file.guard.canLog)

/-- A store with the workspace in which it is open, if memory can be shared where it has to. -/
def share (w : Workspace) (file : StoreFile) (place : Place) (store : Store) :
    Option Store × Workspace :=
  match file.guard.sharedName? with
  | none => (some store, w)
  | some name =>
    if w.isFree (place.beside name) then (some store, w.remove (place.beside name)) else (none, w)

/-- The place of a file in which a store may be opened. -/
def filePlace? (w : Workspace) (file : StoreFile) : Option Place := do
  let place ← w.storePlace? file.path
  if file.model.all fun path => (w.find? path).isSome then some place else none

/-- Opens the store at a location. -/
def openStore (w : Workspace) : Location → Option Store × Workspace
  | .nowhere => (some .empty, w)
  | .unusable => (none, w)
  | .file file =>
    match w.filePlace? file with
    | none => (none, w)
    | some place =>
      let w := w.provide file place
      match w.admits file place, w.storeIn? file place with
      | true, some store => (w.settle file place store).share file place store
      | _, _ => (none, w)

/-- Keeps a store at a location at which it has been opened. -/
def saveStore (w : Workspace) (location : Location) (store : Store) : Workspace :=
  match location with
  | .file file =>
    match w.storePlace? file.path with
    | some place => w.put place (.store store file.guard.canLog)
    | none => w
  | _ => w

end Syndication.Workspace
