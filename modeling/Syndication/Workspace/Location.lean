import Syndication.Workspace.Address
import Syndication.Workspace.Path
/-!
# Locations of stores

Where a store is kept is told by a path or by an address. Without a path, or with one that asks for
it, a store is kept nowhere: it begins empty and is gone afterwards. The options of an address tell
how its file is opened and guarded.
-/

namespace Syndication

/-- How a store's file is guarded against others while it is open. -/
inductive Guard
  /-- By locks, and memory shared with others. -/
  | shared
  /-- By locks for as long as it is open. -/
  | exclusive
  /-- By a file beside it. -/
  | lockFile
  /-- By locks that never fail. -/
  | pretended
  /-- Not at all. -/
  | absent
  deriving DecidableEq

namespace Guard

/-- Whether changes can be kept in a log beside the file. -/
def canLog : Guard → Bool
  | shared => true
  | exclusive => true
  | _ => false

/-- What is added to the name of the file for the name of the one through which memory is shared. -/
def sharedName? : Guard → Option String
  | shared => some "-shm"
  | _ => none

/-- What is added to the name of the file for the name of the one that guards it. -/
def lockName? : Guard → Option String
  | lockFile => some ".lock"
  | _ => none

end Guard

/-- A file in which a store is kept, and how it is opened. -/
structure StoreFile where
  path : List UInt8
  /-- The file has to be there already. -/
  existing : Bool
  /-- The file is taken for one that never changes. -/
  frozen : Bool
  guard : Guard
  /-- The path of what has to be there for a new file to take its rights from. -/
  model : Option (List UInt8)
  deriving DecidableEq

/-- Where a store is kept. -/
inductive Location
  /-- Nowhere. -/
  | nowhere
  /-- In a file. -/
  | file (file : StoreFile)
  /-- At no place where a store can be kept and written. -/
  | unusable
  deriving DecidableEq

namespace Location

/-! ## How a file is opened -/

/-- How an address asks for its file to be opened. -/
inductive Mode
  | readOnly
  | readWrite
  | create
  | memory
  deriving DecidableEq

/-- The mode of a name. -/
def Mode.ofName? (name : List UInt8) : Option Mode :=
  if Address.named name "ro" then some .readOnly
  else if Address.named name "rw" then some .readWrite
  else if Address.named name "rwc" then some .create
  else if Address.named name "memory" then some .memory
  else none

/-- Whether one mode may follow another: none may ask for more than the one before it. -/
def Mode.allows : (mode next : Mode) → Bool
  | _, .memory => true
  | .readOnly, next => next = .readOnly
  | .readWrite, next => next ≠ .create
  | _, _ => true

/-- The mode after one more option, unless it is unknown or not allowed. -/
def Mode.with? (mode : Mode) (value : List UInt8) : Option Mode :=
  (Mode.ofName? value).filter mode.allows

/-- The mode that an address asks for. -/
def mode? (a : Address) : Option Mode := (a.values "mode").foldlM Mode.with? .create

/-- Whether an address asks for a cache that there is. -/
def hasCache (a : Address) : Bool :=
  (a.values "cache").all fun value => ["shared", "private"].any (Address.named value)

/-! ## The systems of files -/

/-- What the files of stores are kept in. -/
inductive System
  /-- The files of this machine. -/
  | files (guard : Guard)
  /-- The memory of the process. -/
  | memory

/-- The system of a name. -/
def System.ofName? (name : List UInt8) : Option System :=
  if Address.named name "unix" then some (.files .shared)
  else if Address.named name "unix-excl" then some (.files .exclusive)
  else if Address.named name "unix-dotfile" then some (.files .lockFile)
  else if Address.named name "unix-none" then some (.files .pretended)
  else if Address.named name "memdb" then some .memory
  else none

/-- The system that an address asks for; of several options the last counts. -/
def system? (a : Address) : Option System :=
  match (a.values "vfs").getLast? with
  | some name => System.ofName? name
  | none => some (.files .shared)

/-- The longest path in memory. -/
def maxMemoryPath : Nat := 1016

/-! ## From texts to locations -/

/-- Whether a path asks for a store that is kept nowhere. -/
def isNowhere (path : List UInt8) : Bool := path = [] || path = Path.bytes ":memory:"

/-- The location of an address. A store that can only be read is not usable. -/
def ofAddress (a : Address) : Location :=
  match mode? a, hasCache a, system? a with
  | some mode, true, some system =>
    if mode = .readOnly then .unusable
    else if mode = .memory ∨ isNowhere a.path then .nowhere
    else
      match system with
      | .memory =>
        if a.flag "immutable" ∨ maxMemoryPath < a.path.length then .unusable else .nowhere
      | .files guard =>
        .file
          { path := a.path
            existing := mode = .readWrite
            frozen := a.flag "immutable"
            guard := if a.flag "nolock" then .absent else guard
            model := (a.values "modeof").head? }
  | _, _, _ => .unusable

/-- The location of a path. -/
def ofPath (path : List UInt8) : Location :=
  if isNowhere path then .nowhere else .file ⟨path, false, false, .shared, none⟩

/-- The location that a path or an address stands for. -/
def ofText (text : String) : Location :=
  if text.toList.any (· = '\x00') then .unusable
  else
    match "file:".toList.isPrefixOf? text.toList with
    | some rest =>
      match Address.ofText? rest with
      | some address => ofAddress address
      | none => .unusable
    | none => ofPath (Path.bytes text)

end Location

end Syndication
