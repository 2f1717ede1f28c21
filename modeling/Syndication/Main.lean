import Std.Time.DateTime.Timestamp
import Syndication.Session.Basic
import Syndication.Session.Outcome
import Syndication.Store.Archive
/-!
# The command line

The program with the real files, variables and clock around it. Stores are kept as archives.
-/

namespace Syndication.CommandLine

/-- The names of the variables that count. -/
def variableNames : List String :=
  ["HOME", "FEEDSYNC_USER", "FEEDSYNC_STORE_PATH", "FEEDSYNC_BATCH_SIZE", "feedsync_store_path",
    "feedsync_batch_size"]

/-- The variables that are set. -/
def readVariables : IO (List (String × String)) :=
  variableNames.filterMapM fun name => do
    match ← IO.getEnv name with
    | some value => pure (some (name, value))
    | none => pure none

/-- The bytes of a file, none if it cannot be read. -/
def readFile (path : String) : IO (Option (List UInt8)) := do
  try
    let bytes ← IO.FS.readBinFile path
    pure (some bytes.toList)
  catch _ => pure none

/-- The rest of a stream. -/
partial def readRest (stream : IO.FS.Stream) (before : ByteArray) : IO (List UInt8) := do
  let bytes ← stream.read 65536
  if bytes.isEmpty then pure before.toList else readRest stream (before ++ bytes)

/-- The path of a store's file, if it is text. -/
def pathOf (file : StoreFile) : Option String := String.fromUTF8? ⟨file.path.toArray⟩

/-- The store in a file, which is made if it is not there and need not be. -/
def openFile (file : StoreFile) (path : String) : IO (Option Store) := do
  match file.model.map fun model => String.fromUTF8? ⟨model.toArray⟩ with
  | some (some model) => let _ ← IO.FS.Handle.mk model .read
  | some none => return none
  | none => pure ()
  unless file.existing do
    let _ ← IO.FS.Handle.mk path .append
  if file.frozen then return none
  pure (Store.ofArchive? (← IO.FS.readFile path))

/-- The store at a location. -/
def openStore : Location → IO (Option Store)
  | .nowhere => pure (some .empty)
  | .unusable => pure none
  | .file file =>
    match pathOf file with
    | some path => do
      try openFile file path
      catch _ => pure none
    | none => pure none

/-- Keeps a store at a location. -/
def saveStore (location : Location) (store : Store) : IO Unit :=
  match location with
  | .file file =>
    match pathOf file with
    | some path => IO.FS.writeFile path store.toArchive
    | none => pure ()
  | _ => pure ()

/-- The time. -/
def now : IO Instant := do
  let time ← Std.Time.Timestamp.now
  let nanos := time.toNanosecondsSinceUnixEpoch.val
  pure ((Instant.ofUnix? (nanos / 1000000000) (nanos % 1000000000).toNat).getD .epoch)

/-- This machine as a host. -/
def machine (environment : List (String × String)) : Host IO where
  environment := environment
  readFile := readFile
  readInput := do readRest (← IO.getStdin) .empty
  openStore := openStore
  saveStore := saveStore
  now := now

end Syndication.CommandLine

open Syndication in
def main (arguments : List String) : IO UInt32 := do
  let host := CommandLine.machine (← CommandLine.readVariables)
  let outcome := Outcome.of (← Session.run host arguments)
  IO.print outcome.output
  match outcome.report with
  | some text => IO.eprintln text
  | none => pure ()
  pure outcome.code.toUInt32
