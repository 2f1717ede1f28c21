import Syndication.Command.Reading
import Syndication.Record.Snapshot
import Syndication.Record.Subscription
import Syndication.Session.Host
import Syndication.Session.Task
import Syndication.Settings.Basic
import Syndication.Subscription.Addresses
/-!
# Sessions

A session is one command from its arguments to its answer: the arguments are read, the settings
loaded, the store opened, the command's file read, and the command's task run on the store, in
this order. What a task has done to the store before it failed stays done. `Outcome.of` is the
answer as a process gives it.
-/

namespace Syndication.Session

variable {m : Type → Type} [Monad m]

/-- What a session needs of a host, up to a failure. -/
abbrev Step (m : Type → Type) := ExceptT Failure m

/-! ## Files -/

/-- The bytes of a file. -/
def readBytes (host : Host m) (path : String) : Step m (List UInt8) := do
  match ← host.readFile path with
  | some bytes => pure bytes
  | none => throw (.unreadableFile path)

/-- The text that bytes hold. -/
def decode (failure : Failure) (bytes : List UInt8) : Except Failure String :=
  match String.fromUTF8? ⟨bytes.toArray⟩ with
  | some text => .ok text
  | none => .error failure

/-- The text of a file, or of the standard input for a dash. -/
def readText (host : Host m) (path : String) : Step m String := do
  if Path.isInput path then
    let bytes ← host.readInput
    ExceptT.mk (pure (decode .unreadableInput bytes))
  else
    let bytes ← readBytes host path
    ExceptT.mk (pure (decode (.unreadableFile path) bytes))

/-- The hints of a file, none without one. -/
def readHints (host : Host m) : Option String → Step m (List Hint)
  | none => pure []
  | some path => do
    let text ← readText host path
    match Hint.read? text with
    | some hints => pure hints
    | none => throw .malformedHints

/-! ## Commands -/

/-- A task with its result as a record. -/
def shown {α : Type} (toJson : α → Json) (task : Task α) : Task (Option Json) :=
  (fun a => some (toJson a)) <$> task

/-- Subscriptions as a record. -/
def listToJson (subscriptions : List Subscription) : Json :=
  .arr (subscriptions.map Subscription.toJson)

/-- The task of a command, once its file has been read. -/
def taskOf (host : Host m) (user : Option Int) (size : Nat) :
    Command → Step m (Task (Option Json))
  | .subscribe url => pure (shown Subscription.toJson (Task.subscribe user url))
  | .subscribeAll file => do
    let text ← readText host file
    pure (shown listToJson (Task.subscribeAll user (Addresses.ofText text) size))
  | .list hints detail showPending => do
    let hints ← readHints host hints
    pure (shown SyncAnswer.toJson (Task.list user ⟨hints, detail, showPending⟩))
  | .get id detail => pure (shown Subscription.toJson (Task.get user id detail))
  | .unsubscribe id => pure ((fun _ => none) <$> Task.unsubscribe user id)
  | .setOffset id offset => pure (shown Subscription.toJson (Task.setOffset user id offset))
  | .map source target =>
    pure (shown Mapping.toJson (Task.ofOperation (Store.recordMapping source target)))
  | .resolve source =>
    pure (shown (Json.nullable .text) (Task.ofOperation (Store.findTarget source)))
  | .bind id target =>
    pure (shown Subscription.toJson (Task.ofOperation (Store.resolve id target)))
  | .feed url detail => pure (shown Feed.toJson (Task.feed url detail))
  | .beginCrawl feedId => pure (shown Feed.toJson (Task.ofOperation (Store.beginCrawl feedId)))
  | .finishCrawl feedId body report => do
    let bytes ← readBytes host body
    pure (shown Feed.toJson (Task.finishCrawl host.compress feedId bytes report))
  | .failCrawl feedId => pure (shown Feed.toJson (Task.ofOperation (Store.failCrawl feedId)))

/-- Runs a task on a store while a host's clock goes on. -/
def perform {α : Type} (host : Host m) (task : Task α) (store : Store) :
    m (Except Failure α × Store) :=
  let call (c : Call) : StateT Store m c.Answer := fun s => pure (c.run s)
  let clock : StateT Store m Instant := StateT.lift host.now
  (task.run.runWith call clock).run store

/-- The answer as text: a record on lines, or nothing. -/
def answerText : Option Json → String
  | some value => value.toPretty ++ "\n"
  | none => ""

/-! ## From arguments to answers -/

/-- The name of the variable that names the user. -/
def userVariable : String := "FEEDSYNC_USER"

/-- Reads the arguments. -/
def readArguments (host : Host m) (arguments : List String) : Step m Invocation :=
  match CommandLine.read (host.environment.lookup userVariable) arguments with
  | .ok invocation => pure invocation
  | .error cause => throw (.usage cause)

/-- Loads the settings. -/
def loadSettings (host : Host m) (path : String) : Step m Settings := do
  match ← ExceptT.lift (Settings.load host.readFile host.environment path) with
  | .ok settings => pure settings
  | .error .malformed => throw (.malformedSettings path)
  | .error (.misplaced cause) => throw (.misplacedSetting cause)
  | .error .unusable => throw .unusableSettings

/-- Runs a command and gives its answer. -/
def run (host : Host m) (arguments : List String) : Step m String := do
  let invocation ← readArguments host arguments
  let settings ← loadSettings host invocation.settings
  let location := Location.ofText settings.storePath
  match ← host.openStore location with
  | none => throw (.unusableStore settings.storePath)
  | some store => do
    let task ← taskOf host invocation.user settings.batchSize invocation.command
    let (result, store) ← ExceptT.lift (perform host task store)
    host.saveStore location store
    match result with
    | .ok value => pure (answerText value)
    | .error failure => throw failure

end Syndication.Session
