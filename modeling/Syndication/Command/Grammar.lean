import Syndication.Command.Basic
/-!
# The grammar of command lines

A command line has levels: the program's own, and one for every command or group of commands that
is named. Each level has options, which may come in any order; the level of a command also has
operands, which come in theirs, and says what command the values make.
-/

namespace Syndication.CommandLine

/-- What an option or operand takes and does. -/
inductive Kind
  /-- Takes nothing. -/
  | switch
  /-- Asks for help. -/
  | help
  /-- Asks for the version. -/
  | version
  | text
  | path
  | number
  deriving DecidableEq

/-- Whether a value is taken. -/
def Kind.takesValue : Kind → Bool
  | switch | help | version => false
  | text | path | number => true

/-- An option or operand. An option may also have a name of one letter. -/
structure Parameter where
  name : String
  short : Option Char
  kind : Kind

/-- A value as it has been read. -/
inductive Value
  | on
  | text (s : String)
  | number (n : Int)

/-- The values given at a level. -/
abbrev Given := List (String × Value)

namespace Given

/-- Whether a switch is on. -/
def has (g : Given) (name : String) : Bool := (g.lookup name).isSome

/-- The text or path given under a name. -/
def text? (g : Given) (name : String) : Option String :=
  match g.lookup name with
  | some (.text s) => some s
  | _ => none

/-- The number given under a name. -/
def number? (g : Given) (name : String) : Option Int :=
  match g.lookup name with
  | some (.number n) => some n
  | _ => none

end Given

/-- What may follow a name. -/
inductive Grammar
  /-- A command, made of values unless one is missing. -/
  | command (options operands : List Parameter) (make : Given → Option Command)
  /-- A group of commands. -/
  | group (options : List Parameter) (commands : List (String × Grammar))

namespace Grammar

/-- The options of a level. -/
def options : Grammar → List Parameter
  | command options _ _ => options
  | group options _ => options

/-- The operands of a level. -/
def operands : Grammar → List Parameter
  | command _ operands _ => operands
  | group _ _ => []

/-- The commands of a level. -/
def commands : Grammar → List (String × Grammar)
  | command _ _ _ => []
  | group _ commands => commands

end Grammar

/-! ## The program's grammar -/

/-- An option without a short name. -/
def long (name : String) (kind : Kind) : Parameter := ⟨name, none, kind⟩

/-- The user, whom every level may name. -/
def user : Parameter := ⟨"user", some 'u', .number⟩

/-- The options of every level. -/
def everywhere : List Parameter := [user, ⟨"help", some 'h', .help⟩]

/-- A command with its own options and its operands. -/
def commandWith (options operands : List (String × Kind)) (make : Given → Option Command) :
    Grammar :=
  let parameter (p : String × Kind) : Parameter := long p.1 p.2
  .command (options.map parameter ++ everywhere) (operands.map parameter) make

/-- What is told about a feed. -/
def report (g : Given) : CrawlReport where
  title := g.text? "title"
  link := g.text? "link"
  encoding := g.text? "encoding"
  etag := g.text? "etag"
  lastModified := g.text? "last-modified"
  totalStories := (g.number? "total-storys").getD 0

/-- The commands that record crawls. -/
def crawl : Grammar := .group everywhere [
  ("begin", commandWith [] [("id", .number)] fun g => do
    some (.beginCrawl (← g.number? "id"))),
  ("finish", commandWith
    [("body", .path), ("title", .text), ("link", .text), ("encoding", .text), ("etag", .text),
      ("last-modified", .text), ("total-storys", .number)]
    [("id", .number)] fun g => do
    some (.finishCrawl (← g.number? "id") (← g.text? "body") (report g))),
  ("fail", commandWith [] [("id", .number)] fun g => do
    some (.failCrawl (← g.number? "id")))]

/-- The commands of the program. -/
def commands : List (String × Grammar) := [
  ("subscribe", commandWith [] [("url", .text)] fun g => do
    some (.subscribe (← g.text? "url"))),
  ("import", commandWith [] [("file", .path)] fun g => do
    some (.subscribeAll (← g.text? "file"))),
  ("list", commandWith [("hints", .path), ("detail", .switch), ("show-pending", .switch)] []
    fun g => some (.list (g.text? "hints") (g.has "detail") (g.has "show-pending"))),
  ("show", commandWith [("detail", .switch)] [("id", .number)] fun g => do
    some (.get (← g.number? "id") (g.has "detail"))),
  ("unsubscribe", commandWith [] [("id", .number)] fun g => do
    some (.unsubscribe (← g.number? "id"))),
  ("offset", commandWith [] [("id", .number), ("offset", .number)] fun g => do
    some (.setOffset (← g.number? "id") (← g.number? "offset"))),
  ("map", commandWith [] [("source", .text), ("target", .text)] fun g => do
    some (.map (← g.text? "source") (← g.text? "target"))),
  ("resolve", commandWith [] [("source", .text)] fun g => do
    some (.resolve (← g.text? "source"))),
  ("bind", commandWith [] [("id", .number), ("target", .text)] fun g => do
    some (.bind (← g.number? "id") (← g.text? "target"))),
  ("feed", commandWith [("detail", .switch)] [("url", .text)] fun g => do
    some (.feed (← g.text? "url") (g.has "detail"))),
  ("crawl", crawl)]

/-- The grammar of the program. -/
def program : Grammar :=
  .group (⟨"config", some 'c', .path⟩ :: ⟨"version", some 'V', .version⟩ :: everywhere) commands

end Syndication.CommandLine
