import Syndication.Settings.Value
/-!
# TOML tables

A document is a tree of tables. Who may add to a table depends on how it has come to be: a header
opens a table once, and may open one that so far only lay on the way to others; dotted keys add
only to tables that dotted keys have made. `addValue?`, `openTable?` and `openItem?` are the three
ways in which a document grows; each refuses what would define something twice.
-/

namespace Syndication.Toml

/-- How a table has come to be. -/
inductive Origin
  /-- It has a header, or is the whole document. -/
  | header
  /-- It lies on the way to the table of a header. -/
  | implied
  /-- It lies on the way of a dotted key. -/
  | dotted
  deriving DecidableEq

/-- What stands under a name or in a list. -/
inductive Item
  | string (text : String)
  /-- A value without quotes. -/
  | scalar (value : Setting)
  | list (items : List Item)
  /-- A table on one line, to which nothing can be added. -/
  | inline (members : List (String × Item))
  | table (origin : Origin) (members : List (String × Item))
  /-- Tables of one name, of which the last one is open. -/
  | tables (before : List Item) (last : List (String × Item))

/-- What stands in a table, in the order in which the names have come up. -/
abbrev Members := List (String × Item)

/-- Puts an item under a name, in the place of what stood there or at the end. -/
def put (name : String) (item : Item) : Members → Members
  | [] => [(name, item)]
  | member :: members =>
    if member.1 = name then (name, item) :: members else member :: put name item members

/-- Puts an item under a name at the end, whether or not something stood there. -/
def putLast (name : String) (item : Item) (members : Members) : Members :=
  (members.filter fun member => member.1 ≠ name) ++ [(name, item)]

/-- Changes the table at the end of the names of a header. -/
def within? (edit : Members → Option Members) : List String → Members → Option Members
  | [], members => edit members
  | name :: names, members =>
    match members.lookup name with
    | none => do
      let inner ← within? edit names []
      some (put name (.table .implied inner) members)
    | some (.table origin inner) => do
      let inner ← within? edit names inner
      some (put name (.table origin inner) members)
    | some (.tables before last) => do
      let last ← within? edit names last
      some (put name (.tables before last) members)
    | some _ => none

/-- Adds a value under a dotted key to a table that has come to be in a given way. -/
def addDotted? (value : Item) : (origin : Origin) → List String → Members → Option Members
  | _, [], _ => none
  | origin, [name], members =>
    if origin = .dotted ∧ (members.lookup name).isNone then some (put name value members)
    else none
  | _, name :: names, members =>
    match members.lookup name with
    | none => do
      let inner ← addDotted? value .dotted names []
      some (put name (.table .dotted inner) members)
    | some (.table .header _) => none
    | some (.table origin inner) => do
      let inner ← addDotted? value origin names inner
      some (put name (.table origin inner) members)
    | some (.tables before last) => do
      let last ← addDotted? value .header names last
      some (put name (.tables before last) members)
    | some _ => none

/-- Adds a value under a key to the table of a header. -/
def addValue? (header key : List String) (value : Item) : Members → Option Members :=
  within? (addDotted? value .dotted key) header

/-- Opens the table of a header. One that lay on the way to others moves to the end. -/
def openTable? (header : List String) : Members → Option Members :=
  within? (fun members => do
    let name ← header.getLast?
    match members.lookup name with
    | none => some (put name (.table .header []) members)
    | some (.table .implied inner) => some (putLast name (.table .header inner) members)
    | some _ => none) header.dropLast

/-- Opens another of the tables of a header. -/
def openItem? (header : List String) : Members → Option Members :=
  within? (fun members => do
    let name ← header.getLast?
    match members.lookup name with
    | none => some (put name (.tables [] []) members)
    | some (.tables before last) =>
      some (put name (.tables (before ++ [.table .header last]) []) members)
    | some _ => none) header.dropLast

end Syndication.Toml
