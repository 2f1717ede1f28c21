import Syndication.Toml.Meaning
/-!
# TOML documents

A document is read line by line: headers say which table is open, keys with values add to it.
Values may be nested, lists over several lines; `parse?` gives the settings of the whole document
by their names, or none if it is malformed or defines anything twice.
-/

namespace Syndication.Toml

/-! ## Values -/

mutual

/-- A value. The fuel bounds the steps and the depth the nesting of lists and tables. -/
def value? : (fuel depth : Nat) → Reader Item
  | 0, _, _ => none
  | fuel + 1, depth, text =>
    match text with
    | '[' :: rest =>
      match depth with
      | 0 => none
      | depth + 1 => do
        let (items, rest) ← items? fuel depth rest
        some (.list items, rest)
    | '\x7b' :: rest =>
      match depth with
      | 0 => none
      | depth + 1 =>
        match skipBlanks rest with
        | '\x7d' :: rest => some (.inline [], rest)
        | rest => do
          let (members, rest) ← members? fuel depth [] rest
          some (.inline members, rest)
    | c :: rest =>
      if c = '"' ∨ c = '\'' then
        (string? (c :: rest)).map fun (s, rest) => (.string (String.ofList s), rest)
      else do
        let setting ← scalar? (run (c :: rest)).1
        some (.scalar setting, (run (c :: rest)).2)
    | [] => none

/-- The rest of the items of a list. -/
def items? : (fuel depth : Nat) → Reader (List Item)
  | 0, _, _ => none
  | fuel + 1, depth, text =>
    match skipGaps false text with
    | ']' :: rest => some ([], rest)
    | start => do
      let (item, rest) ← value? fuel depth start
      match skipGaps false rest with
      | ',' :: rest => do
        let (items, rest) ← items? fuel depth rest
        some (item :: items, rest)
      | ']' :: rest => some ([item], rest)
      | _ => none

/-- The members of a table on one line, after those that have been read. -/
def members? : (fuel depth : Nat) → Members → Reader Members
  | 0, _, _, _ => none
  | fuel + 1, depth, members, text => do
    let (key, rest) ← key? nesting text
    match rest with
    | '=' :: rest => do
      let (item, rest) ← value? fuel depth (skipBlanks rest)
      let members ← addDotted? item .dotted key members
      match skipBlanks rest with
      | ',' :: rest => members? fuel depth members rest
      | '\x7d' :: rest => some (members, rest)
      | _ => none
    | _ => none

end

/-! ## Lines -/

/-- A document as far as it has been read: its tables and the names of the header that counts. -/
structure Draft where
  header : List String
  members : Members

/-- A line with a header or a key and a value, from its first character on. -/
def line? (draft : Draft) (text : List Char) : Option (Draft × List Char) :=
  match text with
  | '[' :: '[' :: rest => do
    let (header, rest) ← key? nesting rest
    match rest with
    | ']' :: ']' :: rest => do
      let members ← openItem? header draft.members
      some (⟨header, members⟩, rest)
    | _ => none
  | '[' :: rest => do
    let (header, rest) ← key? nesting rest
    match rest with
    | ']' :: rest => do
      let members ← openTable? header draft.members
      some (⟨header, members⟩, rest)
    | _ => none
  | text => do
    let (key, rest) ← key? nesting text
    match rest with
    | '=' :: rest => do
      let start := skipBlanks rest
      let (item, rest) ← value? (2 * start.length + 2) nesting start
      let members ← addValue? draft.header key item draft.members
      some (⟨draft.header, members⟩, rest)
    | _ => none

/-- The rest of a document, of which at least one character is read in each step. -/
def lines? : (fuel : Nat) → Draft → List Char → Option Members
  | 0, _, _ => none
  | fuel + 1, draft, text =>
    match skipGaps false text with
    | [] => some draft.members
    | start => do
      let (draft, rest) ← line? draft start
      let rest ← endLine? rest
      lines? fuel draft rest

/-- The settings of a document. -/
def parse? (text : String) : Option (List (String × Setting)) := do
  let chars := match text.toList with
    | '\ufeff' :: rest => rest
    | chars => chars
  let members ← lines? (chars.length + 1) ⟨[], []⟩ chars
  members.settings?

end Syndication.Toml
