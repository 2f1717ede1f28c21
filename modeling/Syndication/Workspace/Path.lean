/-!
# Paths

A path is names with slashes between them. An empty name and a point stand for the directory that
the names before lead to, two points for the one above it. A path that comes from an address may be
no text, so paths that lead to something are bytes; what is told by the path alone is told by text.
-/

namespace Syndication

/-! ## Paths as bytes -/

/-- A name in a directory. -/
abbrev Name := List UInt8

/-- A place in a directory: the names that lead to it. -/
abbrev Place := List Name

namespace Name

/-- A name that leads nowhere else. -/
def isIdle (name : Name) : Bool := name = [] || name = [0x2e]

/-- The name that leads to the directory above. -/
def isUp (name : Name) : Bool := name = [0x2e, 0x2e]

end Name

namespace Place

/-- The place beside another with something added to its name. -/
def beside (place : Place) (added : String) : Place :=
  place.dropLast ++ [place.getLastD [] ++ added.toUTF8.toList]

/-- How many bytes the path to a place takes that has a slash before every name. -/
def size (place : Place) : Nat := (place.map fun name => name.length + 1).foldr (· + ·) 0

end Place

namespace Path

/-- The bytes of a path that is text. -/
def bytes (path : String) : List UInt8 := path.toUTF8.toList

/-- The names of a path. -/
def names : List UInt8 → List Name
  | [] => [[]]
  | b :: rest =>
    if b = 0x2f then [] :: names rest
    else
      match names rest with
      | [] => [[b]]
      | name :: others => (b :: name) :: others

/-- Whether a path begins at the root of everything. -/
def isAbsolute (path : List UInt8) : Bool := path.head? = some 0x2f

/-! ## Paths as text -/

/-- The pieces of a path. -/
def pieces (path : String) : List String := path.splitOn "/"

/-- A piece that leads nowhere else. -/
def isIdle (piece : String) : Bool := piece = "" || piece = "."

/-- The pieces in reverse, from the last one on that leads somewhere. -/
def backward (path : String) : List String := (pieces path).reverse.dropWhile isIdle

/-- The name of the file that a path leads to. -/
def fileName? (path : String) : Option String :=
  match backward path with
  | [] => none
  | name :: _ => if name = ".." then none else some name

/-- What follows the last point of a file's name, if anything stands before it. -/
def extension (path : String) : String :=
  match ((fileName? path).getD "").splitOn "." |>.reverse with
  | last :: before :: others => if before = "" ∧ others = [] then "" else last
  | _ => ""

/-- The path with something added to the file's name. -/
def extend? (path added : String) : Option String := do
  let name ← fileName? path
  some ("/".intercalate ((name ++ added) :: (backward path).tail).reverse)

/-- Whether a path is the dash that stands for the standard input. -/
def isInput (path : String) : Bool := backward path = ["-"]

/-- A path beneath the user's home when it begins with a tilde and a slash and there is a home. -/
def expandHome (home : Option String) (path : String) : String :=
  match home, path.toList with
  | some home, '~' :: '/' :: rest =>
    if rest.head? = some '/' || home = "" then String.ofList rest
    else if home.endsWith "/" then home ++ String.ofList rest
    else home ++ "/" ++ String.ofList rest
  | _, _ => path

end Path

end Syndication
