import Syndication.Text.Blank
import Syndication.Text.Lines
/-!
# Lists of addresses

A list of addresses is a text with one address a line. Blanks around an address do not count, and
lines that are empty without them or begin with `#` hold none.
-/

namespace Syndication.Addresses

/-- Whether a line without the blanks around it holds an address. -/
def isEntry (line : List Char) : Bool := !line.isEmpty && line.head? ≠ some '#'

/-- The addresses of a list. -/
def entries (text : List Char) : List (List Char) :=
  ((Text.lines text).map Text.trim).filter isEntry

/-- The addresses of a list. -/
def ofText (text : String) : List String := (entries text.toList).map String.ofList

end Syndication.Addresses
