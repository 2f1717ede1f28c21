/-!
# Lines of a text

A line ends with a line feed, or with a carriage return and a line feed; the last line may end
with the text. A carriage return elsewhere is a character like any other.
-/

namespace Syndication.Text

/-- The line `line`, given in reverse and ended by a line feed, without its ending. -/
def endLine (line : List Char) : List Char :=
  match line with
  | '\r' :: line => line.reverse
  | line => line.reverse

/-- The lines of `text` when `line`, in reverse, has been read of the first one. -/
def linesFrom (line : List Char) : List Char → List (List Char)
  | [] => if line.isEmpty then [] else [line.reverse]
  | '\n' :: rest => endLine line :: linesFrom [] rest
  | c :: rest => linesFrom (c :: line) rest

/-- The lines of a text. -/
def lines (text : List Char) : List (List Char) := linesFrom [] text

end Syndication.Text
