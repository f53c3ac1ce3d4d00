/-!
# Lines of a text

A line ends with a line feed, or with a carriage return and a line feed; neither belongs to
the line.  A text that ends with a line end has no further, empty line after it, and the
characters after the last line end form a line only if there are any.
-/

namespace InlineCheck.Text

/-- The line whose characters were gathered last first, without the carriage return that
belongs to its end. -/
def closeLine : List Char → List Char
  | '\r' :: gathered => gathered.reverse
  | gathered => gathered.reverse

/-- The lines of a text of which `gathered`, last character first, was read already. -/
def splitLines (gathered : List Char) : List Char → List (List Char)
  | [] => if gathered.isEmpty then [] else [gathered.reverse]
  | '\n' :: cs => closeLine gathered :: splitLines [] cs
  | c :: cs => splitLines (c :: gathered) cs

/-- The lines of the text, in order. -/
def lines (text : String) : List String :=
  (splitLines [] text.toList).map String.ofList

end InlineCheck.Text
