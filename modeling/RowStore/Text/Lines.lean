/-!
The lines of a text.  A line feed ends a line, and so does a carriage return with a line feed
after it; neither is part of the line.  What stands after the last line feed is a line if it is
anything at all.
-/

namespace RowStore.Text

/-- The lines of a text whose present line begins, read backwards, with `line`. -/
def linesFrom (line : List Char) : List Char → List (List Char)
  | [] => if line.isEmpty then [] else [line.reverse]
  | c :: cs =>
    if c = '\n' then
      (if line.head? = some '\r' then line.tail else line).reverse :: linesFrom [] cs
    else linesFrom (c :: line) cs

/-- The lines of a text, in order. -/
def lines (s : String) : List String := (linesFrom [] s.toList).map String.ofList

example : lines "a\n\r\nb\r\n\nc\r" = ["a", "", "b", "", "c\r"] := by decide
example : lines "" = [] ∧ lines "a\n" = ["a"] := by decide

end RowStore.Text
