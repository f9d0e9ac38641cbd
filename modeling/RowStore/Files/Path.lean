/-!
Names of files.

1. A `Path` is the list of names from the root down to a file or directory: the one true name of
   it.  It is written with a slash before each name.
2. A name as a user gives it is a text.  It is cut at its slashes (`segments`); it begins at the
   root if it starts with a slash and at some current directory otherwise.
-/

namespace RowStore

/-- The names from the root down. -/
abbrev Path := List String

namespace Path

/-- A path as it is written. -/
def text : Path → String
  | [] => "/"
  | p => String.join (p.map ("/" ++ ·))

/-- The directory that holds what the path names.  The root holds itself. -/
def parent (p : Path) : Path := p.dropLast

/-- The names between the slashes of a text. -/
def segments (name : String) : List String :=
  ((name.toList.splitOn '/').filter (· ≠ [])).map String.ofList

/-- Whether a name begins at the root. -/
def isRooted (name : String) : Bool := name.toList.head? == some '/'

/-- Whether a name ends in a slash. -/
def endsInSlash (name : String) : Bool := name.toList.getLast? == some '/'

/-- The name `inner` as seen from the directory named `base`. -/
def join (base inner : String) : String :=
  if isRooted inner then inner
  else if base = "" || endsInSlash base then base ++ inner
  else base ++ "/" ++ inner

/-- The most bytes that one name of a path can have. -/
def longestName : Nat := 255

/-- The most bytes that the text of a path can have. -/
def longestText : Nat := 4095

example : segments "/tmp/./a//b/" = ["tmp", ".", "a", "b"] := by decide
example : join "/d" "t.dat" = "/d/t.dat" ∧ join "/d/" "t.dat" = "/d/t.dat" := by decide
example : text ["tmp", "t.dat"] = "/tmp/t.dat" := by decide

end Path

end RowStore
