import RowStore.Row

/-!
Lines of a schema file: `name (column type [pk], column type, ...)`.

1. The name is what stands before the first opening parenthesis, without the blanks around it.
   It may hold anything but an opening parenthesis.
2. The columns stand between that parenthesis and the last closing one, with commas between
   them.  A column is a name, a type in either letter case, and at most one tag; the only tag is
   `pk`, and the last column that has it is the primary key.
3. What follows the last closing parenthesis does not count.
4. The line is read from left to right: the parentheses, the name, then one column after the
   other, and in a column the type before the tag.
5. `text` writes a table the way it is read, with one blank between words.
-/

namespace RowStore

/-- A table as a schema file describes it. -/
structure TableLine where
  /-- Its name. -/
  name : String
  /-- Its columns. -/
  schema : Schema
  /-- The name of its key column, empty if it has none. -/
  primaryKey : String
  deriving DecidableEq

namespace TableLine

/-- The tag of a key column. -/
def keyTag : String := "pk"

/-- What stands before the first `mark` and what stands after it. -/
def cutFirst (mark : Char) : List Char → Option (List Char × List Char)
  | [] => none
  | c :: cs =>
    if c = mark then some ([], cs)
    else (cutFirst mark cs).map fun (before, after) => (c :: before, after)

/-- What stands before the last `mark`. -/
def cutLast (mark : Char) (cs : List Char) : Option (List Char) :=
  (cutFirst mark cs.reverse).map fun (_, before) => before.reverse

/-- A column, and whether it is the key. -/
def parseColumn (text : List Char) : Except LineFault (Column × Bool) :=
  match Text.words (String.ofList text) with
  | [name, type] => do
    let type ← typed type
    .ok (⟨name, type⟩, false)
  | [name, type, tag] => do
    let type ← typed type
    if tag = keyTag then .ok (⟨name, type⟩, true) else .error (.tag tag)
  | _ => .error (.column (Text.trim (String.ofList text)))
where
  /-- The type that a word names. -/
  typed (word : String) : Except LineFault ColumnType :=
    match ColumnType.parse word with
    | .ok type => .ok type
    | .error _ => .error (.unknownType word)

/-- The columns, each with whether it is the key. -/
def parseColumns : List (List Char) → Except LineFault (List (Column × Bool))
  | [] => .ok []
  | text :: texts => do
    let column ← parseColumn text
    let columns ← parseColumns texts
    .ok (column :: columns)

/-- The name of the last column that is marked as the key. -/
def keyOf (columns : List (Column × Bool)) : String :=
  ((columns.filter (·.2)).getLast?.map (·.1.name)).getD ""

/-- Reads a line. -/
def parse (line : String) : Except LineFault TableLine :=
  match cutFirst '(' line.toList with
  | none => .error .noColumnList
  | some (before, after) =>
    match cutLast ')' after with
    | none => .error .unclosed
    | some inner =>
      let name := Text.trimChars before
      if name = [] then .error .noName
      else do
        let columns ← parseColumns (inner.splitOn ',')
        match Schema.ofColumns (columns.map (·.1)) with
        | .ok schema => .ok ⟨String.ofList name, schema, keyOf columns⟩
        | .error e => .error (.described e.message)

/-! ## Writing -/

/-- A column as it is written, with the tag if it is the key. -/
def columnText (key : String) (c : Column) : String :=
  c.name ++ " " ++ c.type.name ++ (if c.name = key then " " ++ keyTag else "")

/-- A table as a line. -/
def text (t : TableLine) : String :=
  t.name ++ " (" ++ ", ".intercalate (t.schema.columns.map (columnText t.primaryKey)) ++ ")"

example :
    text ⟨"people", ⟨[⟨"id", .int⟩, ⟨"name", .string⟩], by simp⟩, "id"⟩ =
      "people (id int pk, name string)" := by decide

end TableLine

end RowStore
