import RowStore.Catalog.TableLine
import RowStore.HeapFile
import RowStore.Text.Lines

/-!
The catalog: which tables there are.

1. An entry gives a heap file a name and a primary key.  Entries stand in the order in which
   their tables came in.
2. `add` replaces the entry of the same table where it stands and drops every other entry of the
   same name.  A table that is there keeps its columns: pages of it may be in memory, so another
   schema is refused.
3. `load` adds the tables of a schema file, line by line; the file of table `name` is `name.dat`
   beside the schema file.  It stops at the first line that fails, and what came before stays.
-/

namespace RowStore

/-- A table with its name. -/
structure TableEntry where
  /-- The name. -/
  name : String
  /-- Where the rows are. -/
  file : HeapFile
  /-- The name of the key column, empty if there is none. -/
  primaryKey : String
  deriving DecidableEq

/-- The tables there are. -/
structure Catalog where
  /-- One entry for each table, the oldest first. -/
  entries : List TableEntry
  deriving DecidableEq

namespace Catalog

/-- A catalog without tables. -/
def empty : Catalog := ⟨[]⟩

/-! ## Looking up -/

/-- The entry of a table. -/
def find? (c : Catalog) (id : TableId) : Option TableEntry :=
  c.entries.find? fun e => e.file.id == id

/-- The entry of a table that must be there. -/
def entry (c : Catalog) (id : TableId) : Except Error TableEntry :=
  match c.find? id with
  | some e => .ok e
  | none => .error (.missing (.table id))

/-- The heap file of a table. -/
def file (c : Catalog) (id : TableId) : Except Error HeapFile := (c.entry id).map (·.file)

/-- The columns of a table. -/
def schema (c : Catalog) (id : TableId) : Except Error Schema := (c.entry id).map (·.file.schema)

/-- The name of a table. -/
def tableName (c : Catalog) (id : TableId) : Except Error String := (c.entry id).map (·.name)

/-- The name of the key column of a table. -/
def primaryKey (c : Catalog) (id : TableId) : Except Error String :=
  (c.entry id).map (·.primaryKey)

/-- The table of a given name. -/
def tableId (c : Catalog) (name : String) : Except Error TableId :=
  match c.entries.find? (·.name == name) with
  | some e => .ok e.file.id
  | none => .error (.missing (.tableNamed name))

/-- All tables in order. -/
def tableIds (c : Catalog) : List TableId := c.entries.map (·.file.id)

/-! ## Adding -/

/-- Entries with `new` in the place of its table, or at the end. -/
def putEntry (new : TableEntry) : List TableEntry → List TableEntry
  | [] => [new]
  | e :: es => if e.file.id = new.file.id then new :: es else e :: putEntry new es

/-- Adds a table. -/
def add (c : Catalog) (new : TableEntry) : Except Error Catalog :=
  let others : Catalog := ⟨putEntry new (c.entries.filter (·.name ≠ new.name))⟩
  match c.find? new.file.id with
  | some old =>
    if old.file.schema ≠ new.file.schema then
      .error (.mismatch (.reregistered new.file.id old.file.schema new.file.schema))
    else .ok others
  | none => .ok others

/-! ## Loading -/

/-- What is appended to the name of a table to name its file. -/
def fileEnding : String := ".dat"

/-- Adds the table of one line of a schema file. -/
def addLine (pageSize : Nat) (dir : Path) (line : TableLine) (c : Catalog) (files : Files) :
    Except Error TableId × Catalog × Files :=
  match HeapFile.openNamed files (Path.join dir.text (line.name ++ fileEnding)) line.schema
      pageSize with
  | .error e => (.error e, c, files)
  | .ok (file, files) =>
    match c.add ⟨line.name, file, line.primaryKey⟩ with
    | .error e => (.error e, c, files)
    | .ok c => (.ok file.id, c, files)

/-- Adds the tables of some lines of the schema file called `name`, the first of which has the
    given number.  Blank lines count but hold no table. -/
def addLines (pageSize : Nat) (name : String) (dir : Path) (number : Nat) :
    List String → Catalog → Files → Except Error (List TableId) × Catalog × Files
  | [], c, files => (.ok [], c, files)
  | line :: lines, c, files =>
    if Text.isBlankLine line then addLines pageSize name dir (number + 1) lines c files
    else match TableLine.parse line with
      | .error fault => (.error (.schemaFile name number fault), c, files)
      | .ok table =>
        match addLine pageSize dir table c files with
        | (.error e, c, files) => (.error e, c, files)
        | (.ok id, c, files) =>
          match addLines pageSize name dir (number + 1) lines c files with
          | (.error e, c, files) => (.error e, c, files)
          | (.ok ids, c, files) => (.ok (id :: ids), c, files)

/-- Adds the tables of the schema file called `name`. -/
def load (c : Catalog) (files : Files) (name : String) (pageSize : Nat) :
    Except Error (List TableId) × Catalog × Files :=
  match files.readText name with
  | .error fault => (.error (.storage fault), c, files)
  | .ok (path, text) => addLines pageSize name path.parent 1 (Text.lines text) c files

end Catalog

end RowStore
