import RowStore.Proofs.Catalog
import RowStore.Proofs.Files.Names
import RowStore.Proofs.Requests

/-!
A store without memory.

An `Archive` keeps its tables as they were last changed, and nothing else: no page is loaded,
queued, written back or evicted, and there is no capacity.  It answers the same tasks as a store;
reading does not change it, and writing back has nothing to do.

How a table is represented is left open (`Tabular`).  A `PagedTable` is the list of its pages, so an
archive of paged tables says what the latest version of every page is:

1. A table is opened with the pages that its file has at that moment (`PagedTable.ofBytes`).
2. A row goes to the first page with a free slot, and to a new page only if there is none
   (`PagedTable.insert`); the row at a place is deleted from its page (`PagedTable.delete`).
-/

namespace RowStore

/-! ## Tables as lists of pages -/

/-- A table as the list of its pages. -/
structure PagedTable where
  /-- What the rows look like. -/
  schema : Schema
  /-- The pages in order. -/
  pages : List Page

namespace PagedTable

/-- The table that some bytes hold. -/
def ofBytes (id : TableId) (schema : Schema) (pageSize : Nat) (bytes : Bytes) : PagedTable :=
  ⟨schema, (List.range (blockCount pageSize bytes)).filterMap fun n =>
    (Page.ofBytes ⟨id, n⟩ schema (block pageSize n bytes) pageSize).toOption⟩

/-- Stores a row: the row as it is stored, and the table after it. -/
def insert (t : PagedTable) (id : TableId) (pageSize : Nat) (row : Row) :
    Except Error (Row × PagedTable) :=
  if !row.schema.sameTypes t.schema then .error (.mismatch (.rowOfTable row.schema id t.schema))
  else match t.pages.find? fun p => !p.freeSlots.isEmpty with
    | some old => do
      let (row, page) ← old.insert row
      .ok (row, { t with pages := t.pages.set old.id.number page.clean })
    | none => do
      let new ← Page.blank ⟨id, t.pages.length⟩ t.schema pageSize
      let (row, page) ← new.insert row
      .ok (row, { t with pages := t.pages ++ [page.clean] })

/-- A row for a page with a free slot. -/
theorem insert_of_old {t : PagedTable} {id : TableId} {pageSize : Nat} {row : Row} {old : Page}
    (htypes : row.schema.sameTypes t.schema = true)
    (hfirst : t.pages.find? (fun p => !p.freeSlots.isEmpty) = some old) :
    t.insert id pageSize row = (old.insert row).map fun (row, page) =>
      (row, { t with pages := t.pages.set old.id.number page.clean }) := by
  unfold insert
  rw [htypes, hfirst]
  show (old.insert row).bind _ = _
  cases old.insert row <;> rfl

/-- A row for a new page. -/
theorem insert_of_full {t : PagedTable} {id : TableId} {pageSize : Nat} {row : Row} {new : Page}
    (htypes : row.schema.sameTypes t.schema = true)
    (hnone : t.pages.find? (fun p => !p.freeSlots.isEmpty) = none)
    (hblank : Page.blank ⟨id, t.pages.length⟩ t.schema pageSize = .ok new) :
    t.insert id pageSize row = (new.insert row).map fun (row, page) =>
      (row, { t with pages := t.pages ++ [page.clean] }) := by
  unfold insert
  rw [htypes, hnone, hblank]
  show (new.insert row).bind _ = _
  cases new.insert row <;> rfl

/-- A page of the table. -/
def page (t : PagedTable) (id : PageId) : Except Error Page :=
  match t.pages[id.number]? with
  | some p => .ok p
  | none => .error (.missing (.page id t.pages.length))

/-- Deletes the row at a place. -/
def delete (t : PagedTable) (place : RecordId) : Except Error PagedTable := do
  let old ← t.page place.page
  let page ← old.delete (some place)
  .ok { t with pages := t.pages.set place.page.number page.clean }

theorem delete_of_none {t : PagedTable} {place : RecordId}
    (hnone : t.pages[place.page.number]? = none) :
    t.delete place = .error (.missing (.page place.page t.pages.length)) := by
  unfold delete page
  rw [hnone]
  rfl

theorem delete_of_some {t : PagedTable} {place : RecordId} {old : Page}
    (hold : t.pages[place.page.number]? = some old) :
    t.delete place = (old.delete (some place)).map fun page =>
      { t with pages := t.pages.set place.page.number page.clean } := by
  unfold delete page
  rw [hold]
  show (old.delete (some place)).bind _ = _
  cases old.delete (some place) <;> rfl

/-- The live rows, by rising page and slot. -/
def rows (t : PagedTable) : List Row := t.pages.flatMap Page.rows

end PagedTable

/-! ## Archives -/

/-- What can be done with a table, however it is represented. -/
class Tabular (τ : Type) where
  /-- The table that some bytes hold, given its number, its schema and the size of its pages. -/
  ofBytes : TableId → Schema → Nat → Bytes → τ
  /-- What the rows look like. -/
  schema : τ → Schema
  /-- Stores a row, given the number of the table and the size of its pages: the row as it is
      stored, and the table after it. -/
  insert : τ → TableId → Nat → Row → Except Error (Row × τ)
  /-- Deletes the row at a place. -/
  delete : τ → RecordId → Except Error τ
  /-- The live rows of a page, by rising slot. -/
  pageRows : τ → PageId → Except Error (List Row)
  /-- The live rows, by rising page and slot, given the number of the table. -/
  rows : τ → TableId → List Row

instance : Tabular PagedTable where
  ofBytes := PagedTable.ofBytes
  schema := PagedTable.schema
  insert := PagedTable.insert
  delete := PagedTable.delete
  pageRows := fun t id => (t.page id).map Page.rows
  rows := fun t _ => t.rows

/-- A store without memory. -/
structure Archive (τ : Type) where
  /-- The name of the directory with the files of its tables. -/
  directory : String
  /-- Number of bytes of a page. -/
  pageSize : Nat
  /-- The files, as far as names are looked up in them; a table that was opened is not written to
      its file. -/
  files : Files
  /-- The tables that were opened. -/
  tables : List (TableId × τ)

namespace Archive

variable {τ : Type}

/-- The archive in the directory called `directory`, in which no table was opened. -/
def new (files : Files) (directory : String) (pageSize : Nat) : Archive τ :=
  ⟨directory, pageSize, files, []⟩

/-- A table that must be there. -/
def table (a : Archive τ) (id : TableId) : Except Error τ :=
  match Assoc.find? id a.tables with
  | some t => .ok t
  | none => .error (.missing (.table id))

/-- The archive with another table in the place of one. -/
def putTable (a : Archive τ) (id : TableId) (t : τ) : Archive τ :=
  { a with tables := Assoc.put id t a.tables }

theorem table_of_some {a : Archive τ} {id : TableId} {t : τ}
    (hfind : Assoc.find? id a.tables = some t) : a.table id = .ok t := by
  unfold table
  rw [hfind]

theorem table_of_none {a : Archive τ} {id : TableId} (hfind : Assoc.find? id a.tables = none) :
    a.table id = .error (.missing (.table id)) := by
  unfold table
  rw [hfind]

variable [Tabular τ]

/-- Makes the table called `name`, or opens it. -/
def createTable (a : Archive τ) (name : String) (schema : Schema) : Answer × Archive τ :=
  match a.files.openFile (Catalog.fileName a.directory name) with
  | .error fault => (.error (.storage fault), a)
  | .ok (path, files) =>
    let a := { a with files := files }
    match Assoc.find? (tableIdOf path) a.tables with
    | some t =>
      if Tabular.schema t ≠ schema then
        (.error (.mismatch (.reregistered (tableIdOf path) (Tabular.schema t) schema)), a)
      else (.ok (.table (tableIdOf path)), a)
    | none =>
      (.ok (.table (tableIdOf path)), a.putTable (tableIdOf path)
        (Tabular.ofBytes (tableIdOf path) schema a.pageSize (files.content path)))

/-- Stores a row in a table. -/
def insertRow (a : Archive τ) (id : TableId) (row : Row) : Answer × Archive τ :=
  match a.table id with
  | .error e => (.error e, a)
  | .ok t =>
    match Tabular.insert t id a.pageSize row with
    | .error e => (.error e, a)
    | .ok (row, t) => (.ok (.row row), a.putTable id t)

/-- Deletes the row at a place. -/
def deleteRow (a : Archive τ) : Option RecordId → Answer × Archive τ
  | none => (.error (.missing .placeToDelete), a)
  | some place =>
    match a.table place.page.table with
    | .error e => (.error e, a)
    | .ok t =>
      match Tabular.delete t place with
      | .error e => (.error e, a)
      | .ok t => (.ok .done, a.putTable place.page.table t)

/-- Does a task. -/
def performTask (a : Archive τ) : Task → Answer × Archive τ
  | .createTable name schema => a.createTable name schema
  | .insertRow _ id row => a.insertRow id row
  | .deleteRow _ place => a.deleteRow place
  | .getPage id => ((do let t ← a.table id.table; (Tabular.pageRows t id).map .rows), a)
  | .scan id => ((a.table id).map fun t => .rows (Tabular.rows t id), a)
  | .flushPage _ | .flushPages _ | .flushAll => (.ok .done, a)

/-- The archive after some tasks. -/
def after (a : Archive τ) : List Task → Archive τ
  | [] => a
  | task :: tasks => (a.performTask task).2.after tasks

/-- The answers to some tasks, done one after the other. -/
def answers (a : Archive τ) : List Task → List Answer
  | [] => []
  | task :: tasks => (a.performTask task).1 :: (a.performTask task).2.answers tasks

/-! ### What an answer depends on -/

variable {a : Archive τ} {name : String} {schema : Schema} {path : Path} {fault : StorageFault}
  {id : TableId} {row row' : Row} {place : RecordId} {t t' : τ} {e : Error}

theorem createTable_of_error (hpath : a.files.pathOf (Catalog.fileName a.directory name) =
    .error fault) : a.createTable name schema = (.error (.storage fault), a) := by
  unfold createTable
  rw [Files.openFile_eq, hpath]
  rfl

section Path

variable (hpath : a.files.pathOf (Catalog.fileName a.directory name) = .ok path)
include hpath

/-- A table that was made with other columns is refused. -/
theorem createTable_of_other (hfind : Assoc.find? (tableIdOf path) a.tables = some t)
    (hschema : Tabular.schema t ≠ schema) :
    a.createTable name schema =
      (.error (.mismatch (.reregistered (tableIdOf path) (Tabular.schema t) schema)),
        { a with files := a.files.opened path }) := by
  unfold createTable
  rw [Files.openFile_eq, hpath]
  simp only [Except.map, hfind]
  rw [if_pos hschema]

/-- A table that was made before stays as it is. -/
theorem createTable_of_known (hfind : Assoc.find? (tableIdOf path) a.tables = some t)
    (hschema : Tabular.schema t = schema) :
    a.createTable name schema =
      (.ok (.table (tableIdOf path)), { a with files := a.files.opened path }) := by
  unfold createTable
  rw [Files.openFile_eq, hpath]
  simp only [Except.map, hfind]
  rw [if_neg (not_not_intro hschema)]

/-- A new table has what its file holds. -/
theorem createTable_of_new (hfind : Assoc.find? (tableIdOf path) a.tables = none) :
    a.createTable name schema =
      (.ok (.table (tableIdOf path)),
        { a with
          files := a.files.opened path
          tables := Assoc.put (tableIdOf path)
            (Tabular.ofBytes (tableIdOf path) schema a.pageSize (a.files.content path))
            a.tables }) := by
  unfold createTable
  rw [Files.openFile_eq, hpath]
  simp only [Except.map, hfind, Files.content_opened]
  rfl

end Path

theorem insertRow_of_missing (htable : a.table id = .error e) :
    a.insertRow id row = (.error e, a) := by
  unfold insertRow
  rw [htable]

theorem insertRow_of_error (htable : a.table id = .ok t)
    (hinsert : Tabular.insert t id a.pageSize row = .error e) :
    a.insertRow id row = (.error e, a) := by
  unfold insertRow
  rw [htable]
  simp only [hinsert]

theorem insertRow_of_ok (htable : a.table id = .ok t)
    (hinsert : Tabular.insert t id a.pageSize row = .ok (row', t')) :
    a.insertRow id row = (.ok (.row row'), a.putTable id t') := by
  unfold insertRow
  rw [htable]
  simp only [hinsert]

theorem deleteRow_of_missing (htable : a.table place.page.table = .error e) :
    a.deleteRow (some place) = (.error e, a) := by
  unfold deleteRow
  simp only [htable]

theorem deleteRow_of_error (htable : a.table place.page.table = .ok t)
    (hdelete : Tabular.delete t place = .error e) : a.deleteRow (some place) = (.error e, a) := by
  unfold deleteRow
  simp only [htable, hdelete]

theorem deleteRow_of_ok (htable : a.table place.page.table = .ok t)
    (hdelete : Tabular.delete t place = .ok t') :
    a.deleteRow (some place) = (.ok .done, a.putTable place.page.table t') := by
  unfold deleteRow
  simp only [htable, hdelete]

end Archive

/-! ## Pages that are marked as written -/

namespace Page

/-- Storing a row does not depend on whether a page was changed. -/
theorem insert_clean (p : Page) (row : Row) :
    p.clean.insert row = (p.insert row).map fun (row, page) => (row, page.clean) := by
  have hschema : p.clean.schema = p.schema := rfl
  have hfree : p.clean.freeSlots = p.freeSlots := rfl
  unfold insert
  rw [hschema, hfree]
  by_cases htypes : (!row.schema.sameTypes p.schema) = true
  · rw [if_pos htypes, if_pos htypes]
    rfl
  · rw [if_neg htypes, if_neg htypes]
    cases p.freeSlots.head? with
    | none => rfl
    | some slot => cases row.clip <;> rfl

/-- Nor does deleting one. -/
theorem delete_clean (p : Page) (place : Option RecordId) :
    p.clean.delete place = (p.delete place).map Page.clean := by
  have hid : p.clean.id = p.id := rfl
  unfold delete
  cases place with
  | none => rfl
  | some r =>
    simp only [hid]
    by_cases hpage : r.page ≠ p.id
    · rw [if_pos hpage, if_pos hpage]
      rfl
    · rw [if_neg hpage, if_neg hpage]
      show (if !p.isUsed r.slot then _ else _) = _
      by_cases hused : (!p.isUsed r.slot) = true
      · rw [if_pos hused, if_pos hused]
        rfl
      · rw [if_neg hused, if_neg hused]
        rfl

end Page

end RowStore
