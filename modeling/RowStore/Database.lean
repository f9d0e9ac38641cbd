import RowStore.Storage.Rows

/-!
A store in a directory: its sizes, its catalog, its files and its pages in memory.

Opening a store makes its directory if it is missing, and starts with no table and no page in
memory.  Closing it is nothing at all: what was not written is lost.
-/

namespace RowStore

/-- A store. -/
structure Database where
  /-- The name of the directory with the files of its tables. -/
  directory : String
  /-- Its sizes. -/
  config : Config
  /-- Its tables. -/
  catalog : Catalog
  /-- Its files and pages. -/
  storage : Storage
  deriving DecidableEq

namespace Database

/-- Opens the store in the directory called `directory`. -/
def create (files : Files) (directory : String) (config : Config) :
    Except Error Database × Files :=
  match config.validate with
  | .error e => (.error e, files)
  | .ok config =>
    match files.makeDirectories directory with
    | (.error fault, files) => (.error (.storage fault), files)
    | (.ok (), files) =>
      (.ok ⟨directory, config, Catalog.empty, ⟨files, Pool.empty config⟩⟩, files)

/-- Opens the heap file called `name` and adds it to the catalog. -/
def addFile (db : Database) (file name primaryKey : String) (schema : Schema) (pageSize : Nat) :
    Except Error TableId × Database :=
  match HeapFile.openNamed db.storage.files file schema pageSize with
  | .error e => (.error e, db)
  | .ok (heap, files) =>
    let db := { db with storage := { db.storage with files := files } }
    match db.catalog.add ⟨name, heap, primaryKey⟩ with
    | .error e => (.error e, db)
    | .ok catalog => (.ok heap.id, { db with catalog := catalog })

/-- Makes the table called `name`, or opens it if its file is there. -/
def createTable (db : Database) (name : String) (schema : Schema) :
    Except Error TableId × Database :=
  db.addFile (Path.join db.directory (name ++ Catalog.fileEnding)) name "" schema
    db.config.pageSize

/-- Adds the tables of the schema file called `name`. -/
def loadSchema (db : Database) (name : String) : Except Error (List TableId) × Database :=
  let (result, catalog, files) := db.catalog.load db.storage.files name db.config.pageSize
  (result, { db with catalog := catalog, storage := { db.storage with files := files } })

/-- Forgets all tables; their files and their pages in memory stay. -/
def clearCatalog (db : Database) : Database := { db with catalog := Catalog.empty }

/-- Runs an operation on the storage. -/
def run (db : Database) (operation : Catalog → Storage → α × Storage) : α × Database :=
  let (result, storage) := operation db.catalog db.storage
  (result, { db with storage := storage })

end Database

end RowStore
