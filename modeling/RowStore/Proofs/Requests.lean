import RowStore.Cursor
import RowStore.Database
import RowStore.Proofs.Catalog

/-!
Requests to a store, and runs of them.

1. A `Task` is what a client asks of the tables of a store: make a table, store, delete and read
   rows, read pages, write pages back.
2. A `Request` is a task or something that reaches below the tables: register any file under any
   name, load a schema file, forget all tables, drop a page from memory, or store and delete in a
   heap file without telling the pool that the page was used.
3. Every request has an answer, also when it fails (`Database.perform`), and a run of requests
   has one answer for each (`Database.answers`).  A store is reachable if a run leads to it from a
   store that was just opened.
-/

namespace RowStore

/-- What a client asks of the tables of a store. -/
inductive Task where
  /-- Makes a table, or opens it if its file is there. -/
  | createTable (name : String) (schema : Schema)
  /-- Stores a row. -/
  | insertRow (tid : TransactionId) (table : TableId) (row : Row)
  /-- Deletes the row at a place. -/
  | deleteRow (tid : TransactionId) (place : Option RecordId)
  /-- Reads a page. -/
  | getPage (id : PageId)
  /-- Writes a page back. -/
  | flushPage (id : PageId)
  /-- Writes back the pages last changed by a transaction. -/
  | flushPages (tid : TransactionId)
  /-- Writes all pages back. -/
  | flushAll
  /-- Reads all rows of a table. -/
  | scan (table : TableId)

/-- What can be asked of a store. -/
inductive Request where
  /-- Something about its tables. -/
  | task (task : Task)
  /-- Registers the file called `file` as a table. -/
  | addFile (file name primaryKey : String) (schema : Schema) (pageSize : Nat)
  /-- Registers the tables of a schema file. -/
  | loadSchema (name : String)
  /-- Forgets all tables. -/
  | clearCatalog
  /-- Drops a page from memory without writing it. -/
  | discard (id : PageId)
  /-- Stores a row in the heap file of a table. -/
  | insertInFile (tid : TransactionId) (table : TableId) (row : Row)
  /-- Deletes a row from the heap file of a table. -/
  | deleteInFile (tid : TransactionId) (table : TableId) (place : Option RecordId)

/-- What a request gives when it succeeds. -/
inductive Outcome where
  | done
  | table (id : TableId)
  | tables (ids : List TableId)
  | row (row : Row)
  | rows (rows : List Row)
  deriving DecidableEq

/-- The answer to a request. -/
abbrev Answer := Except Error Outcome

/-- The answer that a result makes. -/
def Answer.of {α β : Type} (f : α → Outcome) (result : Except Error α × β) : Answer × β :=
  (result.1.map f, result.2)

/-- Takes every row; the last one comes first. -/
def Source.takeRow : Consumer (List Row) := fun row rows s => (.yield (row :: rows), s)

/-- All rows of a source, from its start on. -/
def Source.readAll (src : Source) (catalog : Catalog) (s : Storage) :
    Except Error (List Row) × Storage :=
  match src.start catalog src.initial s with
  | (.error e, _, s) => (.error e, s)
  | (.ok (), st, s) =>
    match src.each catalog takeRow st [] s with
    | (.failed e, _, _, s) => (.error e, s)
    | (.exhausted, _, rows, s) | (.stopped, _, rows, s) => (.ok rows.reverse, s)

/-- All rows of a plan, read by a new cursor from the first to the last. -/
def Plan.readAll (plan : Plan) (catalog : Catalog) (s : Storage) :
    Except Error (List Row) × Storage :=
  match (Cursor.ofPlan plan).start catalog s with
  | (.error e, _, s) => (.error e, s)
  | (.ok (), cursor, s) =>
    match cursor.collect catalog s with
    | (found, none, _, s) => (.ok found, s)
    | (_, some e, _, s) => (.error e, s)

/-- All rows of a table. -/
def Storage.scanRows (catalog : Catalog) (table : TableId) (s : Storage) :
    Except Error (List Row) × Storage :=
  match Plan.mkScan catalog table with
  | .error e => (.error e, s)
  | .ok plan => plan.readAll catalog s

/-- Stores a row in the heap file of a table. -/
def Storage.insertInFile (catalog : Catalog) (tid : TransactionId) (table : TableId) (row : Row)
    (s : Storage) : Except Error Row × Storage :=
  match catalog.file table with
  | .error e => (.error e, s)
  | .ok file =>
    let (r, s) := file.insertRow catalog tid row s
    (r.map (·.1), s)

/-- Deletes a row from the heap file of a table. -/
def Storage.deleteInFile (catalog : Catalog) (tid : TransactionId) (table : TableId)
    (place : Option RecordId) (s : Storage) : Except Error Unit × Storage :=
  match catalog.file table with
  | .error e => (.error e, s)
  | .ok file =>
    let (r, s) := file.deleteRow catalog tid place s
    (r.map fun _ => (), s)

/-! ## Reading all rows -/

section Reading

open Source

/-- Taking rows from a list takes them all. -/
theorem Source.deliver_takeRow (rows taken : List Row) (s : Storage) :
    deliver takeRow rows taken s = (false, [], rows.reverse ++ taken, s) := by
  induction rows generalizing taken with
  | nil => rfl
  | cons row rows ih =>
    show deliver takeRow rows (row :: taken) s = _
    rw [ih, List.reverse_cons, List.append_assoc]
    rfl

/-- A new cursor that is opened and read to its end gives all rows of its source. -/
theorem Plan.readAll_eq (catalog : Catalog) (plan : Plan) (s : Storage) :
    plan.readAll catalog s = plan.source.readAll catalog s := by
  unfold Plan.readAll Source.readAll
  rcases hstart : plan.source.start catalog plan.source.initial s with ⟨result, st, s₁⟩
  cases result with
  | error e => simp only [Cursor.start, Guarded.start, Cursor.ofPlan, Source.guard, hstart]
  | ok =>
    have hopen : (Cursor.ofPlan plan).start catalog s = (.ok (), ⟨plan, true, none, st⟩, s₁) := by
      simp only [Cursor.start, Guarded.start, Cursor.ofPlan, Source.guard, hstart]
    simp only [hopen]
    rcases heach : plan.source.each catalog takeRow st [] s₁ with ⟨ending, st', found, s₂⟩
    have hguard : Guarded.each catalog takeRow ⟨true, none, st⟩ [] s₁ =
        (ending, ⟨true, none, st'⟩, found, s₂) := by
      simp only [Guarded.each, Bool.not_true, Bool.false_eq_true, if_false, heach]
    unfold Cursor.collect
    rw [show (fun row (rows : List Row) (s : Storage) => (ForInStep.yield (row :: rows), s)) =
      takeRow from rfl]
    simp only [hguard]
    cases ending <;> rfl

/-- Reading all rows of a known table is reading its source to the end. -/
theorem Storage.scanRows_of_file {catalog : Catalog} {table : TableId} {file : HeapFile}
    (hfile : catalog.file table = .ok file) (s : Storage) :
    s.scanRows catalog table = (ofTable table file.schema).readAll catalog s := by
  unfold scanRows Plan.mkScan
  rw [Catalog.schema_of_file hfile]
  exact Plan.readAll_eq catalog (.scan table file.schema) s

/-- Reading all rows of a table is reading all its pages. -/
theorem Storage.scanRows_eq (catalog : Catalog) (table : TableId) (s : Storage) :
    s.scanRows catalog table =
      match catalog.file table with
      | .error e => (.error e, s)
      | .ok file =>
        match Scan.eachPage table catalog takeRow (file.numPages s.files)
            ⟨file.numPages s.files, 0, []⟩ [] s with
        | (.failed e, _, _, s) => (.error e, s)
        | (.exhausted, _, rows, s) | (.stopped, _, rows, s) => (.ok rows.reverse, s) := by
  cases hfile : catalog.file table with
  | error e =>
    unfold scanRows Plan.mkScan
    rw [Catalog.schema_eq, hfile]
    rfl
  | ok file =>
    rw [scanRows_of_file hfile]
    simp only [readAll, ofTable, Scan.start, hfile, Scan.each, Nat.sub_zero]
    cases Scan.eachPage table catalog takeRow (file.numPages s.files)
        ⟨file.numPages s.files, 0, []⟩ [] s with
    | mk ending rest => cases ending <;> rfl

end Reading

/-! ## Answering -/

namespace Database

/-- Does a task. -/
def performTask (db : Database) : Task → Answer × Database
  | .createTable name schema => Answer.of .table (db.createTable name schema)
  | .insertRow tid table row =>
    db.run fun catalog s => Answer.of .row (s.insertRow catalog tid table row)
  | .deleteRow tid place =>
    db.run fun catalog s => Answer.of (fun _ => .done) (s.deleteRow catalog tid place)
  | .getPage id =>
    db.run fun catalog s => Answer.of (fun frame => .rows frame.page.rows) (s.getPage catalog id)
  | .flushPage id =>
    db.run fun catalog s => Answer.of (fun _ => .done) (s.flushPage catalog id)
  | .flushPages tid =>
    db.run fun catalog s => Answer.of (fun _ => .done) (s.flushPages catalog tid)
  | .flushAll => db.run fun catalog s => Answer.of (fun _ => .done) (s.flushAll catalog)
  | .scan table => db.run fun catalog s => Answer.of .rows (s.scanRows catalog table)

/-- Answers a request. -/
def perform (db : Database) : Request → Answer × Database
  | .task task => db.performTask task
  | .addFile file name primaryKey schema pageSize =>
    Answer.of .table (db.addFile file name primaryKey schema pageSize)
  | .loadSchema name => Answer.of .tables (db.loadSchema name)
  | .clearCatalog => (.ok .done, db.clearCatalog)
  | .discard id => db.run fun _ s => (.ok .done, { s with pool := s.pool.discard id })
  | .insertInFile tid table row =>
    db.run fun catalog s => Answer.of .row (s.insertInFile catalog tid table row)
  | .deleteInFile tid table place =>
    db.run fun catalog s => Answer.of (fun _ => .done) (s.deleteInFile catalog tid table place)

/-- The store after some requests. -/
def after (db : Database) : List Request → Database
  | [] => db
  | request :: requests => (db.perform request).2.after requests

/-- The answers to some requests, made one after the other. -/
def answers (db : Database) : List Request → List Answer
  | [] => []
  | request :: requests =>
    (db.perform request).1 :: (db.perform request).2.answers requests

/-- The stores that a run of requests goes through, the first and the last among them. -/
def states (db : Database) : List Request → List Database
  | [] => [db]
  | request :: requests => db :: (db.perform request).2.states requests

/-- The last store of a run is the one after it. -/
theorem after_mem_states (db : Database) (requests : List Request) :
    db.after requests ∈ db.states requests := by
  induction requests generalizing db with
  | nil => exact List.mem_singleton_self db
  | cons request requests ih => exact List.mem_cons_of_mem _ (ih _)

/-- A store that was just opened has no table and no page in memory, and its sizes are not
    zero. -/
theorem create_cases {files files' : Files} {directory : String} {config : Config} {db : Database}
    (h : create files directory config = (.ok db, files')) :
    0 < config.pageSize ∧ 0 < config.poolPages ∧
      files.makeDirectories directory = (.ok (), files') ∧
      db = ⟨directory, config, Catalog.empty, ⟨files', Pool.empty config⟩⟩ := by
  unfold create at h
  cases hvalid : config.validate with
  | error e =>
    rw [hvalid] at h
    cases h
  | ok valid =>
    rw [hvalid] at h
    unfold Config.validate at hvalid
    split at hvalid
    · cases hvalid
    · split at hvalid
      · cases hvalid
      · cases hvalid
        simp only at h
        rcases hmake : files.makeDirectories directory with ⟨result, files₁⟩
        rw [hmake] at h
        cases result <;> cases h
        exact ⟨by omega, by omega, rfl, rfl⟩

/-- A store is opened if its sizes are not zero and its directory can be made. -/
theorem create_eq_ok {files files' : Files} {directory : String} {config : Config}
    (hsize : config.pageSize ≠ 0) (hpool : config.poolPages ≠ 0)
    (hmake : files.makeDirectories directory = (.ok (), files')) :
    create files directory config =
      (.ok ⟨directory, config, Catalog.empty, ⟨files', Pool.empty config⟩⟩, files') := by
  have hvalid : config.validate = .ok config := by
    unfold Config.validate
    rw [if_neg hsize, if_neg hpool]
  unfold create
  rw [hvalid]
  simp only [hmake]

/-- What every request keeps, every run keeps. -/
theorem after_induction {P : Database → Prop} (hstep : ∀ db request, P db → P (db.perform request).2)
    {db : Database} (hdb : P db) (requests : List Request) : P (db.after requests) := by
  induction requests generalizing db with
  | nil => exact hdb
  | cons request requests ih => exact ih (hstep db request hdb)

end Database

end RowStore
