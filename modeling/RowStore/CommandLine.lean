import RowStore.CommandLine.Invocation
import RowStore.Cursor
import RowStore.Database
import RowStore.Error.Record

/-!
Carrying out a command line.

1. A run opens the store, loads the schema file, carries out the command and writes every page
   that was changed.  The first failure ends it; pages that are changed and still in memory are
   not written then.
2. What a query prints is one line with the names of its columns, before anything else is done,
   and then one line for each row.  Rows that came before a failure stay printed.
3. The exit code is 0, or 1 after a failure, which is reported in full, or 2 if the command line
   is misused; nothing is done then.
-/

namespace RowStore.CommandLine

/-! ## Failures -/

/-- Why a run failed. -/
inductive Failure where
  /-- The store refused something. -/
  | store (error : Error)
  /-- A condition has more than three words. -/
  | condition
  /-- A row has not one value for each column. -/
  | valueCount (schema : Schema) (count : Nat)
  deriving DecidableEq

/-- A failure in full. -/
def Failure.report : Failure → String
  | .store error => error.record
  | .condition => Text.Quoted.text "expected FIELD OP VALUE"
  | .valueCount schema count =>
    Text.Quoted.text ("table has " ++ toString schema.size ++ " columns (" ++ schema.text ++
      "), got " ++ toString count ++ " values")

/-! ## From words to plans -/

/-- Reads a condition. -/
def readCondition (schema : Schema) (words : List String) : Except Failure Condition :=
  match words with
  | [column, comparison, constant] =>
    Except.mapError Failure.store do
      let index ← schema.indexOf column
      let comparison ← Comparison.parse comparison
      let type ← schema.columnType index
      let constant ← Value.parse type constant
      .ok ⟨index, comparison, constant⟩
  | _ => .error .condition

/-- Reads one value of each type. -/
def readValues : List ColumnType → List String → Except Error (List Value)
  | type :: types, text :: texts => do
    let value ← Value.parse type text
    let values ← readValues types texts
    .ok (value :: values)
  | _, _ => .ok []

/-- Reads a row. -/
def readRow (schema : Schema) (texts : List String) : Except Failure Row :=
  if texts.length ≠ schema.size then .error (.valueCount schema texts.length)
  else Except.mapError Failure.store do
    let values ← readValues schema.types texts
    Row.ofValues schema values

/-- The rows of a table that satisfy a condition. -/
def filtered (catalog : Catalog) (table : TableId) (schema : Schema) (words : List String) :
    Except Failure Plan := do
  let condition ← readCondition schema words
  Except.mapError Failure.store do
    let scan ← Plan.mkScan catalog table
    Plan.mkFilter condition scan

/-- The plan of a query. -/
def Query.plan (catalog : Catalog) (tid : TransactionId) (table : TableId) (schema : Schema) :
    Query → Except Failure Plan
  | .scan none => (Plan.mkScan catalog table).mapError Failure.store
  | .scan (some words) => filtered catalog table schema words
  | .insert texts => do
    let row ← readRow schema texts
    (Plan.mkInsert catalog tid table (.rows schema [row])).mapError Failure.store
  | .aggregate function column group =>
    Except.mapError Failure.store do
      let column ← schema.indexOf column
      let group ← match group with
        | none => .ok none
        | some name => (schema.indexOf name).map some
      let scan ← Plan.mkScan catalog table
      Plan.mkAggregate scan column group function
  | .delete words => (filtered catalog table schema words).map (Plan.mkDelete tid)

/-- The plan of a query on the table of a given name. -/
def planFor (catalog : Catalog) (tid : TransactionId) (table : String) (query : Query) :
    Except Failure Plan := do
  let id ← (catalog.tableId table).mapError Failure.store
  let schema ← (catalog.schema id).mapError Failure.store
  query.plan catalog tid id schema

/-! ## Printing -/

/-- A text as a line. -/
def line (text : String) : String := text ++ "\n"

/-- The line with the names of the columns. -/
def headLine (schema : Schema) : String :=
  line ("\t".intercalate (schema.columns.map (·.name)))

/-- The lines of some rows. -/
def rowLines (rows : List Row) : String := String.join (rows.map fun row => line row.text)

/-- The lines that list the tables. -/
def tableLines (catalog : Catalog) : String :=
  String.join (catalog.entries.map fun e => line (e.name ++ "\t" ++ e.file.schema.text))

/-! ## Runs -/

/-- Takes all rows of a plan: the rows, and the error that ended them early. -/
def allRows (plan : Plan) (db : Database) : List Row × Option Error × Database :=
  let cursor := Cursor.ofPlan plan
  match db.run fun catalog s =>
      let (result, cursor, s) := cursor.start catalog s
      ((result, cursor), s) with
  | ((.error e, _), db) => ([], some e, db)
  | ((.ok (), cursor), db) =>
    let ((rows, error), db) := db.run fun catalog s =>
      let (rows, error, _, s) := cursor.collect catalog s
      ((rows, error), s)
    (rows, error, db)

/-- Carries out a command: what it prints, and why it failed. -/
def perform (tid : TransactionId) (command : Command) (db : Database) :
    String × Except Failure Unit × Database :=
  match command with
  | .tables => (tableLines db.catalog, .ok (), db)
  | .query table query =>
    match planFor db.catalog tid table query with
    | .error failure => ("", .error failure, db)
    | .ok plan =>
      let (rows, error, db) := allRows plan db
      (headLine plan.schema ++ rowLines rows,
        match error with
        | none => .ok ()
        | some e => .error (.store e),
        db)

/-- The schema file of an invocation. -/
def Invocation.schemaName (inv : Invocation) : String :=
  inv.schemaFile.getD (Path.join inv.directory "catalog.txt")

/-- Carries out an invocation: what it prints, and why it failed. -/
def Invocation.run (inv : Invocation) (files : Files) : String × Except Failure Unit × Files :=
  match Database.create files inv.directory inv.config with
  | (.error e, files) => ("", .error (.store e), files)
  | (.ok db, _) =>
    match db.loadSchema inv.schemaName with
    | (.error e, db) => ("", .error (.store e), db.storage.files)
    | (.ok _, db) =>
      match perform Transactions.fresh.begin.1 inv.command db with
      | (output, .error failure, db) => (output, .error failure, db.storage.files)
      | (output, .ok (), db) =>
        let (result, db) := db.run fun catalog s => s.flushAll catalog
        (output, result.mapError Failure.store, db.storage.files)

/-- What a run shows to its user. -/
structure Outcome where
  /-- The exit code. -/
  code : Nat
  /-- What it prints. -/
  output : String
  /-- What it complains about. -/
  complaint : String
  deriving DecidableEq

/-- How to use the program. -/
def usage : String :=
  "Usage: heapdb [-d DIR] [-s FILE] [--page-size BYTES] [--pool-pages PAGES] COMMAND\n\n" ++
  "Commands:\n" ++
  "  tables\n" ++
  "  scan TABLE [--where FIELD OP VALUE]\n" ++
  "  insert TABLE VALUE...\n" ++
  "  aggregate TABLE OP FIELD [--group-by FIELD]\n" ++
  "  delete TABLE --where FIELD OP VALUE\n"

/-- The name and the version of the program. -/
def versionLine : String := "heapdb 0.1.0\n"

/-- Runs a command line in an environment. -/
def run (environment : List (String × String)) (words : List String) (files : Files) :
    Outcome × Files :=
  match Invocation.read environment words with
  | .error .misuse => (⟨2, "", usage⟩, files)
  | .error .help => (⟨0, usage, ""⟩, files)
  | .error .version => (⟨0, versionLine, ""⟩, files)
  | .ok inv =>
    match inv.run files with
    | (output, .ok (), files) => (⟨0, output, ""⟩, files)
    | (output, .error failure, files) => (⟨1, output, line ("Error: " ++ failure.report)⟩, files)

end RowStore.CommandLine
