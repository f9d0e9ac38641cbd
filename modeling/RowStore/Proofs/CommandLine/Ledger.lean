import RowStore.CommandLine
import RowStore.Plan.Meaning
import RowStore.Proofs.Archive.Without

/-!
What a session at the command line is about.

Program.  Each run of the program opens the store, loads the schema file, carries out one command, writes
the changed pages back and ends.  Nothing but the files goes from one run to the next.

A `Ledger` is a list of tables of slots with their names.  It has no files and no pages in memory, and
nothing is loaded or written back.

1. `Sheet.answer`: a query on one table gives columns and rows, and the table after it; or it is refused
   before anything is printed; or, if a number is too large, an error takes the place of the rows.
2. `Ledger.perform`: what a command prints, why it fails, and the tables after it.  A command that fails
   leaves them as they were (`perform_keeps`).
3. `Ledger.session`: what some commands show, one after the other, and the tables after them.
-/

namespace RowStore.CommandLine

/-! ## One table -/

/-- A table that is carried from command to command. -/
structure Sheet where
  /-- The name. -/
  name : String
  /-- The number of the table. -/
  id : TableId
  /-- What it holds. -/
  table : SlotTable
  deriving DecidableEq

/-- The position of the group column, if one is named. -/
def readGroup (schema : Schema) : Option String → Except Error (Option Nat)
  | none => .ok none
  | some name => (schema.indexOf name).map some

/-- Reads an aggregation. -/
def readAggregation (schema : Schema) (function : AggregateFunction) (column : String)
    (group : Option String) : Except Failure Aggregation :=
  Except.mapError Failure.store do
    let column ← schema.indexOf column
    let group ← readGroup schema group
    Aggregation.ofColumns schema column group function

/-- A query on a table: the columns of the answer, and its rows and the table afterwards. -/
def Sheet.answer (pageSize : Nat) (sheet : Sheet) :
    Query → Except Failure (Schema × Except Error (List Row × SlotTable))
  | .scan none => .ok (sheet.table.schema, .ok (sheet.table.rows sheet.id, sheet.table))
  | .scan (some words) => do
    let condition ← readCondition sheet.table.schema words
    .ok (sheet.table.schema,
      .ok ((sheet.table.rows sheet.id).filter condition.holds, sheet.table))
  | .insert texts => do
    let row ← readRow sheet.table.schema texts
    .ok (Plan.countSchema,
      (sheet.table.insert sheet.id pageSize row).map fun (_, table) => ([Plan.countRow 1], table))
  | .aggregate function column group => do
    let aggregation ← readAggregation sheet.table.schema function column group
    .ok (aggregation.schema,
      (aggregation.reduce (sheet.table.rows sheet.id)).map fun rows => (rows, sheet.table))
  | .delete words => do
    let condition ← readCondition sheet.table.schema words
    let gone := (sheet.table.rows sheet.id).filter condition.holds
    .ok (Plan.countSchema,
      .ok ([Plan.countRow gone.length], sheet.table.deleteWhere sheet.id condition.holds))

/-! ## All tables -/

/-- The tables of a store. -/
abbrev Ledger := List Sheet

namespace Ledger

variable {l : Ledger} {pageSize : Nat} {command : Command}

/-- The tables with another content of one of them. -/
def put (l : Ledger) (id : TableId) (table : SlotTable) : Ledger :=
  l.map fun sheet => if sheet.id = id then { sheet with table := table } else sheet

/-- Carries out a command: what it prints, why it fails, and the tables after it. -/
def perform (pageSize : Nat) (l : Ledger) : Command → String × Except Failure Unit × Ledger
  | .tables =>
    (String.join (l.map fun sheet => line (sheet.name ++ "\t" ++ sheet.table.schema.text)), .ok (), l)
  | .query name query =>
    match l.find? (·.name == name) with
    | none => ("", .error (.store (.missing (.tableNamed name))), l)
    | some sheet =>
      match sheet.answer pageSize query with
      | .error failure => ("", .error failure, l)
      | .ok (schema, .error e) => (headLine schema, .error (.store e), l)
      | .ok (schema, .ok (rows, table)) =>
        (headLine schema ++ rowLines rows, .ok (), l.put sheet.id table)

section Query

variable {name : String} {query : Query} {sheet : Sheet} {schema : Schema}

theorem perform_of_missing (hfind : l.find? (·.name == name) = none) :
    l.perform pageSize (.query name query) =
      ("", .error (.store (.missing (.tableNamed name))), l) := by
  simp only [perform, hfind]

variable (hfind : l.find? (·.name == name) = some sheet)
include hfind

/-- Nothing is printed of a query that cannot be asked. -/
theorem perform_of_refused {failure : Failure} (hanswer : sheet.answer pageSize query = .error failure) :
    l.perform pageSize (.query name query) = ("", .error failure, l) := by
  simp only [perform, hfind, hanswer]

/-- No rows are printed of a query that fails. -/
theorem perform_of_error {e : Error} (hanswer : sheet.answer pageSize query = .ok (schema, .error e)) :
    l.perform pageSize (.query name query) = (headLine schema, .error (.store e), l) := by
  simp only [perform, hfind, hanswer]

theorem perform_of_rows {rows : List Row} {table : SlotTable}
    (hanswer : sheet.answer pageSize query = .ok (schema, .ok (rows, table))) :
    l.perform pageSize (.query name query) =
      (headLine schema ++ rowLines rows, .ok (), l.put sheet.id table) := by
  simp only [perform, hfind, hanswer]

end Query

/-- **Failing.**  A command that fails leaves the tables as they were. -/
theorem perform_keeps {failure : Failure} (hfails : (l.perform pageSize command).2.1 = .error failure) :
    (l.perform pageSize command).2.2 = l := by
  cases command with
  | tables => rfl
  | query name query =>
    cases hfind : l.find? (·.name == name) with
    | none => rw [perform_of_missing hfind]
    | some sheet =>
      rcases hanswer : sheet.answer pageSize query with refused | ⟨schema, e | ⟨rows, table⟩⟩
      · rw [perform_of_refused hfind hanswer]
      · rw [perform_of_error hfind hanswer]
      · rw [perform_of_rows hfind hanswer] at hfails
        cases hfails

end Ledger

/-! ## Sessions -/

/-- What a run shows that printed something and then failed or succeeded. -/
def Outcome.of (output : String) : Except Failure Unit → Outcome
  | .ok () => ⟨0, output, ""⟩
  | .error failure => ⟨1, output, line ("Error: " ++ failure.report)⟩

/-- What some commands show, one after the other, and the tables after them. -/
def Ledger.session (pageSize : Nat) (l : Ledger) : List Command → List Outcome × Ledger
  | [] => ([], l)
  | command :: commands =>
    let (output, result, l) := l.perform pageSize command
    let (outcomes, l) := session pageSize l commands
    (Outcome.of output result :: outcomes, l)

/-- A command line with the environment it is given in. -/
abbrev Prompt := List (String × String) × List String

/-- What some runs of the program show, one after the other, and the files after them. -/
def session (files : Files) : List Prompt → List Outcome × Files
  | [] => ([], files)
  | (environment, words) :: runs =>
    let (outcome, files) := run environment words files
    let (outcomes, files) := session files runs
    (outcome :: outcomes, files)

end RowStore.CommandLine
