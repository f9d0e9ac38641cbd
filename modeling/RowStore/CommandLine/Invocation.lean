import RowStore.CommandLine.Arguments
import RowStore.Config
import RowStore.Row
import RowStore.Text.Integer

/-!
What the program is asked to do.

1. An `Invocation` is a store, by its directory, its schema file and its sizes, and one command.
2. The store is described by flags in front of the command.  A flag that is not given takes its
   value from the environment, and if there is none a standard value; the schema file stands in
   the directory of the store then.
3. The words of a condition are read with the columns of the table (`RowStore.CommandLine`),
   since a constant has the type of its column; only their number is checked here, for each time
   the flag is given.
-/

namespace RowStore.CommandLine

/-- What is asked of a table. -/
inductive Query where
  /-- The rows, or those that satisfy a condition. -/
  | scan (condition : Option (List String))
  /-- To store a row. -/
  | insert (values : List String)
  /-- To reduce a column, for each value of another one or for all rows. -/
  | aggregate (function : AggregateFunction) (column : String) (group : Option String)
  /-- To delete the rows that satisfy a condition. -/
  | delete (condition : List String)
  deriving DecidableEq

/-- A command. -/
inductive Command where
  /-- To list the tables. -/
  | tables
  /-- To do something with a table. -/
  | query (table : String) (query : Query)
  deriving DecidableEq

/-- A command, and the store it is for. -/
structure Invocation where
  /-- The directory of the store. -/
  directory : String
  /-- The schema file, if it is not the standard one. -/
  schemaFile : Option String
  /-- The sizes of the store. -/
  config : Config
  /-- The command. -/
  command : Command
  deriving DecidableEq

/-! ## Flags -/

/-- A size as it is given to a flag. -/
def readSize (text : String) : Except Text.IntegerFault Nat :=
  Text.readNatural 18446744073709551615 text

/-- Whether a text can be the name of a file. -/
def isFileName (text : String) : Bool := text ≠ ""

/-- Whether a text is a size. -/
def isSize (text : String) : Bool := (readSize text).isOk

/-- Whether a text names a function. -/
def isFunction (text : String) : Bool := (AggregateFunction.parse text).isOk

/-- The directory of the store. -/
def directoryFlag : Flag := ⟨"data-dir", some 'd', 1, false, isFileName⟩

/-- The schema file. -/
def schemaFlag : Flag := ⟨"schema", some 's', 1, false, isFileName⟩

/-- The number of bytes of a page. -/
def pageSizeFlag : Flag := ⟨"page-size", none, 1, false, isSize⟩

/-- The number of pages in memory. -/
def poolPagesFlag : Flag := ⟨"pool-pages", none, 1, false, isSize⟩

/-- A condition: a column, a comparison and a constant. -/
def conditionFlag : Flag := ⟨"where", none, 3, true, anyWord⟩

/-- The column that tells groups apart. -/
def groupFlag : Flag := ⟨"group-by", none, 1, false, anyWord⟩

/-- For each flag the variable of the environment that stands in for it. -/
def standIns : List (String × String) :=
  [("data-dir", "HEAPDB_DATA_DIR"), ("schema", "HEAPDB_SCHEMA"),
   ("page-size", "HEAPDB_PAGE_SIZE"), ("pool-pages", "HEAPDB_POOL_PAGES")]

/-- The directory of a store that was told none. -/
def standardDirectory : String := "./heapdb-data"

/-! ## Commands -/

/-- The words of a command that has no commands of its own. -/
def commandShape (flags : List Flag) (words : List (String → Bool)) (more : Bool) : Shape :=
  ⟨flags, words, more, [], false⟩

/-- Reads the words after `tables`. -/
def readTables (words : List String) : Except Stop Command := do
  let _ ← (commandShape [] [] false).read words
  .ok .tables

/-- Reads the words after `scan`. -/
def readScan (words : List String) : Except Stop Command := do
  let given ← (commandShape [conditionFlag] [anyWord] false).read words
  match given.words with
  | [table] => .ok (.query table (.scan (given.values? conditionFlag.name)))
  | _ => .error .misuse

/-- Reads the words after `insert`. -/
def readInsert (words : List String) : Except Stop Command := do
  let given ← (commandShape [] [anyWord] true).read words
  match given.words with
  | table :: value :: values => .ok (.query table (.insert (value :: values)))
  | _ => .error .misuse

/-- Reads the words after `aggregate`. -/
def readAggregate (words : List String) : Except Stop Command := do
  let given ← (commandShape [groupFlag] [anyWord, isFunction, anyWord] false).read words
  match given.words with
  | [table, function, column] =>
    match AggregateFunction.parse function with
    | .ok function => .ok (.query table (.aggregate function column (given.value? groupFlag.name)))
    | .error _ => .error .misuse
  | _ => .error .misuse

/-- Reads the words after `delete`. -/
def readDelete (words : List String) : Except Stop Command := do
  let given ← (commandShape [conditionFlag] [anyWord] false).read words
  match given.words, given.values? conditionFlag.name with
  | [table], some condition => .ok (.query table (.delete condition))
  | _, _ => .error .misuse

/-- Every command by its name. -/
def readers : List (String × (List String → Except Stop Command)) :=
  [("tables", readTables), ("scan", readScan), ("insert", readInsert),
   ("aggregate", readAggregate), ("delete", readDelete)]

/-- The command that asks how to use the program, or one command of it. -/
def helpCommand : String := "help"

/-- The names of all commands. -/
def commandNames : List String := Assoc.keys readers ++ [helpCommand]

/-- Reads the words after `help`. -/
def readHelp : List String → Stop
  | [] => .help
  | [name] => if commandNames.contains name then .help else .misuse
  | _ => .misuse

/-- Reads the words after the name of a command. -/
def readCommand (name : String) (words : List String) : Except Stop Command :=
  match Assoc.find? name readers with
  | some reader => reader words
  | none => .error (readHelp words)

/-! ## Invocations -/

/-- What stands in front of a command. -/
def shape : Shape :=
  ⟨[directoryFlag, schemaFlag, pageSizeFlag, poolPagesFlag], [], false, commandNames, true⟩

/-- The value of a flag: the given one, or the one of the environment. -/
def setting (environment : List (String × String)) (given : Given) (flag : Flag) :
    Except Stop (Option String) :=
  match given.value? flag.name with
  | some value => .ok (some value)
  | none =>
    match (Assoc.find? flag.name standIns).bind (Assoc.find? · environment) with
    | none => .ok none
    | some value => if flag.accepts value then .ok (some value) else .error .misuse

/-- The value of a flag that is a size. -/
def sizeSetting (environment : List (String × String)) (given : Given) (flag : Flag)
    (standard : Nat) : Except Stop Nat := do
  match ← setting environment given flag with
  | none => .ok standard
  | some value =>
    match readSize value with
    | .ok n => .ok n
    | .error _ => .error .misuse

/-- Reads a command line. -/
def Invocation.read (environment : List (String × String)) (words : List String) :
    Except Stop Invocation := do
  let given ← shape.read words
  match given.command with
  | none => .error .misuse
  | some (name, rest) =>
    let command ← readCommand name rest
    let directory ← setting environment given directoryFlag
    let schemaFile ← setting environment given schemaFlag
    let pageSize ← sizeSetting environment given pageSizeFlag Config.standard.pageSize
    let poolPages ← sizeSetting environment given poolPagesFlag Config.standard.poolPages
    .ok ⟨directory.getD standardDirectory, schemaFile, ⟨pageSize, poolPages⟩, command⟩

example : Invocation.read [] ["-d", "x", "--pool-pages=2", "scan", "t", "--where", "a", "<", "5"] =
    .ok ⟨"x", none, ⟨4096, 2⟩, .query "t" (.scan (some ["a", "<", "5"]))⟩ := by rfl
example : Invocation.read [("HEAPDB_PAGE_SIZE", "x")] ["tables"] = .error .misuse := by rfl
example : Invocation.read [("HEAPDB_PAGE_SIZE", "x")] ["--page-size", "64", "tables"] =
    .ok ⟨standardDirectory, none, ⟨64, 50⟩, .tables⟩ := by rfl
example : Invocation.read [] ["insert", "t", "-1"] = .error .misuse := by rfl
example : Invocation.read [] ["insert", "t", "--", "-1"] =
    .ok ⟨standardDirectory, none, Config.standard, .query "t" (.insert ["-1"])⟩ := by rfl

end RowStore.CommandLine
