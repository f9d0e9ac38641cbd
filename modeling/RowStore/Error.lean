import RowStore.Schema
import RowStore.Text.Integer
import RowStore.Text.Quoted

/-!
What can go wrong, as causes.

1. An `Error` says which of eight things happened and carries what a caller needs to know about
   it; its wording is in one function, `Error.message`.
2. Four kinds have causes of their own: something was not found (`Missing`), something does not
   agree with a schema (`Mismatch`), a line of a schema file is malformed (`LineFault`), the
   file system refused (`StorageFault`).
3. A failure of the storage below ends the work that met it (`Error.isFatal`); all other errors
   leave the store usable.
4. Work that is done has met no error in any of its steps (`ok_of_bind`).
-/

namespace RowStore

/-! ## Causes -/

/-- What was looked for in vain. -/
inductive Missing where
  /-- A column by position, in a schema of `count` columns. -/
  | columnAt (index count : Nat)
  /-- A column by name. -/
  | column (name : String)
  /-- A comparison, by its upper-case spelling. -/
  | comparison (word : String)
  /-- An aggregate function, by its lower-case name. -/
  | aggregate (word : String)
  /-- The value of a row to group by. -/
  | groupValue (index : Nat)
  /-- The value of a row to reduce. -/
  | aggregateValue (index : Nat)
  /-- A free slot. -/
  | freeSlot (page : PageId)
  /-- The place of a row that a page is to free. -/
  | place
  /-- The place of a row that is to be deleted. -/
  | placeToDelete
  /-- A place on a page that it does not name. -/
  | placeOnPage (place : RecordId) (page : PageId)
  /-- A live row. -/
  | liveRow (place : RecordId)
  /-- A page in the file of another table. -/
  | pageOfTable (page : PageId) (table : TableId)
  /-- A page at or past the end of a file of `count` pages. -/
  | page (page : PageId) (count : Nat)
  /-- A page that can leave the pool. -/
  | victim
  /-- A table by number. -/
  | table (id : TableId)
  /-- A table by name. -/
  | tableNamed (name : String)
  /-- Anything else, described. -/
  | described (what : String)
  deriving DecidableEq

/-- What disagrees with a schema. -/
inductive Mismatch where
  /-- A word that names no type. -/
  | unknownType (word : String)
  /-- A text that is no integer. -/
  | notInteger (text : String) (fault : Text.IntegerFault)
  /-- A schema without columns. -/
  | noColumns
  /-- A row of `got` values for a schema. -/
  | valueCount (got : Nat) (schema : Schema)
  /-- A value of a new row. -/
  | valueType (index : Nat) (got expected : ColumnType)
  /-- A value put into an existing row. -/
  | storedType (got expected : ColumnType) (index : Nat)
  /-- The constant of a condition. -/
  | constantType (column : ColumnType) (index : Nat) (constant : ColumnType)
  /-- The two columns of a join. -/
  | joinTypes (left : ColumnType) (leftIndex : Nat) (right : ColumnType) (rightIndex : Nat)
  /-- The bytes of a page. -/
  | pageBytes (page : PageId) (got expected : Nat)
  /-- A row wider than a page. -/
  | rowWidth (width pageSize : Nat)
  /-- A row for a page. -/
  | rowOfPage (row page : Schema)
  /-- A row for a table. -/
  | rowOfTable (row : Schema) (table : TableId) (expected : Schema)
  /-- The rows of a plan for a table. -/
  | rowsOfTable (rows : Schema) (table : TableId) (expected : Schema)
  /-- A table that is registered with other columns. -/
  | reregistered (table : TableId) (old new : Schema)
  /-- An aggregate function that texts do not have. -/
  | aggregateOfText (function : AggregateFunction) (column : String)
  /-- A result that is no 32-bit integer. -/
  | aggregateRange (function : AggregateFunction) (result : Int)
  /-- Anything else, described. -/
  | described (message : String)
  deriving DecidableEq

/-- What the file system refused, and why. -/
inductive StorageFault where
  | noSuchFile
  | fileExists
  | notDirectory
  | isDirectory
  | nameTooLong
  /-- A name with a null character. -/
  | nullInName
  /-- A text file with bytes that are no text. -/
  | notUtf8
  /-- Anything else, described. -/
  | described (message : String)
  deriving DecidableEq

/-- What is wrong with a line of a schema file. -/
inductive LineFault where
  /-- No opening parenthesis. -/
  | noColumnList
  /-- No closing parenthesis after the opening one. -/
  | unclosed
  /-- Nothing before the opening parenthesis. -/
  | noName
  /-- A column that is not a name, a type and at most one tag. -/
  | column (text : String)
  /-- A word that names no type. -/
  | unknownType (word : String)
  /-- A tag other than `pk`. -/
  | tag (word : String)
  /-- Anything else, described. -/
  | described (reason : String)
  deriving DecidableEq

/-- What is wrong with the sizes of a store. -/
inductive ConfigFault where
  | noPageSize
  | noPoolPages
  /-- Anything else, described. -/
  | described (message : String)
  deriving DecidableEq

/-- What can go wrong. -/
inductive Error where
  /-- A cursor was used while it was not open. -/
  | notOpen
  /-- A row was asked for after the last one. -/
  | noMoreRows
  /-- The file system refused. -/
  | storage (fault : StorageFault)
  /-- A page could not be written before it had to leave the pool. -/
  | eviction (page : PageId) (source : Error)
  /-- Something does not agree with a schema. -/
  | mismatch (cause : Mismatch)
  /-- Something was not found. -/
  | missing (what : Missing)
  /-- A line of a schema file is malformed; lines are counted from one. -/
  | schemaFile (path : String) (line : Nat) (fault : LineFault)
  /-- The sizes of a store cannot be worked with. -/
  | config (fault : ConfigFault)
  deriving DecidableEq

/-! ## Wording -/

/-- What was not found, in words. -/
def Missing.text : Missing → String
  | .columnAt i n => "field index " ++ toString i ++ " (schema has " ++ toString n ++ " fields)"
  | .column name => "field " ++ name
  | .comparison word => "comparison operator " ++ word
  | .aggregate word => "aggregate operator " ++ word
  | .groupValue i => "group field " ++ toString i
  | .aggregateValue i => "aggregate field " ++ toString i
  | .freeSlot p => "free slot on page " ++ p.text
  | .place => "record id on row"
  | .placeToDelete => "record id on row to delete"
  | .placeOnPage r p => "row " ++ r.text ++ " on page " ++ p.text
  | .liveRow r => "live row at " ++ r.text
  | .pageOfTable p t => "page " ++ p.text ++ " in table " ++ toString t.toNat
  | .page p n => "page " ++ p.text ++ " (table has " ++ toString n ++ " pages)"
  | .victim => "page to evict"
  | .table id => "table " ++ toString id.toNat
  | .tableNamed name => "table " ++ name
  | .described what => what

/-- A disagreement in words. -/
def Mismatch.text : Mismatch → String
  | .unknownType word => "unknown type " ++ word
  | .notInteger text fault => Text.Quoted.text text ++ " is not an int: " ++ fault.message
  | .noColumns => "a schema needs at least one field"
  | .valueCount got schema =>
    "row has " ++ toString got ++ " fields but schema " ++ schema.text ++ " has "
      ++ toString schema.size
  | .valueType i got expected =>
    "field " ++ toString i ++ " is " ++ got.name ++ " but schema expects " ++ expected.name
  | .storedType got expected i =>
    "cannot store a " ++ got.name ++ " in " ++ expected.name ++ " field " ++ toString i
  | .constantType column i constant =>
    "cannot compare " ++ column.name ++ " field " ++ toString i ++ " with a " ++ constant.name
      ++ " constant"
  | .joinTypes left i right j =>
    "cannot join " ++ left.name ++ " field " ++ toString i ++ " with " ++ right.name ++ " field "
      ++ toString j
  | .pageBytes page got expected =>
    "page " ++ page.text ++ " has " ++ toString got ++ " bytes, expected " ++ toString expected
  | .rowWidth width pageSize =>
    "rows of " ++ toString width ++ " bytes do not fit on a " ++ toString pageSize ++ " byte page"
  | .rowOfPage row page =>
    "cannot insert a row of (" ++ row.text ++ ") into a page of (" ++ page.text ++ ")"
  | .rowOfTable row table expected =>
    "cannot insert a row of (" ++ row.text ++ ") into table " ++ toString table.toNat ++ " of ("
      ++ expected.text ++ ")"
  | .rowsOfTable rows table expected =>
    "cannot insert rows of (" ++ rows.text ++ ") into table " ++ toString table.toNat ++ " of ("
      ++ expected.text ++ ")"
  | .reregistered table old new =>
    "table " ++ toString table.toNat ++ " is registered as (" ++ old.text
      ++ "), cannot re-register it as (" ++ new.text ++ ")"
  | .aggregateOfText function column =>
    function.name ++ " is not defined on string field " ++ column
  | .aggregateRange function result =>
    function.name ++ " result " ++ toString result ++ " overflows int"
  | .described message => message

/-- The sentence of the file system, without its number. -/
def StorageFault.sentence : StorageFault → String
  | .noSuchFile => "No such file or directory"
  | .fileExists => "File exists"
  | .notDirectory => "Not a directory"
  | .isDirectory => "Is a directory"
  | .nameTooLong => "File name too long"
  | .nullInName => "file name contained an unexpected NUL byte"
  | .notUtf8 => "stream did not contain valid UTF-8"
  | .described message => message

/-- The number of a refusal that has one. -/
def StorageFault.code? : StorageFault → Option Nat
  | .noSuchFile => some 2
  | .fileExists => some 17
  | .notDirectory => some 20
  | .isDirectory => some 21
  | .nameTooLong => some 36
  | .nullInName | .notUtf8 | .described _ => none

/-- A refusal in words, with its number if it has one. -/
def StorageFault.text (f : StorageFault) : String :=
  match f.code? with
  | some n => f.sentence ++ " (os error " ++ toString n ++ ")"
  | none => f.sentence

/-- A malformed line in words. -/
def LineFault.text : LineFault → String
  | .noColumnList => "expected `name (field type, ...)`"
  | .unclosed => "missing closing parenthesis"
  | .noName => "missing table name"
  | .column text => "invalid column `" ++ text ++ "`"
  | .unknownType word => "unknown type " ++ word
  | .tag word => "unknown annotation " ++ word
  | .described reason => reason

/-- Unusable sizes in words. -/
def ConfigFault.text : ConfigFault → String
  | .noPageSize => "page size must be greater than zero"
  | .noPoolPages => "buffer pool must hold at least one page"
  | .described message => message

namespace Error

/-- An error in words. -/
def message : Error → String
  | .notOpen => "operator is not open"
  | .noMoreRows => "no more rows"
  | .storage fault => "storage I/O error: " ++ fault.text
  | .eviction page source =>
    "failed to flush page " ++ page.text ++ " before eviction: " ++ source.message
  | .mismatch cause => "schema mismatch: " ++ cause.text
  | .missing what => what.text ++ " not found"
  | .schemaFile path line fault =>
    "invalid schema file " ++ Text.Quoted.path path ++ " line " ++ toString line ++ ": "
      ++ fault.text
  | .config fault => "configuration error: " ++ fault.text

/-- Whether the storage below failed. -/
def isFatal : Error → Bool
  | .storage _ | .eviction _ _ => true
  | _ => false

end Error

/-! ## Steps that may fail -/

section Steps

variable {ε ε' α β : Type}

theorem ok_of_bind {x : Except ε α} {f : α → Except ε β} {b : β} (h : x.bind f = .ok b) :
    ∃ a, x = .ok a ∧ f a = .ok b := by
  cases x with
  | error e => cases h
  | ok a => exact ⟨a, rfl, h⟩

/-- Whether what a step gives, if it gives anything, has a property. -/
instance decidableForallOk {p : α → Prop} [DecidablePred p] :
    (x : Except ε α) → Decidable (∀ a, x = .ok a → p a)
  | .error _ => isTrue nofun
  | .ok a => decidable_of_iff (p a) ⟨fun h _ hb => Except.ok.inj hb ▸ h, fun h => h a rfl⟩

theorem ok_of_mapError {x : Except ε α} {f : ε → ε'} {a : α} (h : x.mapError f = .ok a) : x = .ok a := by
  cases x with
  | error e => cases h
  | ok a =>
    cases h
    rfl

end Steps

end RowStore
