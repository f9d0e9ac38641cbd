import RowStore.Error

/-!
Errors in full, as the command line reports them: the name of the kind, and the name and value
of each of its parts.  Texts are quoted (`RowStore.Text.Quoted`), numbers are not.
-/

namespace RowStore

/-- A kind of error with its parts, such as `Config { message: "..." }`. -/
def recordText (kind : String) (parts : List (String × String)) : String :=
  kind ++ " \x7b " ++ ", ".intercalate (parts.map fun p => p.1 ++ ": " ++ p.2) ++ " \x7d"

/-- The kind of a refusal by the file system. -/
def StorageFault.kind : StorageFault → String
  | .noSuchFile => "NotFound"
  | .fileExists => "AlreadyExists"
  | .notDirectory => "NotADirectory"
  | .isDirectory => "IsADirectory"
  | .nameTooLong => "InvalidFilename"
  | .nullInName => "InvalidInput"
  | .notUtf8 => "InvalidData"
  | .described _ => "Other"

/-- A refusal in full. -/
def StorageFault.record (f : StorageFault) : String :=
  match f with
  | .described message =>
    recordText "Custom" [("kind", f.kind), ("error", Text.Quoted.text message)]
  | _ =>
    let parts := [("kind", f.kind), ("message", Text.Quoted.text f.sentence)]
    match f.code? with
    | some n => recordText "Os" (("code", toString n) :: parts)
    | none => recordText "Error" parts

/-- A page in full. -/
def PageId.record (p : PageId) : String :=
  recordText "PageId" [("table_id", toString p.table.toNat), ("page_no", toString p.number)]

/-- An error in full. -/
def Error.record : Error → String
  | .notOpen => "NotOpen"
  | .noMoreRows => "NoSuchElement"
  | .storage fault => recordText "StorageIo" [("source", fault.record)]
  | .eviction page source =>
    recordText "EvictionFailure" [("page_id", page.record), ("source", source.record)]
  | .mismatch cause => recordText "SchemaMismatch" [("message", Text.Quoted.text cause.text)]
  | .missing what => recordText "NotFound" [("what", Text.Quoted.text what.text)]
  | .schemaFile path line fault =>
    recordText "InvalidSchemaFile"
      [("path", Text.Quoted.path path), ("line", toString line),
       ("reason", Text.Quoted.text fault.text)]
  | .config fault => recordText "Config" [("message", Text.Quoted.text fault.text)]

end RowStore
