import RowStore.Storage

/-!
Storing and deleting rows.

1. A row goes to the first page of its table that has a free slot, and there into the least free
   one.  Only when every page is full does the file get one page more.
2. `HeapFile.insertRow` and `HeapFile.deleteRow` change the page where it is in memory;
   `Storage.insertRow` and `Storage.deleteRow` also put it last in the queue.
3. A row that is stored comes back as it is stored, with its place; when anything fails there is
   no row to give back.
-/

namespace RowStore

namespace HeapFile

/-- Changes the page of a frame. -/
def change (tid : TransactionId) (frame : Frame) (page : Page) (s : Storage) : Frame × Storage :=
  let frame := { frame with page := page.touch (some tid) }
  (frame, { s with pool := s.pool.update frame })

/-- Puts a row into a page in memory. -/
def insertInto (tid : TransactionId) (row : Row) (frame : Frame) (s : Storage) :
    Except Error (Row × Frame) × Storage :=
  match frame.page.insert row with
  | .error e => (.error e, s)
  | .ok (row, page) =>
    let (frame, s) := change tid frame page s
    (.ok (row, frame), s)

/-- Puts a row into the first of `count` pages that has a free slot, beginning with page
    `number`. -/
def insertFrom (h : HeapFile) (catalog : Catalog) (tid : TransactionId) (row : Row) :
    (count number : Nat) → Storage → Except Error (Option (Row × Frame)) × Storage
  | 0, _, s => (.ok none, s)
  | count + 1, number, s =>
    match s.getPage catalog ⟨h.id, number⟩ with
    | (.error e, s) => (.error e, s)
    | (.ok frame, s) =>
      if frame.page.freeSlots.isEmpty then insertFrom h catalog tid row count (number + 1) s
      else match insertInto tid row frame s with
        | (.error e, s) => (.error e, s)
        | (.ok placed, s) => (.ok (some placed), s)

/-- Makes the file one page longer. -/
def grow (h : HeapFile) (s : Storage) : Except Error PageId × Storage :=
  let id : PageId := ⟨h.id, h.numPages s.files⟩
  match Page.blank id h.schema h.pageSize with
  | .error e => (.error e, s)
  | .ok page =>
    match h.writePage s.files page with
    | .error e => (.error e, s)
    | .ok files => (.ok id, { s with files := files })

/-- Stores a row: the row as it is stored, and the page that was changed. -/
def insertRow (h : HeapFile) (catalog : Catalog) (tid : TransactionId) (row : Row) (s : Storage) :
    Except Error (Row × Frame) × Storage :=
  if !row.schema.sameTypes h.schema then
    (.error (.mismatch (.rowOfTable row.schema h.id h.schema)), s)
  else match insertFrom h catalog tid row (h.numPages s.files) 0 s with
    | (.error e, s) => (.error e, s)
    | (.ok (some placed), s) => (.ok placed, s)
    | (.ok none, s) =>
      match h.grow s with
      | (.error e, s) => (.error e, s)
      | (.ok id, s) =>
        match s.getPage catalog id with
        | (.error e, s) => (.error e, s)
        | (.ok frame, s) => insertInto tid row frame s

/-- Deletes the row at a place: the page that was changed. -/
def deleteRow (h : HeapFile) (catalog : Catalog) (tid : TransactionId)
    (place : Option RecordId) (s : Storage) : Except Error Frame × Storage :=
  match place with
  | none => (.error (.missing .placeToDelete), s)
  | some r =>
    match h.checkTable r.page with
    | .error e => (.error e, s)
    | .ok () =>
      match s.getPage catalog r.page with
      | (.error e, s) => (.error e, s)
      | (.ok frame, s) =>
        match frame.page.delete place with
        | .error e => (.error e, s)
        | .ok page =>
          let (frame, s) := change tid frame page s
          (.ok frame, s)

end HeapFile

namespace Storage

/-- Stores a row in a table: the row as it is stored. -/
def insertRow (catalog : Catalog) (tid : TransactionId) (table : TableId) (row : Row)
    (s : Storage) : Except Error Row × Storage :=
  match catalog.file table with
  | .error e => (.error e, s)
  | .ok file =>
    match file.insertRow catalog tid row s with
    | (.error e, s) => (.error e, s)
    | (.ok (row, frame), s) =>
      match s.absorb catalog frame with
      | (.error e, s) => (.error e, s)
      | (.ok (), s) => (.ok row, s)

/-- Deletes the row at a place. -/
def deleteRow (catalog : Catalog) (tid : TransactionId) (place : Option RecordId) (s : Storage) :
    Except Error Unit × Storage :=
  match place with
  | none => (.error (.missing .placeToDelete), s)
  | some r =>
    match catalog.file r.page.table with
    | .error e => (.error e, s)
    | .ok file =>
      match file.deleteRow catalog tid place s with
      | (.error e, s) => (.error e, s)
      | (.ok frame, s) => s.absorb catalog frame

end Storage

end RowStore
