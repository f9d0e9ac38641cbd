import RowStore.Page.InPlace
import RowStore.Storage.Rows

/-!
Operations on files that may fail.

1. An operation uses the file of a table in four ways (`Access`), each page at most once for reading
   and once for writing.  `Faults` says which of these uses fail during an operation.  A use that
   fails gives an error and leaves the file as it was.  Writing a page at a place that is no signed
   word of 64 bits, where no file has a byte, is a use that fails.
2. The operations are those of the storage, with every use of a file asked for first.  Storing a
   row also says what has become of the row of the caller.
3. When nothing fails, they are the operations of the storage (`getPage_never`, `insertRow_never`
   and the others).
-/

namespace RowStore

/-- A use of the file of a table. -/
inductive Access where
  /-- Asks for its length, to go through its pages. -/
  | length (table : TableId)
  /-- Asks for its length, to put a page after the last one. -/
  | extent (table : TableId)
  /-- Reads a page. -/
  | read (page : PageId)
  /-- Writes a page. -/
  | write (page : PageId)

/-- The uses of files that fail during an operation, each with its error. -/
structure Faults where
  /-- The error of a use, if it fails. -/
  error? : Access → Option Error

namespace Faults

/-- Nothing fails. -/
def never : Faults := ⟨fun _ => none⟩

variable (f : Faults)

/-- The result of a use of a file. -/
def guard {α : Type} (access : Access) (result : Except Error α) : Except Error α :=
  match f.error? access with
  | some e => .error e
  | none => result

/-- Reads a page from the file of its table. -/
def readPage (catalog : Catalog) (id : PageId) (s : Storage) : Except Error Page := do
  let file ← catalog.file id.table
  f.guard (.read id) (file.readPage s.files id)

/-! ## Writing back -/

/-- Writes the page of a frame if it was changed. -/
def flushFrame (catalog : Catalog) (frame : Frame) (s : Storage) : Except Error Unit × Storage :=
  if frame.page.dirty then
    match catalog.file frame.page.id.table with
    | .error e => (.error e, s)
    | .ok file =>
      match f.guard (.write frame.page.id) (file.writePage s.files frame.page) with
      | .error e => (.error e, s)
      | .ok files => (.ok (), ⟨files, s.pool.update { frame with page := frame.page.clean }⟩)
  else (.ok (), s)

/-- Writes a page if it is in memory and was changed. -/
def flushPage (catalog : Catalog) (id : PageId) (s : Storage) : Except Error Unit × Storage :=
  match s.pool.find? id with
  | none => (.ok (), s)
  | some frame => f.flushFrame catalog frame s

/-- Writes those of some pages that are in memory and were changed. -/
def flushEach (catalog : Catalog) : List PageId → Storage → Except Error Unit × Storage
  | [], s => (.ok (), s)
  | id :: ids, s =>
    match f.flushPage catalog id s with
    | (.error e, s) => (.error e, s)
    | (.ok (), s) => flushEach catalog ids s

/-! ## Finding pages -/

/-- Lets the oldest pages go until there is room for one more page. -/
def evictFrom (catalog : Catalog) : List PageId → Storage → Except Error Unit × Storage
  | [], s =>
    if s.pool.hasRoom then (.ok (), s)
    else (.error (.missing .victim), s)
  | victim :: rest, s =>
    if s.pool.hasRoom then (.ok (), s)
    else match f.flushPage catalog victim s with
      | (.error e, s) => (.error (.eviction victim e), s)
      | (.ok (), s) =>
        let pool := s.pool.release victim
        evictFrom catalog rest { s with pool := { pool with queue := rest } }

/-- Makes room for one more page. -/
def makeRoom (catalog : Catalog) (s : Storage) : Except Error Unit × Storage :=
  f.evictFrom catalog s.pool.queue s

/-- Finds a page in memory, or reads it. -/
def getPage (catalog : Catalog) (id : PageId) (s : Storage) : Except Error Frame × Storage :=
  match s.pool.find? id with
  | some frame => (.ok frame, { s with pool := s.pool.hit })
  | none =>
    let s := { s with pool := s.pool.miss }
    match f.readPage catalog id s with
    | .error e => (.error e, s)
    | .ok page =>
      match f.makeRoom catalog s with
      | (.error e, s) => (.error e, s)
      | (.ok (), s) =>
        let (frame, pool) := s.pool.accept id page
        (.ok frame, { s with pool := pool })

/-- Takes a changed page back. -/
def absorb (catalog : Catalog) (frame : Frame) (s : Storage) : Except Error Unit × Storage :=
  let id := frame.page.id
  if s.pool.contains id then (.ok (), { s with pool := s.pool.putFrame id frame })
  else match f.makeRoom catalog s with
    | (.error e, s) => (.error e, s)
    | (.ok (), s) => (.ok (), { s with pool := s.pool.putFrame id frame })

/-! ## Reading all rows -/

/-- The rows of some pages of a table after those that were taken, beginning with page `number`. -/
def rowsFrom (catalog : Catalog) (table : TableId) :
    (count number : Nat) → List Row → Storage → Except Error (List Row) × Storage
  | 0, _, taken, s => (.ok taken, s)
  | count + 1, number, taken, s =>
    match f.getPage catalog ⟨table, number⟩ s with
    | (.error e, s) => (.error e, s)
    | (.ok frame, s) => rowsFrom catalog table count (number + 1) (taken ++ frame.page.rows) s

/-- All rows of a table. -/
def scanRows (catalog : Catalog) (table : TableId) (s : Storage) :
    Except Error (List Row) × Storage :=
  match catalog.file table with
  | .error e => (.error e, s)
  | .ok file =>
    match f.guard (.length table) (.ok (file.numPages s.files)) with
    | .error e => (.error e, s)
    | .ok count => f.rowsFrom catalog table count 0 [] s

/-! ## Storing and deleting -/

/-- Puts a caller's row into a page in memory. -/
def store (tid : TransactionId) (frame : Frame) (row : Row) (s : Storage) :
    Except Error Frame × Row × Storage :=
  match frame.page.store row with
  | (.error e, row) => (.error e, row, s)
  | (.ok page, row) =>
    let (frame, s) := HeapFile.change tid frame page s
    (.ok frame, row, s)

/-- Puts a caller's row into the first of `count` pages that has a free slot, beginning with page
    `number`. -/
def storeFrom (h : HeapFile) (catalog : Catalog) (tid : TransactionId) :
    (count number : Nat) → Row → Storage → Except Error (Option Frame) × Row × Storage
  | 0, _, row, s => (.ok none, row, s)
  | count + 1, number, row, s =>
    match f.getPage catalog ⟨h.id, number⟩ s with
    | (.error e, s) => (.error e, row, s)
    | (.ok frame, s) =>
      if frame.page.freeSlots.isEmpty then storeFrom h catalog tid count (number + 1) row s
      else match store tid frame row s with
        | (.error e, row, s) => (.error e, row, s)
        | (.ok frame, row, s) => (.ok (some frame), row, s)

/-- Makes the file one page longer. -/
def grow (h : HeapFile) (s : Storage) : Except Error PageId × Storage :=
  match f.guard (.extent h.id) (.ok (h.numPages s.files)) with
  | .error e => (.error e, s)
  | .ok count =>
    match Page.blank ⟨h.id, count⟩ h.schema h.pageSize with
    | .error e => (.error e, s)
    | .ok page =>
      match f.guard (.write page.id) (h.writePage s.files page) with
      | .error e => (.error e, s)
      | .ok files => (.ok ⟨h.id, count⟩, { s with files := files })

/-- Stores a caller's row in a heap file: the page that was changed. -/
def storeIn (h : HeapFile) (catalog : Catalog) (tid : TransactionId) (row : Row) (s : Storage) :
    Except Error Frame × Row × Storage :=
  if !row.schema.sameTypes h.schema then
    (.error (.mismatch (.rowOfTable row.schema h.id h.schema)), row, s)
  else match f.guard (.length h.id) (.ok (h.numPages s.files)) with
    | .error e => (.error e, row, s)
    | .ok count =>
      match f.storeFrom h catalog tid count 0 row s with
      | (.error e, row, s) => (.error e, row, s)
      | (.ok (some frame), row, s) => (.ok frame, row, s)
      | (.ok none, row, s) =>
        match f.grow h s with
        | (.error e, s) => (.error e, row, s)
        | (.ok id, s) =>
          match f.getPage catalog id s with
          | (.error e, s) => (.error e, row, s)
          | (.ok frame, s) => store tid frame row s

/-- Deletes the row at a place of a heap file: the page that was changed. -/
def deleteIn (h : HeapFile) (catalog : Catalog) (tid : TransactionId) (place : Option RecordId)
    (s : Storage) : Except Error Frame × Storage :=
  match place with
  | none => (.error (.missing .placeToDelete), s)
  | some r =>
    match h.checkTable r.page with
    | .error e => (.error e, s)
    | .ok () =>
      match f.getPage catalog r.page s with
      | (.error e, s) => (.error e, s)
      | (.ok frame, s) =>
        match frame.page.delete place with
        | .error e => (.error e, s)
        | .ok page =>
          let (frame, s) := HeapFile.change tid frame page s
          (.ok frame, s)

/-- Stores a caller's row in a table. -/
def insertRow (catalog : Catalog) (tid : TransactionId) (table : TableId) (row : Row)
    (s : Storage) : Except Error Unit × Row × Storage :=
  match catalog.file table with
  | .error e => (.error e, row, s)
  | .ok file =>
    match f.storeIn file catalog tid row s with
    | (.error e, row, s) => (.error e, row, s)
    | (.ok frame, row, s) =>
      let (result, s) := f.absorb catalog frame s
      (result, row, s)

/-- Deletes the row at a place. -/
def deleteRow (catalog : Catalog) (tid : TransactionId) (place : Option RecordId) (s : Storage) :
    Except Error Unit × Storage :=
  match place with
  | none => (.error (.missing .placeToDelete), s)
  | some r =>
    match catalog.file r.page.table with
    | .error e => (.error e, s)
    | .ok file =>
      match f.deleteIn file catalog tid place s with
      | (.error e, s) => (.error e, s)
      | (.ok frame, s) => f.absorb catalog frame s

/-! ## When nothing fails -/

section Never

variable (catalog : Catalog) (tid : TransactionId)

@[simp]
theorem guard_never {α : Type} (access : Access) (result : Except Error α) :
    never.guard access result = result := rfl

theorem flushPage_never (id : PageId) (s : Storage) :
    never.flushPage catalog id s = s.flushPage catalog id := rfl

theorem flushEach_never (ids : List PageId) (s : Storage) :
    never.flushEach catalog ids s = s.flushEach catalog ids := by
  induction ids generalizing s with
  | nil => rfl
  | cons id ids ih =>
    unfold flushEach Storage.flushEach
    rw [flushPage_never]
    rcases s.flushPage catalog id with ⟨_ | _, s₁⟩
    · rfl
    · exact ih s₁

theorem makeRoom_never (s : Storage) : never.makeRoom catalog s = s.makeRoom catalog := by
  unfold makeRoom Storage.makeRoom
  generalize s.pool.queue = queue
  induction queue generalizing s with
  | nil => rfl
  | cons id ids ih =>
    unfold evictFrom Storage.evictFrom
    by_cases hroom : s.pool.hasRoom = true
    · rw [if_pos hroom, if_pos hroom]
    · rw [if_neg hroom, if_neg hroom, flushPage_never]
      rcases s.flushPage catalog id with ⟨_ | _, s₁⟩
      · rfl
      · exact ih _

theorem readPage_never (id : PageId) (s : Storage) :
    never.readPage catalog id s = s.readPage catalog id := rfl

theorem getPage_never (id : PageId) (s : Storage) :
    never.getPage catalog id s = s.getPage catalog id := by
  unfold getPage Storage.getPage
  cases s.pool.find? id with
  | some frame => rfl
  | none =>
    rcases hread : Storage.readPage catalog id { s with pool := s.pool.miss } with e | page
    · simp only [readPage_never, hread]
    · rcases hroom : Storage.makeRoom catalog { s with pool := s.pool.miss } with ⟨_ | _, s₁⟩ <;>
        simp only [readPage_never, makeRoom_never, hread, hroom]

theorem absorb_never (frame : Frame) (s : Storage) :
    never.absorb catalog frame s = s.absorb catalog frame := by
  unfold absorb Storage.absorb
  by_cases hold : s.pool.contains frame.page.id = true
  · simp only [if_pos hold]
  · rcases hroom : s.makeRoom catalog with ⟨_ | _, s₁⟩ <;>
      simp only [if_neg hold, makeRoom_never, hroom]

theorem grow_never (h : HeapFile) (s : Storage) : never.grow h s = h.grow s := rfl

/-- A stored row is given back to its caller. -/
theorem insertInto_eq_store (frame : Frame) (row : Row) (s : Storage) :
    HeapFile.insertInto tid row frame s = match store tid frame row s with
      | (.error e, _, s) => (.error e, s)
      | (.ok frame, row, s) => (.ok (row, frame), s) := by
  unfold HeapFile.insertInto store
  rw [Page.insert_eq_store]
  rcases frame.page.store row with ⟨result, row'⟩
  cases result <;> rfl

/-- A row for which no page was found is still what it was. -/
theorem row_of_storeFrom {f : Faults} {h : HeapFile} {count number : Nat} {row row' : Row}
    {s s' : Storage} (hfrom : f.storeFrom h catalog tid count number row s = (.ok none, row', s')) :
    row' = row := by
  induction count generalizing number s with
  | zero =>
    cases hfrom
    rfl
  | succ count ih =>
    unfold storeFrom at hfrom
    rcases hget : f.getPage catalog ⟨h.id, number⟩ s with ⟨result, s₁⟩
    rw [hget] at hfrom
    cases result with
    | error e => cases hfrom
    | ok frame =>
      by_cases hempty : frame.page.freeSlots.isEmpty = true
      · simp only [if_pos hempty] at hfrom
        exact ih hfrom
      · simp only [if_neg hempty] at hfrom
        rcases hstore : store tid frame row s₁ with ⟨stored, row₁, s₂⟩
        rw [hstore] at hfrom
        cases stored <;> cases hfrom

theorem storeFrom_never (h : HeapFile) (count number : Nat) (row : Row) (s : Storage) :
    HeapFile.insertFrom h catalog tid row count number s =
      match never.storeFrom h catalog tid count number row s with
      | (.error e, _, s) => (.error e, s)
      | (.ok none, _, s) => (.ok none, s)
      | (.ok (some frame), row, s) => (.ok (some (row, frame)), s) := by
  induction count generalizing number s with
  | zero => rfl
  | succ count ih =>
    unfold HeapFile.insertFrom storeFrom
    rw [getPage_never]
    rcases s.getPage catalog ⟨h.id, number⟩ with ⟨result, s₁⟩
    cases result with
    | error e => rfl
    | ok frame =>
      by_cases hempty : frame.page.freeSlots.isEmpty = true
      · simp only [if_pos hempty, ih]
      · simp only [if_neg hempty, insertInto_eq_store]
        rcases store tid frame row s₁ with ⟨stored, row', s₂⟩
        cases stored <;> rfl

/-- When nothing fails, a row is stored in a heap file as by `HeapFile.insertRow`. -/
theorem storeIn_never (h : HeapFile) (row : Row) (s : Storage) :
    h.insertRow catalog tid row s =
      match never.storeIn h catalog tid row s with
      | (.error e, _, s) => (.error e, s)
      | (.ok frame, row, s) => (.ok (row, frame), s) := by
  unfold HeapFile.insertRow storeIn
  by_cases htypes : (!row.schema.sameTypes h.schema) = true
  · rw [if_pos htypes, if_pos htypes]
  · rw [if_neg htypes, if_neg htypes, guard_never]
    simp only [storeFrom_never, grow_never, getPage_never]
    rcases hfrom : never.storeFrom h catalog tid (h.numPages s.files) 0 row s with
      ⟨result, row', s₁⟩
    rcases result with e | _ | frame
    · rfl
    · obtain rfl := row_of_storeFrom catalog tid hfrom
      simp only [insertInto_eq_store]
      rcases h.grow s₁ with ⟨grown, s₂⟩
      cases grown with
      | error e => rfl
      | ok id =>
        simp only
        rcases s₂.getPage catalog id with ⟨found, s₃⟩
        cases found <;> rfl
    · rfl

theorem deleteIn_never (h : HeapFile) (place : Option RecordId) (s : Storage) :
    never.deleteIn h catalog tid place s = h.deleteRow catalog tid place s := by
  unfold deleteIn HeapFile.deleteRow
  cases place with
  | none => rfl
  | some r =>
    rcases hid : h.checkTable r.page with e | _
    · simp only [hid]
    · rcases hget : s.getPage catalog r.page with ⟨_ | frame, s₁⟩
      · simp only [hid, getPage_never, hget]
      · cases hpage : frame.page.delete (some r) <;> simp only [hid, getPage_never, hget, hpage]

/-- When nothing fails, a row is stored as by `Storage.insertRow`, which gives it back. -/
theorem insertRow_never (table : TableId) (row : Row) (s : Storage) :
    s.insertRow catalog tid table row =
      match never.insertRow catalog tid table row s with
      | (.error e, _, s) => (.error e, s)
      | (.ok (), row, s) => (.ok row, s) := by
  unfold Storage.insertRow insertRow
  cases catalog.file table with
  | error e => rfl
  | ok file =>
    simp only [storeIn_never, absorb_never]
    rcases never.storeIn file catalog tid row s with ⟨result, row', s₁⟩
    cases result with
    | error e => rfl
    | ok frame =>
      simp only
      rcases s₁.absorb catalog frame with ⟨absorbed, s₂⟩
      cases absorbed <;> rfl

theorem deleteRow_never (place : Option RecordId) (s : Storage) :
    never.deleteRow catalog tid place s = s.deleteRow catalog tid place := by
  unfold deleteRow Storage.deleteRow
  cases place with
  | none => rfl
  | some r =>
    cases hfile : catalog.file r.page.table with
    | error e => simp only [hfile]
    | ok file =>
      rcases hdel : file.deleteRow catalog tid (some r) s with ⟨_ | frame, s₁⟩ <;>
        simp only [hfile, deleteIn_never, hdel, absorb_never]

end Never

end Faults

end RowStore
