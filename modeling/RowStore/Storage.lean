import RowStore.Catalog
import RowStore.Pool

/-!
Pages between memory and files.

1. `getPage` finds a page in memory or reads it.  A page that is read takes the place of the
   oldest one if the pool is full; the oldest one is written first if it was changed.
2. A page that cannot be written stays where it is, and stays next to leave.
3. `flushEach` writes the changed ones among some pages, in the order given, and stops at the
   first that cannot be written.

Every operation takes the catalog, which it only reads, and the storage, and gives its result
and the storage after it.
-/

namespace RowStore

/-- The files, and the pages in memory. -/
structure Storage where
  /-- The files. -/
  files : Files
  /-- The pages in memory. -/
  pool : Pool
  deriving DecidableEq

namespace Storage

/-- Reads a page from the file of its table. -/
def readPage (catalog : Catalog) (id : PageId) (s : Storage) : Except Error Page := do
  let file ← catalog.file id.table
  file.readPage s.files id

/-! ## Writing -/

/-- Writes the page of a frame if it was changed. -/
def flushFrame (catalog : Catalog) (frame : Frame) (s : Storage) : Except Error Unit × Storage :=
  if frame.page.dirty then
    match catalog.file frame.page.id.table with
    | .error e => (.error e, s)
    | .ok file =>
      match file.writePage s.files frame.page with
      | .error e => (.error e, s)
      | .ok files => (.ok (), ⟨files, s.pool.update { frame with page := frame.page.clean }⟩)
  else (.ok (), s)

/-- Writes a page if it is in memory and was changed. -/
def flushPage (catalog : Catalog) (id : PageId) (s : Storage) : Except Error Unit × Storage :=
  match s.pool.find? id with
  | none => (.ok (), s)
  | some frame => flushFrame catalog frame s

/-- Writes those of some pages that are in memory and were changed. -/
def flushEach (catalog : Catalog) : List PageId → Storage → Except Error Unit × Storage
  | [], s => (.ok (), s)
  | id :: ids, s =>
    match flushPage catalog id s with
    | (.error e, s) => (.error e, s)
    | (.ok (), s) => flushEach catalog ids s

/-- Writes every page that was changed. -/
def flushAll (catalog : Catalog) (s : Storage) : Except Error Unit × Storage :=
  flushEach catalog (Assoc.keys s.pool.resident) s

/-- Whether a page in memory was last changed by a transaction. -/
def isChangedBy (s : Storage) (tid : TransactionId) (id : PageId) : Bool :=
  match s.pool.find? id with
  | none => false
  | some frame => frame.page.dirtiedBy = some tid

/-- Writes every page that was last changed by a transaction. -/
def flushPages (catalog : Catalog) (tid : TransactionId) (s : Storage) :
    Except Error Unit × Storage :=
  flushEach catalog ((Assoc.keys s.pool.resident).filter (s.isChangedBy tid)) s

/-! ## Making room -/

/-- Lets the oldest pages go until there is room for one more.  The pages of `queue` are those
    that may go. -/
def evictFrom (catalog : Catalog) : List PageId → Storage → Except Error Unit × Storage
  | [], s =>
    if s.pool.hasRoom then (.ok (), s)
    else (.error (.missing .victim), s)
  | victim :: rest, s =>
    if s.pool.hasRoom then (.ok (), s)
    else match flushPage catalog victim s with
      | (.error e, s) => (.error (.eviction victim e), s)
      | (.ok (), s) =>
        let pool := s.pool.release victim
        evictFrom catalog rest { s with pool := { pool with queue := rest } }

/-- Makes room for one more page. -/
def makeRoom (catalog : Catalog) (s : Storage) : Except Error Unit × Storage :=
  evictFrom catalog s.pool.queue s

/-! ## Reading -/

/-- Finds a page in memory, or reads it. -/
def getPage (catalog : Catalog) (id : PageId) (s : Storage) : Except Error Frame × Storage :=
  match s.pool.find? id with
  | some frame => (.ok frame, { s with pool := s.pool.hit })
  | none =>
    let s := { s with pool := s.pool.miss }
    match s.readPage catalog id with
    | .error e => (.error e, s)
    | .ok page =>
      match makeRoom catalog s with
      | (.error e, s) => (.error e, s)
      | (.ok (), s) =>
        let (frame, pool) := s.pool.accept id page
        (.ok frame, { s with pool := pool })

/-- Takes a changed page back: it is put last in the queue, and into memory if it is not there
    any more. -/
def absorb (catalog : Catalog) (frame : Frame) (s : Storage) : Except Error Unit × Storage :=
  let id := frame.page.id
  if s.pool.contains id then (.ok (), { s with pool := s.pool.putFrame id frame })
  else match makeRoom catalog s with
    | (.error e, s) => (.error e, s)
    | (.ok (), s) => (.ok (), { s with pool := s.pool.putFrame id frame })

end Storage

end RowStore
