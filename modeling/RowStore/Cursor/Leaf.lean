import RowStore.Cursor.Source

/-!
The sources at the leaves of a plan.

1. `ofRows` gives rows from a list, each as often as it is asked from the beginning.
2. `ofTable` gives the live rows of a table, by rising page and slot.  The number of pages is
   fixed when it is started; a page is taken from memory when the rows of the page before it are
   used up, and its rows are those that live at that moment.
-/

namespace RowStore.Source

/-- Gives rows from a list to a consumer until he has enough: whether he had, and the rows that
    are left. -/
def deliver {α : Type} (consume : Consumer α) : List Row → α → Storage →
    Bool × List Row × α × Storage
  | [], a, s => (false, [], a, s)
  | row :: rows, a, s =>
    match consume row a s with
    | (.done a, s) => (true, rows, a, s)
    | (.yield a, s) => deliver consume rows a s

/-! ## Rows from a list -/

/-- Gives the rows from position `pos` on. -/
def eachOf {α : Type} (rows : List Row) (consume : Consumer α) (pos : Nat) (a : α) (s : Storage) :
    Ending × Nat × α × Storage :=
  let (stopped, left, a, s) := deliver consume (rows.drop pos) a s
  (if stopped then .stopped else .exhausted, rows.length - left.length, a, s)

/-- The rows of a list. -/
def ofRows (schema : Schema) (rows : List Row) : Source where
  schema := schema
  State := Nat
  initial := 0
  start := fun _ _ s => (.ok (), 0, s)
  each := fun _ consume pos a s => eachOf rows consume pos a s
  rewind := fun _ _ s => (.ok (), 0, s)
  close := fun _ => 0

/-! ## Rows of a table -/

/-- How far a scan is. -/
structure Scan where
  /-- Number of pages that are scanned. -/
  count : Nat
  /-- The next page. -/
  next : Nat
  /-- The rows of the present page that are left. -/
  buffer : List Row
  deriving DecidableEq

namespace Scan

/-- A scan of nothing. -/
def nothing : Scan := ⟨0, 0, []⟩

/-- Begins a scan of a table. -/
def start (table : TableId) (catalog : Catalog) (scan : Scan) (s : Storage) :
    Except Error Unit × Scan × Storage :=
  match catalog.file table with
  | .error e => (.error e, scan, s)
  | .ok file => (.ok (), ⟨file.numPages s.files, 0, []⟩, s)

theorem start_of_file {table : TableId} {catalog : Catalog} {file : HeapFile}
    (hfile : catalog.file table = .ok file) (scan : Scan) (s : Storage) :
    Scan.start table catalog scan s = (.ok (), ⟨file.numPages s.files, 0, []⟩, s) := by
  unfold start
  rw [hfile]

/-- A scan begins with the first page, or its table is not known. -/
theorem start_cases {table : TableId} {catalog : Catalog} {scan scan' : Scan} {s s' : Storage}
    {r : Except Error Unit} (h : Scan.start table catalog scan s = (r, scan', s')) :
    s' = s ∧ ((∃ e, catalog.file table = .error e ∧ r = .error e ∧ scan' = scan) ∨
      ∃ file, catalog.file table = .ok file ∧ r = .ok () ∧ scan' = ⟨file.numPages s.files, 0, []⟩) := by
  unfold start at h
  cases hfile : catalog.file table with
  | error e =>
    rw [hfile] at h
    cases h
    exact ⟨rfl, Or.inl ⟨e, rfl, rfl, rfl⟩⟩
  | ok file =>
    rw [hfile] at h
    cases h
    exact ⟨rfl, Or.inr ⟨file, rfl, rfl, rfl⟩⟩

/-- Gives the rows of the present page and of `pages` further pages. -/
def eachPage {α : Type} (table : TableId) (catalog : Catalog) (consume : Consumer α) :
    (pages : Nat) → Scan → α → Storage → Ending × Scan × α × Storage
  | 0, scan, a, s =>
    let (stopped, left, a, s) := deliver consume scan.buffer a s
    (if stopped then .stopped else .exhausted, { scan with buffer := left }, a, s)
  | pages + 1, scan, a, s =>
    let (stopped, left, a, s) := deliver consume scan.buffer a s
    let scan := { scan with buffer := left }
    if stopped then (.stopped, scan, a, s)
    else match s.getPage catalog ⟨table, scan.next⟩ with
      | (.error e, s) => (.failed e, scan, a, s)
      | (.ok frame, s) =>
        eachPage table catalog consume pages ⟨scan.count, scan.next + 1, frame.page.rows⟩ a s

/-- Gives the rows that are left. -/
def each {α : Type} (table : TableId) (catalog : Catalog) (consume : Consumer α) (scan : Scan)
    (a : α) (s : Storage) : Ending × Scan × α × Storage :=
  eachPage table catalog consume (scan.count - scan.next) scan a s

end Scan

/-- The live rows of a table. -/
def ofTable (table : TableId) (schema : Schema) : Source where
  schema := schema
  State := Scan
  initial := Scan.nothing
  start := Scan.start table
  each := Scan.each table
  rewind := fun catalog _ s => Scan.start table catalog Scan.nothing s
  close := fun _ => Scan.nothing

end RowStore.Source
