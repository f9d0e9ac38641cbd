import RowStore.Proofs.Archive.Ends
import RowStore.Proofs.Cursor.ListCursor

/-!
Tables that a plan reads, whether or not their rows fit on a page.

1. `Displays catalog ids view s`: the catalog knows some tables, and each of them is what `view` says
   (as in `Shows`), or none of its pages can be made.  Steps that write none of these tables keep that
   (`Displays.steps`).
2. In such a storage a plan over these tables gives the rows that it means, or fails
   (`Displays.gives`), and they have the types of its columns (`Displays.typed`).
3. It is so in every store that was opened and asked, for tables that had one file, one schema and one
   page size all the time (`Database.displays_after`), and it stays so as long as they are the same files
   (`Database.displays_of_steps`).
-/

namespace RowStore

open Storage Source

variable {catalog : Catalog} {may : Effect → Prop} {h : HeapFile} {rows : List Row} {s s' : Storage}

/-! ## Known tables -/

namespace Storage

/-- Some tables are known; each is what `view` says, or has no page since its rows do not fit. -/
structure Displays (catalog : Catalog) (ids : List TableId) (view : TableId → PagedTable)
    (s : Storage) : Prop where
  /-- Pool and queue agree. -/
  sound : s.pool.Sound
  /-- Every table is known. -/
  held : ∀ id ∈ ids, ∃ h, catalog.file id = .ok h ∧
    (h.Holds (view id) s ∨ (Unfit h s ∧ (view id).pages = []))

variable {ids : List TableId} {view : TableId → PagedTable}

/-- Steps that write none of the tables leave them what they are. -/
theorem Displays.steps (hdisplays : Displays catalog ids view s)
    (hno : ∀ id ∈ ids, ¬ may (.write id)) (hsteps : Steps catalog may s s') :
    Displays catalog ids view s' where
  sound := hsteps.sound hdisplays.sound
  held := by
    intro id hid
    obtain ⟨h, hfile, hheld⟩ := hdisplays.held id hid
    obtain rfl := Catalog.id_of_file hfile
    have honly : ∀ g, catalog.file h.id = .ok g → g = h := fun g => Catalog.eq_of_file hfile
    exact ⟨h, hfile, HeapFile.Displays.steps hheld hdisplays.sound honly (hno h.id hid) hsteps⟩

theorem Displays.quiet (hdisplays : Displays catalog ids view s) (hquiet : Quiet catalog s s') :
    Displays catalog ids view s' :=
  hdisplays.steps (fun _ _ hno => hno) hquiet

theorem Unfit.pages_eq (hu : Unfit h s) : h.pages s = [] := by
  unfold HeapFile.pages
  rw [List.filterMap_eq_nil_iff]
  exact fun n _ => hu.page?_eq_none n

/-- A page that a table does not have is not found. -/
theorem Displays.getPage_of_nil (hdisplays : Displays catalog ids view s) {id : TableId}
    (hid : id ∈ ids) (hnil : (view id).pages = []) {n : Nat} {r : Except Error Frame}
    (hget : s.getPage catalog ⟨id, n⟩ = (r, s')) : ∃ e, r = .error e := by
  obtain ⟨h, hfile, hheld⟩ := hdisplays.held id hid
  obtain rfl := Catalog.id_of_file hfile
  rcases hheld with hh | ⟨hu, -⟩
  · obtain ⟨frame, rfl, hpage⟩ | ⟨-, rfl⟩ | ⟨victim, e, -, rfl⟩ :=
      hh.getPage_ends hdisplays.sound hfile hget
    · rw [hnil] at hpage
      cases hpage
    · exact ⟨_, rfl⟩
    · exact ⟨_, rfl⟩
  · exact hu.getPage hdisplays.sound hfile hget

/-- A scan of one of the tables gives its rows, or fails. -/
theorem Displays.gives_scan {id : TableId} (hid : id ∈ ids) (schema : Schema) :
    ∃ has, ∀ catalog, Gives catalog (Displays catalog ids view) (fun _ => True)
      (.ofTable id schema) (view id).rows has := by
  by_cases hnil : (view id).pages = []
  · refine ⟨fun scan left => left = [] ∧ scan.buffer = [], fun catalog => ?_⟩
    have hrows : (view id).rows = [] := by
      unfold PagedTable.rows
      rw [hnil]
      rfl
    have hno : ∀ {n : Nat} {r : Except Error Frame} {s s' : Storage},
        Displays catalog ids view s → s.getPage catalog ⟨id, n⟩ = (r, s') →
        Quiet catalog s s' ∧ ∃ e, r = .error e := fun hdisplays hget =>
      ⟨getPage_steps hdisplays.sound hget, hdisplays.getPage_of_nil hid hnil hget⟩
    rw [hrows]
    exact gives_nothing schema Displays.quiet (fun hdisplays =>
      (hdisplays.held id hid).imp fun _ => And.left) (fun _ => trivial) hno
  · refine ⟨Scan.Has (view id).pages, fun catalog => ?_⟩
    refine HeapFile.Holds.gives_ofTable Displays.quiet ?_ (fun _ _ => trivial) schema
    intro s hdisplays
    obtain ⟨h, hfile, hh | ⟨-, hnone⟩⟩ := hdisplays.held id hid
    · exact ⟨hdisplays.sound, h, hfile, hh⟩
    · exact absurd hnone hnil

/-- A plan over these tables gives the rows that it means. -/
theorem Displays.gives {made : Catalog} {child : Plan} (hmade : child.Made made)
    (hmeaning : child.meaning (fun id => (view id).rows) = .ok rows) :
    ∃ has, ∀ catalog,
      Gives catalog (Displays catalog child.tables view) (fun _ => True) child.source rows has :=
  hmade.gives_of_scans Displays.quiet (fun _ => Displays.gives_scan) hmeaning

/-- These rows have the types of its schema. -/
theorem Displays.typed {child : Plan} (hdisplays : Displays catalog child.tables view s)
    (hmade : child.Made catalog)
    (hmeaning : child.meaning (fun id => (view id).rows) = .ok rows) :
    ∀ row ∈ rows, row.Typed child.schema := by
  have htables : ∀ id ∈ child.tables, ∀ schema, catalog.schema id = .ok schema →
      ∀ row ∈ (view id).rows, row.Typed schema := by
    intro id hid schema hknown row hrow
    obtain ⟨h, hfile, hheld⟩ := hdisplays.held id hid
    rw [Catalog.schema_of_file hfile] at hknown
    cases hknown
    rcases hheld with hh | ⟨-, hnone⟩
    · exact hh.typed hdisplays.sound hrow
    · rw [PagedTable.rows, hnone] at hrow
      cases hrow
  obtain ⟨rows', hmeaning', hrows⟩ | ⟨f, n, herror, -⟩ := hmade.meaning_cases htables
  · rw [hmeaning] at hmeaning'
    cases hmeaning'
    exact hrows
  · rw [hmeaning] at herror
    cases herror

end Storage

/-! ## Stores -/

namespace HeapFile.Displays

variable {now : PagedTable}

/-- Steps of any kind leave the table one that an archive can have. -/
theorem after_steps (hd : h.Displays now s) (hs : s.pool.Sound)
    (honly : ∀ g, catalog.file h.id = .ok g → g = h) (hsteps : Steps catalog may s s') :
    ∃ now', h.Displays now' s' := by
  rcases hd with hh | ⟨hu, -⟩
  · have hc := (hsteps.coherent_keeps hh.coherent hs honly).1
    exact ⟨_, Or.inl (HeapFile.holds_pages hc (hsteps.sound hs))⟩
  · have hu' := (hsteps.unfit hu hs honly).1
    exact ⟨⟨h.schema, []⟩, Or.inr ⟨hu', rfl⟩⟩

/-- The pages of the archive are the pages of the table. -/
theorem pages_eq (hd : h.Displays now s) (hs : s.pool.Sound) : h.pages s = now.pages := by
  rcases hd with hh | ⟨hu, hnone⟩
  · exact hh.pages_eq hs
  · rw [hu.pages_eq, hnone]

end HeapFile.Displays

namespace Database

variable {db : Database} {id : TableId}

/-- A table as it is now, page by page. -/
def paged (db : Database) (id : TableId) : PagedTable :=
  match db.catalog.file id with
  | .ok h => ⟨h.schema, h.pages db.storage⟩
  | .error _ => ⟨Plan.countSchema, []⟩

theorem paged_of_file (hfile : db.catalog.file id = .ok h) :
    db.paged id = ⟨h.schema, h.pages db.storage⟩ := by
  unfold paged
  rw [hfile]

theorem tableRows_eq (db : Database) : db.tableRows = fun id => (db.paged id).rows := by
  funext id
  unfold tableRows paged
  cases db.catalog.file id <;> rfl

theorem unfit_after (hs : db.storage.pool.Sound) (hu : Unfit h db.storage) {requests : List Request}
    (hone : ∀ d ∈ db.states requests, ∀ g, d.catalog.file h.id = .ok g → g = h) :
    Unfit h (db.after requests).storage := by
  induction requests generalizing db with
  | nil => exact hu
  | cons request requests ih =>
    have hsteps := perform_steps hs request
    obtain ⟨hu', -⟩ := hsteps.unfit hu hs (hone db List.mem_cons_self)
    exact ih (hsteps.sound hs) hu' fun d hd => hone d (List.mem_cons_of_mem _ hd)

/-- A table that had one file, one schema and one page size is what its pages are, or it has none
    since its rows do not fit. -/
theorem paged_after {files files' : Files} {directory : String} {config : Config} {new : Database}
    (hopen : create files directory config = (.ok new, files')) {requests : List Request}
    (hfile : (new.after requests).catalog.file id = .ok h)
    (hone : ∀ d ∈ new.states requests, ∀ g, d.catalog.file id = .ok g → g = h) :
    h.Holds ((new.after requests).paged id) (new.after requests).storage ∨
      (Unfit h (new.after requests).storage ∧ ((new.after requests).paged id).pages = []) := by
  have hs : (new.after requests).storage.pool.Sound := (sound_of_create hopen requests).1
  obtain rfl := Catalog.id_of_file hfile
  rw [paged_of_file hfile]
  obtain ⟨-, hpool, -, rfl⟩ := create_cases hopen
  by_cases hfits : h.Fits
  · exact Or.inl (HeapFile.holds_pages
      (coherent_after (Pool.sound_empty hpool) (.of_none hfits fun _ => rfl) hone) hs)
  · have hu := unfit_after (h := h) (Pool.sound_empty hpool) ⟨hfits, fun _ => rfl⟩ hone
    exact Or.inr ⟨hu, hu.pages_eq⟩

/-- Tables that had one file, one schema and one page size each are what their pages are. -/
theorem displays_after {files files' : Files} {directory : String} {config : Config}
    {new : Database} (hopen : create files directory config = (.ok new, files'))
    {requests : List Request} {ids : List TableId}
    (hknown : ∀ id ∈ ids, ∃ schema, (new.after requests).catalog.schema id = .ok schema)
    (hone : ∀ id ∈ ids, ∀ h, (new.after requests).catalog.file id = .ok h →
      ∀ d ∈ new.states requests, ∀ g, d.catalog.file id = .ok g → g = h) :
    Displays (new.after requests).catalog ids (new.after requests).paged
      (new.after requests).storage where
  sound := (sound_of_create hopen requests).1
  held := by
    intro id hid
    obtain ⟨schema, hschema⟩ := hknown id hid
    obtain ⟨h, hfile, -⟩ := Catalog.file_of_schema hschema
    exact ⟨h, hfile, paged_after hopen hfile (hone id hid h hfile)⟩

end Database

namespace HeapFile.Displays

variable {now : PagedTable} {db : Database}

/-- The rows of the table, as the store shows it. -/
theorem tableRows (hd : h.Displays now db.storage) (hs : db.storage.pool.Sound)
    (hfile : db.catalog.file h.id = .ok h) : db.tableRows h.id = now.rows := by
  rw [Database.tableRows_eq]
  show (db.paged h.id).rows = now.rows
  rw [Database.paged_of_file hfile]
  exact congrArg (List.flatMap Page.rows) (hd.pages_eq hs)

/-- The pages of the table, as the store shows it. -/
theorem paged (hd : h.Displays now db.storage) (hs : db.storage.pool.Sound)
    (hfile : db.catalog.file h.id = .ok h) : h.Displays (db.paged h.id) db.storage := by
  rw [Database.paged_of_file hfile]
  rcases hd with hh | ⟨hu, -⟩
  · exact Or.inl (HeapFile.holds_pages hh.coherent hs)
  · exact Or.inr ⟨hu, hu.pages_eq⟩

end HeapFile.Displays

/-- Tables that are the same files after some steps are what their pages are then. -/
theorem Database.displays_of_steps {db db' : Database} {ids : List TableId}
    (hdisplays : Displays db.catalog ids db.paged db.storage)
    (hsame : ∀ id ∈ ids, db'.catalog.file id = db.catalog.file id)
    (hsteps : Steps db.catalog may db.storage db'.storage) :
    Displays db'.catalog ids db'.paged db'.storage := by
  have hs' := hsteps.sound hdisplays.sound
  refine ⟨hs', fun id hid => ?_⟩
  obtain ⟨h, hfile, hd⟩ := hdisplays.held id hid
  obtain rfl := Catalog.id_of_file hfile
  have hfile' : db'.catalog.file h.id = .ok h := (hsame h.id hid).trans hfile
  obtain ⟨now, hd'⟩ := HeapFile.Displays.after_steps hd hdisplays.sound
    (fun g hg => Catalog.eq_of_file hfile hg) hsteps
  exact ⟨h, hfile', hd'.paged hs' hfile'⟩

end RowStore
