import RowStore.Proofs.Archive.Answers

/-!
Nothing is lost when all pages were written back.

Program.  A page is changed in memory and marked.  A marked page is written before it leaves, and
when all pages are written back; a file grows behind the back of the memory.  A store that is opened
again knows nothing but its files.

Specification.

1. A page in memory is one of its file, and if it is not marked, it is the page in the file.  The
   last version of every other page is the one in the file (`Database.Durable`).
2. When all pages were written back, no page is marked, every page in its file is the one that a
   request would have found before, and a store that is opened again over the same files, with any
   capacity, reads the same rows at the same places (`Database.Saved`).

Crux.  A table that is held, with no marked page in memory, is what the bytes of its file hold
(`HeapFile.Holds.eq_ofBytes`), and that is just what a store knows of a table that it opens.
-/

namespace RowStore

open Storage

/-! ## Writing all pages back -/

namespace Storage

variable {catalog : Catalog} {s s' : Storage}

/-- Writing a page back marks no other page. -/
theorem clean_flushPage (hs : s.pool.Sound) {id x : PageId} {r : Except Error Unit}
    (hflush : flushPage catalog id s = (r, s'))
    (hclean : ∀ f, s.pool.find? x = some f → f.page.dirty = false) {frame : Frame}
    (hfind : s'.pool.find? x = some frame) : frame.page.dirty = false := by
  obtain ⟨-, rfl, -⟩ | ⟨f, hf, -, ⟨e, -, -, rfl⟩ | ⟨h, files, -, -, -, rfl⟩⟩ :=
    flushPage_cases hflush
  · exact hclean frame hfind
  · exact hclean frame hfind
  · have hafter : (s.pool.update ⟨f.stamp, f.page.clean⟩).find? x = some frame := hfind
    rw [hs.find?_clean hf] at hafter
    split at hafter
    · cases hafter
      rfl
    · exact hclean frame hafter

/-- After some pages were written back, those of them that are in memory are not marked. -/
theorem clean_flushEach (hs : s.pool.Sound) {ids : List PageId}
    (hflush : flushEach catalog ids s = (.ok (), s')) {x : PageId}
    (hx : x ∈ ids ∨ ∀ f, s.pool.find? x = some f → f.page.dirty = false) {frame : Frame}
    (hfind : s'.pool.find? x = some frame) : frame.page.dirty = false := by
  induction ids generalizing s with
  | nil =>
    cases hflush
    rcases hx with hx | hx
    · exact absurd hx List.not_mem_nil
    · exact hx frame hfind
  | cons id ids ih =>
    unfold flushEach at hflush
    rcases hfirst : flushPage catalog id s with ⟨result, s₁⟩
    have hsteps : Steps catalog (fun _ => False) s s₁ := flushPage_steps hfirst
    rw [hfirst] at hflush
    cases result with
    | error e => cases hflush
    | ok =>
      refine ih (hsteps.sound hs) hflush ?_
      rcases hx with hx | hx
      · rcases List.mem_cons.mp hx with rfl | hx
        · exact Or.inr fun f => clean_of_flushPage hs hfirst
        · exact Or.inl hx
      · exact Or.inr fun f => clean_flushPage hs hfirst hx

/-- After all pages were written back, no page is marked. -/
theorem clean_flushAll (hs : s.pool.Sound) (hflush : s.flushAll catalog = (.ok (), s'))
    {x : PageId} {frame : Frame} (hfind : s'.pool.find? x = some frame) :
    frame.page.dirty = false := by
  refine clean_flushEach hs hflush ?_ hfind
  by_cases hx : x ∈ Assoc.keys s.pool.resident
  · exact Or.inl hx
  · refine Or.inr fun f hf => absurd ?_ hx
    exact Pool.mem_keys_iff_find?.mpr ⟨f, hf⟩

end Storage

namespace HeapFile.Holds

variable {h : HeapFile} {t : PagedTable} {s : Storage}

/-- A page that is not marked in memory is in the file. -/
theorem readPage_eq_ok (hh : h.Holds t s) {n : Nat} {p : Page} (hp : t.pages[n]? = some p)
    (hclean : ∀ frame, s.pool.find? ⟨h.id, n⟩ = some frame → frame.page.dirty = false) :
    h.readPage s.files ⟨h.id, n⟩ = .ok p := by
  have hpage := hh.page? n
  unfold HeapFile.page? at hpage
  rw [hp] at hpage
  cases hfind : s.pool.find? ⟨h.id, n⟩ with
  | some frame =>
    rw [hfind] at hpage
    have hread := hh.coherent.same n frame hfind (hclean frame hfind)
    obtain ⟨-, -, -, -, hsame⟩ := HeapFile.readPage_eq_ok hread
    have hpage' : frame.page.clean = p := Option.some.inj hpage
    rw [hread, ← hpage', hsame]
  | none =>
    rw [hfind] at hpage
    simp only at hpage
    cases hread : h.readPage s.files ⟨h.id, n⟩ with
    | error e =>
      rw [hread] at hpage
      cases hpage
    | ok p' =>
      rw [hread] at hpage
      cases hpage
      rfl

/-- What is in the file of a page that is not marked, also if there is no such page. -/
theorem readPage_eq (hh : h.Holds t s) (hs : s.pool.Sound) {n : Nat}
    (hclean : ∀ frame, s.pool.find? ⟨h.id, n⟩ = some frame → frame.page.dirty = false) :
    h.readPage s.files ⟨h.id, n⟩ = t.page ⟨h.id, n⟩ := by
  unfold PagedTable.page
  cases hp : t.pages[n]? with
  | some p => exact hh.readPage_eq_ok hp hclean
  | none =>
    have hge := List.getElem?_eq_none_iff.mp hp
    rw [← hh.numPages hs] at hge ⊢
    exact readPage_of_ge hge

/-- A table without a marked page is what the bytes of its file hold. -/
theorem eq_ofBytes (hh : h.Holds t s) (hs : s.pool.Sound)
    (hclean : ∀ n frame, s.pool.find? ⟨h.id, n⟩ = some frame → frame.page.dirty = false) :
    t = .ofBytes h.id h.schema h.pageSize (s.files.content h.path) := by
  have hheld := holds_ofBytes (h := h) (s := ⟨s.files, Pool.empty ⟨h.pageSize, 1⟩⟩)
    hh.coherent.fits (fun _ => rfl)
  have hpages : t.pages =
      (PagedTable.ofBytes h.id h.schema h.pageSize (s.files.content h.path)).pages := by
    apply List.ext_getElem?
    intro n
    rw [← hheld.page? n]
    show t.pages[n]? = (h.readPage s.files ⟨h.id, n⟩).toOption
    rw [hh.readPage_eq hs (hclean n)]
    unfold PagedTable.page
    cases t.pages[n]? <;> rfl
  obtain ⟨schema, pages⟩ := t
  obtain rfl : schema = h.schema := hh.schema
  obtain rfl : pages = _ := hpages
  rfl

end HeapFile.Holds

/-! ## Opening a store again -/

/-- The tasks that open some tables again. -/
def Task.reopening (entries : List TableEntry) : List Task :=
  entries.map fun e => .createTable e.name e.file.schema

namespace Database

variable {db : Database} {name : String} {path : Path}

/-- Opening a table whose file is there leaves the storage alone. -/
theorem storage_createTable
    (hpath : db.storage.files.pathOf (Catalog.fileName db.directory name) = .ok path)
    (hthere : (db.storage.files.content? path).isSome = true) (schema : Schema) :
    (db.createTable name schema).2.storage = db.storage := by
  have hopened : db.storage.files.opened path = db.storage.files := by
    unfold Files.opened
    rw [if_pos hthere]
  rw [createTable_of_path hpath, hopened]
  split <;> rfl

/-- Opening tables whose files are there leaves the storage alone. -/
theorem storage_after_reopening {entries : List TableEntry}
    (hnames : ∀ e ∈ entries,
      db.storage.files.pathOf (Catalog.fileName db.directory e.name) = .ok e.file.path)
    (hthere : ∀ e ∈ entries, (db.storage.files.content? e.file.path).isSome = true) :
    (db.after ((Task.reopening entries).map .task)).storage = db.storage := by
  induction entries generalizing db with
  | nil => rfl
  | cons e entries ih =>
    have hfirst : (db.createTable e.name e.file.schema).2.storage = db.storage :=
      storage_createTable (hnames e List.mem_cons_self) (hthere e List.mem_cons_self) _
    have hdirectory : (db.createTable e.name e.file.schema).2.directory = db.directory :=
      (perform_keeps db (.task (.createTable e.name e.file.schema))).2
    have hrest : ((db.createTable e.name e.file.schema).2.after
        ((Task.reopening entries).map .task)).storage =
          (db.createTable e.name e.file.schema).2.storage := by
      refine ih ?_ ?_
      · intro e' he'
        rw [hfirst, hdirectory]
        exact hnames e' (List.mem_cons_of_mem _ he')
      · intro e' he'
        rw [hfirst]
        exact hthere e' (List.mem_cons_of_mem _ he')
    exact hrest.trans hfirst

end Database

namespace Archive

variable {a b : Archive PagedTable} {db : Database}

/-- The archive `b` is over the files of a store, and its tables are tables of `a`. -/
structure PartOf (b a : Archive PagedTable) (db : Database) : Prop where
  directory : b.directory = db.directory
  pageSize : b.pageSize = db.config.pageSize
  files : b.files = db.storage.files
  tables : ∀ id t, Assoc.find? id b.tables = some t → Assoc.find? id a.tables = some t

/-- A table that is opened again is the table that it was. -/
theorem PartOf.createTable (hb : b.PartOf a db) (hm : a.Mirrors db)
    (hclean : ∀ id frame, db.storage.pool.find? id = some frame → frame.page.dirty = false)
    {e : TableEntry} (he : e ∈ db.catalog.entries) :
    (b.createTable e.name e.file.schema).1 = .ok (.table e.file.id) ∧
      (b.createTable e.name e.file.schema).2.PartOf a db ∧
      (∀ id, (Assoc.find? id b.tables).isSome = true ∨ id = e.file.id →
        (Assoc.find? id (b.createTable e.name e.file.schema).2.tables).isSome = true) := by
  have hfile := Catalog.file_of_mem hm.ids he
  obtain ⟨hsize, t, hfind, hh⟩ := hm.table _ _ hfile
  have hpath : b.files.pathOf (Catalog.fileName b.directory e.name) = .ok e.file.path := by
    rw [hb.files, hb.directory]
    exact hm.names e he
  have hopened : b.files.opened e.file.path = db.storage.files := by
    unfold Files.opened
    rw [hb.files, if_pos (hm.filed _ _ hfile)]
  cases hfind' : Assoc.find? (tableIdOf e.file.path) b.tables with
  | some t' =>
    have ht : Assoc.find? e.file.id a.tables = some t' := hb.tables _ _ hfind'
    obtain rfl : t' = t := Option.some.inj (ht.symm.trans hfind)
    rw [createTable_of_known hpath hfind' hh.schema]
    refine ⟨rfl, ⟨hb.directory, hb.pageSize, hopened, hb.tables⟩, ?_⟩
    rintro id (hid | rfl)
    · exact hid
    · have hknown : Assoc.find? e.file.id b.tables = some t' := hfind'
      show (Assoc.find? e.file.id b.tables).isSome = true
      rw [hknown]
      rfl
  | none =>
    -- the file has what the table was, since no page of it is marked
    have hbytes : Tabular.ofBytes (tableIdOf e.file.path) e.file.schema b.pageSize
        (b.files.content e.file.path) = t := by
      rw [hb.pageSize, hb.files, ← hsize]
      exact (hh.eq_ofBytes hm.sound fun n => hclean _).symm
    rw [createTable_of_new hpath hfind', hbytes]
    refine ⟨rfl, ⟨hb.directory, hb.pageSize, hopened, ?_⟩, ?_⟩
    · intro id t' ht'
      rw [Assoc.find?_put] at ht'
      split at ht'
      · rename_i hid
        cases ht'
        exact hid ▸ hfind
      · exact hb.tables id t' ht'
    · intro id hid
      rw [Assoc.find?_put]
      split
      · rfl
      · rename_i hne
        rcases hid with hid | rfl
        · exact hid
        · exact absurd rfl hne

/-- Tables that are opened again are the tables that they were. -/
theorem PartOf.reopening (hb : b.PartOf a db) (hm : a.Mirrors db)
    (hclean : ∀ id frame, db.storage.pool.find? id = some frame → frame.page.dirty = false)
    {entries : List TableEntry} (hentries : ∀ e ∈ entries, e ∈ db.catalog.entries) :
    b.answers (Task.reopening entries) = entries.map (fun e => .ok (.table e.file.id)) ∧
      (b.after (Task.reopening entries)).PartOf a db ∧
      (∀ id, (Assoc.find? id b.tables).isSome = true ∨ id ∈ entries.map Catalog.entryId →
        (Assoc.find? id (b.after (Task.reopening entries)).tables).isSome = true) := by
  induction entries generalizing b with
  | nil =>
    refine ⟨rfl, hb, ?_⟩
    rintro id (hid | hid)
    · exact hid
    · exact absurd hid List.not_mem_nil
  | cons e entries ih =>
    obtain ⟨hanswer, hb', hthere⟩ := hb.createTable hm hclean (hentries e List.mem_cons_self)
    obtain ⟨hanswers, hafter, hrest⟩ := ih hb' fun e' he' => hentries e' (List.mem_cons_of_mem _ he')
    refine ⟨?_, hafter, ?_⟩
    · show (b.createTable e.name e.file.schema).1 ::
        (b.createTable e.name e.file.schema).2.answers (Task.reopening entries) = _
      rw [hanswer, hanswers]
      rfl
    · intro id hid
      refine hrest id ?_
      rcases hid with hid | hid
      · exact Or.inl (hthere id (Or.inl hid))
      · rcases List.mem_cons.mp hid with rfl | hid
        · exact Or.inl (hthere _ (Or.inr rfl))
        · exact Or.inr hid

end Archive

/-! ## What is in the files -/

namespace Database

/-- What is in the files of the store `db` when its storage became `s`. -/
structure Saved (db : Database) (s : Storage) : Prop where
  /-- No page is marked. -/
  unmarked : ∀ id frame, s.pool.find? id = some frame → frame.page.dirty = false
  /-- The file of a page has the bytes that a request for the page finds. -/
  inFile : ∀ id h, db.catalog.file id.table = .ok h → id.number < h.numPages db.storage.files →
    ∃ frame s' page, db.storage.getPage db.catalog id = (.ok frame, s') ∧
      h.readPage s.files id = .ok page ∧ page.bytes = frame.page.bytes
  /-- A store that is opened again, with any capacity, opens the tables it is told to, and reads the
      rows that are read now. -/
  reopened : ∀ config, config.pageSize = db.config.pageSize → config.poolPages ≠ 0 →
    ∃ new, create s.files db.directory config = (.ok new, s.files) ∧
      ∀ entries, (∀ e ∈ entries, e ∈ db.catalog.entries) →
        new.answers ((Task.reopening entries).map .task) =
          entries.map (fun e => .ok (.table e.file.id)) ∧
        ∀ e ∈ entries,
          ((new.after ((Task.reopening entries).map .task)).performTask (.scan e.file.id)).1 =
            (db.performTask (.scan e.file.id)).1

/-- What is in the files of the store `db` when the archive `a` has the last version of every
    page. -/
structure Durable (db : Database) (a : Archive PagedTable) : Prop where
  /-- A page in memory is one of its file, and it is the page in the file if it is not marked. -/
  resident : ∀ id frame, db.storage.pool.find? id = some frame →
    ∃ h, db.catalog.file id.table = .ok h ∧ id.number < h.numPages db.storage.files ∧
      (frame.page.dirty = false → h.readPage db.storage.files id = .ok frame.page)
  /-- The last version of a page that is not in memory is the one in the file. -/
  absent : ∀ id h, db.catalog.file id.table = .ok h → db.storage.pool.find? id = none →
    h.readPage db.storage.files id = (a.table id.table).bind fun t => t.page id
  /-- When all pages were written back, everything is in the files. -/
  flushed : ∀ s, db.storage.flushAll db.catalog = (.ok (), s) → db.Saved s

end Database

namespace Archive.Mirrors

variable {a : Archive PagedTable} {db : Database} {s : Storage}

theorem saved_bytes (hm : a.Mirrors db) (hm' : a.Mirrors { db with storage := s })
    (hclean : ∀ id frame, s.pool.find? id = some frame → frame.page.dirty = false) {id : PageId}
    {h : HeapFile} (hfile : db.catalog.file id.table = .ok h)
    (hn : id.number < h.numPages db.storage.files) :
    ∃ frame s' page, db.storage.getPage db.catalog id = (.ok frame, s') ∧
      h.readPage s.files id = .ok page ∧ page.bytes = frame.page.bytes := by
  obtain ⟨table, n⟩ := id
  obtain rfl : h.id = table := Catalog.id_of_file hfile
  obtain ⟨-, t, hfind, hh⟩ := hm.table _ h hfile
  obtain ⟨-, t', hfind', hh'⟩ := hm'.table _ h hfile
  obtain rfl : t' = t := Option.some.inj (hfind'.symm.trans hfind)
  rcases hget : db.storage.getPage db.catalog ⟨h.id, n⟩ with ⟨r, s'⟩
  obtain ⟨frame, rfl, hpage⟩ | ⟨hnone, -⟩ := hh.getPage hm.sound hm.attended hfile hget
  · exact ⟨frame, s', _, rfl, hh'.readPage_eq_ok hpage (hclean _), rfl⟩
  · have hlt : n < t'.pages.length := by
      rw [← hh.numPages hm.sound]
      exact hn
    rw [List.getElem?_eq_getElem hlt] at hnone
    cases hnone

/-- A store over files in which everything is, is the store again. -/
theorem saved_reopened (hm : a.Mirrors db)
    (hclean : ∀ id frame, db.storage.pool.find? id = some frame → frame.page.dirty = false)
    (hids : db.storage.files.DistinctIds) {config : Config} {new : Database}
    (hopen : Database.create db.storage.files db.directory config = (.ok new, db.storage.files))
    (hsame : config.pageSize = db.config.pageSize) {entries : List TableEntry}
    (hentries : ∀ e ∈ entries, e ∈ db.catalog.entries) :
    new.answers ((Task.reopening entries).map .task) =
        entries.map (fun e => .ok (.table e.file.id)) ∧
      ∀ e ∈ entries,
        ((new.after ((Task.reopening entries).map .task)).performTask (.scan e.file.id)).1 =
          (db.performTask (.scan e.file.id)).1 := by
  have hknown : ∀ e ∈ entries, db.catalog.file e.file.id = .ok e.file := fun e he =>
    Catalog.file_of_mem hm.ids (hentries e he)
  obtain ⟨-, -, -, hnew⟩ := Database.create_cases hopen
  have hfiles : new.storage.files = db.storage.files := by rw [hnew]
  have hdirectory : new.directory = db.directory := by rw [hnew]
  have hsize : new.config.pageSize = db.config.pageSize := by rw [hnew, ← hsame]
  -- the tables of the new store, as far as it has any, are those of the archive
  have hpart : (Archive.new db.storage.files db.directory config.pageSize).PartOf a db :=
    ⟨rfl, hsame, rfl, fun id t hfind => by cases hfind⟩
  obtain ⟨hanswers, hpart', hthere⟩ := hpart.reopening hm hclean hentries
  have hstorage : (new.after ((Task.reopening entries).map .task)).storage = new.storage := by
    refine Database.storage_after_reopening ?_ ?_
    · intro e he
      rw [hfiles, hdirectory]
      exact hm.names e (hentries e he)
    · intro e he
      rw [hfiles]
      exact hm.filed _ _ (hknown e he)
  have htasks : ∀ task ∈ Task.reopening entries, task.Sensible new.config.pageSize := by
    intro task htask
    obtain ⟨e, he, rfl⟩ := List.mem_map.mp htask
    obtain ⟨hsize', t, -, hh⟩ := hm.table _ _ (hknown e he)
    have hfits := hh.coherent.fits
    show 0 < Page.slotsPerPage new.config.pageSize e.file.schema.rowWidth
    rw [hsize, ← hsize']
    exact hfits
  obtain ⟨halike, -, hm'⟩ := (mirrors_of_create hopen).answers_after htasks
    (by rw [hstorage, hfiles]; exact hids)
  refine ⟨halike.trans hanswers, ?_⟩
  intro e he
  obtain ⟨-, t, hfind, -⟩ := hm.table _ _ (hknown e he)
  obtain ⟨t', hfind'⟩ := Option.isSome_iff_exists.mp
    (hthere e.file.id (Or.inr (List.mem_map_of_mem he)))
  obtain rfl : t' = t := Option.some.inj ((hpart'.tables _ _ hfind').symm.trans hfind)
  rw [(hm'.scan e.file.id).1, (hm.scan e.file.id).1]
  show (Archive.table _ e.file.id).map _ = (a.table e.file.id).map _
  rw [table_of_some hfind', table_of_some hfind]

/-- A store that is mirrored has everything in its files once all pages were written back. -/
theorem durable (hm : a.Mirrors db) (hids : db.storage.files.DistinctIds)
    (hsize : 0 < db.config.pageSize) {files files' : Files}
    (hmake : files.makeDirectories db.directory = (.ok (), files'))
    (hgrown : Files.Grown files' db.storage.files) : db.Durable a where
  resident := fun id frame hfind => by
    obtain ⟨h, hfile⟩ := hm.attended id frame hfind
    obtain ⟨table, n⟩ := id
    obtain rfl : h.id = table := Catalog.id_of_file hfile
    obtain ⟨-, t, -, hh⟩ := hm.table _ h hfile
    exact ⟨h, hfile, hh.coherent.inFile n frame hfind, hh.coherent.same n frame hfind⟩
  absent := fun id h hfile hnone => by
    obtain ⟨table, n⟩ := id
    obtain rfl : h.id = table := Catalog.id_of_file hfile
    obtain ⟨-, t, hfind, hh⟩ := hm.table _ h hfile
    rw [table_of_some hfind]
    exact hh.readPage_eq hm.sound fun frame hin => by cases hnone.symm.trans hin
  flushed := fun s hflush => by
    have hsteps : Quiet db.catalog db.storage s := flushEach_steps hflush
    have hm' := hm.of_quiet hsteps
    have hclean : ∀ id frame, s.pool.find? id = some frame → frame.page.dirty = false :=
      fun id frame => clean_flushAll hm.sound hflush
    have hshape := hsteps.sameShape hm.sound (fun hno => hno) hm.filed
    have hids' : s.files.DistinctIds := by
      refine hids.of_subset ?_
      intro p hp
      rw [← hshape.isSome_content?]
      exact hp
    refine ⟨hclean, fun id h hfile hn => hm.saved_bytes hm' hclean hfile hn, ?_⟩
    intro config hsame hpool
    have hagain := Files.makeDirectories_again hmake (hgrown.trans (hsteps.grown hm.sound))
    have hopen : Database.create s.files db.directory config = (.ok _, s.files) :=
      Database.create_eq_ok (by omega) (by omega) hagain
    refine ⟨_, hopen, ?_⟩
    intro entries hentries
    obtain ⟨hanswers, hscans⟩ := hm'.saved_reopened hclean hids' hopen hsame hentries
    refine ⟨hanswers, ?_⟩
    intro e he
    rw [hscans e he, (hm'.scan e.file.id).1, (hm.scan e.file.id).1]

end Archive.Mirrors

namespace Database

/-- **Durability.**  In a store that was just opened, after any run of tasks, a page in memory is one
    of its file and is the page in the file unless it is marked, and the last version of any other
    page is the one in the file.  When all pages were written back, every file has the bytes that
    are read, and a store that is opened again reads the same rows at the same places.  The rows of
    the tables must fit on a page, rows that are stored must agree with their schemas, and no two
    files may have the same number. -/
theorem durable_after {files files' : Files} {directory : String} {config : Config}
    {db : Database} (hopen : create files directory config = (.ok db, files')) {tasks : List Task}
    (htasks : ∀ task ∈ tasks, task.Sensible config.pageSize)
    (hids : (db.after (tasks.map .task)).storage.files.DistinctIds) :
    (db.after (tasks.map .task)).Durable
      ((Archive.new files' directory config.pageSize).after tasks) := by
  have hm := Archive.mirrors_of_create hopen
  obtain ⟨hsize, -, hmake, hdb⟩ := create_cases hopen
  have hkeeps : (db.after (tasks.map .task)).config = config ∧
      (db.after (tasks.map .task)).directory = directory := by
    refine after_induction (P := fun db => db.config = config ∧ db.directory = directory) ?_ ?_ _
    · rintro db' request ⟨hconfig, hdirectory⟩
      obtain ⟨hconfig', hdirectory'⟩ := perform_keeps db' request
      exact ⟨hconfig'.trans hconfig, hdirectory'.trans hdirectory⟩
    · rw [hdb]
      exact ⟨rfl, rfl⟩
  have hconfig : db.config = config := by rw [hdb]
  have hfiles : db.storage.files = files' := by rw [hdb]
  obtain ⟨-, -, hm'⟩ := hm.answers_after (hconfig.symm ▸ htasks) hids
  have hgrown : Files.Grown files' (db.after (tasks.map .task)).storage.files := by
    rw [← hfiles]
    exact grown_after hm.sound _
  rw [← hkeeps.2] at hmake
  exact hm'.durable hids (hkeeps.1.symm ▸ hsize) hmake hgrown

/-- Three pages of a store for one page: one is in memory and marked, the others were evicted.  After
    they were written back, a store for seven pages reads the same rows from the files. -/
theorem durable_after_evictions :
    let schema := Schema.single "n" .int
    let id := tableIdOf ["d", "t.dat"]
    let row (n : Int32) : Row := ⟨schema, [.int n], none⟩
    let stored (n : Int32) (page slot : Nat) : Row := ⟨schema, [.int n], some ⟨⟨id, page⟩, slot⟩⟩
    let tasks : List Task :=
      [.createTable "t" schema, .insertRow ⟨0⟩ id (row 1), .insertRow ⟨0⟩ id (row 2),
       .insertRow ⟨0⟩ id (row 3), .insertRow ⟨0⟩ id (row 4), .insertRow ⟨0⟩ id (row 5),
       .deleteRow ⟨1⟩ (some ⟨⟨id, 0⟩, 1⟩)]
    ∃ db files', create Files.empty "/d" ⟨9, 1⟩ = (.ok db, files') ∧
      (db.after (tasks.map .task)).Durable ((Archive.new files' "/d" 9).after tasks) ∧
      ∃ s, (db.after (tasks.map .task)).storage.flushAll (db.after (tasks.map .task)).catalog =
          (.ok (), s) ∧
        ∃ new, create s.files "/d" ⟨9, 7⟩ = (.ok new, s.files) ∧
          ((new.after [.task (.createTable "t" schema)]).performTask (.scan id)).1 =
            .ok (.rows [stored 1 0 0, stored 3 1 0, stored 4 1 1, stored 5 2 0]) := by
  intro schema id row stored tasks
  let db : Database := ⟨"/d", ⟨9, 1⟩, Catalog.empty, ⟨⟨[], [["d"]], []⟩, Pool.empty ⟨9, 1⟩⟩⟩
  have hopen : create Files.empty "/d" ⟨9, 1⟩ = (.ok db, ⟨[], [["d"]], []⟩) := rfl
  have htasks : ∀ task ∈ tasks, task.Sensible 9 := by decide +kernel
  have hids : (db.after (tasks.map .task)).storage.files.DistinctIds := by decide +kernel
  have hdurable := durable_after hopen htasks hids
  have hok : ((db.after (tasks.map .task)).storage.flushAll
      (db.after (tasks.map .task)).catalog).1 = .ok () := by decide +kernel
  have hsize : 9 = (db.after (tasks.map .task)).config.pageSize := by decide +kernel
  have hdirectory : (db.after (tasks.map .task)).directory = "/d" := by decide +kernel
  let entry : TableEntry := ⟨"t", ⟨["d", "t.dat"], schema, 9⟩, ""⟩
  have hentry : ∀ e ∈ [entry], e ∈ (db.after (tasks.map .task)).catalog.entries := by
    decide +kernel
  rcases hflush : (db.after (tasks.map .task)).storage.flushAll
      (db.after (tasks.map .task)).catalog with ⟨r, s⟩
  rw [hflush] at hok
  obtain rfl : r = .ok () := hok
  obtain ⟨new, hnew, hreopened⟩ := (hdurable.flushed s hflush).reopened ⟨9, 7⟩ hsize (by decide)
  rw [hdirectory] at hnew
  obtain ⟨-, hscan⟩ := hreopened [entry] hentry
  refine ⟨db, _, hopen, hdurable, s, hflush, new, hnew, ?_⟩
  exact (hscan entry (List.mem_singleton_self _)).trans (by decide +kernel)

end Database

end RowStore
