import RowStore.Proofs.Archive.Mirrors
import RowStore.Proofs.Archive.Slots

/-!
A store of any capacity gives the answers of a list of slots.

Program.  A store keeps its tables in files, page by page.  Some pages are in memory, some of these
were changed and differ from the file, and the oldest one goes when there is no room.

Specification.  An archive of slots (`RowStore.Proofs.Archive.Slots`) has no files to write, no
memory and no capacity.

1. A table that is made has the pages that its file has (`HeapFile.holds_ofBytes`); a table that is
   made again stays what it is.  So making a table keeps a store and an archive of pages alike, if
   no file has the number of another one (`Mirrors.createTable`).
2. With that, every task has the same answer in both (`Mirrors.performTask`), and so has every run
   (`Mirrors.answers_after`).
3. A store that was just opened is mirrored by an archive in which no table was opened
   (`mirrors_of_create`).

Crux.  What a page is now lies in memory or in the file, and steps move it between them.  The
archive has it in one place, and the slots of a page are those of its bytes.  So store, archive of
pages and archive of slots go side by side, and the answers are the same
(`Database.answers_eq_slots`).
-/

namespace RowStore

open Storage

/-! ## Tables that are opened -/

/-- A table with no page in memory is what its file holds. -/
theorem HeapFile.holds_ofBytes {h : HeapFile} {s : Storage} (hfits : h.Fits)
    (hnone : ∀ n, s.pool.find? ⟨h.id, n⟩ = none) :
    h.Holds (.ofBytes h.id h.schema h.pageSize (s.files.content h.path)) s where
  coherent := .of_none hfits hnone
  schema := rfl
  page? := fun n => by
    show _ = ((List.range (h.numPages s.files)).filterMap fun n =>
      (Page.ofBytes ⟨h.id, n⟩ h.schema (block h.pageSize n (s.files.content h.path))
        h.pageSize).toOption)[n]?
    rw [getElem?_filterMap_range]
    · unfold HeapFile.page?
      rw [hnone]
      simp only
      split
      · rename_i hlt
        rw [readPage_eq_ofBytes rfl hlt]
      · rename_i hge
        rw [readPage_of_ge (Nat.not_lt.mp hge)]
        rfl
    · intro m _
      obtain ⟨p, hp⟩ := Page.exists_ofBytes ⟨h.id, m⟩ (size_block h.pageSize m _) hfits
      rw [hp]
      rfl

namespace Database

/-- A table whose name leads nowhere is not made. -/
theorem createTable_of_error {db : Database} {name : String} {fault : StorageFault}
    (hpath : db.storage.files.pathOf (Catalog.fileName db.directory name) = .error fault)
    (schema : Schema) : db.createTable name schema = (.error (.storage fault), db) := by
  unfold createTable addFile HeapFile.openNamed
  rw [Files.openFile_eq, hpath]
  rfl

/-- A table whose name leads to a path is added to the catalog with that path. -/
theorem createTable_of_path {db : Database} {name : String} {path : Path}
    (hpath : db.storage.files.pathOf (Catalog.fileName db.directory name) = .ok path)
    (schema : Schema) :
    db.createTable name schema =
      match db.catalog.add ⟨name, ⟨path, schema, db.config.pageSize⟩, ""⟩ with
      | .error e =>
        (.error e, { db with storage := { db.storage with files := db.storage.files.opened path } })
      | .ok catalog =>
        (.ok (tableIdOf path),
          { db with
            catalog := catalog
            storage := { db.storage with files := db.storage.files.opened path } }) := by
  unfold createTable addFile HeapFile.openNamed
  rw [Files.openFile_eq, hpath]
  simp only [Except.map]
  cases db.catalog.add ⟨name, ⟨path, schema, db.config.pageSize⟩, ""⟩ <;> rfl

/-- No request loses a file. -/
theorem grown_after {db : Database} (hs : db.storage.pool.Sound)
    (requests : List Request) :
    Files.Grown db.storage.files (db.after requests).storage.files := by
  induction requests generalizing db with
  | nil => exact .refl _
  | cons request requests ih =>
    have hsteps := perform_steps hs request
    exact (hsteps.grown hs).trans (ih (hsteps.sound hs))

end Database

namespace Archive

namespace Mirrors

variable {a : Archive PagedTable} {db : Database} {name primaryKey : String} {path : Path}
  {heap : HeapFile} {catalog : Catalog}

/-- A file that is opened keeps a store and an archive alike. -/
theorem of_opened (hm : a.Mirrors db) (path : Path) :
    ({ a with files := a.files.opened path } : Archive PagedTable).Mirrors
      { db with storage := { db.storage with files := db.storage.files.opened path } } where
  directory := hm.directory
  pageSize := hm.pageSize
  sound := hm.sound
  attended := hm.attended
  filed := fun id h hfile =>
    (Files.Grown.opened _ path).isSome_content? h.path (hm.filed id h hfile)
  shape := hm.shape.opened path
  table := fun id h hfile => by
    obtain ⟨hsize, t, ht, hh⟩ := hm.table id h hfile
    obtain rfl := Catalog.id_of_file hfile
    exact ⟨hsize, t, ht, hh.steps hm.sound (fun g => Catalog.eq_of_file hfile)
      (fun he => by cases he) (opened_steps db.storage path)⟩
  unknown := hm.unknown
  untouched := fun p hp => by
    rw [Files.content_opened, Files.content_opened]
    exact hm.untouched p hp
  ids := hm.ids
  names := fun e he => Files.pathOf_grown (Files.Grown.opened _ path) (hm.names e he)

/-- A table that is added keeps a store and an archive alike, if it is added to both. -/
theorem of_add (hm : a.Mirrors db) (hadd : db.catalog.add ⟨name, heap, primaryKey⟩ = .ok catalog)
    (hname : db.storage.files.pathOf (Catalog.fileName db.directory name) = .ok heap.path)
    (hthere : (db.storage.files.content? heap.path).isSome = true)
    (hsize : heap.pageSize = db.config.pageSize)
    (hsame : ∀ h, db.catalog.file heap.id = .ok h → h.path = heap.path)
    {tables : List (TableId × PagedTable)}
    (hnew : ∃ t, Assoc.find? heap.id tables = some t ∧ heap.Holds t db.storage)
    (hothers : ∀ id, id ≠ heap.id → Assoc.find? id tables = Assoc.find? id a.tables) :
    ({ a with tables := tables } : Archive PagedTable).Mirrors { db with catalog := catalog } := by
  -- an entry of the same name has the same path, so it is the same table that it is replaced by
  have hnames : ∀ e ∈ db.catalog.entries, e.name = name → e.file.id = heap.id := by
    intro e he hsamename
    have hpath := hm.names e he
    rw [hsamename, hname] at hpath
    exact congrArg tableIdOf (Except.ok.inj hpath).symm
  have hfile : ∀ id, catalog.file id = if heap.id = id then .ok heap else db.catalog.file id :=
    Catalog.file_add hadd hnames
  have hcases : ∀ id h, catalog.file id = .ok h →
      (id = heap.id ∧ h = heap) ∨ (id ≠ heap.id ∧ db.catalog.file id = .ok h) := by
    intro id h hid
    rw [hfile] at hid
    split at hid
    · rename_i hheap
      cases hid
      exact Or.inl ⟨hheap.symm, rfl⟩
    · rename_i hheap
      exact Or.inr ⟨Ne.symm hheap, hid⟩
  refine ⟨hm.directory, hm.pageSize, hm.sound, ?_, ?_, hm.shape, ?_, ?_, ?_, ?_, ?_⟩
  · intro id frame hfind
    obtain ⟨h, hh⟩ := hm.attended id frame hfind
    by_cases hid : heap.id = id.table
    · exact ⟨heap, by rw [hfile, if_pos hid]⟩
    · exact ⟨h, by rw [hfile, if_neg hid, hh]⟩
  · intro id h hid
    obtain ⟨-, rfl⟩ | ⟨-, hold⟩ := hcases id h hid
    · exact hthere
    · exact hm.filed id h hold
  · intro id h hid
    obtain ⟨rfl, rfl⟩ | ⟨hne, hold⟩ := hcases id h hid
    · exact ⟨hsize, hnew⟩
    · obtain ⟨hsize', t, ht, hh⟩ := hm.table id h hold
      exact ⟨hsize', t, (hothers id hne).trans ht, hh⟩
  · intro id e hid
    rw [hfile] at hid
    split at hid
    · cases hid
    · rename_i hne
      exact (hothers id (Ne.symm hne)).trans (hm.unknown id e hid)
  · intro p hp
    refine hm.untouched p fun id h hold => ?_
    by_cases hid : heap.id = id
    · subst hid
      rw [hsame h hold]
      exact hp heap.id heap (by rw [hfile, if_pos rfl])
    · exact hp id h (by rw [hfile, if_neg hid, hold])
  · exact Catalog.nodup_add hadd hm.ids
  · intro e he
    rcases Catalog.mem_entries_add hadd he with rfl | he
    · exact hname
    · exact hm.names e he

/-- A table that is not known has no page in memory. -/
theorem find?_of_unknown (hm : a.Mirrors db) {id : TableId} {e : Error} (hfile : db.catalog.file id = .error e)
    (n : Nat) : db.storage.pool.find? ⟨id, n⟩ = none := by
  cases hin : db.storage.pool.find? ⟨id, n⟩ with
  | none => rfl
  | some frame =>
    obtain ⟨h, hh⟩ := hm.attended _ frame hin
    cases hfile.symm.trans hh

/-- The file of a table that is not known has the bytes that it had in the beginning. -/
theorem content_of_unknown (hm : a.Mirrors db) {path : Path} {e : Error}
    (hfile : db.catalog.file (tableIdOf path) = .error e) :
    (db.storage.files.opened path).content path = a.files.content path := by
  rw [Files.content_opened]
  refine hm.untouched path ?_
  intro id h hh hsame
  have hid : tableIdOf path = id := by
    rw [← hsame]
    exact Catalog.id_of_file hh
  rw [hid] at hfile
  cases hfile.symm.trans hh

/-- Making a table keeps a store and an archive alike. -/
theorem createTable (hm : a.Mirrors db) {schema : Schema}
    (hfits : 0 < Page.slotsPerPage db.config.pageSize schema.rowWidth)
    (hids : (db.createTable name schema).2.storage.files.DistinctIds) :
    (db.performTask (.createTable name schema)).1 = (a.createTable name schema).1 ∧
      (a.createTable name schema).2.Mirrors (db.performTask (.createTable name schema)).2 := by
  have hnames : a.files.pathOf (Catalog.fileName a.directory name) =
      db.storage.files.pathOf (Catalog.fileName db.directory name) := by
    rw [Files.pathOf_congr hm.shape, hm.directory]
  show (Answer.of .table (db.createTable name schema)).1 = _ ∧
    Archive.Mirrors _ (Answer.of .table (db.createTable name schema)).2
  cases hpath : db.storage.files.pathOf (Catalog.fileName db.directory name) with
  | error fault =>
    rw [Database.createTable_of_error hpath, createTable_of_error (hnames.trans hpath)]
    exact ⟨rfl, hm⟩
  | ok path =>
    have hcreate := Database.createTable_of_path hpath schema
    have hthere := Files.isSome_opened db.storage.files path
    have hname := Files.pathOf_grown (Files.Grown.opened _ path) hpath
    have hm' := hm.of_opened path
    rw [hcreate] at hids ⊢
    cases hfile : db.catalog.file (tableIdOf path) with
    | ok h =>
      obtain ⟨hsize, t, hfind, hh⟩ := hm'.table _ h hfile
      have hid : h.id = tableIdOf path := Catalog.id_of_file hfile
      have hschema : Tabular.schema t = h.schema := hh.schema
      obtain ⟨old, hold, hne, hadd⟩ | ⟨hold, hadd⟩ :=
        db.catalog.add_cases ⟨name, ⟨path, schema, db.config.pageSize⟩, ""⟩
      · obtain rfl : old = h := Catalog.eq_of_file hfile hold
        have hne' : Tabular.schema t ≠ schema := hschema.symm ▸ hne
        rw [hadd, createTable_of_other (hnames.trans hpath) hfind hne', hschema]
        exact ⟨rfl, hm'⟩
      · -- the table was made before, and since its file is the same, so is the table
        rw [hadd] at hids ⊢
        obtain rfl : h = ⟨path, schema, db.config.pageSize⟩ := by
          have hsame : h.path = path := hids.eq (hm'.filed _ h hfile) hthere hid
          have hold' : h.schema = schema := hold h hfile
          obtain ⟨p, c, n⟩ := h
          obtain rfl : p = path := hsame
          obtain rfl : c = schema := hold'
          obtain rfl : n = db.config.pageSize := hsize
          rfl
        rw [createTable_of_known (hnames.trans hpath) hfind hschema]
        refine ⟨rfl, hm'.of_add hadd hname hthere rfl ?_ ⟨t, hfind, hh⟩ fun _ _ => rfl⟩
        intro g hg
        rw [Catalog.eq_of_file hfile hg]
    | error e =>
      -- the table is new: none of its pages is in memory, and its file has the bytes it had
      have hfind : Assoc.find? (tableIdOf path) a.tables = none := hm'.unknown _ e hfile
      have hheld := HeapFile.holds_ofBytes (h := ⟨path, schema, db.config.pageSize⟩)
        (s := { db.storage with files := db.storage.files.opened path }) hfits (hm.find?_of_unknown hfile)
      obtain ⟨old, hold, -⟩ | ⟨-, hadd⟩ :=
        db.catalog.add_cases ⟨name, ⟨path, schema, db.config.pageSize⟩, ""⟩
      · cases hfile.symm.trans hold
      · rw [hadd, createTable_of_new (hnames.trans hpath) hfind]
        refine ⟨rfl, hm'.of_add hadd hname hthere rfl ?_ ⟨_, ?_, hheld⟩ ?_⟩
        · intro g hg
          cases hfile.symm.trans hg
        · have hid : HeapFile.id ⟨path, schema, db.config.pageSize⟩ = tableIdOf path := rfl
          rw [Assoc.find?_put, if_pos hid, hm.pageSize, ← hm.content_of_unknown hfile]
          rfl
        · intro id hid
          have hid' : id ≠ tableIdOf path := hid
          rw [Assoc.find?_put, if_neg hid']

/-! ## Runs -/

/-- **One task.**  A store and an archive that are alike give the same answer to a task, and are
    alike afterwards. -/
theorem performTask (hm : a.Mirrors db) {task : Task} (htask : task.Sensible db.config.pageSize)
    (hids : (db.performTask task).2.storage.files.DistinctIds) :
    (db.performTask task).1 = (a.performTask task).1 ∧
      (a.performTask task).2.Mirrors (db.performTask task).2 := by
  cases task with
  | createTable name schema => exact hm.createTable htask hids
  | insertRow tid id row => exact hm.insertRow htask
  | deleteRow tid place => exact hm.deleteRow
  | getPage id => exact hm.getPage id
  | flushPage id =>
    have hrun : db.storage.flushPage db.catalog id = (_, _) := (Prod.eta _).symm
    have hok := flushPage_of_attended hm.sound hm.attended hrun
    refine ⟨?_, hm.of_quiet (flushPage_steps hrun)⟩
    show (db.storage.flushPage db.catalog id).1.map _ = _
    rw [hok]
    rfl
  | flushPages tid =>
    obtain ⟨hok, hm'⟩ := hm.flushEach
      ((Assoc.keys db.storage.pool.resident).filter (db.storage.isChangedBy tid))
    refine ⟨?_, hm'⟩
    show (db.storage.flushEach db.catalog _).1.map _ = _
    rw [hok]
    rfl
  | flushAll =>
    obtain ⟨hok, hm'⟩ := hm.flushEach (Assoc.keys db.storage.pool.resident)
    refine ⟨?_, hm'⟩
    show (db.storage.flushEach db.catalog _).1.map _ = _
    rw [hok]
    rfl
  | scan id => exact hm.scan id

theorem regular (hm : a.Mirrors db) : a.Regular := by
  intro id t hfind
  cases hfile : db.catalog.file id with
  | error e =>
    rw [hm.unknown id e hfile] at hfind
    cases hfind
  | ok h =>
    obtain ⟨hsize, t', hfind', hh⟩ := hm.table id h hfile
    obtain rfl : t = t' := Option.some.inj (hfind.symm.trans hfind')
    obtain rfl := Catalog.id_of_file hfile
    rw [hm.pageSize, ← hsize]
    exact hh.regular hm.sound

/-- **A run.**  A store and an archive that are alike give the same answers to any tasks, and so
    does the archive of the slots; afterwards store and archive are alike. -/
theorem answers_after (hm : a.Mirrors db) {tasks : List Task}
    (htasks : ∀ task ∈ tasks, task.Sensible db.config.pageSize)
    (hids : (db.after (tasks.map .task)).storage.files.DistinctIds) :
    db.answers (tasks.map .task) = a.answers tasks ∧
      a.slots.answers tasks = a.answers tasks ∧
      (a.after tasks).Mirrors (db.after (tasks.map .task)) := by
  induction tasks generalizing a db with
  | nil => exact ⟨rfl, rfl, hm⟩
  | cons task tasks ih =>
    have htask := htasks task List.mem_cons_self
    -- no file has the number of another one in the end, so none had it after the first task
    have hgrown : Files.Grown (db.performTask task).2.storage.files
        ((db.performTask task).2.after (tasks.map .task)).storage.files := by
      have hsound : (db.performTask task).2.storage.pool.Sound :=
        (Database.perform_steps hm.sound (.task task)).sound hm.sound
      exact Database.grown_after hsound _
    obtain ⟨hanswer, hm'⟩ := hm.performTask htask (hids.of_grown hgrown)
    have hslots := performTask_slots hm.regular (hm.pageSize.symm ▸ htask)
    have hconfig : (db.performTask task).2.config = db.config :=
      (Database.perform_keeps db (.task task)).1
    obtain ⟨hanswers, hslots', hm''⟩ := ih hm' (fun task' htask' => by
      rw [hconfig]
      exact htasks task' (List.mem_cons_of_mem _ htask')) hids
    refine ⟨?_, ?_, hm''⟩
    · show (db.performTask task).1 :: (db.performTask task).2.answers (tasks.map .task) =
        (a.performTask task).1 :: (a.performTask task).2.answers tasks
      rw [hanswer, hanswers]
    · show (a.slots.performTask task).1 :: (a.slots.performTask task).2.answers tasks =
        (a.performTask task).1 :: (a.performTask task).2.answers tasks
      rw [hslots, hslots']

end Mirrors

/-- A store that was just opened is mirrored by an archive in which no table was opened. -/
theorem mirrors_of_create {files files' : Files} {directory : String} {config : Config}
    {db : Database} (hopen : Database.create files directory config = (.ok db, files')) :
    (new files' directory config.pageSize : Archive PagedTable).Mirrors db := by
  obtain ⟨-, hpool, -, rfl⟩ := Database.create_cases hopen
  have hnone : ∀ id h, Catalog.empty.file id ≠ .ok h := fun id h hfile => by cases hfile
  exact
    { directory := rfl
      pageSize := rfl
      sound := Pool.sound_empty hpool
      attended := fun id frame hfind => by cases hfind
      filed := fun id h hfile => absurd hfile (hnone id h)
      shape := .refl _
      table := fun id h hfile => absurd hfile (hnone id h)
      unknown := fun id e hfile => rfl
      untouched := fun p hp => rfl
      ids := List.nodup_nil
      names := fun e he => absurd he List.not_mem_nil }

end Archive

/-! ## Stores and slots -/

namespace Database

/-- **Stores are lists of slots.**  In a store that was just opened, with any sizes and over any
    files, every run of tasks has the answers of an archive of slots: the same rows at the same
    places, and the same errors.  So no answer depends on the capacity.  The rows of the tables must
    fit on a page, rows that are stored must agree with their schemas, and no two files may have the
    same number. -/
theorem answers_eq_slots {files files' : Files} {directory : String} {config : Config}
    {db : Database} (hopen : create files directory config = (.ok db, files')) {tasks : List Task}
    (htasks : ∀ task ∈ tasks, task.Sensible config.pageSize)
    (hids : (db.after (tasks.map .task)).storage.files.DistinctIds) :
    db.answers (tasks.map .task) =
      (Archive.new files' directory config.pageSize : Archive SlotTable).answers tasks := by
  have hm := Archive.mirrors_of_create hopen
  obtain ⟨-, -, -, hdb⟩ := create_cases hopen
  have hconfig : db.config = config := by rw [hdb]
  obtain ⟨hanswers, hslots, -⟩ := hm.answers_after (hconfig.symm ▸ htasks) hids
  exact hanswers.trans hslots.symm

/-- In a store for one page of two slots, five rows take three pages, a slot that was freed is taken
    again, and a scan finds the rows where the list of slots has them. -/
theorem answers_eq_slots_on_three_pages :
    let schema := Schema.single "n" .int
    let id := tableIdOf ["d", "t.dat"]
    let row (n : Int32) : Row := ⟨schema, [.int n], none⟩
    let stored (n : Int32) (page slot : Nat) : Row := ⟨schema, [.int n], some ⟨⟨id, page⟩, slot⟩⟩
    let tasks : List Task :=
      [.createTable "t" schema, .insertRow ⟨0⟩ id (row 1), .insertRow ⟨0⟩ id (row 2),
       .insertRow ⟨0⟩ id (row 3), .insertRow ⟨0⟩ id (row 4), .insertRow ⟨0⟩ id (row 5),
       .deleteRow ⟨1⟩ (some ⟨⟨id, 0⟩, 1⟩), .deleteRow ⟨1⟩ (some ⟨⟨id, 0⟩, 1⟩),
       .insertRow ⟨1⟩ id (row 6), .scan id]
    ∃ db files', create Files.empty "/d" ⟨9, 1⟩ = (.ok db, files') ∧
      db.answers (tasks.map .task) =
        (Archive.new files' "/d" 9 : Archive SlotTable).answers tasks ∧
      (db.answers (tasks.map .task)).drop 7 =
        [.error (.missing (.liveRow ⟨⟨id, 0⟩, 1⟩)), .ok (.row (stored 6 0 1)),
         .ok (.rows [stored 1 0 0, stored 6 0 1, stored 3 1 0, stored 4 1 1, stored 5 2 0])] := by
  intro schema id row stored tasks
  let db : Database := ⟨"/d", ⟨9, 1⟩, Catalog.empty, ⟨⟨[], [["d"]], []⟩, Pool.empty ⟨9, 1⟩⟩⟩
  have hopen : create Files.empty "/d" ⟨9, 1⟩ = (.ok db, ⟨[], [["d"]], []⟩) := rfl
  have htasks : ∀ task ∈ tasks, task.Sensible 9 := by decide +kernel
  have hids : (db.after (tasks.map .task)).storage.files.DistinctIds := by decide +kernel
  have hanswers := answers_eq_slots hopen htasks hids
  refine ⟨db, _, hopen, hanswers, ?_⟩
  rw [hanswers]
  decide +kernel

end Database

end RowStore
