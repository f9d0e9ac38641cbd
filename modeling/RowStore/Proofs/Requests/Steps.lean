import RowStore.Proofs.Cursor.Steps
import RowStore.Proofs.Files.Names
import RowStore.Proofs.Requests

/-!
Every request is a run of steps.

Whatever a request does to the storage, it does by the steps of `Storage.Step`, whether it succeeds
or fails, and it writes only the tables that it names and makes files only where it registers them
(`perform_steps`).  The sizes of the store and its directory never change.
-/

namespace RowStore

/-! ## Tasks on the storage -/

theorem Source.takeRow_steps {catalog : Catalog} {may : Effect → Prop} :
    ConsumerSteps catalog may takeRow := by
  intro row rows s step s' _ h
  cases h
  exact .refl

namespace Storage

variable {catalog : Catalog} {may : Effect → Prop} {tid : TransactionId} {table : TableId}
  {s s' : Storage}

theorem scanRows_steps {r : Except Error (List Row)} (hs : s.pool.Sound)
    (h : s.scanRows catalog table = (r, s')) : Steps catalog may s s' := by
  rw [scanRows_eq] at h
  cases hfile : catalog.file table with
  | error e =>
    rw [hfile] at h
    cases h
    exact .refl
  | ok file =>
    simp only [hfile] at h
    rcases heach : Source.Scan.eachPage table catalog Source.takeRow (file.numPages s.files)
        ⟨file.numPages s.files, 0, []⟩ [] s with ⟨ending, scan, rows, s₁⟩
    have hsteps : Steps catalog may s s₁ :=
      Source.Scan.eachPage_steps Source.takeRow_steps hs heach
    rw [heach] at h
    cases ending <;> cases h <;> exact hsteps

/-- How storing a row in the file of a table ends. -/
theorem insertInFile_cases {row : Row} {r : Except Error Row} (hs : s.pool.Sound)
    (h : s.insertInFile catalog tid table row = (r, s')) :
    (∃ e, catalog.file table = .error e ∧ r = .error e ∧ s' = s) ∨
    ∃ file r₁, catalog.file table = .ok file ∧ file.Inserted catalog tid row s r₁ s' ∧
      r = r₁.map (·.1) := by
  unfold insertInFile at h
  cases hfile : catalog.file table with
  | error e =>
    rw [hfile] at h
    cases h
    exact Or.inl ⟨e, rfl, rfl, rfl⟩
  | ok file =>
    rw [hfile] at h
    cases h
    exact Or.inr ⟨file, _, rfl, HeapFile.insertRow_cases hs rfl, rfl⟩

/-- How deleting a row from the file of a table ends. -/
theorem deleteInFile_cases {place : Option RecordId} {r : Except Error Unit}
    (h : s.deleteInFile catalog tid table place = (r, s')) :
    (∃ e, catalog.file table = .error e ∧ r = .error e ∧ s' = s) ∨
    ∃ file r₁, catalog.file table = .ok file ∧ file.Deleted catalog tid s place r₁ s' ∧
      r = r₁.map fun _ => () := by
  unfold deleteInFile at h
  cases hfile : catalog.file table with
  | error e =>
    rw [hfile] at h
    cases h
    exact Or.inl ⟨e, rfl, rfl, rfl⟩
  | ok file =>
    rw [hfile] at h
    cases h
    exact Or.inr ⟨file, _, rfl, HeapFile.deleteRow_cases rfl, rfl⟩

theorem insertInFile_steps {row : Row} {r : Except Error Row} (hs : s.pool.Sound)
    (h : s.insertInFile catalog tid table row = (r, s')) : Steps catalog (· = .write table) s s' := by
  obtain ⟨e, -, -, rfl⟩ | ⟨file, r₁, hfile, hins, -⟩ := insertInFile_cases hs h
  · exact .refl
  · exact (hins.steps hs hfile).1

theorem deleteInFile_steps {place : Option RecordId}
    (hmay : ∀ p, place = some p → may (.write p.page.table)) {r : Except Error Unit} (hs : s.pool.Sound)
    (h : s.deleteInFile catalog tid table place = (r, s')) : Steps catalog may s s' := by
  obtain ⟨e, -, -, rfl⟩ | ⟨file, r₁, -, hdel, -⟩ := deleteInFile_cases h
  · exact .refl
  · exact (hdel.steps hs fun p hp _ => hmay p hp).1

end Storage

/-! ## Files that are made -/

namespace Storage

variable {catalog : Catalog} {s : Storage}

/-- A file that is opened is made if it was not there. -/
theorem opened_steps (s : Storage) (path : Path) :
    Steps catalog (· = .make) s { s with files := s.files.opened path } := by
  unfold Files.opened
  split
  · exact .refl
  · rename_i hnone
    rw [Bool.not_eq_true, Option.isSome_eq_false_iff, Option.isNone_iff_eq_none] at hnone
    exact .single (.create rfl hnone)

theorem openNamed_steps {files : Files} {name : String} {schema : Schema} {pageSize : Nat}
    {h : HeapFile} (hopen : HeapFile.openNamed s.files name schema pageSize = .ok (h, files)) :
    Steps catalog (· = .make) s { s with files := files } := by
  unfold HeapFile.openNamed at hopen
  split at hopen
  · cases hopen
  · rename_i path files' hfile
    cases hopen
    rw [Files.openFile_eq] at hfile
    cases hpath : s.files.pathOf name with
    | error fault =>
      rw [hpath] at hfile
      cases hfile
    | ok path =>
      rw [hpath] at hfile
      cases hfile
      exact opened_steps s path

attribute [local irreducible] TableLine.parse Text.isBlankLine Catalog.addLine in
/-- Adding the tables of some lines, by the first of them. -/
theorem addLines_cons (pageSize number : Nat) (name : String) (dir : Path) (line : String)
    (lines : List String) (c : Catalog) (files : Files) :
    Catalog.addLines pageSize name dir number (line :: lines) c files =
      if Text.isBlankLine line then
        Catalog.addLines pageSize name dir (number + 1) lines c files
      else match TableLine.parse line with
        | .error fault => (.error (.schemaFile name number fault), c, files)
        | .ok table =>
          match Catalog.addLine pageSize dir table c files with
          | (.error e, c, files) => (.error e, c, files)
          | (.ok id, c, files) =>
            match Catalog.addLines pageSize name dir (number + 1) lines c files with
            | (.error e, c, files) => (.error e, c, files)
            | (.ok ids, c, files) => (.ok (id :: ids), c, files) := rfl

theorem addLines_steps {pageSize number : Nat} {name : String} {dir : Path}
    {lines : List String} {c c' : Catalog} {files : Files} {r : Except Error (List TableId)}
    (h : Catalog.addLines pageSize name dir number lines c s.files = (r, c', files)) :
    Steps catalog (· = .make) s { s with files := files } := by
  induction lines generalizing number c c' files s r with
  | nil =>
    cases h
    exact .refl
  | cons line lines ih =>
    rw [addLines_cons] at h
    split at h
    · exact ih h
    · split at h
      · cases h
        exact .refl
      · rename_i table _
        rcases hline : Catalog.addLine pageSize dir table c s.files with ⟨result, c₁, files₁⟩
        have hfirst : Steps catalog (· = .make) s { s with files := files₁ } := by
          unfold Catalog.addLine at hline
          split at hline
          · cases hline
            exact .refl
          · rename_i hopen
            split at hline <;> cases hline <;> exact openNamed_steps hopen
        rw [hline] at h
        cases result with
        | error e =>
          cases h
          exact hfirst
        | ok id =>
          rcases hrest : Catalog.addLines pageSize name dir (number + 1) lines c₁ files₁
            with ⟨result, c₂, files₂⟩
          have hsecond := ih (s := { s with files := files₁ }) hrest
          simp only [hrest] at h
          cases result <;> cases h <;> exact hfirst.trans hsecond

end Storage

/-! ## Requests -/

/-- What a task may do to tables and files. -/
def Task.effects : Task → Effect → Prop
  | .createTable _ _ => (· = .make)
  | .insertRow _ table _ => (· = .write table)
  | .deleteRow _ place => fun e => ∃ p, place = some p ∧ e = .write p.page.table
  | .getPage _ | .flushPage _ | .flushPages _ | .flushAll | .scan _ => fun _ => False

/-- What a request may do to tables and files. -/
def Request.effects : Request → Effect → Prop
  | .task asked => asked.effects
  | .addFile _ _ _ _ _ | .loadSchema _ => (· = .make)
  | .clearCatalog => fun _ => False
  | .discard id => (· = .write id.table)
  | .insertInFile _ table _ => (· = .write table)
  | .deleteInFile _ _ place => fun e => ∃ p, place = some p ∧ e = .write p.page.table

namespace Database

open Storage

theorem addFile_steps (db : Database) (file name primaryKey : String) (schema : Schema)
    (pageSize : Nat) :
    Steps db.catalog (· = .make) db.storage
      (db.addFile file name primaryKey schema pageSize).2.storage := by
  unfold addFile
  cases hopen : HeapFile.openNamed db.storage.files file schema pageSize with
  | error e => exact .refl
  | ok opened =>
    obtain ⟨heap, files⟩ := opened
    simp only
    split <;> exact openNamed_steps hopen

/-- **What a request does.**  It runs through steps with no effects but its own. -/
theorem perform_steps {db : Database} (hdb : db.storage.pool.Sound) (request : Request) :
    Steps db.catalog request.effects db.storage (db.perform request).2.storage := by
  cases request with
  | task asked =>
    cases asked with
    | createTable name schema => exact addFile_steps db _ _ _ _ _
    | insertRow tid table row => exact insertRow_steps hdb (Prod.eta _).symm
    | deleteRow tid place =>
      exact deleteRow_steps hdb (fun p hp => ⟨p, hp, rfl⟩) (Prod.eta _).symm
    | getPage id => exact getPage_steps hdb (Prod.eta _).symm
    | flushPage id => exact flushPage_steps (Prod.eta _).symm
    | flushPages tid => exact flushEach_steps (Prod.eta _).symm
    | flushAll => exact flushEach_steps (Prod.eta _).symm
    | scan table => exact scanRows_steps hdb (Prod.eta _).symm
  | addFile file name primaryKey schema pageSize => exact addFile_steps db _ _ _ _ _
  | loadSchema name =>
    show Steps db.catalog _ db.storage (db.loadSchema name).2.storage
    unfold loadSchema Catalog.load
    cases db.storage.files.readText name with
    | error fault => exact .refl
    | ok text => exact addLines_steps rfl
  | clearCatalog => exact .refl
  | discard id => exact .single (.discard rfl)
  | insertInFile tid table row => exact insertInFile_steps hdb (Prod.eta _).symm
  | deleteInFile tid table place =>
    exact deleteInFile_steps (fun p hp => ⟨p, hp, rfl⟩) hdb (Prod.eta _).symm

/-- The sizes of a store and its directory stay. -/
theorem perform_keeps (db : Database) (request : Request) :
    (db.perform request).2.config = db.config ∧
      (db.perform request).2.directory = db.directory := by
  have hadd : ∀ file name primaryKey schema pageSize,
      (db.addFile file name primaryKey schema pageSize).2.config = db.config ∧
        (db.addFile file name primaryKey schema pageSize).2.directory = db.directory := by
    intro file name primaryKey schema pageSize
    unfold addFile
    split
    · exact ⟨rfl, rfl⟩
    · simp only
      split <;> exact ⟨rfl, rfl⟩
  cases request with
  | task asked =>
    cases asked with
    | createTable name schema => exact hadd _ _ _ _ _
    | _ => exact ⟨rfl, rfl⟩
  | addFile file name primaryKey schema pageSize => exact hadd _ _ _ _ _
  | _ => exact ⟨rfl, rfl⟩

/-- In every store that can be reached the pool and its queue agree, and the pool has the capacity
    that the store was opened with. -/
theorem sound_of_create {files files' : Files} {directory : String} {config : Config}
    {db : Database} (hopen : create files directory config = (.ok db, files'))
    (requests : List Request) :
    (db.after requests).storage.pool.Sound ∧
      (db.after requests).storage.pool.capacity = config.poolPages := by
  obtain ⟨-, hpool, -, rfl⟩ := create_cases hopen
  refine after_induction (P := fun db => db.storage.pool.Sound ∧
    db.storage.pool.capacity = config.poolPages) ?_ ⟨Pool.sound_empty hpool, rfl⟩ requests
  rintro db request ⟨hsound, hcapacity⟩
  have hsteps := perform_steps hsound request
  exact ⟨hsteps.sound hsound, (hsteps.capacity hsound).trans hcapacity⟩

end Database

end RowStore
