import RowStore.Proofs.Cursor.Plans
import RowStore.Proofs.Requests.Additions
import RowStore.Proofs.Storage.Extents

/-!
Pages in memory look like pages of the file that the catalog has for their table.

A page in memory keeps the columns and the number of bytes that it was read with.  The catalog may
change under it: a table is added again after the catalog was cleared, or after another table took
its name, or with pages of another size.  Adding refuses other columns only while the table is known,
and never asks for the size of a page.

1. A request keeps shapes if every table that it adds looks like the pages of that table that are in
   memory (`Request.KeepsShapes`).
2. No step gives a page another shape, and a page that comes in has the shape of its file.  So in
   every store of a run that keeps shapes every page in memory looks like a page of its file
   (`Storage.Shaped`).
3. Such a page is written back to exactly its own range of bytes (`HeapFile.WritesBack`), and the
   rows that a scan reads from such pages have the columns of the table.
-/

namespace RowStore

/-! ## Shapes -/

/-- A page has the columns of a heap file, and as many bytes as a page of it. -/
def Page.LooksLike (p : Page) (h : HeapFile) : Prop :=
  p.schema = h.schema ∧ p.bytes.size = h.pageSize

instance (p : Page) (h : HeapFile) : Decidable (p.LooksLike h) :=
  inferInstanceAs (Decidable (_ ∧ _))

/-- All pages of a table in memory look like pages of a heap file. -/
def Storage.LooksLike (s : Storage) (h : HeapFile) : Prop :=
  ∀ e ∈ s.pool.resident, e.1.table = h.id → e.2.page.LooksLike h

instance (s : Storage) (h : HeapFile) : Decidable (s.LooksLike h) :=
  inferInstanceAs (Decidable (∀ e ∈ _, _))

/-- A request adds no table that the pages of the table in memory do not look like. -/
def Request.KeepsShapes (db : Database) (request : Request) : Prop :=
  ∀ a ∈ request.additions db, db.storage.LooksLike a.entry.file

instance (db : Database) (request : Request) : Decidable (request.KeepsShapes db) :=
  inferInstanceAs (Decidable (∀ a ∈ _, _))

/-- No request of a run adds a table that the pages of the table in memory do not look like. -/
abbrev Database.KeepsShapes (db : Database) (requests : List Request) : Prop :=
  db.Along (fun d request => request.KeepsShapes d) requests

/-- Every page in memory looks like a page of the file that the catalog has for its table. -/
def Storage.Shaped (catalog : Catalog) (s : Storage) : Prop :=
  ∀ id frame h, s.pool.find? id = some frame → catalog.file id.table = .ok h →
    frame.page.LooksLike h

/-! ## Steps keep shapes -/

namespace Storage

variable {catalog : Catalog} {may : Effect → Prop} {s s' : Storage}

/-- A page that is read looks like a page of its file. -/
theorem looksLike_of_readPage {id : PageId} {page : Page} {h : HeapFile}
    (hread : s.readPage catalog id = .ok page) (hfile : catalog.file id.table = .ok h) :
    page.LooksLike h := by
  obtain ⟨g, hg, hread⟩ := file_of_readPage hread
  obtain rfl := Catalog.eq_of_file hfile hg
  obtain ⟨table, n⟩ := id
  obtain rfl : g.id = table := Catalog.id_of_file hfile
  obtain ⟨-, -, hschema, hsize, -⟩ := HeapFile.readPage_eq_ok hread
  exact ⟨hschema, hsize⟩

/-- **The step lemma.** -/
theorem Step.shaped (hstep : Step catalog may s s') (hs : s.pool.Sound)
    (hshaped : Shaped catalog s) : Shaped catalog s' := by
  intro id frame h hfind hfile
  cases hstep.origin hs hfind with
  | kept hold hpage =>
    have hlooks := hshaped id _ h hold hfile
    rcases hpage with hpage | hpage <;> rw [hpage] <;> exact hlooks
  | changed _ hold hschema hsize =>
    obtain ⟨hcolumns, hbytes⟩ := hshaped id _ h hold hfile
    exact ⟨hschema.trans hcolumns, hsize.trans hbytes⟩
  | loaded _ hread => exact looksLike_of_readPage hread hfile

/-- **The run lemma.** -/
theorem Steps.shaped (hsteps : Steps catalog may s s') (hs : s.pool.Sound)
    (hshaped : Shaped catalog s) : Shaped catalog s' := by
  induction hsteps with
  | refl => exact hshaped
  | tail hbefore hstep ih => exact hstep.shaped (Steps.sound hbefore hs) ih

/-- Shapes are kept when a table is added that the pages in memory look like. -/
theorem Shaped.add {c c' : Catalog} {new : TableEntry} (hshaped : Shaped c s)
    (hc : (c.entries.map Catalog.entryId).Nodup) (hadd : c.add new = .ok c')
    (hlooks : s.LooksLike new.file) : Shaped c' s := by
  intro id frame h hfind hfile
  have hid := Catalog.id_of_file hfile
  obtain ⟨e, he, rfl⟩ := Catalog.mem_of_file hfile
  rcases Catalog.mem_entries_add hadd he with rfl | hold
  · exact hlooks (id, frame) (Assoc.mem_of_find? hfind) hid.symm
  · exact hshaped id frame e.file hfind (hid ▸ Catalog.file_of_mem hc hold)

end Storage

/-! ## Writing back -/

/-- Block `n` of the file at a path is overwritten, and nothing else in the tree. -/
structure Files.Overwritten (files files' : Files) (path : Path) (size n : Nat) (chunk : Bytes) :
    Prop where
  /-- No other file is changed, and no directory. -/
  same : files' = files.put path (files'.content path)
  /-- The file is as long as before, or ends with the block. -/
  length : (files'.content path).size = max (files.content path).size ((n + 1) * size)
  /-- The block is the new one. -/
  inside : ∀ i < size, (files'.content path).getD (n * size + i) 0 = chunk.getD i 0
  /-- All other bytes are the old ones. -/
  outside : ∀ i, i < n * size ∨ (n + 1) * size ≤ i →
    (files'.content path).getD i 0 = (files.content path).getD i 0

namespace HeapFile

variable {h : HeapFile} {files files' : Files} {page : Page}

/-- What writing back a page does to the files: a changed page overwrites its own range of bytes, and
    a page that was not changed nothing. -/
def WritesBack (h : HeapFile) (page : Page) (files files' : Files) : Prop :=
  if page.dirty then files.Overwritten files' h.path h.pageSize page.id.number page.bytes
  else files' = files

/-- A page of the right number of bytes that is written where it belongs overwrites its own block. -/
theorem overwritten_of_writePage (hsize : page.bytes.size = h.pageSize)
    (hwrite : h.writePage files page = .ok files')
    (hplace : h.offset files page.id.number = page.id.number * h.pageSize) :
    files.Overwritten files' h.path h.pageSize page.id.number page.bytes := by
  obtain rfl := writePage_eq_putBlock hwrite hplace
  have hend : (page.id.number + 1) * h.pageSize = page.id.number * h.pageSize + h.pageSize := by
    rw [Nat.add_mul, Nat.one_mul]
  have hcontent : (files.put h.path (putBlock h.pageSize page.id.number page.bytes
      (files.content h.path))).content h.path =
      putBytes (files.content h.path) (page.id.number * h.pageSize) page.bytes := by
    rw [Files.content_put, if_pos rfl]
    rfl
  constructor
  · rw [hcontent]
    rfl
  · rw [hcontent, size_putBytes, hsize, hend]
  · intro i hi
    rw [hcontent, getD_putBytes, if_pos (by omega), Nat.add_sub_cancel_left]
  · intro i hi
    rw [hcontent, getD_putBytes, if_neg (by omega)]

end HeapFile

namespace Storage

variable {catalog : Catalog} {s s' : Storage} {id : PageId} {frame : Frame} {h : HeapFile}

theorem Shaped.flushPage (hshaped : Shaped catalog s) (hplaced : s.Placed) (hs : s.pool.Sound)
    (hfind : s.pool.find? id = some frame) (hfile : catalog.file id.table = .ok h) :
    ∃ s', s.flushPage catalog id = (.ok (), s') ∧
      h.WritesBack frame.page s.files s'.files := by
  rcases hflush : s.flushPage catalog id with ⟨r, s'⟩
  have hown : frame.page.id = id := hs.own_id hfind
  obtain ⟨rfl, rfl, hclean⟩ | ⟨f, hf, hdirty, ⟨e, hlost, -⟩ | ⟨g, files, hg, hwrite, rfl, rfl⟩⟩ :=
    flushPage_cases hflush
  · refine ⟨s', rfl, ?_⟩
    rw [HeapFile.WritesBack, if_neg (by simp [hclean frame hfind])]
  · obtain rfl : frame = f := Option.some.inj (hfind.symm.trans hf)
    rw [hown, hfile] at hlost
    cases hlost
  · obtain rfl : frame = f := Option.some.inj (hfind.symm.trans hf)
    rw [hown] at hg
    obtain rfl := Catalog.eq_of_file hfile hg
    refine ⟨_, rfl, ?_⟩
    rw [HeapFile.WritesBack, if_pos hdirty]
    have hsize : frame.page.bytes.size = g.pageSize := (hshaped id frame g hfind hfile).2
    exact HeapFile.overwritten_of_writePage hsize hwrite (hown.symm ▸ hplaced.offset_eq hfind hsize)

/-- The oldest page leaves a full memory, and is written back as by a flush. -/
theorem Shaped.evict (hshaped : Shaped catalog s) (hplaced : s.Placed) (hs : s.pool.Sound)
    (hfind : s.pool.find? id = some frame) (hfile : catalog.file id.table = .ok h)
    {rest : List PageId} (hqueue : s.pool.queue = id :: rest) (hfull : s.pool.hasRoom = false) :
    ∃ s', s.makeRoom catalog = (.ok (), s') ∧ s'.pool.find? id = none ∧
      h.WritesBack frame.page s.files s'.files := by
  obtain ⟨s₁, hflush, hback⟩ := hshaped.flushPage hplaced hs hfind hfile
  rcases hroom : s.makeRoom catalog with ⟨r, s'⟩
  obtain ⟨hyes, -⟩ | ⟨-, victim, others, f, hq, -, ⟨e, -, hlost, -⟩ | ⟨s₂, hflush', rfl, -, rfl⟩⟩ :=
    makeRoom_cases hs hroom
  · rw [hfull] at hyes
    cases hyes
  · rw [hqueue] at hq
    cases hq
    rw [hfile] at hlost
    cases hlost
  · rw [hqueue] at hq
    cases hq
    rw [hflush] at hflush'
    cases hflush'
    refine ⟨_, rfl, ?_, hback⟩
    show (s₁.pool.release id).find? id = none
    rw [Pool.find?_release, if_pos rfl]

/-! ## Reading -/

/-- The rows on a page that looks like one of a table are rows of the table. -/
theorem row_of_looksLike {p : Page} (hlooks : p.LooksLike h) :
    ∀ row ∈ p.rows, row.schema = h.schema ∧ row.Conforms := by
  intro row hrow
  have htyped := Page.typed_of_mem_rows hrow
  obtain ⟨i, -, hi⟩ := List.mem_filterMap.mp hrow
  have hschema : row.schema = p.schema := by
    unfold Page.row at hi
    split at hi
    · cases hi
      rfl
    · cases hi
  refine ⟨hschema.trans hlooks.1, ?_⟩
  show row.values.map Value.type = row.schema.types
  rw [hschema]
  exact htyped

end Storage

namespace Source

open Storage

/-- What holds of the rows of every page that a scan can find holds of all rows that it takes. -/
theorem Scan.eachPage_forall {catalog : Catalog} {table : TableId} {W : Storage → Prop}
    {P : Row → Prop} (hsound : ∀ {s}, W s → s.pool.Sound)
    (hcalm : ∀ {s s'}, W s → Quiet catalog s s' → W s')
    (hget : ∀ {n s frame s'}, W s → s.getPage catalog ⟨table, n⟩ = (.ok frame, s') →
      ∀ row ∈ frame.page.rows, P row)
    {pages : Nat} {scan scan' : Scan} {taken taken' : List Row} {s s' : Storage} {ending : Ending}
    (hs : W s) (hbuffer : ∀ row ∈ scan.buffer, P row) (htaken : ∀ row ∈ taken, P row)
    (h : Scan.eachPage table catalog takeRow pages scan taken s = (ending, scan', taken', s')) :
    ∀ row ∈ taken', P row := by
  let inv : Nat → List Row → List Row → Storage → Prop := fun _ left taken s =>
    W s ∧ (∀ row ∈ left, P row) ∧ ∀ row ∈ taken, P row
  have hconsume : ∀ n, Consumes catalog takeRow (inv n) fun _ _ _ => False := by
    refine fun n => ⟨?_, fun ⟨hs, ha⟩ hquiet => ⟨hcalm hs hquiet, ha⟩⟩
    rintro row left taken s step s' ⟨hs, hleft, htaken⟩ hrow
    obtain ⟨hfirst, hleft⟩ := List.forall_mem_cons.mp hleft
    cases hrow
    exact ⟨hs, hleft, List.forall_mem_cons.mpr ⟨hfirst, htaken⟩⟩
  have hpage : ∀ {n : Nat} {taken : List Row} {s s' : Storage} {r : Except Error Frame},
      n < scan.next + pages → inv n [] taken s → s.getPage catalog ⟨table, n⟩ = (r, s') →
      (∃ frame : Frame, r = .ok frame ∧ inv (n + 1) frame.page.rows taken s') ∨
      (∃ e, r = .error e ∧ True ∧ inv n [] taken s') := by
    rintro n taken s s' r - ⟨hs, hnone, htaken⟩ hfound
    have hs' := hcalm hs (getPage_steps (hsound hs) hfound)
    cases r with
    | ok frame => exact Or.inl ⟨frame, rfl, hs', hget hs hfound, htaken⟩
    | error e => exact Or.inr ⟨e, rfl, trivial, hs', hnone, htaken⟩
  obtain ⟨-, -, -, hended⟩ := Scan.eachPage_ends hconsume rfl hpage ⟨hs, hbuffer, htaken⟩ h
  cases hended with
  | exhausted _ ha => exact ha.2.2
  | stopped _ ha => exact ha.elim
  | failed _ ha => exact ha.2.2

end Source

namespace Storage

variable {catalog : Catalog} {s s' : Storage} {h : HeapFile}

/-- A scan of pages that look like those of their file gives rows of the table. -/
theorem Shaped.scanRows (hshaped : Shaped catalog s) (hs : s.pool.Sound) {table : TableId}
    (hfile : catalog.file table = .ok h) {rows : List Row}
    (hscan : s.scanRows catalog table = (.ok rows, s')) :
    ∀ row ∈ rows, row.schema = h.schema ∧ row.Conforms := by
  have hcalm : ∀ {s s'}, s.pool.Sound ∧ Shaped catalog s → Quiet catalog s s' →
      s'.pool.Sound ∧ Shaped catalog s' :=
    fun ⟨hs, hshaped⟩ hquiet => ⟨hquiet.sound hs, hquiet.shaped hs hshaped⟩
  have hget : ∀ {n s frame s'}, s.pool.Sound ∧ Shaped catalog s →
      s.getPage catalog ⟨table, n⟩ = (.ok frame, s') →
      ∀ row ∈ frame.page.rows, row.schema = h.schema ∧ row.Conforms := by
    rintro n s frame s' ⟨hs, hshaped⟩ hpage
    obtain ⟨-, hshaped'⟩ := hcalm ⟨hs, hshaped⟩ (getPage_steps hs hpage)
    exact row_of_looksLike (hshaped' _ frame h (find?_of_getPage hs hpage) hfile)
  rw [scanRows_eq, hfile] at hscan
  simp only at hscan
  rcases heach : Source.Scan.eachPage table catalog Source.takeRow (h.numPages s.files)
      ⟨h.numPages s.files, 0, []⟩ [] s with ⟨ending, scan, taken, s₁⟩
  have hall := Source.Scan.eachPage_forall And.left hcalm hget ⟨hs, hshaped⟩
    (fun row hrow => absurd hrow List.not_mem_nil) (fun row hrow => absurd hrow List.not_mem_nil)
    heach
  rw [heach] at hscan
  cases ending <;> cases hscan <;> exact fun row hrow => hall row (List.mem_reverse.mp hrow)

end Storage

/-! ## Requests -/

namespace Database

open Storage

variable {db : Database}

/-- The catalog after a request that keeps shapes has files that the pages in memory look like. -/
theorem shaped_catalog {request : Request} (hkeeps : request.KeepsShapes db)
    (hnodup : (db.catalog.entries.map Catalog.entryId).Nodup)
    (hshaped : Shaped db.catalog db.storage) :
    ((db.perform request).2.catalog.entries.map Catalog.entryId).Nodup ∧
      Shaped (db.perform request).2.catalog db.storage := by
  refine catalog_induction
    (P := fun c => (c.entries.map Catalog.entryId).Nodup ∧ Shaped c db.storage) ?_ ?_
    ⟨hnodup, hshaped⟩
  · rintro a ha c' ⟨hc, hshaped⟩ hadd
    exact ⟨Catalog.nodup_add hadd hc, hshaped.add hc hadd (hkeeps a ha)⟩
  · rintro -
    refine ⟨List.nodup_nil, ?_⟩
    intro id frame h hfind hfile
    obtain ⟨e, he, -⟩ := Catalog.mem_of_file hfile
    exact absurd he List.not_mem_nil

/-- **What a request keeps.**  If it adds no table that the pages of the table in memory do not look
    like, they look like pages of their files afterwards. -/
theorem perform_shaped (hdb : db.storage.pool.Sound) {request : Request}
    (hkeeps : request.KeepsShapes db) (hnodup : (db.catalog.entries.map Catalog.entryId).Nodup)
    (hshaped : Shaped db.catalog db.storage) :
    ((db.perform request).2.catalog.entries.map Catalog.entryId).Nodup ∧
      Shaped (db.perform request).2.catalog (db.perform request).2.storage := by
  obtain ⟨hnodup', hshaped'⟩ := shaped_catalog hkeeps hnodup hshaped
  refine ⟨hnodup', ?_⟩
  rcases perform_pool_or_catalog db request with hpool | hcatalog
  · intro id frame h hfind hfile
    rw [hpool] at hfind
    exact hshaped' id frame h hfind hfile
  · rw [hcatalog]
    exact (perform_steps hdb request).shaped hdb hshaped

/-- In every store of a run each page in memory has a place that can be addressed. -/
theorem placed_of_create {files files' : Files} {directory : String} {config : Config}
    (hopen : create files directory config = (.ok db, files')) (requests : List Request) :
    ∀ d ∈ db.states requests, d.storage.Placed := by
  have hdb := (sound_of_create hopen []).1
  have hempty : db.storage.Placed := by
    obtain ⟨-, -, -, rfl⟩ := create_cases hopen
    intro _ id frame hfind
    cases hfind
  clear hopen
  induction requests generalizing db with
  | nil =>
    intro d hd
    exact List.mem_singleton.mp hd ▸ hempty
  | cons request requests ih =>
    intro d hd
    have hsteps := perform_steps hdb request
    rcases List.mem_cons.mp hd with rfl | hd
    · exact hempty
    · exact ih (hsteps.sound hdb) (hsteps.placed hdb hempty) d hd

/-- **Pages in memory agree with the catalog** in every store of a run in which no table is added
    that looks unlike the pages of it that are in memory: columns and page size of a known table are
    those of each of its pages in memory.  When such a page is written back, or leaves a full memory,
    it overwrites the bytes from `number * pageSize` up to `(number + 1) * pageSize` if it was
    changed, and nothing else.  Every row that a scan gives has the columns of its table and values of
    their types. -/
theorem pages_look_like_files {files files' : Files} {directory : String} {config : Config}
    (hopen : create files directory config = (.ok db, files')) (requests : List Request)
    (hkeeps : db.KeepsShapes requests) :
    ∀ d ∈ db.states requests,
      (∀ id frame h, d.storage.pool.find? id = some frame → d.catalog.file id.table = .ok h →
        frame.page.id = id ∧ frame.page.schema = h.schema ∧
        frame.page.bytes.size = h.pageSize ∧
        (∃ s', d.storage.flushPage d.catalog id = (.ok (), s') ∧
          h.WritesBack frame.page d.storage.files s'.files) ∧
        ∀ rest, d.storage.pool.queue = id :: rest → d.storage.pool.hasRoom = false →
          ∃ s', d.storage.makeRoom d.catalog = (.ok (), s') ∧ s'.pool.find? id = none ∧
            h.WritesBack frame.page d.storage.files s'.files) ∧
      ∀ table h rows, d.catalog.file table = .ok h →
        (d.perform (.task (.scan table))).1 = .ok (.rows rows) →
        ∀ row ∈ rows, row.schema = h.schema ∧ row.Conforms := by
  intro d hd
  have hdb := (sound_of_create hopen []).1
  have hempty : (db.catalog.entries.map Catalog.entryId).Nodup ∧ Shaped db.catalog db.storage := by
    obtain ⟨-, -, -, rfl⟩ := create_cases hopen
    refine ⟨List.nodup_nil, ?_⟩
    intro id frame h hfind
    cases hfind
  have hplaced : d.storage.Placed := placed_of_create hopen requests d hd
  obtain ⟨hs, -, hshaped⟩ := states_induction
    (P := fun d => d.storage.pool.Sound ∧ (d.catalog.entries.map Catalog.entryId).Nodup ∧
      Shaped d.catalog d.storage)
    (fun d request hone hd => ⟨(perform_steps hd.1 request).sound hd.1,
      perform_shaped hd.1 hone hd.2.1 hd.2.2⟩) hkeeps ⟨hdb, hempty⟩ d hd
  constructor
  · intro id frame h hfind hfile
    obtain ⟨hschema, hsize⟩ := hshaped id frame h hfind hfile
    refine ⟨hs.own_id hfind, hschema, hsize, hshaped.flushPage hplaced hs hfind hfile, ?_⟩
    intro rest hqueue hfull
    exact hshaped.evict hplaced hs hfind hfile hqueue hfull
  · intro table h rows hfile hanswer
    have hscan : (d.storage.scanRows d.catalog table).1.map Outcome.rows = .ok (.rows rows) :=
      hanswer
    rcases hrows : d.storage.scanRows d.catalog table with ⟨r, s'⟩
    rw [hrows] at hscan
    cases r with
    | error e => cases hscan
    | ok found =>
      cases hscan
      exact hshaped.scanRows hs hfile hrows

/-- A table is forgotten and added again while its page is in memory, and, once the page has left,
    with pages of half the size.  The page that is read then, and changed, goes to the first 32 bytes
    of the file. -/
theorem pages_look_like_files_of_half_the_size :
    let schema := Schema.single "n" .int
    let t := tableIdOf ["d", "t.dat"]
    let requests : List Request :=
      [.task (.createTable "t" schema), .task (.insertRow ⟨0⟩ t ⟨schema, [.int 1], none⟩),
       .clearCatalog, .task (.createTable "t" schema), .task .flushAll, .discard ⟨t, 0⟩,
       .addFile "/d/t.dat" "t" "" schema 32,
       .task (.insertRow ⟨0⟩ t ⟨schema, [.int 2], none⟩)]
    ∃ db files' frame s', create Files.empty "/d" ⟨64, 1⟩ = (.ok db, files') ∧
      db.KeepsShapes requests ∧ (db.after requests).storage.pool.find? ⟨t, 0⟩ = some frame ∧
      frame.page.dirty = true ∧ frame.page.bytes.size = 32 ∧
      (db.after requests).storage.flushPage (db.after requests).catalog ⟨t, 0⟩ = (.ok (), s') ∧
      (db.after requests).storage.files.Overwritten s'.files ["d", "t.dat"] 32 0 frame.page.bytes ∧
      (s'.files.content ["d", "t.dat"]).size = 64 := by
  intro schema t requests
  let db : Database := ⟨"/d", ⟨64, 1⟩, Catalog.empty, ⟨⟨[], [["d"]], []⟩, Pool.empty ⟨64, 1⟩⟩⟩
  have hopen : create Files.empty "/d" ⟨64, 1⟩ = (.ok db, ⟨[], [["d"]], []⟩) := rfl
  have hkeeps : db.KeepsShapes requests := by decide +kernel
  have hlast := after_mem_states db requests
  have hfile : (db.after requests).catalog.file t = .ok ⟨["d", "t.dat"], schema, 32⟩ := by
    decide +kernel
  have hlength : ((db.after requests).storage.files.content ["d", "t.dat"]).size = 64 := by
    decide +kernel
  have hchanged : (db.after requests).storage.pool.find? ⟨t, 0⟩ |>.any (·.page.dirty) := by
    decide +kernel
  obtain ⟨frame, hfind, hdirty⟩ := (Option.any_eq_true _ _).mp hchanged
  obtain ⟨hown, -, hsize, ⟨s', hflush, hback⟩, -⟩ :=
    (pages_look_like_files hopen requests hkeeps _ hlast).1 ⟨t, 0⟩ frame _ hfind hfile
  rw [HeapFile.WritesBack, if_pos hdirty, hown] at hback
  refine ⟨db, _, frame, s', hopen, hkeeps, hfind, hdirty, hsize, hflush, hback, ?_⟩
  rw [hback.length, hlength]
  rfl

/-- A table that was forgotten may be added with other columns, although its page is in memory with
    the old ones, and a known table may be added again with pages of another size.  Then a scan gives
    rows of the old columns, and a page of 64 bytes is written where one of 128 belongs. -/
theorem pages_look_unlike_files :
    let ints := Schema.single "n" .int
    let texts := Schema.single "s" .string
    let t := tableIdOf ["d", "t.dat"]
    let start : List Request :=
      [.task (.createTable "t" ints), .task (.insertRow ⟨0⟩ t ⟨ints, [.int 1], none⟩)]
    let recolumned := start ++ [.task .flushAll, .clearCatalog, .task (.createTable "t" texts)]
    let resized := start ++ [.addFile "/d/t.dat" "t" "" ints 128]
    let shape (d : Database) := (d.storage.pool.find? ⟨t, 0⟩).map fun frame =>
      (frame.page.schema, frame.page.bytes.size)
    ∃ db files', create Files.empty "/d" ⟨64, 4⟩ = (.ok db, files') ∧
      (db.after recolumned).storage.files.DistinctIds ∧
      (db.after resized).storage.files.DistinctIds ∧
      shape (db.after recolumned) = some (ints, 64) ∧
      (db.after recolumned).catalog.file t = .ok ⟨["d", "t.dat"], texts, 64⟩ ∧
      ((db.after recolumned).perform (.task (.scan t))).1 =
        .ok (.rows [⟨ints, [.int 1], some ⟨⟨t, 0⟩, 0⟩⟩]) ∧
      shape (db.after resized) = some (ints, 64) ∧
      (db.after resized).catalog.file t = .ok ⟨["d", "t.dat"], ints, 128⟩ ∧
      ((db.after resized).perform (.task .flushAll)).1 = .ok .done ∧
      (((db.after resized).perform (.task .flushAll)).2.storage.files.content
        ["d", "t.dat"]).size = 64 := by
  intro ints texts t start recolumned resized shape
  exact ⟨⟨"/d", ⟨64, 4⟩, Catalog.empty, ⟨⟨[], [["d"]], []⟩, Pool.empty ⟨64, 4⟩⟩⟩, _, rfl,
    by decide +kernel, by decide +kernel, by decide +kernel, by decide +kernel, by decide +kernel,
    by decide +kernel, by decide +kernel, by decide +kernel, by decide +kernel⟩

end Database

end RowStore
