import RowStore.Proofs.Requests.Additions
import RowStore.Proofs.Requests.Errors
import RowStore.Proofs.Storage.Origins
import RowStore.Proofs.Storage.Tree

/-!
Changed pages belong to tables that the catalog knows.

A changed page can be written only while the catalog knows its table.  A table is forgotten in two
ways: the catalog is cleared, or a table that is stored in another file takes its name.  Neither
looks at the pages in memory.

1. `Request.displaced` lists the tables that a request takes out of the catalog, and a run that
   spares changed tables (`Database.Spares`) displaces none that has a changed page in memory.
2. No step changes a page of a table that is not known, and adding a table forgets only the tables
   that it displaces.  So in every store of such a run every changed page belongs to a known table
   (`Storage.ChangesKnown`).
3. Then no page stands in the way of another: every flush succeeds, and no request is answered with
   a page that could not leave (`Database.flushes_succeed`).

A run that takes the name of a changed table ends differently
(`Database.flush_fails_after_takeover`).
-/

namespace RowStore

variable {catalog : Catalog} {tid : TransactionId} {s s' : Storage}
  {e : Error}

/-! ## Tables that are displaced -/

/-- The tables that are forgotten when a table is added: those of its name that are stored in other
    files. -/
def Addition.displaced (a : Addition) : List TableId :=
  (a.catalog.entries.filter fun old =>
    old.name = a.entry.name ∧ old.file.id ≠ a.entry.file.id).map Catalog.entryId

/-- The tables that a request takes out of the catalog. -/
def Request.displaced (db : Database) : Request → List TableId
  | .clearCatalog => db.catalog.tableIds
  | request => (request.additions db).flatMap Addition.displaced

/-- Whether a table has a changed page in memory. -/
def Storage.isChanged (s : Storage) (table : TableId) : Bool :=
  s.pool.resident.any fun e => e.1.table == table && e.2.page.dirty

/-- A request takes no table with a changed page out of the catalog. -/
def Request.Spares (db : Database) (request : Request) : Prop :=
  ∀ table ∈ request.displaced db, db.storage.isChanged table = false

instance (db : Database) (request : Request) : Decidable (request.Spares db) :=
  -- table numbers are finitely many, and trying all of them would take too long
  List.decidableBAll (fun table => db.storage.isChanged table = false) (request.displaced db)

/-- No request of a run takes a table with a changed page out of the catalog. -/
abbrev Database.Spares (db : Database) (requests : List Request) : Prop :=
  db.Along (fun d request => request.Spares d) requests

/-! ## Adding forgets only what it displaces -/

namespace Catalog

variable {c c' : Catalog} {new : TableEntry} {id : TableId}

/-- A table that was known is known when another one was added, or it is displaced. -/
theorem known_add (hadd : c.add new = .ok c') (hknown : ∃ h, c.file id = .ok h) :
    id ∈ (Addition.mk c new).displaced ∨ ∃ h, c'.file id = .ok h := by
  obtain ⟨old, hold, hid⟩ := known_iff.mp hknown
  have hentries : c'.entries = putEntry new (c.entries.filter (·.name ≠ new.name)) := by
    obtain ⟨found, -, -, herror⟩ | ⟨-, hok⟩ := add_cases c new
    · rw [hadd] at herror
      cases herror
    · rw [hadd] at hok
      cases hok
      rfl
  by_cases hname : old.name = new.name
  · by_cases hsame : old.file.id = new.file.id
    · exact Or.inr (known_iff.mpr ⟨new, hentries ▸ mem_putEntry_self _ _, hsame.symm.trans hid⟩)
    · left
      have hmem : old ∈ c.entries.filter fun old =>
          old.name = new.name ∧ old.file.id ≠ new.file.id :=
        List.mem_filter.mpr ⟨hold, by simpa using ⟨hname, hsame⟩⟩
      exact hid ▸ List.mem_map_of_mem hmem
  · right
    have hkept : old ∈ c.entries.filter (·.name ≠ new.name) :=
      List.mem_filter.mpr ⟨hold, by simpa using hname⟩
    obtain ⟨kept, hmem, hsame⟩ : ∃ kept ∈ putEntry new (c.entries.filter (·.name ≠ new.name)),
        kept.file.id = old.file.id := mem_putEntry_of_mem hkept
    exact known_iff.mpr ⟨kept, hentries ▸ hmem, hsame.trans hid⟩

end Catalog

/-! ## Changed pages stay with known tables -/

namespace Storage

/-- Every changed page in memory belongs to a table that the catalog knows. -/
def ChangesKnown (catalog : Catalog) (s : Storage) : Prop :=
  ∀ id frame, s.pool.find? id = some frame → frame.page.dirty = true →
    ∃ h, catalog.file id.table = .ok h

/-- A page that is read is not changed. -/
theorem clean_of_readPage {id : PageId} {page : Page} (hread : s.readPage catalog id = .ok page) :
    page.dirty = false := by
  obtain ⟨file, hfile, hpage⟩ := file_of_readPage hread
  have hid : id = ⟨file.id, id.number⟩ := by rw [Catalog.id_of_file hfile]
  rw [hid] at hpage
  obtain ⟨-, -, -, -, hclean⟩ := HeapFile.readPage_eq_ok hpage
  exact hclean ▸ rfl

/-- **The step lemma.**  A step that changes pages of known tables only leaves every changed page
    with a known table. -/
theorem Step.changesKnown (hstep : Step catalog catalog.writesKnown s s') (hs : s.pool.Sound)
    (hk : ChangesKnown catalog s) : ChangesKnown catalog s' := by
  intro id frame hfind hdirty
  cases hstep.origin hs hfind with
  | kept hold hpage =>
    rcases hpage with hpage | hpage
    · exact hk id _ hold (hpage ▸ hdirty)
    · -- a page that was written back is not changed any more
      rw [hpage] at hdirty
      cases hdirty
  | changed hwrites _ _ _ => exact hwrites id.table rfl
  | loaded _ hread =>
    rw [clean_of_readPage hread] at hdirty
    cases hdirty

/-- **The run lemma.** -/
theorem Steps.changesKnown (hsteps : Steps catalog catalog.writesKnown s s')
    (hs : s.pool.Sound) (hk : ChangesKnown catalog s) : ChangesKnown catalog s' := by
  induction hsteps with
  | refl => exact hk
  | tail hbefore hstep ih => exact hstep.changesKnown (Steps.sound hbefore hs) ih

/-- A table that the catalog does not know is not written at all. -/
theorem insertRow_known (hs : s.pool.Sound) {table : TableId} {row : Row} {r : Except Error Row}
    (h : s.insertRow catalog tid table row = (r, s')) : Steps catalog catalog.writesKnown s s' := by
  cases hfile : catalog.file table with
  | error e =>
    unfold insertRow at h
    rw [hfile] at h
    cases h
    exact .refl
  | ok file =>
    refine (insertRow_steps hs h).mono ?_
    rintro effect rfl other hother
    cases hother
    exact ⟨file, hfile⟩

theorem deleteRow_known (hs : s.pool.Sound) {place : Option RecordId} {r : Except Error Unit}
    (h : s.deleteRow catalog tid place = (r, s')) : Steps catalog catalog.writesKnown s s' := by
  obtain ⟨-, -, rfl⟩ | ⟨p, rfl, ⟨e, -, -, rfl⟩ | ⟨file, hfile, -⟩⟩ := deleteRow_cases hs h
  · exact .refl
  · exact .refl
  · refine deleteRow_steps hs ?_ h
    rintro q hq table htable
    cases hq
    cases htable
    exact ⟨file, hfile⟩

theorem insertInFile_known (hs : s.pool.Sound) {table : TableId} {row : Row}
    {r : Except Error Row} (h : s.insertInFile catalog tid table row = (r, s')) :
    Steps catalog catalog.writesKnown s s' := by
  obtain ⟨e, -, -, rfl⟩ | ⟨file, r₁, hfile, hins, -⟩ := insertInFile_cases hs h
  · exact .refl
  · refine (hins.steps hs hfile).1.mono ?_
    rintro effect rfl other hother
    cases hother
    exact ⟨file, hfile⟩

theorem deleteInFile_known (hs : s.pool.Sound) {table : TableId} {place : Option RecordId}
    {r : Except Error Unit} (h : s.deleteInFile catalog tid table place = (r, s')) :
    Steps catalog catalog.writesKnown s s' := by
  obtain ⟨e, -, -, rfl⟩ | ⟨file, r₁, hfile, hdel, -⟩ := deleteInFile_cases h
  · exact .refl
  · refine (hdel.steps hs ?_).1
    -- a place in another table is refused before anything is done
    rintro p rfl hsame other hother
    cases hother
    exact ⟨file, by rw [hsame, Catalog.id_of_file hfile, hfile]⟩

/-- A table of a changed page has a changed page. -/
theorem isChanged_of_find? {id : PageId} {frame : Frame} (hfind : s.pool.find? id = some frame)
    (hdirty : frame.page.dirty = true) : s.isChanged id.table = true := by
  unfold isChanged
  rw [List.any_eq_true]
  exact ⟨(id, frame), Assoc.mem_of_find? hfind, by simpa using hdirty⟩

/-- Changed pages stay with known tables when a table is added that displaces no changed one. -/
theorem ChangesKnown.add {c c' : Catalog} {new : TableEntry} (hk : ChangesKnown c s)
    (hadd : c.add new = .ok c')
    (hspares : ∀ table ∈ (Addition.mk c new).displaced, s.isChanged table = false) :
    ChangesKnown c' s := by
  intro id frame hfind hdirty
  rcases Catalog.known_add hadd (hk id frame hfind hdirty) with hmem | hknown
  · have hclean := hspares id.table hmem
    rw [isChanged_of_find? hfind hdirty] at hclean
    cases hclean
  · exact hknown

/-! ## What succeeds then -/

theorem ChangesKnown.not_stuck (hk : ChangesKnown catalog s) (victim : PageId) (cause : Error) :
    ¬ Stuck catalog s victim cause := by
  rintro ⟨frame, hfind, hdirty, hlost⟩
  obtain ⟨h, hfile⟩ := hk victim frame hfind hdirty
  rw [hfile] at hlost
  cases hlost

/-- An operation fails for plain reasons only. -/
theorem Failed.isPlain (h : Failed catalog s e) (hs : s.pool.Sound)
    (hk : ChangesKnown catalog s) : e.isPlain = true := by
  rcases h with hplain | ⟨s', victim, cause, hsteps, hstuck, -⟩
  · exact hplain
  · exact absurd hstuck ((hsteps.changesKnown hs hk).not_stuck victim cause)

theorem ChangesKnown.flushPage (hk : ChangesKnown catalog s) (hs : s.pool.Sound) {id : PageId}
    {r : Except Error Unit} (hflush : s.flushPage catalog id = (r, s')) : r = .ok () := by
  obtain ⟨hok, -⟩ | ⟨frame, hfind, hdirty, ⟨e, hlost, -⟩ | ⟨h, files, -, -, hok, -⟩⟩ :=
    flushPage_cases hflush
  · exact hok
  · rw [hs.own_id hfind] at hlost
    exact absurd ⟨frame, hfind, hdirty, hlost⟩ (hk.not_stuck id e)
  · exact hok

/-- Every changed page can be written back. -/
theorem ChangesKnown.flushEach (hk : ChangesKnown catalog s) (hs : s.pool.Sound)
    {ids : List PageId} {r : Except Error Unit} (hflush : s.flushEach catalog ids = (r, s')) :
    r = .ok () := by
  induction ids generalizing s with
  | nil =>
    cases hflush
    rfl
  | cons id ids ih =>
    unfold Storage.flushEach at hflush
    rcases hfirst : s.flushPage catalog id with ⟨result, s₁⟩
    have hsteps : Steps catalog catalog.writesKnown s s₁ := flushPage_steps hfirst
    obtain rfl := hk.flushPage hs hfirst
    rw [hfirst] at hflush
    exact ih (hsteps.changesKnown hs hk) (hsteps.sound hs) hflush

end Storage

/-! ## Requests -/

namespace Database

open Storage

variable {db : Database}

/-- The catalog after a request that spares changed tables knows the tables of the pages that were
    changed before it. -/
theorem changesKnown_catalog {request : Request} (hspares : request.Spares db)
    (hk : ChangesKnown db.catalog db.storage) :
    ChangesKnown (db.perform request).2.catalog db.storage := by
  refine catalog_induction (P := (ChangesKnown · db.storage)) ?_ ?_ hk
  · intro a ha c' hka hadd
    refine hka.add hadd fun table htable => hspares table ?_
    cases request with
    | clearCatalog => exact absurd ha List.not_mem_nil
    | _ => exact List.mem_flatMap.mpr ⟨a, ha, htable⟩
  · rintro rfl id frame hfind hdirty
    obtain ⟨old, hmem, hid⟩ := Catalog.known_iff.mp (hk id frame hfind hdirty)
    have hclean := hspares id.table (hid ▸ List.mem_map_of_mem hmem)
    rw [isChanged_of_find? hfind hdirty] at hclean
    cases hclean

/-- **What a request keeps.**  If it displaces no changed table, changed pages still belong to known
    tables. -/
theorem perform_changesKnown (hdb : db.storage.pool.Sound) {request : Request}
    (hspares : request.Spares db) (hk : ChangesKnown db.catalog db.storage) :
    ChangesKnown (db.perform request).2.catalog (db.perform request).2.storage := by
  have hcatalog := changesKnown_catalog hspares hk
  -- a request changes the catalog and touches no page, or the other way round
  have hadds : (db.perform request).2.storage.pool = db.storage.pool →
      ChangesKnown (db.perform request).2.catalog (db.perform request).2.storage := by
    intro hpool id frame hfind
    rw [hpool] at hfind
    exact hcatalog id frame hfind
  cases request with
  | task asked =>
    cases asked with
    | createTable name schema => exact hadds (addFile_pool db ..)
    | insertRow tid table row => exact (insertRow_known hdb (Prod.eta _).symm).changesKnown hdb hk
    | deleteRow tid place => exact (deleteRow_known hdb (Prod.eta _).symm).changesKnown hdb hk
    | getPage id => exact (getPage_steps hdb (Prod.eta _).symm).changesKnown hdb hk
    | flushPage id => exact (flushPage_steps (Prod.eta _).symm).changesKnown hdb hk
    | flushPages tid => exact (flushEach_steps (Prod.eta _).symm).changesKnown hdb hk
    | flushAll => exact (flushEach_steps (Prod.eta _).symm).changesKnown hdb hk
    | scan table => exact (scanRows_steps hdb (Prod.eta _).symm).changesKnown hdb hk
  | addFile file name primaryKey schema pageSize => exact hadds (addFile_pool db ..)
  | loadSchema name => exact hadds rfl
  | clearCatalog => exact hadds rfl
  | discard id =>
    intro x f hf hdirty
    have hleft : (db.storage.pool.discard id).find? x = some f := hf
    rw [Pool.find?_discard] at hleft
    split at hleft
    · cases hleft
    · exact hk x f hleft hdirty
  | insertInFile tid table row =>
    exact (insertInFile_known hdb (Prod.eta _).symm).changesKnown hdb hk
  | deleteInFile tid table place =>
    exact (deleteInFile_known hdb (Prod.eta _).symm).changesKnown hdb hk

/-- **No change is orphaned** by a run that takes no table with a changed page out of the catalog:
    it does not clear the catalog over changed pages, and no table that it adds takes the name of a
    changed one in another file.  In every store on the way every changed page belongs to a known
    table.  So all pages can be written back, one at a time, by transaction or all of them, and no
    request is refused because a page cannot leave. -/
theorem flushes_succeed {files files' : Files} {directory : String} {config : Config}
    (hopen : create files directory config = (.ok db, files')) (requests : List Request)
    (hspares : db.Spares requests) :
    ∀ d ∈ db.states requests,
      (∀ id frame, d.storage.pool.find? id = some frame → frame.page.dirty = true →
        ∃ h, d.catalog.file id.table = .ok h) ∧
      (d.perform (.task .flushAll)).1 = .ok .done ∧
      (∀ id, (d.perform (.task (.flushPage id))).1 = .ok .done) ∧
      (∀ tid, (d.perform (.task (.flushPages tid))).1 = .ok .done) ∧
      ∀ request victim cause, (d.perform request).1 ≠ .error (.eviction victim cause) := by
  intro d hd
  have hdb := (sound_of_create hopen []).1
  have hempty : ChangesKnown db.catalog db.storage := by
    obtain ⟨-, -, -, rfl⟩ := create_cases hopen
    intro id frame hfind
    cases hfind
  obtain ⟨hsound, hk⟩ := states_induction
    (P := fun d => d.storage.pool.Sound ∧ ChangesKnown d.catalog d.storage)
    (fun d request hone hd => ⟨(perform_steps hd.1 request).sound hd.1,
      perform_changesKnown hd.1 hone hd.2⟩) hspares ⟨hdb, hempty⟩ d hd
  have hdone : ∀ result : Except Error Unit, result = .ok () →
      result.map (fun _ => Outcome.done) = .ok .done := by
    rintro result rfl
    rfl
  refine ⟨hk, ?_, ?_, ?_, ?_⟩
  · exact hdone _ (hk.flushEach hsound (Prod.eta _).symm)
  · exact fun id => hdone _ (hk.flushPage hsound (Prod.eta _).symm)
  · exact fun tid => hdone _ (hk.flushEach hsound (Prod.eta _).symm)
  · intro request victim cause herror
    have hplain := (failed_perform hsound herror).isPlain hsound hk
    cases hplain

/-- A table that was written back may lose its name; the table that takes it can be filled, also
    when the one page in memory has to leave for it. -/
theorem flushes_succeed_after_takeover :
    let schema := Schema.single "n" .int
    let a := tableIdOf ["d", "a.dat"]
    let b := tableIdOf ["d", "b.dat"]
    let requests : List Request :=
      [.task (.createTable "a" schema), .task (.insertRow ⟨0⟩ a ⟨schema, [.int 1], none⟩),
       .task .flushAll, .addFile "/d/b.dat" "a" "" schema 64,
       .task (.insertRow ⟨0⟩ b ⟨schema, [.int 2], none⟩),
       .task (.createTable "c" schema), .task (.scan b)]
    ∃ db files', create Files.empty "/d" ⟨64, 1⟩ = (.ok db, files') ∧ db.Spares requests ∧
      (db.after requests).catalog.tableIds = [b, tableIdOf ["d", "c.dat"]] ∧
      (db.after requests).storage.isChanged b = true ∧
      ((db.after requests).perform (.task .flushAll)).1 = .ok .done ∧
      ∀ d ∈ db.states requests, ∀ request victim cause,
        (d.perform request).1 ≠ .error (.eviction victim cause) := by
  intro schema a b requests
  let db : Database := ⟨"/d", ⟨64, 1⟩, Catalog.empty, ⟨⟨[], [["d"]], []⟩, Pool.empty ⟨64, 1⟩⟩⟩
  have hopen : create Files.empty "/d" ⟨64, 1⟩ = (.ok db, ⟨[], [["d"]], []⟩) := rfl
  have hspares : db.Spares requests := by decide +kernel
  have hall := flushes_succeed hopen requests hspares
  have hlast := after_mem_states db requests
  refine ⟨db, _, hopen, hspares, by decide +kernel, by decide +kernel, ?_, ?_⟩
  · exact (hall _ hlast).2.1
  · exact fun d hd => (hall d hd).2.2.2.2

/-- A table that takes the name of another one leaves its changed page behind: it cannot be written
    back, and in a store for one page no other page can come in.  Nothing was cleared, and all
    files have numbers of their own. -/
theorem flush_fails_after_takeover :
    let schema := Schema.single "n" .int
    let a := tableIdOf ["d", "a.dat"]
    let b := tableIdOf ["d", "b.dat"]
    let requests : List Request :=
      [.task (.createTable "a" schema), .task (.insertRow ⟨0⟩ a ⟨schema, [.int 1], none⟩),
       .addFile "/d/b.dat" "a" "" schema 64]
    ∃ db files', create Files.empty "/d" ⟨64, 1⟩ = (.ok db, files') ∧
      (∀ request ∈ requests, request ≠ .clearCatalog) ∧
      (db.after requests).storage.files.DistinctIds ∧
      (db.after requests).storage.isChanged a = true ∧
      (db.after requests).catalog.tableIds = [b] ∧
      ((db.after requests).perform (.task .flushAll)).1 = .error (.missing (.table a)) ∧
      ((db.after requests).perform (.task (.flushPage ⟨a, 0⟩))).1 = .error (.missing (.table a)) ∧
      ((db.after requests).perform (.task (.flushPages ⟨0⟩))).1 = .error (.missing (.table a)) ∧
      ((db.after requests).perform (.task (.insertRow ⟨0⟩ b ⟨schema, [.int 2], none⟩))).1 =
        .error (.eviction ⟨a, 0⟩ (.missing (.table a))) := by
  intro schema a b requests
  refine ⟨⟨"/d", ⟨64, 1⟩, Catalog.empty, ⟨⟨[], [["d"]], []⟩, Pool.empty ⟨64, 1⟩⟩⟩, _, rfl, ?_,
    by decide +kernel, by decide +kernel, by decide +kernel, by decide +kernel, by decide +kernel,
    by decide +kernel, by decide +kernel⟩
  intro request hmem
  simp only [requests, List.mem_cons, List.not_mem_nil, or_false] at hmem
  rcases hmem with rfl | rfl | rfl <;> exact Request.noConfusion

end Database

end RowStore
