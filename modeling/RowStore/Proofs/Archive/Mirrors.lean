import RowStore.Proofs.Archive.Holds
import RowStore.Proofs.Catalog
import RowStore.Proofs.Requests.Steps
import RowStore.Proofs.Storage.Tree

/-!
A store and an archive answer alike.

1. `a.Mirrors db`: the archive `a` has the tables of the store `db`, and each of them is, page by
   page, what memory and file of the store hold together.
2. Every task has the same answer in both, and keeps them alike (`Mirrors.performTask`); so every
   run of tasks has the same answers (`Mirrors.answers`, `Mirrors.after`).
3. A store that was just opened is mirrored by an archive in which no table was opened
   (`mirrors_of_create`).

The capacity of the store occurs nowhere in the archive, so no answer depends on it.
-/

namespace RowStore

open Storage

/-- An archive has the tables that a store holds. -/
structure Archive.Mirrors (a : Archive PagedTable) (db : Database) : Prop where
  directory : a.directory = db.directory
  pageSize : a.pageSize = db.config.pageSize
  /-- Pool and queue agree. -/
  sound : db.storage.pool.Sound
  /-- Every page in memory belongs to a known table. -/
  attended : Attended db.catalog db.storage
  /-- Every known table has a file. -/
  filed : db.catalog.Filed db.storage.files
  /-- Names lead to the same paths. -/
  shape : Files.SameShape a.files db.storage.files
  /-- A known table is held. -/
  table : ∀ id h, db.catalog.file id = .ok h →
    h.pageSize = db.config.pageSize ∧ ∃ t, Assoc.find? id a.tables = some t ∧ h.Holds t db.storage
  /-- No other table was opened. -/
  unknown : ∀ id e, db.catalog.file id = .error e → Assoc.find? id a.tables = none
  /-- A file that is no table has the bytes that it had. -/
  untouched : ∀ p, (∀ id h, db.catalog.file id = .ok h → h.path ≠ p) →
    db.storage.files.content p = a.files.content p
  /-- No table is listed twice. -/
  ids : (db.catalog.entries.map Catalog.entryId).Nodup
  /-- Every table is where its name leads. -/
  names : ∀ e ∈ db.catalog.entries,
    db.storage.files.pathOf (Catalog.fileName db.directory e.name) = .ok e.file.path

namespace Archive

variable {a : Archive PagedTable} {db : Database} {may : Effect → Prop} {s : Storage} {id : TableId}
  {h : HeapFile} {t : PagedTable}

namespace Mirrors

/-- A run that makes no file keeps a store and an archive alike, if the tables that it writes are
    in the archive what they are in the store. -/
theorem of_steps (hm : a.Mirrors db) (hsteps : Steps db.catalog may db.storage s)
    (hno : ¬ may .make) {tables : List (TableId × PagedTable)}
    (hwritten : ∀ h, may (.write h.id) → db.catalog.file h.id = .ok h →
      ∃ t, Assoc.find? h.id tables = some t ∧ h.Holds t s)
    (hothers : ∀ id, ¬ may (.write id) → Assoc.find? id tables = Assoc.find? id a.tables)
    (hunknown : ∀ id e, db.catalog.file id = .error e → Assoc.find? id tables = none) :
    ({ a with tables := tables } : Archive PagedTable).Mirrors { db with storage := s } where
  directory := hm.directory
  pageSize := hm.pageSize
  sound := hsteps.sound hm.sound
  attended := hsteps.attended hm.sound hm.attended
  filed := fun id h hfile =>
    (hsteps.grown hm.sound).isSome_content? h.path (hm.filed id h hfile)
  shape := hm.shape.trans (hsteps.sameShape hm.sound hno hm.filed)
  table := fun id h hfile => by
    obtain ⟨hsize, t, ht, hh⟩ := hm.table id h hfile
    obtain rfl := Catalog.id_of_file hfile
    refine ⟨hsize, ?_⟩
    by_cases hmay : may (.write h.id)
    · exact hwritten h hmay hfile
    · have honly : ∀ g, db.catalog.file h.id = .ok g → g = h := fun g => Catalog.eq_of_file hfile
      exact ⟨t, (hothers h.id hmay).trans ht, hh.steps hm.sound honly hmay hsteps⟩
  unknown := hunknown
  untouched := fun p hp => (hsteps.content hm.sound hp).trans (hm.untouched p hp)
  ids := hm.ids
  names := fun e he =>
    (Files.pathOf_congr (hsteps.sameShape hm.sound hno hm.filed) _).trans (hm.names e he)

/-- Reading and writing back keep a store and an archive alike. -/
theorem of_quiet (hm : a.Mirrors db) (hquiet : Quiet db.catalog db.storage s) :
    a.Mirrors { db with storage := s } :=
  hm.of_steps hquiet id (fun _ hmay => hmay.elim) (fun _ _ => rfl) hm.unknown

/-- A table that is written keeps a store and an archive alike, if it is written in both. -/
theorem of_write (hm : a.Mirrors db) (hfile : db.catalog.file id = .ok h)
    (hsteps : Steps db.catalog (· = .write id) db.storage s) (hh : h.Holds t s) :
    (a.putTable id t).Mirrors { db with storage := s } := by
  refine hm.of_steps hsteps (fun he => by cases he) ?_ ?_ ?_
  · intro g hid hg
    cases hid
    rw [hfile] at hg
    cases hg
    exact ⟨t, by rw [Assoc.find?_put, if_pos rfl], hh⟩
  · intro id' hid
    rw [Assoc.find?_put, if_neg]
    rintro rfl
    exact hid rfl
  · intro id' e he
    rw [Assoc.find?_put, if_neg]
    · exact hm.unknown id' e he
    · rintro rfl
      rw [hfile] at he
      cases he

/-- A write that was refused keeps a store and an archive alike. -/
theorem of_refusal (hm : a.Mirrors db) (hfile : db.catalog.file id = .ok h)
    (hsteps : Steps db.catalog (· = .write id) db.storage s)
    (hfind : Assoc.find? id a.tables = some t) (hh : h.Holds t s) :
    a.Mirrors { db with storage := s } := by
  refine hm.of_steps hsteps (fun he => by cases he) ?_ (fun _ _ => rfl) hm.unknown
  intro g hid hg
  cases hid
  rw [hfile] at hg
  cases hg
  exact ⟨t, hfind, hh⟩

/-! ## Storing and deleting -/

theorem insertRow (hm : a.Mirrors db) {tid : TransactionId} {row : Row} (hrow : row.Conforms) :
    (db.performTask (.insertRow tid id row)).1 = (a.insertRow id row).1 ∧
      (a.insertRow id row).2.Mirrors (db.performTask (.insertRow tid id row)).2 := by
  rcases hrun : db.storage.insertRow db.catalog tid id row with ⟨r, s⟩
  have hperform : db.performTask (.insertRow tid id row) =
      (r.map .row, { db with storage := s }) := by
    simp only [Database.performTask, Database.run, Answer.of, hrun]
  have hsteps := insertRow_steps hm.sound hrun
  rw [hperform]
  obtain ⟨e, hfile, rfl, rfl⟩ | ⟨h, hfile, hcases⟩ := insertRow_cases hm.sound hrun
  · rw [insertRow_of_missing (table_of_none (hm.unknown id e hfile)),
      Catalog.error_of_file hfile]
    exact ⟨rfl, hm⟩
  obtain ⟨hsize, t, hfind, hh⟩ := hm.table id h hfile
  obtain rfl := Catalog.id_of_file hfile
  rw [← hm.pageSize] at hsize
  obtain ⟨e, hins, rfl⟩ | ⟨row', frame, s₁, hins, rfl, hin, rfl⟩ := hcases
  · obtain ⟨e', hinsert, he, hh'⟩ | ⟨_, _, _, _, hr, _⟩ :=
      hh.insertRow hm.sound hm.attended hfile hrow hins
    · cases he
      rw [hsize] at hinsert
      rw [insertRow_of_error (table_of_some hfind) hinsert]
      exact ⟨rfl, hm.of_refusal hfile hsteps hfind hh'⟩
    · cases hr
  · obtain ⟨_, _, hr, _⟩ | ⟨row'', t', frame', hinsert, hr, hh'⟩ :=
      hh.insertRow hm.sound hm.attended hfile hrow hins
    · cases hr
    · cases hr
      rw [hsize] at hinsert
      rw [insertRow_of_ok (table_of_some hfind) hinsert]
      refine ⟨rfl, hm.of_write hfile hsteps ?_⟩
      have hs₁ := (hins.steps hm.sound hfile).1.sound hm.sound
      exact hh'.requeue hs₁ hin

theorem deleteRow (hm : a.Mirrors db) {tid : TransactionId} {place : Option RecordId} :
    (db.performTask (.deleteRow tid place)).1 = (a.deleteRow place).1 ∧
      (a.deleteRow place).2.Mirrors (db.performTask (.deleteRow tid place)).2 := by
  rcases hrun : db.storage.deleteRow db.catalog tid place with ⟨r, s⟩
  have hperform : db.performTask (.deleteRow tid place) =
      (r.map fun _ => .done, { db with storage := s }) := by
    simp only [Database.performTask, Database.run, Answer.of, hrun]
  rw [hperform]
  obtain ⟨rfl, rfl, rfl⟩ | ⟨place, rfl, hcases⟩ := deleteRow_cases hm.sound hrun
  · exact ⟨rfl, hm⟩
  have hsteps : Steps db.catalog (· = .write place.page.table) db.storage s := by
    refine deleteRow_steps hm.sound ?_ hrun
    intro p hp
    cases hp
    rfl
  obtain ⟨e, hfile, rfl, rfl⟩ | ⟨h, hfile, hcases⟩ := hcases
  · rw [deleteRow_of_missing (table_of_none (hm.unknown _ e hfile)),
      Catalog.error_of_file hfile]
    exact ⟨rfl, hm⟩
  obtain ⟨-, t, hfind, hh⟩ := hm.table _ h hfile
  have hplace := Catalog.id_of_file hfile
  have hfile' : db.catalog.file h.id = .ok h := hplace.symm ▸ hfile
  obtain ⟨e, hdel, rfl⟩ | ⟨frame, s₁, hdel, rfl, hin, rfl⟩ := hcases
  · obtain ⟨e', hdelete, he, hh'⟩ | ⟨_, _, _, hr, _⟩ :=
      hh.deleteRow hm.sound hm.attended hfile' hplace.symm hdel
    · cases he
      rw [deleteRow_of_error (table_of_some hfind) hdelete]
      exact ⟨rfl, hm.of_refusal hfile hsteps hfind hh'⟩
    · cases hr
  · obtain ⟨_, _, hr, _⟩ | ⟨t', frame', hdelete, hr, hh'⟩ :=
      hh.deleteRow hm.sound hm.attended hfile' hplace.symm hdel
    · cases hr
    · cases hr
      rw [deleteRow_of_ok (table_of_some hfind) hdelete]
      refine ⟨rfl, hm.of_write hfile hsteps ?_⟩
      have hdel' : Steps db.catalog (fun _ => True) db.storage s₁ ∧ _ :=
        hdel.steps hm.sound fun _ _ _ => trivial
      exact hh'.requeue (hdel'.1.sound hm.sound) hin

/-! ## Reading and writing back -/

theorem getPage (hm : a.Mirrors db) (id : PageId) :
    (db.performTask (.getPage id)).1 = (a.performTask (.getPage id)).1 ∧
      a.Mirrors (db.performTask (.getPage id)).2 := by
  rcases hrun : db.storage.getPage db.catalog id with ⟨r, s⟩
  have hperform : db.performTask (.getPage id) =
      (r.map fun frame => .rows frame.page.rows, { db with storage := s }) := by
    simp only [Database.performTask, Database.run, Answer.of, hrun]
  rw [hperform]
  refine ⟨?_, hm.of_quiet (getPage_steps hm.sound hrun)⟩
  show r.map _ = (a.table id.table).bind fun t => ((t.page id).map Page.rows).map Outcome.rows
  cases hfile : db.catalog.file id.table with
  | error e =>
    rw [getPage_of_unknown hm.sound hm.attended hfile hrun,
      table_of_none (hm.unknown _ e hfile), Catalog.error_of_file hfile]
    rfl
  | ok h =>
    obtain ⟨-, t, hfind, hh⟩ := hm.table _ h hfile
    obtain ⟨table, n⟩ := id
    obtain rfl : h.id = table := Catalog.id_of_file hfile
    rw [table_of_some hfind]
    show _ = ((t.page ⟨h.id, n⟩).map Page.rows).map Outcome.rows
    unfold PagedTable.page
    obtain ⟨frame, rfl, hpage⟩ | ⟨hnone, rfl⟩ := hh.getPage hm.sound hm.attended hfile hrun
    · rw [hpage]
      rfl
    · rw [hnone]
      rfl

theorem flushEach (hm : a.Mirrors db) (ids : List PageId) :
    (db.storage.flushEach db.catalog ids).1 = .ok () ∧
      a.Mirrors { db with storage := (db.storage.flushEach db.catalog ids).2 } := by
  have hrun : db.storage.flushEach db.catalog ids = (_, _) := (Prod.eta _).symm
  exact ⟨flushEach_of_attended hm.sound hm.attended hrun, hm.of_quiet (flushEach_steps hrun)⟩

theorem scan (hm : a.Mirrors db) (id : TableId) :
    (db.performTask (.scan id)).1 = (a.performTask (.scan id)).1 ∧
      a.Mirrors (db.performTask (.scan id)).2 := by
  rcases hrun : db.storage.scanRows db.catalog id with ⟨r, s⟩
  have hperform : db.performTask (.scan id) = (r.map .rows, { db with storage := s }) := by
    simp only [Database.performTask, Database.run, Answer.of, hrun]
  rw [hperform]
  refine ⟨?_, hm.of_quiet (scanRows_steps hm.sound hrun)⟩
  show r.map _ = (a.table id).map fun t => Outcome.rows t.rows
  cases hfile : db.catalog.file id with
  | error e =>
    rw [scanRows_eq, hfile] at hrun
    cases hrun
    rw [table_of_none (hm.unknown _ e hfile), Catalog.error_of_file hfile]
    rfl
  | ok h =>
    obtain ⟨-, t, hfind, hh⟩ := hm.table _ h hfile
    obtain rfl := Catalog.id_of_file hfile
    rw [table_of_some hfind, hh.scanRows hm.sound hm.attended hfile hrun]
    rfl

end Mirrors

end Archive

end RowStore
