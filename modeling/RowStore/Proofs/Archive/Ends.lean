import RowStore.Proofs.Archive.Holds
import RowStore.Proofs.Archive.Places
import RowStore.Proofs.Requests.Steps
import RowStore.Proofs.Storage.Unfit

/-!
How storing and deleting a row end, whatever else is in memory.

Program.  A row is stored or deleted on a page in memory.  To take this page into memory another one may
have to leave, and it cannot if it was changed and the catalog does not know its table any more.

1. `h.Displays t s`: the table of heap file `h` is the table `t` of an archive, or its rows do not fit on
   a page and `t` has no page.
2. A row that is stored in such a table is stored in `t` as well.  If it is not stored, the table has the
   rows that it had (`Displays.insertRow`).  The same holds of deleting (`Displays.deleteRow`).
3. So a live row stays live at its place until it is deleted there (`Displays.performTask`).
-/

namespace RowStore

open Storage

/-! ## Rows and their places -/

namespace Page

variable {p p' : Page} {row : Row}

/-- The rows of a page are what its slots hold, each with its place. -/
theorem mem_rows_iff :
    row ∈ p.rows ↔ ∃ i values, p.contents[i]? = some (some values) ∧
      row = ⟨p.schema, values, some ⟨p.id, i⟩⟩ := by
  rw [rows_eq_liveRows, liveRows, List.mem_filterMap]
  constructor
  · rintro ⟨⟨found, i⟩, hmem, hrow⟩
    obtain ⟨values, rfl, rfl⟩ := Option.map_eq_some_iff.mp hrow
    exact ⟨i, values, List.mem_zipIdx_iff_getElem?.mp hmem, rfl⟩
  · rintro ⟨i, values, hget, rfl⟩
    exact ⟨(some values, i), List.mem_zipIdx_iff_getElem?.mpr hget, rfl⟩

/-- Deleting a row leaves the others where they are. -/
theorem mem_rows_of_delete {place : RecordId} (hdel : p.delete (some place) = .ok p')
    (hrow : row ∈ p.rows) (hother : row.place ≠ some place) : row ∈ p'.rows := by
  obtain ⟨hid, hschema, -⟩ := delete_keeps hdel
  have hpage : place.page = p.id := by
    by_contra hne
    unfold delete at hdel
    simp only [if_pos hne] at hdel
    cases hdel
  obtain ⟨-, -, p₁, hok, hset⟩ | ⟨-, herror⟩ := delete_eq hpage
  · cases hdel.symm.trans hok
    obtain ⟨i, values, hget, rfl⟩ := mem_rows_iff.mp hrow
    refine mem_rows_iff.mpr ⟨i, values, ?_, by rw [hid, hschema]⟩
    have hslot : place.slot ≠ i := by
      rintro rfl
      exact hother (by rw [← hpage])
    rw [hset, List.getElem?_set_ne hslot, hget]
  · cases hdel.symm.trans herror

end Page

namespace PagedTable

variable {t t' : PagedTable} {id : TableId} {pageSize : Nat} {place : RecordId} {row : Row}

theorem mem_rows_iff : row ∈ t.rows ↔ ∃ (n : Nat) (p : Page), t.pages[n]? = some p ∧ row ∈ p.rows := by
  rw [rows, List.mem_flatMap]
  constructor
  · rintro ⟨p, hp, hrow⟩
    obtain ⟨n, hn⟩ := List.getElem?_of_mem hp
    exact ⟨n, p, hn, hrow⟩
  · rintro ⟨n, p, hn, hrow⟩
    exact ⟨p, List.mem_of_getElem? hn, hrow⟩

/-- A row is on the page that its place names. -/
theorem Regular.page_of_mem_rows (hr : t.Regular id pageSize) (hrow : row ∈ t.rows) :
    ∃ n slot p, row.place = some ⟨⟨id, n⟩, slot⟩ ∧ t.pages[n]? = some p ∧ row ∈ p.rows := by
  obtain ⟨n, p, hn, hrow⟩ := mem_rows_iff.mp hrow
  obtain ⟨slot, values, -, rfl⟩ := Page.mem_rows_iff.mp hrow
  exact ⟨n, slot, p, by rw [hr.pageId n p hn], hn, hrow⟩

theorem mem_rows_of_delete (hdel : t.delete place = .ok t') (hrow : row ∈ t.rows)
    (hother : row.place ≠ some place) : row ∈ t'.rows := by
  obtain ⟨n, p, hn, hrow⟩ := mem_rows_iff.mp hrow
  cases hpage : t.pages[place.page.number]? with
  | none =>
    rw [delete_of_none hpage] at hdel
    cases hdel
  | some old =>
    rw [delete_of_some hpage] at hdel
    cases hok : old.delete (some place) with
    | error e =>
      rw [hok] at hdel
      cases hdel
    | ok page =>
      rw [hok] at hdel
      cases hdel
      by_cases hnumber : place.page.number = n
      · obtain rfl : old = p := Option.some.inj (hpage.symm.trans (hnumber ▸ hn))
        obtain ⟨hlt, -⟩ := List.getElem?_eq_some_iff.mp hpage
        refine mem_rows_iff.mpr ⟨place.page.number, page.clean, ?_, ?_⟩
        · exact List.getElem?_set_self hlt
        · show row ∈ page.rows
          exact Page.mem_rows_of_delete hok hrow hother
      · exact mem_rows_iff.mpr ⟨n, p, (List.getElem?_set_ne hnumber).trans hn, hrow⟩

/-- A row is only refused because its page is not there or it is not there itself. -/
theorem Regular.error_of_delete (hr : t.Regular id pageSize) (hplace : place.page.table = id) {e : Error}
    (hdel : t.delete place = .error e) :
    e = .missing (.page place.page t.pages.length) ∨ e = .missing (.liveRow place) := by
  cases hpage : t.pages[place.page.number]? with
  | none =>
    rw [delete_of_none hpage] at hdel
    cases hdel
    exact Or.inl rfl
  | some old =>
    have hid : place.page = old.id := by
      rw [hr.pageId _ old hpage, ← hplace]
    rw [delete_of_some hpage] at hdel
    obtain ⟨-, -, p, hok, -⟩ | ⟨-, herror⟩ := Page.delete_eq hid
    · rw [hok] at hdel
      cases hdel
    · rw [herror] at hdel
      cases hdel
      exact Or.inr rfl

end PagedTable

/-! ## Tables as they are now -/

/-- A table is what an archive has, or no page of it can be made and the archive has none. -/
def HeapFile.Displays (h : HeapFile) (t : PagedTable) (s : Storage) : Prop :=
  h.Holds t s ∨ (Unfit h s ∧ t.pages = [])

namespace HeapFile.Displays

variable {h : HeapFile} {t : PagedTable} {catalog : Catalog} {may : Effect → Prop}
  {tid : TransactionId} {row : Row} {s s' : Storage}

/-- Steps that do not write the table leave it what it is. -/
theorem steps (hd : h.Displays t s) (hs : s.pool.Sound)
    (honly : ∀ g, catalog.file h.id = .ok g → g = h) (hno : ¬ may (.write h.id))
    (hsteps : Steps catalog may s s') : h.Displays t s' := by
  rcases hd with hh | ⟨hu, hnone⟩
  · exact Or.inl (hh.steps hs honly hno hsteps)
  · exact Or.inr ⟨(hsteps.unfit hu hs honly).1, hnone⟩

theorem quiet (hd : h.Displays t s) (hs : s.pool.Sound) (hfile : catalog.file h.id = .ok h)
    (hquiet : Quiet catalog s s') : h.Displays t s' :=
  hd.steps hs (fun _ hg => Catalog.eq_of_file hfile hg) (fun hno => hno) hquiet

/-- Steps that do not write the table leave its file as long as it was. -/
theorem numPages_of_steps (hd : h.Displays t s) (hs : s.pool.Sound)
    (honly : ∀ g, catalog.file h.id = .ok g → g = h) (hno : ¬ may (.write h.id))
    (hsteps : Steps catalog may s s') : h.numPages s'.files = h.numPages s.files := by
  rcases hd with hh | ⟨hu, -⟩
  · exact ((hsteps.coherent_keeps hh.coherent hs honly).2 hno).numPages
  · exact HeapFile.numPages_congr (hsteps.unfit hu hs honly).2

/-- A page that is looked for is found as it is in the archive, unless there is none or another page
    stands in the way. -/
theorem getPage_ok (hd : h.Displays t s) (hs : s.pool.Sound) (hfile : catalog.file h.id = .ok h)
    {n : Nat} {frame : Frame} (hget : s.getPage catalog ⟨h.id, n⟩ = (.ok frame, s')) :
    h.Holds t s ∧ t.pages[n]? = some frame.page.clean := by
  rcases hd with hh | ⟨hu, -⟩
  · exact ⟨hh, hh.getPage_ok hs hfile hget⟩
  · obtain ⟨e, hr⟩ := hu.getPage hs hfile hget
    cases hr

/-- **Storing a row.**  It is stored in the archive as well, or the table has the rows that it had.  A
    row of the right types that fits is only refused because some page stands in the way. -/
theorem insertRow (hd : h.Displays t s) (hs : s.pool.Sound) (hfile : catalog.file h.id = .ok h)
    (hrow : row.Conforms) {r : Except Error Row} (hins : s.insertRow catalog tid h.id row = (r, s')) :
    (∃ row' t', r = .ok row' ∧ h.Holds t s ∧ t.insert h.id h.pageSize row = .ok (row', t') ∧
      h.Holds t' s') ∨
    (∃ e t', r = .error e ∧ h.Displays t' s' ∧ t'.rows = t.rows ∧
      (h.Fits → row.schema.sameTypes h.schema = true → ∃ victim cause, e = .eviction victim cause)) := by
  have honly : ∀ g, catalog.file h.id = .ok g → g = h := fun g => Catalog.eq_of_file hfile
  obtain ⟨e, herror, -⟩ | ⟨g, hg, hcases⟩ := Storage.insertRow_cases hs hins
  · rw [hfile] at herror
    cases herror
  obtain rfl := Catalog.eq_of_file hfile hg
  obtain ⟨e, hinserted, rfl⟩ | ⟨row', frame, s₁, hinserted, rfl, hfind, rfl⟩ := hcases
  · right
    rcases hd with hh | ⟨hu, hnone⟩
    · obtain ⟨_, _, _, -, hr, -⟩ | ⟨htypes, -, rfl⟩ | ⟨t', -, victim, cause, hh', hrows, -, -, hr⟩ :=
        hh.insertRow_ends hs hfile hrow hinserted
      · cases hr
      · refine ⟨e, t, rfl, Or.inl hh, rfl, fun _ hsame => ?_⟩
        rw [htypes] at hsame
        cases hsame
      · cases hr
        exact ⟨_, t', rfl, Or.inl hh', hrows, fun _ _ => ⟨victim, cause, rfl⟩⟩
    · have hu' := ((hinserted.steps hs hfile).1.unfit hu hs honly).1
      exact ⟨e, t, rfl, Or.inr ⟨hu', hnone⟩, rfl, fun hfits => absurd hfits hu.unfit⟩
  · left
    rcases hd with hh | ⟨hu, -⟩
    · obtain ⟨t', hok, hh'⟩ := hh.insertRow_ok hs hfile hinserted
      have hs₁ : s₁.pool.Sound := (hinserted.steps hs hfile).1.sound hs
      exact ⟨row', t', rfl, hh, hok, hh'.requeue hs₁ hfind⟩
    · exact (hu.not_inserted hs hfile hinserted).elim

/-- **Deleting a row.**  It is deleted from the archive as well, or the table is what it was. -/
theorem deleteRow (hd : h.Displays t s) (hs : s.pool.Sound) (hfile : catalog.file h.id = .ok h)
    {place : RecordId} (hplace : place.page.table = h.id) {r : Except Error Unit}
    (hdel : s.deleteRow catalog tid (some place) = (r, s')) :
    (∃ t', r = .ok () ∧ h.Holds t s ∧ t.delete place = .ok t' ∧ h.Holds t' s') ∨
    (∃ e, r = .error e ∧ h.Displays t s' ∧
      (h.Fits → t.delete place = .error e ∨ ∃ victim cause, e = .eviction victim cause)) := by
  have honly : ∀ g, catalog.file h.id = .ok g → g = h := fun g => Catalog.eq_of_file hfile
  obtain ⟨hnone, -⟩ | ⟨found, hfound, hcases⟩ := Storage.deleteRow_cases hs hdel
  · cases hnone
  obtain rfl := Option.some.inj hfound
  obtain ⟨e, herror, -⟩ | ⟨g, hg, hcases⟩ := hcases
  · rw [hplace, hfile] at herror
    cases herror
  obtain rfl := Catalog.eq_of_file hfile (hplace ▸ hg)
  obtain ⟨e, hdeleted, rfl⟩ | ⟨frame, s₁, hdeleted, rfl, hfind, rfl⟩ := hcases
  · right
    rcases hd with hh | ⟨hu, hnone⟩
    · obtain ⟨_, _, -, hr, -⟩ | ⟨e', herror, hr, hh'⟩ | ⟨victim, cause, -, hr, hh'⟩ :=
        hh.deleteRow_ends hs hfile hplace hdeleted
      · cases hr
      · cases hr
        exact ⟨e, rfl, Or.inl hh', fun _ => Or.inl herror⟩
      · cases hr
        exact ⟨_, rfl, Or.inl hh', fun _ => Or.inr ⟨victim, cause, rfl⟩⟩
    · have hsteps : Steps catalog (fun _ => True) s s' := (hdeleted.steps hs fun _ _ _ => trivial).1
      exact ⟨e, rfl, Or.inr ⟨(hsteps.unfit hu hs honly).1, hnone⟩, fun hfits => absurd hfits hu.unfit⟩
  · left
    have hs₁ : s₁.pool.Sound := by
      have hsteps : Steps catalog (fun _ => True) s s₁ := (hdeleted.steps hs fun _ _ _ => trivial).1
      exact hsteps.sound hs
    rcases hd with hh | ⟨hu, -⟩
    · obtain ⟨t', _, hok, -, hh'⟩ | ⟨e, -, hr, -⟩ | ⟨victim, cause, -, hr, -⟩ :=
        hh.deleteRow_ends hs hfile hplace hdeleted
      · exact ⟨t', rfl, hh, hok, hh'.requeue hs₁ hfind⟩
      · cases hr
      · cases hr
    · -- no page of the table can be had
      obtain ⟨⟨table, n⟩, slot⟩ := place
      subst hplace
      cases hdeleted with
      | done _ hget _ =>
        obtain ⟨e, hr⟩ := hu.getPage hs hfile hget
        cases hr

/-- **A live row stays live** at its place while any task is done, unless the task deletes it there. -/
theorem performTask {db : Database} (hd : h.Displays t db.storage) (hs : db.storage.pool.Sound)
    (hfile : db.catalog.file h.id = .ok h) {task : Task}
    (hrow : ∀ tid table row, task = .insertRow tid table row → row.Conforms) :
    ∃ t', h.Displays t' (db.performTask task).2.storage ∧
      ∀ row ∈ t.rows, row ∈ t'.rows ∨ ∃ tid place, task = .deleteRow tid (some place) ∧
        row.place = some place ∧ (db.performTask task).1 = .ok .done := by
  have honly : ∀ g, db.catalog.file h.id = .ok g → g = h := fun g => Catalog.eq_of_file hfile
  by_cases hwrites : task.effects (.write h.id)
  case neg =>
    have hsteps : Steps db.catalog task.effects db.storage (db.performTask task).2.storage :=
      Database.perform_steps hs (.task task)
    exact ⟨t, hd.steps hs honly hwrites hsteps, fun _ hmem => Or.inl hmem⟩
  cases task with
  | insertRow tid table row =>
    obtain rfl : h.id = table := Effect.write.inj hwrites
    rcases hins : db.storage.insertRow db.catalog tid h.id row with ⟨r, s'⟩
    have hafter : (db.performTask (.insertRow tid h.id row)).2.storage = s' := by
      show (db.storage.insertRow db.catalog tid h.id row).2 = s'
      rw [hins]
    rw [hafter]
    have hconforms := hrow tid h.id row rfl
    obtain ⟨row', t', -, hh, hok, hh'⟩ | ⟨e, t', -, hd', hrows, -⟩ := hd.insertRow hs hfile hconforms hins
    · obtain ⟨-, place, hgains⟩ := (hh.regular hs).insert_ok hconforms hok
      exact ⟨t', Or.inl hh', fun _ hmem => Or.inl (hgains.rows.mem_iff.mpr (List.mem_append_left _ hmem))⟩
    · exact ⟨t', hd', fun _ hmem => Or.inl (hrows ▸ hmem)⟩
  | deleteRow tid found =>
    obtain ⟨place, rfl, hwrite⟩ := hwrites
    have hplace : place.page.table = h.id := (Effect.write.inj hwrite).symm
    rcases hdel : db.storage.deleteRow db.catalog tid (some place) with ⟨r, s'⟩
    have hafter : db.performTask (.deleteRow tid (some place)) =
        (r.map fun _ => .done, { db with storage := s' }) := by
      simp only [Database.performTask, Database.run, Answer.of, hdel]
    rw [hafter]
    obtain ⟨t', rfl, -, hok, hh'⟩ | ⟨e, -, hd', -⟩ := hd.deleteRow hs hfile hplace hdel
    · refine ⟨t', Or.inl hh', fun row hmem => ?_⟩
      by_cases hother : row.place = some place
      · exact Or.inr ⟨tid, place, rfl, hother, rfl⟩
      · exact Or.inl (PagedTable.mem_rows_of_delete hok hmem hother)
    · exact ⟨t, hd', fun _ hmem => Or.inl hmem⟩
  | createTable => cases hwrites
  | getPage | flushPage | flushPages | flushAll | scan => exact hwrites.elim

end HeapFile.Displays

end RowStore
