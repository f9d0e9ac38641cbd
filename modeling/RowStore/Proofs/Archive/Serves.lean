import RowStore.Proofs.Archive.Durable
import RowStore.Proofs.Cursor.Plans

/-!
Storage in which every known table is held.

Program.  A store that was just opened has no page in memory, and its catalog knows the tables of the
schema file; what is done with them then reads pages, changes them and writes them back.

1. `Serves catalog view s`: every page in memory belongs to a known table, and every known table is, page
   by page, what `view` says.  Reading keeps that (`Serves.quiet`), and writing a table changes the view
   of this table alone (`Serves.write`).
2. A fresh storage serves what the bytes of the files say (`serves_fresh`).  When all pages were written
   back, the bytes say again what is served (`Serves.flushed`).
3. A row that a table takes is stored: no page stands in the way (`Holds.store`).  A row that is there is
   deleted, or one does (`Holds.remove`).
4. As long as no page is marked, reading writes nothing (`Quiet.unmarked`).

Crux.  That a page stands in the way is the only failure that the tables do not explain, and it needs a
page of a table that the catalog does not know.
-/

namespace RowStore

open Storage

variable {h : HeapFile} {catalog : Catalog} {may : Effect → Prop} {tid : TransactionId}
  {t t' : PagedTable} {s s' : Storage}

/-! ## Storing and deleting -/

/-- A table takes every row of its types. -/
theorem PagedTable.Regular.insert_takes {id : TableId} {pageSize : Nat} (hr : t.Regular id pageSize)
    {row : Row} (hrow : row.Conforms) (htypes : row.schema.sameTypes t.schema = true) :
    ∃ row' t', t.insert id pageSize row = .ok (row', t') := by
  have hslots := hr.insert_slots hrow
  cases hins : t.insert id pageSize row with
  | ok result => exact ⟨result.1, result.2, rfl⟩
  | error e =>
    rw [hins] at hslots
    unfold SlotTable.insert at hslots
    rw [show t.slots.schema = t.schema from rfl, htypes] at hslots
    cases hleast : leastFree t.slots.pages <;> rw [hleast] at hslots <;> cases hslots

namespace HeapFile.Holds

/-- A row that the table takes is stored. -/
theorem store (hh : h.Holds t s) (hs : s.pool.Sound) (ha : Attended catalog s)
    (hfile : catalog.file h.id = .ok h) {row row' : Row} (hrow : row.Conforms)
    (htakes : t.insert h.id h.pageSize row = .ok (row', t')) :
    ∃ s', s.insertRow catalog tid h.id row = (.ok row', s') ∧ h.Holds t' s' := by
  rcases hrun : s.insertRow catalog tid h.id row with ⟨r, s'⟩
  obtain ⟨e, herror, -⟩ | ⟨g, hg, ⟨e, hins, -⟩ | ⟨placed, frame, s₁, hins, rfl, hin, rfl⟩⟩ :=
    Storage.insertRow_cases hs hrun
  · rw [hfile] at herror
    cases herror
  · obtain rfl := Catalog.eq_of_file hfile hg
    obtain ⟨e', hrefused, -⟩ | ⟨_, _, _, _, hr, -⟩ := hh.insertRow hs ha hfile hrow hins
    · rw [htakes] at hrefused
      cases hrefused
    · cases hr
  · obtain rfl := Catalog.eq_of_file hfile hg
    obtain ⟨e', -, hr, -⟩ | ⟨_, _, _, hins', hr, hh'⟩ := hh.insertRow hs ha hfile hrow hins
    · cases hr
    · rw [htakes] at hins'
      cases hins'
      cases hr
      exact ⟨_, rfl, hh'.requeue ((hins.steps hs hfile).1.sound hs) hin⟩

/-- A row that is there is deleted, unless a page stands in the way. -/
theorem remove (hh : h.Holds t s) (hs : s.pool.Sound) (hfile : catalog.file h.id = .ok h)
    (tid : TransactionId) {place : RecordId} (hplace : place.page.table = h.id) (htakes : t.delete place = .ok t') :
    (∃ s', s.deleteRow catalog tid (some place) = (.ok (), s') ∧ h.Holds t' s') ∨
    ∃ e s', s.deleteRow catalog tid (some place) = (.error e, s') ∧ Blocked catalog s e := by
  rcases hrun : s.deleteRow catalog tid (some place) with ⟨r, s'⟩
  obtain ⟨hnone, -⟩ | ⟨p, hp, ⟨e, herror, -⟩ | ⟨g, hg, ⟨e, hdel, rfl⟩ |
    ⟨frame, s₁, hdel, rfl, hin, rfl⟩⟩⟩ := Storage.deleteRow_cases hs hrun
  · cases hnone
  all_goals cases hp
  · rw [hplace, hfile] at herror
    cases herror
  · obtain rfl := Catalog.eq_of_file hfile (hplace ▸ hg)
    obtain ⟨_, _, -, hr, -⟩ | ⟨e', hrefused, -⟩ | ⟨victim, cause, hstuck, hr, -⟩ :=
      hh.deleteRow_ends hs hfile hplace hdel
    · cases hr
    · rw [htakes] at hrefused
      cases hrefused
    · cases hr
      exact Or.inr ⟨_, s', rfl, hstuck.blocked⟩
  · obtain rfl := Catalog.eq_of_file hfile (hplace ▸ hg)
    obtain ⟨_, _, hdel', hr, hh'⟩ | ⟨e', -, hr, -⟩ | ⟨victim, cause, -, hr, -⟩ :=
      hh.deleteRow_ends hs hfile hplace hdel
    · rw [htakes] at hdel'
      cases hdel'
      have hsteps : Steps catalog (fun _ => True) s s₁ ∧ _ := hdel.steps hs fun _ _ _ => trivial
      exact Or.inl ⟨_, rfl, hh'.requeue (hsteps.1.sound hs) hin⟩
    · cases hr
    · cases hr

end HeapFile.Holds

namespace Storage

/-! ## Pages that are not marked -/

/-- No page in memory was changed since it was read or written. -/
def Unmarked (s : Storage) : Prop :=
  ∀ id frame, s.pool.find? id = some frame → frame.page.dirty = false

theorem makeRoom_files (hs : s.pool.Sound) (hclean : s.Unmarked) {r : Except Error Unit}
    (hroom : s.makeRoom catalog = (r, s')) : s'.files = s.files := by
  obtain ⟨-, -, rfl⟩ | ⟨-, victim, rest, frame, -, hfind, ⟨e, hdirty, -⟩ | ⟨s₁, hflush, -, -, rfl⟩⟩ :=
    makeRoom_cases hs hroom
  · rfl
  · rw [hclean victim frame hfind] at hdirty
    cases hdirty
  · obtain ⟨-, rfl, -⟩ | ⟨f, hf, hdirty, -⟩ := flushPage_cases hflush
    · rfl
    · rw [hclean victim f hf] at hdirty
      cases hdirty

/-- One step of reading marks no page, and writes nothing if none is marked. -/
theorem Step.unmarked (hstep : Step catalog (fun _ => False) s s') (hs : s.pool.Sound)
    (hclean : s.Unmarked) : s'.Unmarked ∧ s'.files = s.files := by
  constructor
  · intro id frame hfind
    cases hstep.origin hs hfind with
    | kept hold hpage =>
      rcases hpage with hpage | hpage
      · rw [hpage]
        exact hclean id _ hold
      · rw [hpage]
        rfl
    | changed hmay _ _ _ => exact hmay.elim
    | loaded _ hread =>
      obtain ⟨g, hg, hread⟩ := file_of_readPage hread
      obtain ⟨table, n⟩ := id
      obtain rfl : g.id = table := Catalog.id_of_file hg
      obtain ⟨-, -, -, -, hpage⟩ := HeapFile.readPage_eq_ok hread
      rw [← hpage]
      rfl
  · cases hstep with
    | count => rfl
    | @flush id frame _ _ hfind hdirty _ _ =>
      rw [hclean id frame hfind] at hdirty
      cases hdirty
    | @load s₁ _ _ _ _ hroom =>
      show s₁.files = s.files
      exact makeRoom_files hs hclean hroom
    | requeue _ => rfl
    | change hmay _ _ _ _ => exact hmay.elim
    | grow hmay _ _ _ => exact hmay.elim
    | discard hmay => exact hmay.elim
    | create hmay _ => exact hmay.elim

/-- **Reading writes nothing.**  As long as no page is marked, the files stay as they are. -/
theorem Quiet.unmarked (hquiet : Quiet catalog s s') (hs : s.pool.Sound) (hclean : s.Unmarked) :
    s'.Unmarked ∧ s'.files = s.files := by
  induction hquiet with
  | refl => exact ⟨hclean, rfl⟩
  | tail hbefore hstep ih =>
    obtain ⟨hclean', hfiles⟩ := ih
    obtain ⟨hclean'', hfiles'⟩ := hstep.unmarked (Steps.sound hbefore hs) hclean'
    exact ⟨hclean'', hfiles'.trans hfiles⟩

/-! ## Serving the tables of a catalog -/

/-- Every known table is what `view` says, and no page belongs to another one. -/
structure Serves (catalog : Catalog) (view : TableId → PagedTable) (s : Storage) : Prop where
  /-- Pool and queue agree. -/
  sound : s.pool.Sound
  /-- Every page in memory belongs to a known table. -/
  attended : Attended catalog s
  /-- Every known table is held. -/
  held : ∀ id h, catalog.file id = .ok h → h.Holds (view id) s

namespace Serves

variable {view view' : TableId → PagedTable} {id : TableId}

/-- Steps that write some tables keep the others as they are. -/
theorem steps (hserves : Serves catalog view s) (hsteps : Steps catalog may s s')
    (hwritten : ∀ id h, catalog.file id = .ok h → may (.write id) → h.Holds (view' id) s')
    (hothers : ∀ id, ¬ may (.write id) → view' id = view id) : Serves catalog view' s' where
  sound := hsteps.sound hserves.sound
  attended := hsteps.attended hserves.sound hserves.attended
  held := by
    intro id h hfile
    by_cases hmay : may (.write id)
    · exact hwritten id h hfile hmay
    · have hh := hserves.held id h hfile
      obtain rfl := Catalog.id_of_file hfile
      have honly : ∀ g, catalog.file h.id = .ok g → g = h := fun g => Catalog.eq_of_file hfile
      rw [hothers h.id hmay]
      exact hh.steps hserves.sound honly hmay hsteps

theorem quiet (hserves : Serves catalog view s) (hquiet : Quiet catalog s s') :
    Serves catalog view s' :=
  hserves.steps hquiet (fun _ _ _ hno => hno.elim) fun _ _ => rfl

/-- A table that was written is seen as it is now. -/
theorem write (hserves : Serves catalog view s) (hfile : catalog.file id = .ok h)
    (hsteps : Steps catalog (· = .write id) s s') (hh : h.Holds t s') :
    Serves catalog (Function.update view id t) s' := by
  refine hserves.steps hsteps ?_ ?_
  · intro id' h' hfile' hid
    cases hid
    rw [hfile] at hfile'
    cases hfile'
    rw [Function.update_self]
    exact hh
  · intro id' hno
    refine Function.update_of_ne ?_ t view
    rintro rfl
    exact hno rfl

/-- **Writing everything back.**  It succeeds, and then the bytes of the files say what is served. -/
theorem flushed (hserves : Serves catalog view s) {r : Except Error Unit}
    (hflush : s.flushAll catalog = (r, s')) :
    r = .ok () ∧ Quiet catalog s s' ∧ ∀ id h, catalog.file id = .ok h →
      view id = .ofBytes id h.schema h.pageSize (s'.files.content h.path) := by
  have hquiet : Quiet catalog s s' := flushEach_steps hflush
  obtain rfl := flushEach_of_attended hserves.sound hserves.attended hflush
  refine ⟨rfl, hquiet, fun id h hfile => ?_⟩
  have hserves' := hserves.quiet hquiet
  have hh := hserves'.held id h hfile
  obtain rfl := Catalog.id_of_file hfile
  exact hh.eq_ofBytes hserves'.sound fun n frame hfind => clean_flushAll hserves.sound hflush hfind

end Serves

/-- A table of a catalog as the bytes of its file say. -/
def tableIn (catalog : Catalog) (files : Files) (id : TableId) : PagedTable :=
  match catalog.file id with
  | .ok h => .ofBytes id h.schema h.pageSize (files.content h.path)
  | .error _ => ⟨Plan.countSchema, []⟩

theorem tableIn_of_file {files : Files} {id : TableId} (hfile : catalog.file id = .ok h) :
    tableIn catalog files id = .ofBytes id h.schema h.pageSize (files.content h.path) := by
  unfold tableIn
  rw [hfile]

/-- **A fresh storage** serves what the bytes of its files say. -/
theorem serves_fresh {config : Config} (hpool : config.poolPages ≠ 0)
    (hfits : ∀ id h, catalog.file id = .ok h → h.Fits) (files : Files) :
    Serves catalog (tableIn catalog files) ⟨files, Pool.empty config⟩ where
  sound := Pool.sound_empty (Nat.pos_of_ne_zero hpool)
  attended := nofun
  held := by
    intro id h hfile
    rw [tableIn_of_file hfile]
    obtain rfl := Catalog.id_of_file hfile
    have hnone : ∀ n, (Pool.empty config).find? ⟨h.id, n⟩ = none := fun _ => rfl
    exact HeapFile.holds_ofBytes (s := ⟨files, Pool.empty config⟩) (hfits _ h hfile) hnone

end Storage

end RowStore
