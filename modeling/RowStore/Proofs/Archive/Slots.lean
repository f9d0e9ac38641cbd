import RowStore.Proofs.Archive
import RowStore.Proofs.Page.Slots
import RowStore.Proofs.Pool.Sound

/-!
A store is a list of slots.

A `SlotTable` is a list of pages, a page is a list of slots, and a slot has the values of a row or
nothing.  There are no bytes and no bitmaps.

1. A row that can be stored goes, with its texts cut, to the least place with nothing in it
   (`leastFree`): to the first page that has one, and there to the first slot.  When every slot of
   every page is taken, there is one page more, and the row is in its first slot.
2. The row at a place is deleted exactly if there is one, and nothing else changes.
3. A scan gives the rows by rising page and slot, each with its place.

The slots of a page are those of its bytes (`Page.contents`), so an archive of paged tables answers
like the archive of their slots (`Archive.performTask_slots`).
-/

namespace RowStore

/-! ## Tables of slots -/

/-- A page as the list of its slots, each with the values of its row or with nothing. -/
abbrev Slots := List (Option (List Value))

/-- The least place with nothing in it: the position of the page and of the slot. -/
def leastFree : List Slots → Option (Nat × Nat)
  | [] => none
  | slots :: pages =>
    match slots.findIdx? (·.isNone) with
    | some i => some (0, i)
    | none => (leastFree pages).map fun (n, i) => (n + 1, i)

/-- A table as a list of pages of slots. -/
structure SlotTable where
  /-- What the rows look like. -/
  schema : Schema
  /-- The pages in order. -/
  pages : List Slots
  deriving DecidableEq

namespace SlotTable

/-- The slots with the values of a row, or with nothing, at a place. -/
def put (t : SlotTable) (page slot : Nat) (values : Option (List Value)) : SlotTable :=
  { t with pages := t.pages.modify page (·.set slot values) }

/-- The table with one page more, which has the values of a row in its first slot. -/
def addPage (t : SlotTable) (pageSize : Nat) (values : List Value) : SlotTable :=
  { t with
    pages := t.pages ++
      [(List.replicate (Page.slotsPerPage pageSize t.schema.rowWidth) none).set 0 (some values)] }

/-- Stores a row: the row as it is stored, and the table after it. -/
def insert (t : SlotTable) (id : TableId) (pageSize : Nat) (row : Row) :
    Except Error (Row × SlotTable) :=
  if !row.schema.sameTypes t.schema then .error (.mismatch (.rowOfTable row.schema id t.schema))
  else
    let values := row.values.map Value.clip
    match leastFree t.pages with
    | some (n, i) => .ok (⟨row.schema, values, some ⟨⟨id, n⟩, i⟩⟩, t.put n i (some values))
    | none =>
      .ok (⟨row.schema, values, some ⟨⟨id, t.pages.length⟩, 0⟩⟩, t.addPage pageSize values)

/-- Deletes the row at a place. -/
def delete (t : SlotTable) (place : RecordId) : Except Error SlotTable :=
  match t.pages[place.page.number]? with
  | none => .error (.missing (.page place.page t.pages.length))
  | some slots =>
    match slots[place.slot]? with
    | some (some _) => .ok (t.put place.page.number place.slot none)
    | some none | none => .error (.missing (.liveRow place))

/-- The live rows of a page, by rising slot. -/
def pageRows (t : SlotTable) (id : PageId) : Except Error (List Row) :=
  match t.pages[id.number]? with
  | some slots => .ok (Page.liveRows t.schema id slots)
  | none => .error (.missing (.page id t.pages.length))

/-- The live rows, by rising page and slot. -/
def rows (t : SlotTable) (id : TableId) : List Row :=
  t.pages.zipIdx.flatMap fun (slots, n) => Page.liveRows t.schema ⟨id, n⟩ slots

end SlotTable

/-- The slots of a table of pages. -/
def PagedTable.slots (t : PagedTable) : SlotTable := ⟨t.schema, t.pages.map Page.contents⟩

instance : Tabular SlotTable where
  ofBytes := fun id schema pageSize bytes => (PagedTable.ofBytes id schema pageSize bytes).slots
  schema := SlotTable.schema
  insert := SlotTable.insert
  delete := SlotTable.delete
  pageRows := SlotTable.pageRows
  rows := SlotTable.rows

/-! ## The least free place -/

theorem leastFree_eq_none_iff {pages : List Slots} :
    leastFree pages = none ↔ ∀ slots ∈ pages, ∀ c ∈ slots, c.isNone = false := by
  induction pages with
  | nil => simp [leastFree]
  | cons slots pages ih =>
    unfold leastFree
    cases hfind : slots.findIdx? (·.isNone) with
    | none =>
      have hfull := List.findIdx?_eq_none_iff.mp hfind
      rw [Option.map_eq_none_iff, ih]
      constructor
      · intro hpages slots' hmem
        rcases List.mem_cons.mp hmem with rfl | hmem
        · exact hfull
        · exact hpages slots' hmem
      · intro hall slots' hmem
        exact hall slots' (List.mem_cons_of_mem _ hmem)
    | some i =>
      constructor
      · intro hnone
        cases hnone
      · intro hall
        rw [List.findIdx?_eq_none_iff.mpr (hall slots List.mem_cons_self)] at hfind
        cases hfind

/-- The least free place is the first free slot of the first page that has one. -/
theorem leastFree_eq_some {pages : List Slots} {n i : Nat} (hn : n < pages.length)
    (hfull : ∀ m (hm : m < n), ∀ c ∈ pages[m], c.isNone = false)
    (hfirst : pages[n].findIdx? (·.isNone) = some i) : leastFree pages = some (n, i) := by
  induction pages generalizing n with
  | nil => exact absurd hn (Nat.not_lt_zero n)
  | cons slots pages ih =>
    unfold leastFree
    cases n with
    | zero =>
      rw [show slots.findIdx? (·.isNone) = some i from hfirst]
    | succ n =>
      have hslots : slots.findIdx? (·.isNone) = none :=
        List.findIdx?_eq_none_iff.mpr (hfull 0 (Nat.succ_pos n))
      have hrest := ih (Nat.lt_of_succ_lt_succ hn)
        (fun m hm => hfull (m + 1) (Nat.succ_lt_succ hm)) hfirst
      rw [hslots, hrest]
      rfl

/-! ## Slots of pages -/

namespace PagedTable

variable {t : PagedTable} {id : TableId} {pageSize n : Nat} {p : Page}

/-- The pages of a table are numbered, their rows look like those of the table, and fit. -/
structure Regular (t : PagedTable) (id : TableId) (pageSize : Nat) : Prop where
  fits : 0 < Page.slotsPerPage pageSize t.schema.rowWidth
  pageId : ∀ (n : Nat) (p : Page), t.pages[n]? = some p → p.id = ⟨id, n⟩
  pageSchema : ∀ (n : Nat) (p : Page), t.pages[n]? = some p → p.schema = t.schema

theorem slots_put (hn : n < t.pages.length) {i : Nat} {values : Option (List Value)} {old : Page}
    (hold : t.pages[n] = old) (hp : p.contents = old.contents.set i values) :
    PagedTable.slots { t with pages := t.pages.set n p.clean } = t.slots.put n i values := by
  have hclean : p.clean.contents = p.contents := rfl
  show SlotTable.mk t.schema _ = SlotTable.mk t.schema _
  congr 1
  apply List.ext_getElem?
  intro m
  simp only [List.getElem?_map, List.getElem?_set, List.getElem?_modify, slots]
  by_cases hm : n = m
  · subst hm
    simp [hn, hold, hclean, hp]
  · simp [hm]

theorem slots_addPage {new : Page} {values : List Value}
    (hblank : Page.blank ⟨id, n⟩ t.schema pageSize = .ok new)
    (hp : p.contents = new.contents.set 0 (some values)) :
    PagedTable.slots { t with pages := t.pages ++ [p.clean] } =
      t.slots.addPage pageSize values := by
  have hclean : p.clean.contents = p.contents := rfl
  show SlotTable.mk t.schema _ = SlotTable.mk t.schema _
  congr 1
  rw [List.map_append, List.map_singleton, hclean, hp, Page.contents_blank hblank]
  rfl

/-- Storing a row, in pages and in slots. -/
theorem Regular.insert_slots (hr : t.Regular id pageSize) {row : Row} (hrow : row.Conforms) :
    t.slots.insert id pageSize row =
      (t.insert id pageSize row).map fun (row, t) => (row, t.slots) := by
  by_cases htypes : row.schema.sameTypes t.schema = true
  case neg =>
    rw [Bool.not_eq_true] at htypes
    unfold SlotTable.insert insert
    rw [show t.slots.schema = t.schema from rfl, htypes]
    rfl
  unfold SlotTable.insert
  rw [show t.slots.schema = t.schema from rfl, htypes]
  simp only [Bool.not_true, Bool.false_eq_true, if_false]
  cases hfind : t.pages.find? (fun p => !p.freeSlots.isEmpty) with
  | some old =>
    obtain ⟨hfree, n, hn, hold, hbefore⟩ := List.find?_eq_some_iff_getElem.mp hfind
    have hget : t.pages[n]? = some old := by rw [List.getElem?_eq_getElem hn, hold]
    have hid := hr.pageId n old hget
    have hschema := hr.pageSchema n old hget
    -- the first page with a free slot has the least free place
    obtain ⟨i, hi⟩ : ∃ i, old.contents.findIdx? (·.isNone) = some i := by
      rw [Bool.not_eq_true', List.isEmpty_eq_false_iff] at hfree
      exact Page.exists_findIdx?_of_free hfree
    have hleast : leastFree t.slots.pages = some (n, i) := by
      have hlength : n < t.slots.pages.length := by simpa [slots] using hn
      refine leastFree_eq_some hlength ?_ ?_
      · intro m hm c hc
        have hnil := hbefore m hm
        rw [Bool.not_not, List.isEmpty_iff] at hnil
        refine (Page.freeSlots_eq_nil_iff _).mp hnil c ?_
        simpa [slots] using hc
      · simpa [slots, hold] using hi
    obtain ⟨p', hins, hp'⟩ := Page.insert_eq_ok (hschema.symm ▸ htypes) hrow hi
    rw [hleast, insert_of_old htypes hfind, hins]
    simp only [Except.map, hid]
    rw [slots_put hn hold hp']
  | none =>
    have hleast : leastFree t.slots.pages = none := by
      rw [leastFree_eq_none_iff]
      intro s hs
      obtain ⟨p, hp, rfl⟩ := List.mem_map.mp hs
      have hnil := List.find?_eq_none.mp hfind p hp
      rw [Bool.not_eq_true, Bool.not_eq_false', List.isEmpty_iff] at hnil
      exact (Page.freeSlots_eq_nil_iff p).mp hnil
    obtain ⟨new, hblank⟩ := Page.exists_blank ⟨id, t.pages.length⟩ hr.fits
    obtain ⟨-, hid, hschema, -⟩ := Page.ofBytes_eq_ok_iff.mp hblank
    have hfirst := Page.findIdx?_contents_blank hr.fits hblank
    obtain ⟨p', hins, hp'⟩ := Page.insert_eq_ok (hschema.symm ▸ htypes) hrow hfirst
    rw [hleast, insert_of_full htypes hfind hblank, hins]
    simp only [Except.map, hid]
    rw [slots_addPage hblank hp']
    simp [slots]

/-- Deleting a row, in pages and in slots. -/
theorem Regular.delete_slots (hr : t.Regular id pageSize) {place : RecordId}
    (hplace : place.page.table = id) :
    t.slots.delete place = (t.delete place).map PagedTable.slots := by
  unfold SlotTable.delete
  have hget : t.slots.pages[place.page.number]? =
      (t.pages[place.page.number]?).map Page.contents := List.getElem?_map ..
  rw [hget]
  cases hpage : t.pages[place.page.number]? with
  | none =>
    rw [delete_of_none hpage]
    simp [slots, Except.map]
  | some old =>
    obtain ⟨hn, hold⟩ := List.getElem?_eq_some_iff.mp hpage
    have hid : place.page = old.id := by
      rw [hr.pageId _ old hpage, ← hplace]
    rw [delete_of_some hpage]
    simp only [Option.map_some]
    obtain ⟨values, hvalues, p', hdelete, hp'⟩ | ⟨hfree, hdelete⟩ := Page.delete_eq hid
    · rw [hvalues, hdelete]
      simp only [Except.map]
      rw [slots_put hn hold hp']
    · rw [hdelete]
      rcases hslot : old.contents[place.slot]? with _ | _ | values
      · rfl
      · rfl
      · exact absurd hslot (hfree values)

theorem Regular.pageRows_slots (hr : t.Regular id pageSize) {page : PageId}
    (hpage : page.table = id) : t.slots.pageRows page = (t.page page).map Page.rows := by
  unfold SlotTable.pageRows PagedTable.page
  have hget : t.slots.pages[page.number]? = (t.pages[page.number]?).map Page.contents :=
    List.getElem?_map ..
  rw [hget]
  cases hp : t.pages[page.number]? with
  | none => simp [slots, Except.map]
  | some p =>
    have hid : p.id = page := by
      rw [hr.pageId _ p hp, ← hpage]
    simp only [Option.map_some, Except.map, Page.rows_eq_liveRows, hid, hr.pageSchema _ p hp]
    rfl

theorem Regular.rows_slots (hr : t.Regular id pageSize) : t.slots.rows id = t.rows := by
  have hpages : t.slots.pages.zipIdx.map
      (fun (slots, n) => Page.liveRows t.slots.schema ⟨id, n⟩ slots) = t.pages.map Page.rows := by
    apply List.ext_getElem?
    intro n
    simp only [List.getElem?_map, List.getElem?_zipIdx, slots, Nat.zero_add]
    cases hp : t.pages[n]? with
    | none => rfl
    | some p =>
      simp only [Option.map_some, Page.rows_eq_liveRows, hr.pageId n p hp, hr.pageSchema n p hp]
  unfold SlotTable.rows rows
  rw [List.flatMap_def, hpages]
  rfl

end PagedTable

/-! ## Archives of slots -/

/-- What a task must respect: the rows of a table that is made fit on a page, and a row that is
    stored agrees with its schema. -/
def Task.Sensible (pageSize : Nat) : Task → Prop
  | .createTable _ schema => 0 < Page.slotsPerPage pageSize schema.rowWidth
  | .insertRow _ _ row => row.Conforms
  | .deleteRow _ _ | .getPage _ | .flushPage _ | .flushPages _ | .flushAll | .scan _ => True

instance (pageSize : Nat) (task : Task) : Decidable (task.Sensible pageSize) := by
  cases task <;> unfold Task.Sensible <;> infer_instance

namespace Archive

variable {a : Archive PagedTable}

/-- The archive of the slots of its tables. -/
def slots (a : Archive PagedTable) : Archive SlotTable :=
  ⟨a.directory, a.pageSize, a.files, a.tables.map fun e => (e.1, e.2.slots)⟩

theorem find?_slots (a : Archive PagedTable) (id : TableId) :
    Assoc.find? id a.slots.tables = (Assoc.find? id a.tables).map PagedTable.slots :=
  Assoc.find?_map PagedTable.slots id a.tables

theorem table_slots (a : Archive PagedTable) (id : TableId) :
    a.slots.table id = (a.table id).map PagedTable.slots := by
  unfold table
  rw [find?_slots]
  cases Assoc.find? id a.tables <;> rfl

theorem putTable_slots (a : Archive PagedTable) (id : TableId) (t : PagedTable) :
    a.slots.putTable id t.slots = (a.putTable id t).slots := by
  show Archive.mk _ _ _ (Assoc.put id t.slots a.slots.tables) = Archive.mk _ _ _ _
  congr 1
  exact Assoc.put_map PagedTable.slots id t a.tables

theorem createTable_slots (a : Archive PagedTable) (name : String) (schema : Schema) :
    a.slots.createTable name schema =
      ((a.createTable name schema).1, (a.createTable name schema).2.slots) := by
  cases hpath : a.files.pathOf (Catalog.fileName a.directory name) with
  | error fault =>
    rw [createTable_of_error (a := a) hpath, createTable_of_error (a := a.slots) hpath]
  | ok path =>
    cases hfind : Assoc.find? (tableIdOf path) a.tables with
    | some t =>
      have hslots : Assoc.find? (tableIdOf path) a.slots.tables = some t.slots := by
        rw [find?_slots, hfind]
        rfl
      have hsame : Tabular.schema t.slots = Tabular.schema t := rfl
      by_cases hschema : Tabular.schema t = schema
      · rw [createTable_of_known hpath hfind hschema,
          createTable_of_known (a := a.slots) hpath hslots hschema]
        rfl
      · rw [createTable_of_other hpath hfind hschema,
          createTable_of_other (a := a.slots) hpath hslots hschema, hsame]
        rfl
    | none =>
      have hslots : Assoc.find? (tableIdOf path) a.slots.tables = none := by
        rw [find?_slots, hfind]
        rfl
      rw [createTable_of_new hpath hfind, createTable_of_new (a := a.slots) hpath hslots]
      congr 1
      show Archive.mk _ _ _ _ = Archive.mk _ _ _ _
      congr 1
      exact Assoc.put_map PagedTable.slots _ _ a.tables

/-- All pages are what they should be. -/
def Regular (a : Archive PagedTable) : Prop :=
  ∀ id t, Assoc.find? id a.tables = some t → t.Regular id a.pageSize

theorem regular_of_table (hr : a.Regular) {id : TableId} {t : PagedTable}
    (htable : a.table id = .ok t) : t.Regular id a.pageSize := by
  refine hr id t ?_
  unfold table at htable
  cases hfind : Assoc.find? id a.tables with
  | none =>
    rw [hfind] at htable
    cases htable
  | some t' =>
    rw [hfind] at htable
    cases htable
    rfl

theorem insertRow_slots (hr : a.Regular) (id : TableId) {row : Row} (hrow : row.Conforms) :
    a.slots.insertRow id row = ((a.insertRow id row).1, (a.insertRow id row).2.slots) := by
  have htable := table_slots a id
  cases ht : a.table id with
  | error e =>
    rw [ht] at htable
    rw [insertRow_of_missing ht, insertRow_of_missing htable]
  | ok t =>
    rw [ht] at htable
    have hslots : Tabular.insert t.slots id a.slots.pageSize row =
        (Tabular.insert t id a.pageSize row).map fun (row, t) => (row, t.slots) :=
      (regular_of_table hr ht).insert_slots hrow
    cases hinsert : Tabular.insert t id a.pageSize row with
    | error e =>
      rw [hinsert] at hslots
      rw [insertRow_of_error ht hinsert, insertRow_of_error htable hslots]
    | ok result =>
      obtain ⟨row', t'⟩ := result
      rw [hinsert] at hslots
      rw [insertRow_of_ok ht hinsert, insertRow_of_ok htable hslots, putTable_slots]

theorem deleteRow_slots (hr : a.Regular) (place : Option RecordId) :
    a.slots.deleteRow place = ((a.deleteRow place).1, (a.deleteRow place).2.slots) := by
  cases place with
  | none => rfl
  | some place =>
    have htable := table_slots a place.page.table
    cases ht : a.table place.page.table with
    | error e =>
      rw [ht] at htable
      rw [deleteRow_of_missing ht, deleteRow_of_missing htable]
    | ok t =>
      rw [ht] at htable
      have hslots : Tabular.delete t.slots place =
          (Tabular.delete t place).map PagedTable.slots :=
        (regular_of_table hr ht).delete_slots rfl
      cases hdelete : Tabular.delete t place with
      | error e =>
        rw [hdelete] at hslots
        rw [deleteRow_of_error ht hdelete, deleteRow_of_error htable hslots]
      | ok t' =>
        rw [hdelete] at hslots
        rw [deleteRow_of_ok ht hdelete, deleteRow_of_ok htable hslots, putTable_slots]

/-- **Pages and slots.**  An archive of pages answers a task like the archive of their slots. -/
theorem performTask_slots (hr : a.Regular) {task : Task} (htask : task.Sensible a.pageSize) :
    a.slots.performTask task = ((a.performTask task).1, (a.performTask task).2.slots) := by
  cases task with
  | createTable name schema => exact createTable_slots a name schema
  | insertRow tid id row => exact insertRow_slots hr id htask
  | deleteRow tid place => exact deleteRow_slots hr place
  | getPage id =>
    -- reading changes no table, so only the answers have to agree
    show ((a.slots.table id.table).bind fun t => (Tabular.pageRows t id).map Outcome.rows,
        a.slots) =
      ((a.table id.table).bind fun t => (Tabular.pageRows t id).map Outcome.rows, a.slots)
    rw [table_slots]
    cases ht : a.table id.table with
    | error e => rfl
    | ok t =>
      have hslots : Tabular.pageRows t.slots id = Tabular.pageRows t id :=
        (regular_of_table hr ht).pageRows_slots rfl
      show ((Tabular.pageRows t.slots id).map _, _) = ((Tabular.pageRows t id).map _, _)
      rw [hslots]
  | scan id =>
    show ((a.slots.table id).map fun t => Outcome.rows (Tabular.rows t id), a.slots) =
      ((a.table id).map fun t => Outcome.rows (Tabular.rows t id), a.slots)
    rw [table_slots]
    cases ht : a.table id with
    | error e => rfl
    | ok t =>
      have hslots : Tabular.rows t.slots id = Tabular.rows t id :=
        (regular_of_table hr ht).rows_slots
      show (Except.ok (Outcome.rows (Tabular.rows t.slots id)), a.slots) = _
      rw [hslots]
      rfl
  | flushPage id => rfl
  | flushPages tid => rfl
  | flushAll => rfl

end Archive

end RowStore
