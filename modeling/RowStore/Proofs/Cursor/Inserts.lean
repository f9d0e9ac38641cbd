import RowStore.Proofs.Archive.Places
import RowStore.Proofs.Cursor.Displays
import RowStore.Proofs.Cursor.Sieves

/-!
Inserting the rows of a plan into a table.

Program.  A plan that inserts pulls one row from its child and stores it, then pulls the next one.  A
scan below it fixes the number of pages when it starts and takes a page when the rows of the page
before it are used up, so it shows a row that was stored meanwhile on a page that is still to come.

1. As long as the child does not scan the table itself, it gives what it would have given before the
   first row was stored (`HeapFile.Holds.write_rows`).
2. A child that scans the table itself can only be filters above that scan, since a join has more
   columns (`Plan.Made.sieves_or_wider`).  Its rows are stored in the free places in order.  Every row
   that the table had is met, and if none is stored on a page that comes after its own, the scan finds
   every page as it was (`HeapFile.Copies.page`).
3. So the plan reports the number of rows that it stored, and the table has the rows that it had and
   those.  They are the rows that its child means, unless a row is stored further on
   (`Cursor.insert_takes_snapshot`); then the scan meets its copy (`Cursor.insert_meets_copies`).

Crux.  What is left to the scan after some of its rows were stored is related to the table that took
these rows in (`HeapFile.Copies`), and both are followed through the loop over the pages.
-/

namespace RowStore

open Storage Source

variable {catalog : Catalog} {tid : TransactionId} {h : HeapFile} {t : PagedTable}
  {taken rest rows left : List Row} {row : Row} {s s' : Storage}

/-! ## A table that takes in rows -/

/-- The rows `taken` were stored in a table, one after the other. -/
def HeapFile.Took (h : HeapFile) (t : PagedTable) (taken : List Row) (s : Storage) : Prop :=
  s.pool.Sound ∧ ∃ now, t.insertAll h.id h.pageSize taken = .ok now ∧ h.Holds now s

namespace HeapFile.Took

/-- Nothing was stored yet. -/
theorem nothing (hh : h.Holds t s) (hs : s.pool.Sound) : h.Took t [] s := ⟨hs, t, rfl, hh⟩

theorem quiet (hfile : catalog.file h.id = .ok h) (htook : h.Took t taken s)
    (hquiet : Quiet catalog s s') : h.Took t taken s' := by
  obtain ⟨hs, now, hall, hh⟩ := htook
  exact ⟨hquiet.sound hs, now, hall, hh.quiet hs hfile hquiet⟩

/-- A row more is stored. -/
theorem store (hfile : catalog.file h.id = .ok h) (htook : h.Took t taken s) {row' : Row}
    (hins : s.insertRow catalog tid h.id row = (.ok row', s')) : h.Took t (taken ++ [row]) s' := by
  obtain ⟨hs, now, hall, hh⟩ := htook
  have hs' : s'.pool.Sound := (insertRow_steps hs hins).sound hs
  obtain ⟨e, -, hr, -⟩ | ⟨g, hg, ⟨e, -, hr⟩ | ⟨placed, frame, s₁, hinserted, -, hfind, rfl⟩⟩ :=
    Storage.insertRow_cases hs hins
  · cases hr
  · cases hr
  · obtain rfl := Catalog.eq_of_file hfile hg
    obtain ⟨later, hok, hh₁⟩ := hh.insertRow_ok hs hfile hinserted
    have hs₁ : s₁.pool.Sound := (hinserted.steps hs hfile).1.sound hs
    exact ⟨hs', later, PagedTable.insertAll_concat hall hok, hh₁.requeue hs₁ hfind⟩

/-- The table has the rows that it had and those that were stored, with their texts cut. -/
theorem rows_added (htook : h.Took t taken s) (hr : t.Regular h.id h.pageSize)
    (htyped : ∀ row ∈ taken, row.Typed t.schema) :
    ∃ added, ((h.pages s).flatMap Page.rows).Perm (t.rows ++ added) ∧
      added.map (·.values) = taken.map fun row => row.values.map Value.clip := by
  obtain ⟨hs, now, hall, hh⟩ := htook
  obtain ⟨-, -, hadded, -⟩ := hr.insertAll_ok htyped hall
  rwa [hh.pages_eq hs]

/-- A page of the table is found with the rows that it had, and with no others if no free place that
    was used up is on this page. -/
theorem found (htook : h.Took t taken s) (hr : t.Regular h.id h.pageSize)
    (htyped : ∀ row ∈ taken, row.Typed t.schema) (hfile : catalog.file h.id = .ok h) {n : Nat}
    {page : Page} (hpage : t.pages[n]? = some page) {frame : Frame}
    (hget : s.getPage catalog ⟨h.id, n⟩ = (.ok frame, s')) :
    (∀ row ∈ frame.page.rows, row.Typed h.schema) ∧ page.rows.Sublist frame.page.rows ∧
      ((∀ place ∈ t.freePlaces.take taken.length, place.page.number ≠ n) →
        frame.page.rows = page.rows) := by
  obtain ⟨hs, now, hall, hh⟩ := htook
  obtain ⟨-, -, -, hkept⟩ := hr.insertAll_ok htyped hall
  obtain ⟨page', hpage', hsub, hsame⟩ := hkept n page hpage
  have hframe := hh.getPage_ok hs hfile hget
  obtain rfl : page' = frame.page.clean := Option.some.inj (hpage'.symm.trans hframe)
  refine ⟨fun row hrow => ?_, hsub, fun hunused => ?_⟩
  · exact hh.typed hs (List.mem_flatMap.mpr ⟨_, List.mem_of_getElem? hframe, hrow⟩)
  · show frame.page.clean.rows = page.rows
    rw [hsame hunused]

end HeapFile.Took

/-! ## Tables that take in their own rows -/

/-- If rows go to places in order, none goes to a page that comes after its own. -/
def NoneAhead (rows : List Row) (places : List RecordId) : Prop :=
  ∀ row place own, (row, place) ∈ rows.zip places → row.place = some own →
    place.page.number ≤ own.page.number

/-- If the first rows are on pages before page `n`, so are the places that they go to. -/
theorem NoneAhead.lt {places : List RecordId} {n : Nat} (hahead : NoneAhead (taken ++ left) places)
    (hearlier : ∀ row ∈ taken, ∃ own, row.place = some own ∧ own.page.number < n) :
    ∀ place ∈ places.take taken.length, place.page.number < n := by
  intro place hplace
  obtain ⟨i, hi, rfl⟩ := List.getElem_of_mem hplace
  rw [List.length_take] at hi
  obtain ⟨own, hown, hlt⟩ := hearlier taken[i] (List.getElem_mem _)
  have hzip : (taken[i], places[i]) ∈ (taken ++ left).zip places := by
    rw [List.mem_iff_getElem]
    refine ⟨i, by rw [List.length_zip, List.length_append]; omega, ?_⟩
    rw [List.getElem_zip, List.getElem_append_left (by omega)]
  have hle := hahead _ _ _ hzip hown
  rw [List.getElem_take]
  omega

/-- The rows of the first pages are on pages with these numbers. -/
theorem PagedTable.Regular.place_lt (hr : t.Regular h.id h.pageSize) {n : Nat}
    (hrow : row ∈ (t.pages.take n).flatMap Page.rows) :
    ∃ own, row.place = some own ∧ own.page.number < n := by
  obtain ⟨page, hpage, hrow⟩ := List.mem_flatMap.mp hrow
  obtain ⟨m, hm, rfl⟩ := List.getElem_of_mem hpage
  rw [List.length_take] at hm
  obtain ⟨slot, hslot⟩ := Page.place_of_mem_rows hrow
  refine ⟨_, hslot, ?_⟩
  have hget : t.pages[m]? = some (t.pages.take n)[m] := by
    rw [List.getElem_take]
    exact List.getElem?_eq_getElem (by omega)
  show ((t.pages.take n)[m]).id.number < n
  rw [hr.pageId m _ hget]
  exact Nat.lt_of_lt_of_le hm (Nat.min_le_left _ _)

/-- Of the rows that `p` lets through, `taken` were stored in the table itself and `rest` are left of
    the present page; the next page is page `n`. -/
structure HeapFile.Copies (h : HeapFile) (t : PagedTable) (p : Row → Bool) (n : Nat)
    (taken rest : List Row) (s : Storage) : Prop where
  /-- The table took them in. -/
  took : h.Took t taken s
  /-- They have the types of the table. -/
  typed : ∀ row ∈ taken ++ rest, row.Typed h.schema
  /-- No row that the table had is passed over. -/
  all : (t.rows.filter p).Sublist
    (taken ++ (rest ++ ((t.pages.drop n).flatMap Page.rows).filter p))
  /-- No copy is met unless a row was stored on a page that comes after its own. -/
  once : NoneAhead (t.rows.filter p) t.freePlaces →
    t.rows.filter p = taken ++ (rest ++ ((t.pages.drop n).flatMap Page.rows).filter p)

namespace HeapFile.Copies

variable {p : Row → Bool} {n : Nat}

theorem begin (hh : h.Holds t s) (hs : s.pool.Sound) : h.Copies t p 0 [] [] s :=
  ⟨.nothing hh hs, nofun, .refl _, fun _ => rfl⟩

theorem quiet (hfile : catalog.file h.id = .ok h) (hcopies : h.Copies t p n taken rest s)
    (hquiet : Quiet catalog s s') : h.Copies t p n taken rest s' :=
  { hcopies with took := hcopies.took.quiet hfile hquiet }

/-- The next row of the present page is stored. -/
theorem store (hfile : catalog.file h.id = .ok h) (hcopies : h.Copies t p n taken (row :: rest) s)
    {row' : Row} (hins : s.insertRow catalog tid h.id row = (.ok row', s')) :
    h.Copies t p n (taken ++ [row]) rest s' := by
  obtain ⟨htook, htyped, hall, honce⟩ := hcopies
  have hmove : ∀ later : List Row, taken ++ row :: later = taken ++ [row] ++ later := fun later => by
    rw [List.append_assoc, List.singleton_append]
  rw [hmove] at htyped
  rw [List.cons_append, hmove] at hall honce
  exact ⟨htook.store hfile hins, htyped, hall, honce⟩

/-- The next page is taken. -/
theorem page (hfile : catalog.file h.id = .ok h) (hr : t.Regular h.id h.pageSize)
    (hschema : t.schema = h.schema) (hcopies : h.Copies t p n taken [] s) (hn : n < t.pages.length)
    {frame : Frame} (hget : s.getPage catalog ⟨h.id, n⟩ = (.ok frame, s')) :
    h.Copies t p (n + 1) taken (frame.page.rows.filter p) s' := by
  obtain ⟨htook, htyped, hall, honce⟩ := hcopies
  rw [List.append_nil] at htyped
  obtain ⟨hnew, hsub, hsame⟩ :=
    htook.found hr (hschema ▸ htyped) hfile (List.getElem?_eq_getElem hn) hget
  -- the rows that are to come are those of this page, as it was, and those of the pages after it
  have hcome : ((t.pages.drop n).flatMap Page.rows).filter p =
      t.pages[n].rows.filter p ++ ((t.pages.drop (n + 1)).flatMap Page.rows).filter p := by
    rw [List.drop_eq_getElem_cons hn, List.flatMap_cons, List.filter_append]
  rw [List.nil_append] at hall honce
  refine ⟨htook.quiet hfile (getPage_steps htook.1 hget), fun row hrow => ?_, ?_, fun hahead => ?_⟩
  · rcases List.mem_append.mp hrow with hrow | hrow
    · exact htyped row hrow
    · exact hnew row (List.mem_filter.mp hrow).1
  · rw [hcome] at hall
    exact hall.trans (((hsub.filter p).append_right _).append_left taken)
  · have hsplit := honce hahead
    -- what was stored are the rows of the pages before this one
    have hbefore : taken = ((t.pages.take n).flatMap Page.rows).filter p := by
      refine List.append_cancel_right (hsplit.symm.trans ?_)
      rw [← List.filter_append, ← List.flatMap_append, List.take_append_drop]
      rfl
    have hearlier : ∀ row ∈ taken, ∃ own, row.place = some own ∧ own.page.number < n := by
      intro row hrow
      rw [hbefore] at hrow
      exact hr.place_lt (List.mem_filter.mp hrow).1
    have hunused := (hsplit ▸ hahead).lt hearlier
    rw [hsame fun place hplace => Nat.ne_of_lt (hunused place hplace), ← hcome]
    exact hsplit

/-- After the last page every row was stored, and each once if none was stored further on. -/
theorem finished (hcopies : h.Copies t p t.pages.length taken [] s) :
    h.Took t taken s ∧ (∀ row ∈ taken, row.Typed h.schema) ∧ (t.rows.filter p).Sublist taken ∧
      (NoneAhead (t.rows.filter p) t.freePlaces → t.rows.filter p = taken) := by
  obtain ⟨htook, htyped, hall, honce⟩ := hcopies
  have hdone : taken ++ ([] ++ ((t.pages.drop t.pages.length).flatMap Page.rows).filter p) = taken := by
    rw [List.drop_length]
    exact List.append_nil taken
  rw [hdone] at hall honce
  rw [List.append_nil] at htyped
  exact ⟨htook, htyped, hall, honce⟩

end HeapFile.Copies

/-! ## Inserting -/

/-- All rows of a source are stored, if it gives them in circumstances `W` that storing rows in this
    table keeps. -/
theorem HeapFile.Holds.write_rows (hh : h.Holds t s) (hs : s.pool.Sound)
    (hfile : catalog.file h.id = .ok h) {W : Storage → Prop}
    (hkeeps : ∀ {s s'}, W s → Steps catalog (· = .write h.id) s s' → W s') (hw : W s)
    {fails : Error → Prop} {src : Source} {has : src.State → List Row → Prop}
    (hgives : Gives catalog W fails src rows has) {st st' : WriteState src.State}
    (hstart : (Source.write (storeRow tid h.id) src).start catalog st s = (.ok (), st', s')) :
    st'.results = (some (Plan.countRow rows.length), false) ∧ h.Took t rows s' := by
  let inv : List Row → Storage → Prop := fun left s =>
    W s ∧ ∃ taken, rows = taken ++ left ∧ h.Took t taken s
  have hstep : ∀ {row : Row} {left : List Row} {s s' : Storage}, inv (row :: left) s →
      storeRow tid h.id catalog row s = (.ok (), s') → inv left s' := by
    rintro row left s s' ⟨hw, taken, hrows, htook⟩ hstore
    obtain ⟨row', hins⟩ := insertRow_of_storeRow hstore
    refine ⟨hkeeps hw (insertRow_steps htook.1 hins), taken ++ [row], ?_, htook.store hfile hins⟩
    rw [hrows, List.append_assoc, List.singleton_append]
  have hcalm : ∀ {left : List Row} {s s' : Storage}, inv left s → Quiet catalog s s' → inv left s' :=
    fun ⟨hw, taken, hrows, htook⟩ hquiet =>
      ⟨hgives.calm hw hquiet, taken, hrows, htook.quiet hfile hquiet⟩
  obtain ⟨hresults, -, taken, hrows, htook⟩ :=
    Source.write_ends hgives inv hstep hcalm And.left ⟨hw, [], rfl, .nothing hh hs⟩ hstart
  rw [List.append_nil] at hrows
  exact ⟨hresults, hrows ▸ htook⟩

/-- **Copying.**  Filters above a scan of the table itself give the rows that they let through, and
    maybe copies, to the table until the last page is used up. -/
theorem HeapFile.Holds.write_copies (hh : h.Holds t s) (hs : s.pool.Sound)
    (hfile : catalog.file h.id = .ok h) {plan : Plan} {p : Row → Bool} (hplan : plan.Sieves h.id p)
    {st st' : WriteState plan.source.guard.State}
    (hstart : (Source.write (storeRow tid h.id) plan.source.guard).start catalog st s =
      (.ok (), st', s')) :
    ∃ taken, st'.results = (some (Plan.countRow taken.length), false) ∧
      h.Copies t p t.pages.length taken [] s' := by
  let inv : Nat → List Row → Nat → Storage → Prop := fun n rest count s =>
    ∃ taken, count = taken.length ∧ h.Copies t p n taken rest s
  have hstep : ∀ {n : Nat} {row : Row} {rest : List Row} {count count' : Nat} {s s' : Storage},
      inv n (row :: rest) count s →
      counted (storeRow tid h.id catalog) row count s = (.ok count', s') → inv n rest count' s' := by
    rintro n row rest count count' s s' ⟨taken, rfl, hcopies⟩ hrow
    obtain ⟨hstore, rfl⟩ := counted_eq_ok hrow
    obtain ⟨row', hins⟩ := insertRow_of_storeRow hstore
    refine ⟨taken ++ [row], ?_, hcopies.store hfile hins⟩
    rw [List.length_append, List.length_singleton]
  have hcalm : ∀ {n : Nat} {rest : List Row} {count : Nat} {s s' : Storage}, inv n rest count s →
      Quiet catalog s s' → inv n rest count s' :=
    fun ⟨taken, hcount, hcopies⟩ hquiet => ⟨taken, hcount, hcopies.quiet hfile hquiet⟩
  -- the consumer passes over the rows that the filters hold back
  have hpassed := fun n => (feed_consumes (fun _ _ => True) (hstep (n := n)) (fun _ _ => trivial)
    hcalm).passed (g := List.filter p) (f := fun row => row) fun _ _ => List.filter_cons
  have hpage : ∀ {n : Nat} {result : Except Error Nat} {s s' : Storage} {r : Except Error Frame},
      n < t.pages.length → (∃ count, result = .ok count ∧ inv n [] count s) →
      s.getPage catalog ⟨h.id, n⟩ = (r, s') →
      (∃ frame : Frame, r = .ok frame ∧
        ∃ count, result = .ok count ∧ inv (n + 1) (frame.page.rows.filter p) count s') ∨
      (∃ e, r = .error e ∧ True ∧ ∃ count, result = .ok count ∧ inv n [] count s') := by
    rintro n result s s' r hn ⟨count, rfl, taken, hcount, hcopies⟩ hget
    cases r with
    | ok frame =>
      have hnext := hcopies.page hfile (hh.regular hs) hh.schema hn hget
      exact Or.inl ⟨frame, rfl, count, rfl, taken, hcount, hnext⟩
    | error e =>
      have hsame := hcopies.quiet hfile (getPage_steps hcopies.took.1 hget)
      exact Or.inr ⟨e, rfl, trivial, count, rfl, taken, hcount, hsame⟩
  obtain ⟨count, st₁, hdrain, hresults⟩ := drain_of_write hstart
  obtain ⟨ending, hplain, hruns⟩ := runs_of_drain hdrain
  obtain ⟨g, scan, hg, hscan⟩ := hplan.runs hruns.of_guard
  obtain rfl := Catalog.eq_of_file hfile hg
  rw [hh.numPages hs] at hscan
  obtain ⟨-, -, hlast, hended⟩ := Scan.eachPage_ends hpassed (Nat.zero_add _) hpage
    ⟨0, rfl, [], rfl, .begin hh hs⟩ hscan
  cases hended with
  | exhausted _ hends =>
    obtain ⟨count', hok, taken, rfl, hcopies⟩ := hends
    cases hok
    rw [hlast rfl] at hcopies
    exact ⟨taken, hresults, hcopies⟩
  | stopped _ hstopped =>
    obtain ⟨e, herror, -⟩ := hstopped
    cases herror
  | failed _ _ => exact absurd rfl (hplain _)

/-- No row of a source is stored in a table whose rows do not fit, so it has none if that works. -/
theorem Storage.Unfit.write_none (hu : Unfit h s) (hs : s.pool.Sound)
    (hfile : catalog.file h.id = .ok h) {W : Storage → Prop} {fails : Error → Prop}
    {src : Source} {has : src.State → List Row → Prop} (hgives : Gives catalog W fails src rows has)
    (hw : W s) {st st' : WriteState src.State}
    (hstart : (Source.write (storeRow tid h.id) src).start catalog st s = (.ok (), st', s')) :
    st'.results = (some (Plan.countRow rows.length), false) ∧ rows = [] ∧ Unfit h s' := by
  have honly : ∀ g, catalog.file h.id = .ok g → g = h := fun g => Catalog.eq_of_file hfile
  let inv : List Row → Storage → Prop := fun left s =>
    left = rows ∧ W s ∧ s.pool.Sound ∧ Unfit h s
  have hstep : ∀ {row : Row} {left : List Row} {s s' : Storage}, inv (row :: left) s →
      storeRow tid h.id catalog row s = (.ok (), s') → inv left s' := by
    rintro row left s s' ⟨-, -, hs, hu⟩ hstore
    obtain ⟨row', hins⟩ := insertRow_of_storeRow hstore
    obtain ⟨e, -, hr, -⟩ | ⟨g, hg, ⟨e, -, hr⟩ | ⟨placed, frame, s₁, hinserted, -⟩⟩ :=
      Storage.insertRow_cases hs hins
    · cases hr
    · cases hr
    · obtain rfl := Catalog.eq_of_file hfile hg
      exact absurd hinserted (hu.not_inserted hs hfile)
  have hcalm : ∀ {left : List Row} {s s' : Storage}, inv left s → Quiet catalog s s' → inv left s' :=
    fun ⟨hleft, hw, hs, hu⟩ hquiet =>
      ⟨hleft, hgives.calm hw hquiet, hquiet.sound hs, (hquiet.unfit hu hs honly).1⟩
  obtain ⟨hresults, hrows, -, -, hu'⟩ :=
    Source.write_ends hgives inv hstep hcalm (fun hinv => hinv.2.1) ⟨rfl, hw, hs, hu⟩ hstart
  exact ⟨hresults, hrows.symm, hu'⟩

/-- **What inserting adds.**  Every row that the child means is stored, and no other if the child does
    not scan the table or no row is stored on a page that comes after its own. -/
theorem Storage.Displays.insert_adds {child : Plan} {view : TableId → PagedTable}
    (hdisplays : Displays catalog (h.id :: child.tables) view s) (hmade : child.Made catalog)
    (hselects : child.isSelection = true) (hfile : catalog.file h.id = .ok h)
    (htypes : child.schema.types = h.schema.types)
    (hmeaning : child.meaning (fun id => (view id).rows) = .ok rows)
    {st st' : WriteState child.source.guard.State}
    (hstart : (Source.write (storeRow tid h.id) child.source.guard).start catalog st s =
      (.ok (), st', s')) :
    ∃ added, st'.results = (some (Plan.countRow added.length), false) ∧
      ((h.pages s').flatMap Page.rows).Perm ((view h.id).rows ++ added) ∧
      (rows.map fun row => row.values.map Value.clip).Sublist (added.map (·.values)) ∧
      ((h.id ∈ child.tables → NoneAhead rows (view h.id).freePlaces) →
        added.map (·.values) = rows.map fun row => row.values.map Value.clip) := by
  have hs := hdisplays.sound
  have hchild : Displays catalog child.tables view s :=
    ⟨hs, fun id hid => hdisplays.held id (List.mem_cons_of_mem _ hid)⟩
  have htyped : ∀ row ∈ rows, row.Typed h.schema := fun row hrow =>
    (hchild.typed hmade hmeaning row hrow).trans htypes
  have hheld : h.Holds (view h.id) s ∨ (Unfit h s ∧ (view h.id).pages = []) := by
    obtain ⟨g, hg, hheld⟩ := hdisplays.held h.id List.mem_cons_self
    obtain rfl := Catalog.eq_of_file hfile hg
    exact hheld
  rcases hheld with hh | ⟨hu, hnone⟩
  · obtain ⟨taken, hresults, htook, htaken, hall, honce⟩ : ∃ taken,
        st'.results = (some (Plan.countRow taken.length), false) ∧ h.Took (view h.id) taken s' ∧
        (∀ row ∈ taken, row.Typed h.schema) ∧ rows.Sublist taken ∧
        ((h.id ∈ child.tables → NoneAhead rows (view h.id).freePlaces) → rows = taken) := by
      by_cases htable : h.id ∈ child.tables
      · obtain ⟨⟨p, hsieves⟩, -⟩ | hwider :=
          hmade.sieves_or_wider hselects htable (Catalog.schema_of_file hfile)
        case inr => exact absurd hwider (by rw [htypes]; exact Nat.lt_irrefl _)
        rw [hsieves.meaning_eq] at hmeaning
        cases hmeaning
        obtain ⟨taken, hresults, hcopies⟩ := hh.write_copies hs hfile hsieves hstart
        obtain ⟨htook, htaken, hall, honce⟩ := hcopies.finished
        exact ⟨taken, hresults, htook, htaken, hall, fun hahead => honce (hahead htable)⟩
      · -- the tables of the child are not written
        have hkeeps : ∀ {s s' : Storage}, Displays catalog child.tables view s →
            Steps catalog (· = .write h.id) s s' → Displays catalog child.tables view s' := by
          intro s s' hchild hsteps
          refine hchild.steps (fun id hid hwrite => ?_) hsteps
          exact htable (Effect.write.inj hwrite ▸ hid)
        obtain ⟨has, hgives⟩ := Displays.gives hmade hmeaning
        obtain ⟨hresults, htook⟩ := hh.write_rows hs hfile hkeeps hchild (hgives catalog).guard hstart
        exact ⟨rows, hresults, htook, htyped, .refl _, fun _ => rfl⟩
    obtain ⟨added, hperm, hvalues⟩ := htook.rows_added (hh.regular hs) (hh.schema ▸ htaken)
    have hcount : added.length = taken.length := by
      have hlength := congrArg List.length hvalues
      rwa [List.length_map, List.length_map] at hlength
    refine ⟨added, by rw [hresults, hcount], hperm, ?_, fun hahead => ?_⟩
    · rw [hvalues]
      exact hall.map _
    · rw [hvalues, honce hahead]
  · obtain ⟨has, hgives⟩ := Displays.gives hmade hmeaning
    obtain ⟨hresults, rfl, hu'⟩ := hu.write_none hs hfile (hgives catalog).guard hchild hstart
    refine ⟨[], hresults, ?_, .refl _, fun _ => rfl⟩
    rw [hu'.pages_eq, PagedTable.rows, hnone]
    exact .refl _

/-- The places of a table without a row, by rising page and slot. -/
def Database.freePlaces (db : Database) (id : TableId) : List RecordId := (db.paged id).freePlaces

namespace Cursor

variable {table : TableId} {child : Plan}

/-- When a plan that inserts was started, its source was, and it can be asked for its rows. -/
theorem start_insert {g : Guarded (Plan.insert tid table child).source.State} {c : Cursor}
    (hstart : Cursor.start catalog ⟨.insert tid table child, g⟩ s = (.ok (), c, s')) :
    ∃ st : WriteState child.source.guard.State,
      (Source.write (storeRow tid table) child.source.guard).start catalog g.inner s =
        (.ok (), st, s') ∧ c = ⟨.insert tid table child, ⟨true, none, st⟩⟩ := by
  unfold Cursor.start Guarded.start at hstart
  rcases hinner : (Plan.insert tid table child).source.start catalog g.inner s with ⟨r, st, s₁⟩
  simp only [hinner] at hstart
  cases r with
  | error e => cases hstart
  | ok =>
    cases hstart
    exact ⟨st, hinner, rfl⟩

/-- A plan that inserts gives the row that it holds. -/
theorem collect_insert {st : WriteState child.source.guard.State}
    (hresults : st.results = (some row, false)) (s : Storage) :
    ∃ c, Cursor.collect catalog ⟨.insert tid table child, ⟨true, none, st⟩⟩ s =
      ([row], none, c, s) := by
  obtain ⟨inner, results⟩ := st
  obtain rfl : results = (some row, false) := hresults
  exact ⟨_, rfl⟩

/-- **Inserting takes a snapshot.**  In a store that was opened and asked, a plan is started that inserts
    what a child selects from tables each of which had one file, one schema and one page size all the
    time.  If that succeeds, the plan reports how many rows were added to the table, which has all rows
    that it had.  Every row that the child meant before is among them, with its texts cut.  No others
    are, unless the child scans the table itself and some row would go to a page after its own. -/
theorem insert_takes_snapshot {files files' : Files} {directory : String} {config : Config}
    {new db : Database} (hopen : Database.create files directory config = (.ok new, files'))
    {requests : List Request} (hreach : new.after requests = db) {plan : Plan}
    (hmade : child.Made db.catalog) (hselects : child.isSelection = true)
    (hmake : Plan.mkInsert db.catalog tid table child = .ok plan)
    (hone : ∀ id ∈ table :: child.tables, ∀ h, db.catalog.file id = .ok h →
      ∀ d ∈ new.states requests, ∀ g, d.catalog.file id = .ok g → g = h)
    {g : Guarded plan.source.State} {c : Cursor} {s : Storage}
    (hstart : Cursor.start db.catalog ⟨plan, g⟩ db.storage = (.ok (), c, s)) :
    ∃ rows added, child.meaning db.tableRows = .ok rows ∧
      (∀ found s', child.readAll db.catalog db.storage = (.ok found, s') → found = rows) ∧
      (∃ c', c.collect db.catalog s = ([Plan.countRow added.length], none, c', s)) ∧
      (Database.tableRows { db with storage := s } table).Perm (db.tableRows table ++ added) ∧
      (rows.map fun row => row.values.map Value.clip).Sublist (added.map (·.values)) ∧
      ((table ∈ child.tables → NoneAhead rows (db.freePlaces table)) →
        added.map (·.values) = rows.map fun row => row.values.map Value.clip) := by
  obtain ⟨schema, hschema, htypes, rfl⟩ := Plan.mkInsert_eq_ok hmake
  have hdisplays : Displays db.catalog (table :: child.tables) db.paged db.storage := by
    subst hreach
    refine Database.displays_after hopen (fun id hid => ?_) hone
    rcases List.mem_cons.mp hid with rfl | hid
    · exact ⟨schema, hschema⟩
    · exact hmade.known id hid
  obtain ⟨rows, hmeaning⟩ := Plan.meaning_of_isSelection hselects db.tableRows
  have hmeaning' : child.meaning (fun id => (db.paged id).rows) = .ok rows := by
    rwa [← Database.tableRows_eq]
  obtain ⟨h, hfile, -⟩ := hdisplays.held table List.mem_cons_self
  obtain rfl := Catalog.id_of_file hfile
  have hknown : h.schema = schema := by
    rw [Catalog.schema_of_file hfile] at hschema
    exact Except.ok.inj hschema
  obtain ⟨st, hwrite, rfl⟩ := start_insert hstart
  obtain ⟨added, hresults, hperm, hall, honce⟩ :=
    hdisplays.insert_adds hmade hselects hfile (hknown ▸ htypes) hmeaning' hwrite
  refine ⟨rows, added, hmeaning, fun found s' hread => ?_, collect_insert hresults s, ?_, hall, honce⟩
  · obtain ⟨has, hgives⟩ := Displays.gives hmade hmeaning'
    have hchild : Displays db.catalog child.tables db.paged db.storage :=
      ⟨hdisplays.sound, fun id hid => hdisplays.held id (List.mem_cons_of_mem _ hid)⟩
    rw [Plan.readAll_eq] at hread
    obtain ⟨-, hok | ⟨e, herror, -⟩⟩ := (hgives db.catalog).readAll hchild hread
    · exact Except.ok.inj hok
    · cases herror
  · have hafter : Database.tableRows { db with storage := s } h.id =
        (h.pages s).flatMap Page.rows := by
      unfold Database.tableRows
      rw [hfile]
    rw [hafter, Database.tableRows_eq]
    exact hperm

/-- In a store for one page, the larger rows of a table are inserted into that table again.  One copy
    takes the place of a row that was deleted before, and the other one a new page. -/
theorem insert_takes_snapshot_of_larger :
    let schema := Schema.single "n" .int
    let t := tableIdOf ["d", "t.dat"]
    let row (n : Int32) : Row := ⟨schema, [.int n], none⟩
    let requests : List Request :=
      [.task (.createTable "t" schema), .task (.insertRow ⟨0⟩ t (row 1)),
       .task (.insertRow ⟨0⟩ t (row 2)), .task (.insertRow ⟨0⟩ t (row 3)),
       .task (.insertRow ⟨0⟩ t (row 4)), .task (.deleteRow ⟨0⟩ (some ⟨⟨t, 0⟩, 0⟩))]
    let child := Plan.filter ⟨0, .ge, .int 3⟩ (.scan t schema)
    let plan := Plan.insert ⟨0⟩ t child
    ∃ new files' c c' s added, Database.create Files.empty "/d" ⟨9, 1⟩ = (.ok new, files') ∧
      (Cursor.ofPlan plan).start (new.after requests).catalog (new.after requests).storage =
        (.ok (), c, s) ∧
      c.collect (new.after requests).catalog s = ([Plan.countRow 2], none, c', s) ∧
      (Database.tableRows { new.after requests with storage := s } t).Perm
        ((new.after requests).tableRows t ++ added) ∧
      added.map (·.values) = [[.int 3], [.int 4]] := by
  intro schema t row requests child plan
  let new : Database := ⟨"/d", ⟨9, 1⟩, Catalog.empty, ⟨⟨[], [["d"]], []⟩, Pool.empty ⟨9, 1⟩⟩⟩
  let heap : HeapFile := ⟨["d", "t.dat"], schema, 9⟩
  have hopen : Database.create Files.empty "/d" ⟨9, 1⟩ = (.ok new, ⟨[], [["d"]], []⟩) := rfl
  have hfile : (new.after requests).catalog.file t = .ok heap := by decide +kernel
  have hschema : (new.after requests).catalog.schema t = .ok schema := Catalog.schema_of_file hfile
  have hmade : child.Made (new.after requests).catalog := by
    have hfilter : Plan.mkFilter ⟨0, .ge, .int 3⟩ (.scan t schema) = .ok child := rfl
    exact .filter (.scan (Plan.mkScan_of_schema hschema)) hfilter
  have hmake : Plan.mkInsert (new.after requests).catalog ⟨0⟩ t child = .ok plan :=
    Plan.mkInsert_of_schema hschema (by decide)
  have hone : ∀ id ∈ t :: child.tables, ∀ h, (new.after requests).catalog.file id = .ok h →
      ∀ d ∈ new.states requests, ∀ g, d.catalog.file id = .ok g → g = h := by
    intro id hid h hknown
    obtain rfl : id = t := List.eq_of_mem_replicate (show id ∈ List.replicate 2 t from hid)
    obtain rfl := Catalog.eq_of_file hfile hknown
    decide +kernel
  have hmeaning : child.meaning (new.after requests).tableRows =
      .ok [⟨schema, [.int 3], some ⟨⟨t, 1⟩, 0⟩⟩, ⟨schema, [.int 4], some ⟨⟨t, 1⟩, 1⟩⟩] := by
    decide +kernel
  have hfree : (new.after requests).freePlaces t = [⟨⟨t, 0⟩, 0⟩] := by decide +kernel
  rcases hstart : (Cursor.ofPlan plan).start (new.after requests).catalog
    (new.after requests).storage with ⟨r, c, s⟩
  obtain rfl : r = .ok () := by
    have hok : ((Cursor.ofPlan plan).start (new.after requests).catalog
      (new.after requests).storage).1 = .ok () := by decide +kernel
    rwa [hstart] at hok
  obtain ⟨rows, added, hrows, -, ⟨c', hcollect⟩, hperm, -, honce⟩ :=
    insert_takes_snapshot hopen rfl hmade rfl hmake hone hstart
  rw [hmeaning] at hrows
  cases hrows
  have hvalues : added.map (·.values) = [[.int 3], [.int 4]] := by
    refine honce fun _ row place own hzip _ => ?_
    rw [hfree] at hzip
    obtain ⟨-, rfl⟩ := Prod.mk.inj (List.mem_singleton.mp hzip)
    exact Nat.zero_le _
  have hcount : added.length = 2 := by
    have hlength := congrArg List.length hvalues
    rwa [List.length_map] at hlength
  rw [hcount] at hcollect
  exact ⟨new, _, c, c', s, added, hopen, hstart, hcollect, hperm, hvalues⟩

/-- **Copies that are met.**  All rows of a table are inserted into that table, and the copy of the
    first one goes to the place of a row that was deleted from the next page: there the scan meets it,
    and of three rows four are stored.  And if a table was registered again with larger pages while
    pages of it were in memory, these pages may leave for those that are written, and then other rows
    are found than before. -/
theorem insert_meets_copies :
    let schema := Schema.single "n" .int
    let t := tableIdOf ["d", "t.dat"]
    let u := tableIdOf ["d", "u.dat"]
    let insert (table : TableId) (n : Int32) : Request :=
      .task (.insertRow ⟨0⟩ table ⟨schema, [.int n], none⟩)
    let counts (pages : Nat) (requests : List Request) (child : Plan) (found count : Nat) : Prop :=
      ∃ new files' plan, Database.create Files.empty "/d" ⟨9, pages⟩ = (.ok new, files') ∧
        child.Made (new.after requests).catalog ∧
        Plan.mkInsert (new.after requests).catalog ⟨0⟩ t child = .ok plan ∧
        (child.readAll (new.after requests).catalog (new.after requests).storage).1.map
          List.length = .ok found ∧
        ((Cursor.ofPlan plan).start (new.after requests).catalog
          (new.after requests).storage).1 = .ok () ∧
        (((Cursor.ofPlan plan).start (new.after requests).catalog
          (new.after requests).storage).2.1.collect (new.after requests).catalog
          ((Cursor.ofPlan plan).start (new.after requests).catalog
            (new.after requests).storage).2.2).1 = [Plan.countRow count]
    counts 4 [.task (.createTable "t" schema), insert t 0, insert t 1, insert t 2, insert t 3,
        .task (.deleteRow ⟨0⟩ (some ⟨⟨t, 1⟩, 0⟩))] (.scan t schema) 3 4 ∧
      counts 2 [.task (.createTable "t" schema), insert t 7, insert t 8, insert t 9,
        .task (.createTable "u" schema), insert u 0, insert u 1, insert u 2, insert u 3, insert u 4,
        .task .flushAll, .task (.getPage ⟨u, 0⟩), .task (.getPage ⟨u, 1⟩),
        .addFile "/d/u.dat" "u" "" schema 18] (.scan u schema) 4 3 := by
  intro schema t u insert counts
  have hmakes : ∀ {catalog : Catalog} {table : TableId}, catalog.schema t = .ok schema →
      catalog.schema table = .ok schema →
      Plan.Made catalog (.scan table schema) ∧ Plan.mkInsert catalog ⟨0⟩ t (.scan table schema) =
        .ok (.insert ⟨0⟩ t (.scan table schema)) := by
    intro catalog table ht htable
    exact ⟨.scan (Plan.mkScan_of_schema htable), Plan.mkInsert_of_schema ht rfl⟩
  constructor
  · refine ⟨⟨"/d", ⟨9, 4⟩, Catalog.empty, ⟨⟨[], [["d"]], []⟩, Pool.empty ⟨9, 4⟩⟩⟩, _, _, rfl,
      (hmakes ?_ ?_).1, (hmakes ?_ ?_).2, ?_, ?_, ?_⟩
    all_goals decide +kernel
  · refine ⟨⟨"/d", ⟨9, 2⟩, Catalog.empty, ⟨⟨[], [["d"]], []⟩, Pool.empty ⟨9, 2⟩⟩⟩, _, _, rfl,
      (hmakes ?_ ?_).1, (hmakes ?_ ?_).2, ?_, ?_, ?_⟩
    all_goals decide +kernel

end Cursor

end RowStore
