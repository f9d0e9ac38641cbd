import RowStore.Proofs.Archive.Ends
import RowStore.Proofs.Cursor.Displays
import RowStore.Proofs.Cursor.Moments

/-!
Passes of a scan while its table is written.

Program.  A scan asks for the number of pages when it begins, takes a page when the rows of the page
before it are used up, and keeps copies of its rows.  Between two calls rows may be stored and deleted on
any page, in front of the scan and behind it, and pages may leave memory and come back.

1. `Shown`: what a pass has shown, that is, given or still holds, after it took some pages.  The rows
   stand by rising page and slot, all on pages that were taken, and no row that was live from the beginning
   is missing: it was shown, was deleted, or is still live on a page to come.
2. `Passing`: that this holds at a moment of a pass, and that every row that was shown was live when its
   page was taken.  A call keeps it (`Passing.call`), a task keeps it (`Passing.task`), so every pass does
   (`Passing.after`).
3. So it is for every pass of every run (`Cursor.scan_is_stable`).

Crux.  What was shown is known by the number of pages that were taken, and the table only by what is
still to come.  So rows that are stored or deleted behind the scan make no difference to it.
-/

namespace RowStore

open Storage Source

/-! ## The order of places -/

/-- On an earlier page, or in an earlier slot of the same page. -/
def RecordId.Before (a b : RecordId) : Prop :=
  a.page.number < b.page.number ∨ a.page.number = b.page.number ∧ a.slot < b.slot

/-- The rows of a page stand by rising slot. -/
theorem Page.increasing_rows (p : Page) :
    (p.rows.filterMap (·.place)).Pairwise RecordId.Before := by
  have hplace : ∀ {i : Nat} {row : Row}, p.row i = some row → row.place = some ⟨p.id, i⟩ := by
    intro i row hrow
    unfold Page.row at hrow
    split at hrow
    · cases hrow
      rfl
    · cases hrow
  unfold Page.rows
  rw [List.pairwise_filterMap, List.pairwise_filterMap]
  refine List.pairwise_lt_range.imp ?_
  intro i j hlt row hrow other hother place hrowPlace place' hotherPlace
  rw [hplace hrow] at hrowPlace
  rw [hplace hother] at hotherPlace
  cases hrowPlace
  cases hotherPlace
  exact Or.inr ⟨rfl, hlt⟩

/-- The rows of a table stand by rising page and slot. -/
theorem PagedTable.Regular.increasing_rows {t : PagedTable} {id : TableId} {pageSize : Nat}
    (hr : t.Regular id pageSize) : (t.rows.filterMap (·.place)).Pairwise RecordId.Before := by
  unfold PagedTable.rows
  rw [List.filterMap_flatMap, List.pairwise_flatMap]
  refine ⟨fun p _ => p.increasing_rows, ?_⟩
  rw [List.pairwise_iff_getElem]
  intro n n' hn hn' hlt place hplace place' hplace'
  obtain ⟨row, hrow, hsome⟩ := List.mem_filterMap.mp hplace
  obtain ⟨row', hrow', hsome'⟩ := List.mem_filterMap.mp hplace'
  obtain ⟨slot, hslot⟩ := Page.place_of_mem_rows hrow
  obtain ⟨slot', hslot'⟩ := Page.place_of_mem_rows hrow'
  rw [hslot, hr.pageId n _ (List.getElem?_eq_getElem hn)] at hsome
  rw [hslot', hr.pageId n' _ (List.getElem?_eq_getElem hn')] at hsome'
  cases hsome
  cases hsome'
  exact Or.inl hlt

/-! ## What a pass has shown -/

/-- What a pass has shown after it took `count` pages.  The rows of `live` were live when it began, rows
    were deleted at the places of `deleted` since then, and the table is `now`. -/
structure Shown (id : TableId) (live : List Row) (now : PagedTable) (deleted : List RecordId)
    (count : Nat) (shown : List Row) : Prop where
  /-- Every row is on a page that was taken. -/
  placed : ∀ row ∈ shown, ∃ place, row.place = some place ∧ place.page.table = id ∧
    place.page.number < count
  /-- The rows stand by rising page and slot. -/
  increasing : (shown.filterMap (·.place)).Pairwise RecordId.Before
  /-- No row is missing. -/
  covered : ∀ row ∈ live, row ∈ shown ∨ (∃ place ∈ deleted, row.place = some place) ∨
    (row ∈ now.rows ∧ ∃ place, row.place = some place ∧ count ≤ place.page.number)

namespace Shown

variable {id : TableId} {live shown : List Row} {now now' : PagedTable}
  {deleted more : List RecordId} {count pageSize : Nat} {p : Page}

/-- Nothing was shown before the first page. -/
theorem nothing (now : PagedTable) : Shown id now.rows now [] 0 [] where
  placed := nofun
  increasing := List.Pairwise.nil
  covered := by
    intro row hrow
    obtain ⟨n, p, -, hmem⟩ := PagedTable.mem_rows_iff.mp hrow
    obtain ⟨slot, hplace⟩ := Page.place_of_mem_rows hmem
    exact Or.inr (Or.inr ⟨hrow, _, hplace, Nat.zero_le _⟩)

/-- One page more. -/
theorem page (hshown : Shown id live now deleted count shown) (hr : now.Regular id pageSize)
    (hpage : now.pages[count]? = some p) : Shown id live now deleted (count + 1) (shown ++ p.rows) where
  placed := by
    intro row hrow
    rcases List.mem_append.mp hrow with hold | hnew
    · obtain ⟨place, hplace, htable, hlt⟩ := hshown.placed row hold
      exact ⟨place, hplace, htable, Nat.lt_succ_of_lt hlt⟩
    · obtain ⟨slot, hplace⟩ := Page.place_of_mem_rows hnew
      rw [hr.pageId count p hpage] at hplace
      exact ⟨_, hplace, rfl, Nat.lt_succ_self count⟩
  increasing := by
    rw [List.filterMap_append, List.pairwise_append]
    refine ⟨hshown.increasing, p.increasing_rows, ?_⟩
    intro place hold place' hnew
    left
    obtain ⟨row, hrow, hrowPlace⟩ := List.mem_filterMap.mp hold
    obtain ⟨place₁, hplace₁, -, hlt⟩ := hshown.placed row hrow
    obtain ⟨other, hother, hotherPlace⟩ := List.mem_filterMap.mp hnew
    obtain ⟨slot, hplace₂⟩ := Page.place_of_mem_rows hother
    rw [hplace₁] at hrowPlace
    rw [hplace₂, hr.pageId count p hpage] at hotherPlace
    cases hrowPlace
    cases hotherPlace
    exact hlt
  covered := by
    intro row hrow
    obtain hold | hdeleted | ⟨hnow, place, hplace, hle⟩ := hshown.covered row hrow
    · exact Or.inl (List.mem_append_left _ hold)
    · exact Or.inr (Or.inl hdeleted)
    · -- the row is on the new page or on a later one
      obtain ⟨n, slot, q, hplace', hq, hmem⟩ := hr.page_of_mem_rows hnow
      rw [hplace] at hplace'
      cases hplace'
      rcases Nat.eq_or_lt_of_le hle with heq | hlt
      · have hn : count = n := heq
        rw [← hn, hpage] at hq
        cases hq
        exact Or.inl (List.mem_append_right _ hmem)
      · exact Or.inr (Or.inr ⟨hnow, _, hplace, hlt⟩)

/-- The table changes, and rows stay live unless they are deleted. -/
theorem change (hshown : Shown id live now deleted count shown)
    (hkept : ∀ row ∈ now.rows, row ∈ now'.rows ∨ ∃ place ∈ more, row.place = some place) :
    Shown id live now' (deleted ++ more) count shown where
  placed := hshown.placed
  increasing := hshown.increasing
  covered := by
    intro row hrow
    obtain hold | ⟨place, hmem, hplace⟩ | ⟨hnow, hahead⟩ := hshown.covered row hrow
    · exact Or.inl hold
    · exact Or.inr (Or.inl ⟨place, List.mem_append_left _ hmem, hplace⟩)
    · rcases hkept row hnow with hnow' | ⟨place, hmem, hplace⟩
      · exact Or.inr (Or.inr ⟨hnow', hahead⟩)
      · exact Or.inr (Or.inl ⟨place, List.mem_append_right _ hmem, hplace⟩)

/-- When all pages were taken, every row was shown that was not deleted. -/
theorem all (hshown : Shown id live now deleted count shown)
    (hlive : ∀ row ∈ live, ∀ place, row.place = some place → place.page.number < count) :
    ∀ row ∈ live, row ∈ shown ∨ ∃ place ∈ deleted, row.place = some place := by
  intro row hrow
  obtain hold | hdeleted | ⟨-, place, hplace, hle⟩ := hshown.covered row hrow
  · exact Or.inl hold
  · exact Or.inr hdeleted
  · exact absurd (hlive row hrow place hplace) (Nat.not_lt.mpr hle)

end Shown

/-! ## One call -/

section OneCall

variable {catalog : Catalog} {table : TableId} {schema : Schema} {s s' : Storage}
  {J : Nat → List Row → Storage → Prop} {given : List Row} {last : Nat}

/-- An open scan that took some of the pages up to `last`: `J` says of their number and of the rows that
    they had, those that were given and those that it holds, what is to be known of the storage. -/
structure Source.Scan.Holding (J : Nat → List Row → Storage → Prop) (given : List Row) (last : Nat)
    (g : Guarded Scan) (s : Storage) : Prop where
  isOpen : g.isOpen = true
  count : g.inner.count = last
  le : g.inner.next ≤ last
  holds : J g.inner.next (given ++ (g.ahead.toList ++ g.inner.buffer)) s

/-- No page is left to take, and no row to give. -/
def Source.Scan.AtEnd (last : Nat) (g : Guarded Scan) : Prop :=
  g.ahead = none ∧ g.inner.next = last ∧ g.inner.buffer = []

variable {g g' : Guarded (ofTable table schema).State}
  (hpage : ∀ {n s r s'}, n < last → J n given s → s.getPage catalog ⟨table, n⟩ = (r, s') →
    (∃ frame, r = .ok frame ∧ J (n + 1) (given ++ frame.page.rows) s') ∨
    (∃ e, r = .error e ∧ e ≠ .noMoreRows ∧ J n given s'))

include hpage

/-- Looking for a further row takes pages until one of them has a row. -/
theorem hasNext_of_scan (hg : Scan.Holding J given last g s) {r : Except Error Bool}
    (h : Guarded.hasNext catalog g s = (r, g', s')) :
    Scan.Holding J given last g' s' ∧ r ≠ .error .noMoreRows ∧
      ∀ any, r = .ok any → any = g'.ahead.isSome ∧ (any = false → Scan.AtEnd last g') := by
  obtain ⟨isOpen, ahead, scan⟩ := g
  obtain ⟨rfl, rfl, hle, hJ⟩ := hg
  cases ahead with
  | some row =>
    cases h
    refine ⟨⟨rfl, rfl, hle, hJ⟩, nofun, ?_⟩
    rintro _ ⟨⟩
    exact ⟨rfl, nofun⟩
  | none =>
    rcases hfetch : (ofTable table schema).fetch catalog scan s with ⟨result, scan₁, s₁⟩
    obtain ⟨hcount, hle₁, ending, found, htaken, rfl⟩ := Scan.fetch_take hle hpage hJ hfetch
    simp only [Guarded.hasNext, Bool.not_true, Bool.false_eq_true, if_false, hfetch] at h
    cases htaken with
    | failed he hJ₁ =>
      cases h
      exact ⟨⟨rfl, hcount, hle₁, hJ₁⟩, fun hover => he (Except.error.inj hover), nofun⟩
    | row hJ₁ =>
      cases h
      refine ⟨⟨rfl, hcount, hle₁, hJ₁⟩, nofun, ?_⟩
      rintro _ ⟨⟩
      exact ⟨rfl, nofun⟩
    | ended hnext hbuffer hJ₁ =>
      cases h
      refine ⟨⟨rfl, hcount, hle₁, ?_⟩, nofun, ?_⟩
      · show J scan₁.next (given ++ ([] ++ scan₁.buffer)) s'
        rwa [hbuffer, List.append_nil, List.append_nil]
      · rintro _ ⟨⟩
        exact ⟨rfl, fun _ => ⟨rfl, hnext.trans hcount, hbuffer⟩⟩

/-- Asking for the next row gives the first of those that are held. -/
theorem next_of_scan (hg : Scan.Holding J given last g s) {r : Except Error Row}
    (h : Guarded.next catalog g s = (r, g', s')) :
    (∃ row, r = .ok row ∧ Scan.Holding J (given ++ [row]) last g' s') ∨
    (∃ e, r = .error e ∧ Scan.Holding J given last g' s' ∧ (e = .noMoreRows → Scan.AtEnd last g')) := by
  unfold Guarded.next at h
  rcases hnext : Guarded.hasNext catalog g s with ⟨result, g₁, s₁⟩
  obtain ⟨hg₁, hne, hany⟩ := hasNext_of_scan hpage hg hnext
  rw [hnext] at h
  cases result with
  | error e =>
    cases h
    exact Or.inr ⟨e, rfl, hg₁, fun hover => absurd (congrArg Except.error hover) hne⟩
  | ok any =>
    obtain ⟨rfl, hend⟩ := hany any rfl
    obtain ⟨isOpen, ahead, scan⟩ := g₁
    cases ahead with
    | none =>
      cases h
      exact Or.inr ⟨_, rfl, hg₁, fun _ => hend rfl⟩
    | some row =>
      cases h
      refine Or.inl ⟨row, rfl, hg₁.isOpen, hg₁.count, hg₁.le, ?_⟩
      show J scan.next (given ++ [row] ++ ([] ++ scan.buffer)) s'
      have hJ₁ : J scan.next (given ++ ([row] ++ scan.buffer)) s' := hg₁.holds
      rwa [List.append_assoc]

/-- What a scan answers in a pass, and what it holds afterwards. -/
theorem call_of_scan {g : Guarded (Plan.scan table schema).source.State}
    (hg : Scan.Holding J given last g s) {call : Call}
    (hcall : call = .hasNext ∨ call = .next) {answer : Except Error Reply} {c : Cursor}
    (h : Cursor.call catalog ⟨.scan table schema, g⟩ s call = (answer, c, s')) :
    ∃ g', c = ⟨.scan table schema, g'⟩ ∧
      Scan.Holding J (given ++ (Reply.given? answer).toList) last g' s' ∧
      (Reply.IsLast answer → Scan.AtEnd last g') := by
  rcases hcall with rfl | rfl
  · unfold Cursor.call Cursor.hasNext at h
    rcases hnext : Guarded.hasNext catalog g s with ⟨r, g₁, s₁⟩
    obtain ⟨hg₁, hne, hany⟩ := hasNext_of_scan hpage hg hnext
    rw [← List.append_nil given] at hg₁
    rw [hnext] at h
    cases h
    refine ⟨g₁, rfl, ?_, ?_⟩
    · cases r <;> exact hg₁
    · rintro (hlast | hlast)
      · cases r with
        | error e => cases hlast
        | ok any =>
          cases hlast
          exact (hany false rfl).2 rfl
      · cases r with
        | error e =>
          cases hlast
          exact absurd rfl hne
        | ok any => cases hlast
  · unfold Cursor.call Cursor.next at h
    rcases hnext : Guarded.next catalog g s with ⟨r, g₁, s₁⟩
    rw [hnext] at h
    cases h
    obtain ⟨row, rfl, hg₁⟩ | ⟨e, rfl, hg₁, hlast⟩ := next_of_scan hpage hg hnext
    · refine ⟨g₁, rfl, hg₁, ?_⟩
      rintro (hlast | hlast) <;> cases hlast
    · rw [← List.append_nil given] at hg₁
      refine ⟨g₁, rfl, hg₁, ?_⟩
      rintro (hover | hover)
      · cases hover
      · cases hover
        exact hlast rfl

end OneCall

/-! ## Moments of a pass -/

/-- How many pages a scan took since it began. -/
def Cursor.pagesTaken : Cursor → Nat
  | ⟨.scan _ _, g⟩ =>
    let scan : Scan := g.inner
    scan.next
  | _ => 0

namespace Moment

/-- The page with this number is taken at this moment. -/
def Takes (m : Moment) (n : Nat) : Prop := m.cursor.pagesTaken ≤ n ∧ n < m.next.1.pagesTaken

/-- The row was live in the table when its page was taken, at one of these moments. -/
def Found (moments : List Moment) (id : TableId) (row : Row) : Prop :=
  ∃ m ∈ moments, row ∈ m.db.tableRows id ∧ ∃ place, row.place = some place ∧ m.Takes place.page.number

theorem Found.mono {moments more : List Moment} {id : TableId} {row : Row} (h : Found moments id row) :
    Found (moments ++ more) id row := by
  obtain ⟨m, hm, hrow⟩ := h
  exact ⟨m, List.mem_append_left _ hm, hrow⟩

end Moment

/-- The rows of a table are on the pages that its file has. -/
theorem HeapFile.Displays.number_lt {h : HeapFile} {now : PagedTable} {s : Storage} (hd : h.Displays now s)
    (hs : s.pool.Sound) : ∀ row ∈ now.rows, ∀ place, row.place = some place →
      place.page.number < h.numPages s.files := by
  intro row hrow place hplace
  rcases hd with hh | ⟨-, hnone⟩
  · obtain ⟨n, slot, p, hplace', hpage, -⟩ := (hh.regular hs).page_of_mem_rows hrow
    rw [hplace] at hplace'
    cases hplace'
    rw [hh.numPages hs]
    exact (List.getElem?_eq_some_iff.mp hpage).1
  · rw [PagedTable.rows, hnone] at hrow
    cases hrow

section Pass

variable {h : HeapFile} {schema : Schema} {live : List Row} {last : Nat} {past : List Moment}
  {g : Guarded Scan} {db : Database}

/-- What is known at a moment of a pass, after the moments of `past`: what was shown, and that every row of
    it was live when its page was taken. -/
structure Passing (h : HeapFile) (live : List Row) (last : Nat) (past : List Moment)
    (g : Guarded Scan) (db : Database) : Prop where
  sound : db.storage.pool.Sound
  shown : ∃ now, h.Displays now db.storage ∧
    Scan.Holding
      (fun n shown _ => Shown h.id live now (past.filterMap Moment.deleted?) n shown ∧
        ∀ row ∈ shown, Moment.Found past h.id row)
      (past.filterMap Moment.given?) last g db.storage

/-- What is known while a call is made that found the table to be `now`, after `first` pages: a row was
    live when its page was taken, before the call or during it. -/
structure Calling (h : HeapFile) (live : List Row) (past : List Moment) (now : PagedTable) (first n : Nat)
    (rows : List Row) (s : Storage) : Prop where
  sound : s.pool.Sound
  displays : h.Displays now s
  le : first ≤ n
  shown : Shown h.id live now (past.filterMap Moment.deleted?) n rows
  found : ∀ row ∈ rows, Moment.Found past h.id row ∨
    (row ∈ now.rows ∧ ∃ place, row.place = some place ∧ first ≤ place.page.number ∧
      place.page.number < n)

/-- A page is taken. -/
theorem Calling.page {now : PagedTable} {first n : Nat} {rows : List Row} {s s' : Storage}
    {catalog : Catalog} (hcalling : Calling h live past now first n rows s)
    (hfile : catalog.file h.id = .ok h) {r : Except Error Frame}
    (hget : s.getPage catalog ⟨h.id, n⟩ = (r, s')) :
    (∃ frame, r = .ok frame ∧ Calling h live past now first (n + 1) (rows ++ frame.page.rows) s') ∨
    (∃ e, r = .error e ∧ e ≠ .noMoreRows ∧ Calling h live past now first n rows s') := by
  obtain ⟨hs, hd, hle, hshown, hfound⟩ := hcalling
  have hquiet : Quiet catalog s s' := getPage_steps hs hget
  have hd' := hd.quiet hs hfile hquiet
  have hs' := hquiet.sound hs
  cases r with
  | error e =>
    have hne : e ≠ .noMoreRows := (failed_getPage hs hget).ne_of_cursor (Or.inr rfl)
    exact Or.inr ⟨e, rfl, hne, hs', hd', hle, hshown, hfound⟩
  | ok frame =>
    obtain ⟨hh, hpage⟩ := hd.getPage_ok hs hfile hget
    have hr := hh.regular hs
    have hshown' : Shown h.id live now _ (n + 1) (rows ++ frame.page.clean.rows) := hshown.page hr hpage
    refine Or.inl ⟨frame, rfl, hs', hd', Nat.le_succ_of_le hle, hshown', ?_⟩
    intro row hrow
    rcases List.mem_append.mp hrow with hold | hnew
    · rcases hfound row hold with hbefore | ⟨hnow, place, hplace, hge, hlt⟩
      · exact Or.inl hbefore
      · exact Or.inr ⟨hnow, place, hplace, hge, Nat.lt_succ_of_lt hlt⟩
    · obtain ⟨slot, hplace⟩ := Page.place_of_mem_rows hnew
      have hnow : row ∈ now.rows := PagedTable.mem_rows_iff.mpr ⟨n, _, hpage, hnew⟩
      have hnumber : frame.page.id.number = n := congrArg PageId.number (hr.pageId n _ hpage)
      refine Or.inr ⟨hnow, _, hplace, ?_, ?_⟩
      · show first ≤ frame.page.id.number
        omega
      · show frame.page.id.number < n + 1
        omega

/-- **A call of a pass.**  If the cursor says that no row is left, every row that was live when the pass
    began was given or deleted. -/
theorem Passing.call (hp : Passing h live last past g db)
    (hfile : db.catalog.file h.id = .ok h)
    (hlive : ∀ row ∈ live, ∀ place, row.place = some place → place.page.number < last) {call : Call}
    (hcall : call = .hasNext ∨ call = .next) {m : Moment}
    (hm : m = ⟨⟨.scan h.id schema, g⟩, db, .call call⟩) :
    (∃ g' db', m.next = (⟨.scan h.id schema, g'⟩, db') ∧ Passing h live last (past ++ [m]) g' db') ∧
    (m.IsLast → ∀ row ∈ live, row ∈ past.filterMap Moment.given? ∨
      ∃ place ∈ past.filterMap Moment.deleted?, row.place = some place) := by
  obtain ⟨hs, ⟨now, hd, hopen, hcount, hle, hshown, hfound⟩⟩ := hp
  have hg : Scan.Holding (Calling h live past now g.inner.next) (past.filterMap Moment.given?) last g
      db.storage :=
    ⟨hopen, hcount, hle, hs, hd, Nat.le_refl _, hshown, fun row hrow => Or.inl (hfound row hrow)⟩
  rcases hmade : Cursor.call db.catalog ⟨.scan h.id schema, g⟩ db.storage call with ⟨answer, c', s'⟩
  obtain ⟨g', rfl, hg', hend⟩ :=
    call_of_scan (fun _ hcalling hget => hcalling.page hfile hget) hg hcall hmade
  have hmove : m.move = .call call := by rw [hm]
  have hmade' : m.cursor.call m.db.catalog m.db.storage call = (answer, ⟨.scan h.id schema, g'⟩, s') := by
    rw [hm]
    exact hmade
  obtain ⟨hnext, hanswer, hgiven, hdeleted⟩ := Moment.of_call hmove hmade'
  have hgivens : (past ++ [m]).filterMap Moment.given? =
      past.filterMap Moment.given? ++ (Reply.given? answer).toList := by
    rw [List.filterMap_append, List.filterMap_cons, hgiven]
    cases Reply.given? answer <;> rfl
  have hdeletes : (past ++ [m]).filterMap Moment.deleted? = past.filterMap Moment.deleted? := by
    rw [List.filterMap_append, List.filterMap_cons_none hdeleted, List.filterMap_nil, List.append_nil]
  obtain ⟨hopen', hcount', hle', hs', hd', -, hshown', hfound'⟩ := hg'
  constructor
  · refine ⟨g', _, hnext, ?_, now, ?_, hopen', hcount', hle', ?_, ?_⟩
    · exact hs'
    · rw [hm]
      exact hd'
    · rw [hgivens, hdeletes]
      exact hshown'
    · intro row hrow
      rw [hgivens] at hrow
      rcases hfound' row hrow with hbefore | ⟨hnow, place, hplace, hge, hlt⟩
      · exact hbefore.mono
      · refine ⟨m, List.mem_append_right _ List.mem_cons_self, ?_, place, hplace, ?_⟩
        · rw [hm, hd.tableRows hs hfile]
          exact hnow
        · rw [Moment.Takes, hnext, hm]
          exact ⟨hge, hlt⟩
  · rintro ⟨_, hsaid, hlast⟩
    obtain rfl := Option.some.inj (hanswer.symm.trans hsaid)
    obtain ⟨hahead, hall, hbuffer⟩ := hend hlast
    have hnone : Reply.given? answer = none := by
      rcases hlast with rfl | rfl <;> rfl
    -- every row that was shown was given before
    simp only [hnone, hahead, hbuffer, hall, Option.toList_none, List.append_nil] at hshown'
    exact hshown'.all hlive

/-- **A task in a pass.** -/
theorem Passing.task (hp : Passing h live last past g db) (hfile : db.catalog.file h.id = .ok h)
    {task : Task} (hrow : ∀ tid table row, task = .insertRow tid table row → row.Conforms) {m : Moment}
    (hm : m = ⟨⟨.scan h.id schema, g⟩, db, .request (.task task)⟩) :
    Passing h live last (past ++ [m]) g (db.performTask task).2 := by
  obtain ⟨hs, ⟨now, hd, hopen, hcount, hle, hshown, hfound⟩⟩ := hp
  obtain ⟨now', hd', hkept⟩ := hd.performTask hs hfile hrow
  have hmove : m.move = .request (.task task) := by rw [hm]
  obtain ⟨-, hgiven⟩ := Moment.of_request hmove
  have hgivens : (past ++ [m]).filterMap Moment.given? = past.filterMap Moment.given? := by
    rw [List.filterMap_append, List.filterMap_cons_none hgiven, List.filterMap_nil, List.append_nil]
  refine ⟨(Database.perform_steps hs (.task task)).sound hs, now', hd', hopen, hcount, hle, ?_, ?_⟩
  · rw [hgivens, List.filterMap_append]
    refine hshown.change fun row hnow => ?_
    rcases hkept row hnow with hnow' | ⟨tid, place, rfl, hplace, hdone⟩
    · exact Or.inl hnow'
    · have hdeleted : m.deleted? = some place := by
        rw [hm]
        simp only [Moment.deleted?, hdone]
      refine Or.inr ⟨place, ?_, hplace⟩
      rw [List.filterMap_cons_some hdeleted]
      exact List.mem_cons_self
  · intro row hmem
    rw [hgivens] at hmem
    exact (hfound row hmem).mono

/-- What may happen in a pass: rows are looked for and taken, and others do their tasks. -/
def Move.InPass : Move → Prop
  | .call asked => asked = .hasNext ∨ asked = .next
  | .request done => ∃ task, done = .task task ∧
    ∀ tid table row, task = .insertRow tid table row → row.Conforms

/-- **The moves of a pass**, one after the other. -/
theorem Passing.after (hp : Passing h live last past g db)
    (hlive : ∀ row ∈ live, ∀ place, row.place = some place → place.page.number < last)
    {moves : List Move} (hmoves : ∀ move ∈ moves, move.InPass)
    (hstays : ∀ d ∈ Cursor.stores ⟨.scan h.id schema, g⟩ db moves, d.catalog.file h.id = .ok h) :
    ∃ g', (Cursor.after ⟨.scan h.id schema, g⟩ db moves).1 = ⟨.scan h.id schema, g'⟩ ∧
      Passing h live last (past ++ Cursor.moments ⟨.scan h.id schema, g⟩ db moves) g'
        (Cursor.after ⟨.scan h.id schema, g⟩ db moves).2 := by
  induction moves generalizing past g db with
  | nil =>
    refine ⟨g, rfl, ?_⟩
    show Passing h live last (past ++ []) g db
    rwa [List.append_nil]
  | cons move moves ih =>
    have hfile := hstays db (Cursor.mem_stores _ _ _)
    let m : Moment := ⟨⟨.scan h.id schema, g⟩, db, move⟩
    obtain ⟨g₁, db₁, hnext, hp₁⟩ : ∃ g₁ db₁, m.next = (⟨.scan h.id schema, g₁⟩, db₁) ∧
        Passing h live last (past ++ [m]) g₁ db₁ := by
      have hmove := hmoves move List.mem_cons_self
      cases move with
      | call call => exact (hp.call hfile hlive hmove rfl).1
      | request request =>
        obtain ⟨task, rfl, hrow⟩ := hmove
        exact ⟨g, _, rfl, hp.task hfile hrow rfl⟩
    have hmove : Cursor.move ⟨.scan h.id schema, g⟩ db move = (⟨.scan h.id schema, g₁⟩, db₁) := hnext
    have hstays₁ : ∀ d ∈ Cursor.stores ⟨.scan h.id schema, g₁⟩ db₁ moves,
        d.catalog.file h.id = .ok h := by
      intro d hd
      apply hstays d
      apply List.mem_cons_of_mem
      rwa [hmove]
    obtain ⟨g', hafter, hp'⟩ := ih hp₁ (fun move hmem => hmoves move (List.mem_cons_of_mem _ hmem)) hstays₁
    rw [List.append_assoc] at hp'
    refine ⟨g', ?_, ?_⟩
    · show (Cursor.after (Cursor.move _ db move).1 (Cursor.move _ db move).2 moves).1 = _
      rw [hmove]
      exact hafter
    · show Passing h live last
        (past ++ m :: Cursor.moments (Cursor.move _ db move).1 (Cursor.move _ db move).2 moves) g'
        (Cursor.after (Cursor.move _ db move).1 (Cursor.move _ db move).2 moves).2
      rw [hmove]
      exact hp'

/-- **The end of a pass.**  When the scan says that no row is left, every row that was live when the pass
    began was given or deleted. -/
theorem Passing.all_shown (hp : Passing h live last [] g db)
    (hlive : ∀ row ∈ live, ∀ place, row.place = some place → place.page.number < last)
    {moves : List Move} (hmoves : ∀ move ∈ moves, move.InPass)
    (hstays : ∀ d ∈ Cursor.stores ⟨.scan h.id schema, g⟩ db moves, d.catalog.file h.id = .ok h)
    {early late : List Moment} {m : Moment}
    (hmoments : Cursor.moments ⟨.scan h.id schema, g⟩ db moves = early ++ m :: late) (hlast : m.IsLast) :
    ∀ row ∈ live, row ∈ early.filterMap Moment.given? ∨
      ∃ place ∈ early.filterMap Moment.deleted?, row.place = some place := by
  obtain ⟨part, rest, rfl, rfl, hat⟩ := Cursor.split_of_moments hmoments
  obtain ⟨g₁, hcursor, hp₁⟩ := hp.after hlive
    (fun move hmem => hmoves move (List.mem_append_left _ hmem))
    (fun d hd => hstays d (Cursor.mem_stores_of_first hd))
  rw [hat, List.nil_append] at hp₁
  rw [hat] at hcursor
  obtain ⟨cursor, d, move⟩ := m
  obtain rfl : cursor = ⟨.scan h.id schema, g₁⟩ := hcursor
  have hmove := hmoves move (List.mem_append_right _ List.mem_cons_self)
  cases move with
  | request request =>
    -- a request does not say that no row is left
    obtain ⟨answer, hnone, -⟩ := hlast
    cases hnone
  | call call =>
    have hstore := Cursor.after_mem_stores ⟨.scan h.id schema, g⟩ db part (.call call :: rest)
    rw [hat] at hstore
    exact (hp₁.call (hstays d hstore) hlive hmove rfl).2 hlast

/-- A pass begins with the first page, and with as many pages to take as the table has then. -/
theorem Cursor.begin_scan {g : Guarded (Plan.scan h.id schema).source.State} {catalog : Catalog}
    {s s' : Storage} (hfile : catalog.file h.id = .ok h) {begin : Call}
    (hbegin : begin = .start ∨ begin = .rewind) {c : Cursor}
    (hbegun : Cursor.call catalog ⟨.scan h.id schema, g⟩ s begin = (.ok .done, c, s')) :
    s' = s ∧ c = ⟨.scan h.id schema, ⟨true, none, (⟨h.numPages s.files, 0, []⟩ : Scan)⟩⟩ := by
  have hstart : ∀ scan, (Plan.scan h.id schema).source.start catalog scan s =
      (.ok (), (⟨h.numPages s.files, 0, []⟩ : Scan), s) := fun scan => Scan.start_of_file hfile scan s
  have hrewind : ∀ scan, (Plan.scan h.id schema).source.rewind catalog scan s =
      (.ok (), (⟨h.numPages s.files, 0, []⟩ : Scan), s) := fun _ => Scan.start_of_file hfile Scan.nothing s
  obtain ⟨isOpen, ahead, scan⟩ := g
  rcases hbegin with rfl | rfl
  · simp only [Cursor.call, Cursor.start, Guarded.start, hstart, Reply.of] at hbegun
    cases hbegun
    exact ⟨rfl, rfl⟩
  · cases isOpen with
    | false => cases hbegun
    | true =>
      simp only [Cursor.call, Cursor.rewind, Guarded.rewind, hrewind, Reply.of, Bool.not_true,
        Bool.false_eq_true, if_false] at hbegun
      cases hbegun
      exact ⟨rfl, rfl⟩

end Pass

/-! ## Runs -/

namespace Cursor

variable {h : HeapFile} {schema : Schema}

/-- In a store that was opened and asked, a table that stayed the same file is one that an archive can have,
    whatever a cursor and others did. -/
theorem table_after {files files' : Files} {directory : String} {config : Config} {new : Database}
    (hopen : Database.create files directory config = (.ok new, files')) {requests : List Request}
    (hone : ∀ d ∈ new.states requests, ∀ g, d.catalog.file h.id = .ok g → g = h) {plan : Plan}
    {moves : List Move}
    (hstays : ∀ d ∈ (Cursor.ofPlan plan).stores (new.after requests) moves, d.catalog.file h.id = .ok h) :
    (∃ g, ((Cursor.ofPlan plan).after (new.after requests) moves).1 = ⟨plan, g⟩) ∧
      ((Cursor.ofPlan plan).after (new.after requests) moves).2.storage.pool.Sound ∧
      ∃ now, h.Displays now ((Cursor.ofPlan plan).after (new.after requests) moves).2.storage := by
  have hknown := hstays _ (mem_stores _ _ _)
  have hdisplays : Displays (new.after requests).catalog [h.id] (new.after requests).paged
      (new.after requests).storage := by
    refine ⟨(Database.sound_of_create hopen requests).1, fun id hid => ?_⟩
    obtain rfl := List.mem_singleton.mp hid
    exact ⟨h, hknown, Database.paged_after hopen hknown hone⟩
  have hstill : ∀ d ∈ (Cursor.ofPlan plan).stores (new.after requests) moves,
      ∀ id ∈ [h.id], d.catalog.file id = (new.after requests).catalog.file id := by
    intro d hd id hid
    obtain rfl := List.mem_singleton.mp hid
    exact (hstays d hd).trans hknown.symm
  obtain ⟨hcursor, hafter⟩ := displays_after hdisplays hstill
  refine ⟨hcursor, hafter.sound, ?_⟩
  obtain ⟨h', hfile', hd⟩ := hafter.held h.id (List.mem_singleton.mpr rfl)
  have hlast := after_mem_stores (Cursor.ofPlan plan) (new.after requests) moves []
  rw [List.append_nil] at hlast
  obtain rfl := Catalog.eq_of_file (hstays _ hlast) hfile'
  exact ⟨_, hd⟩

/-- **Scans are stable.**  In a store that was opened and asked, a scan is used in any way, and then begins a
    pass, in which others store and delete rows of any tables, read pages and write them back between its
    calls.  The rows that it gives stand by rising page and slot, on pages that the table had when the pass
    began, and each was live when its page was taken.  When the scan says that no row is left, it has given
    every row that was live when the pass began, but for those that were deleted since.

    The table must have been the same file with the same schema and page size as long as there was one, and
    it must stay registered. -/
theorem scan_is_stable {files files' : Files} {directory : String} {config : Config} {new db : Database}
    (hopen : Database.create files directory config = (.ok new, files')) {requests : List Request}
    (hreach : new.after requests = db)
    (hone : ∀ d ∈ new.states requests, ∀ g, d.catalog.file h.id = .ok g → g = h)
    {before pass : List Move} {begin : Call} (hbegin : begin = .start ∨ begin = .rewind)
    (hstays : ∀ d ∈ (Cursor.ofPlan (.scan h.id schema)).stores db (before ++ .call begin :: pass),
      d.catalog.file h.id = .ok h)
    (hpass : ∀ move ∈ pass, move.InPass) {c : Cursor} {first : Database}
    (hbefore : (Cursor.ofPlan (.scan h.id schema)).after db before = (c, first))
    (hbegun : (c.call first.catalog first.storage begin).1 = .ok .done) {moments : List Moment}
    (hmoments : (c.move first (.call begin)).1.moments (c.move first (.call begin)).2 pass = moments) :
    ((moments.filterMap Moment.given?).filterMap (·.place)).Pairwise RecordId.Before ∧
    (∀ row ∈ moments.filterMap Moment.given?, ∃ place, row.place = some place ∧
      place.page.table = h.id ∧ place.page.number < h.numPages first.storage.files ∧
      ∃ m ∈ moments, m.Takes place.page.number ∧ row ∈ m.db.tableRows h.id) ∧
    ∀ early m late, moments = early ++ m :: late → m.IsLast → ∀ row ∈ first.tableRows h.id,
      row ∈ early.filterMap Moment.given? ∨
        ∃ place ∈ early.filterMap Moment.deleted?, row.place = some place := by
  subst hreach
  obtain ⟨⟨g, hcursor⟩, hs, now, hd⟩ := table_after hopen hone fun d hd => hstays d (mem_stores_of_first hd)
  rw [hbefore] at hcursor hs hd
  obtain rfl : c = ⟨.scan h.id schema, g⟩ := hcursor
  have hrest : ∀ d ∈ Cursor.stores ⟨.scan h.id schema, g⟩ first (.call begin :: pass),
      d.catalog.file h.id = .ok h := by
    intro d hd
    apply hstays d
    apply mem_stores_of_second
    rwa [hbefore]
  have hfile : first.catalog.file h.id = .ok h := hrest first (mem_stores _ _ _)
  -- the pass begins, and nothing else happens
  rcases hcall : Cursor.call first.catalog ⟨.scan h.id schema, g⟩ first.storage begin with ⟨r, c', s'⟩
  obtain rfl : r = .ok .done := by rwa [hcall] at hbegun
  obtain ⟨rfl, rfl⟩ := begin_scan hfile hbegin hcall
  let g₀ : Guarded Scan := ⟨true, none, ⟨h.numPages first.storage.files, 0, []⟩⟩
  have hmove : Cursor.move ⟨.scan h.id schema, g⟩ first (.call begin) = (⟨.scan h.id schema, g₀⟩, first) := by
    simp only [Cursor.move, hcall]
    rfl
  rw [hmove] at hmoments
  have hstays₀ : ∀ d ∈ Cursor.stores ⟨.scan h.id schema, g₀⟩ first pass, d.catalog.file h.id = .ok h := by
    intro d hd
    apply hrest d
    apply List.mem_cons_of_mem
    rwa [hmove]
  have hp : Passing h now.rows (h.numPages first.storage.files) [] g₀ first :=
    ⟨hs, now, hd, rfl, rfl, Nat.zero_le _, .nothing now, fun _ hno => absurd hno List.not_mem_nil⟩
  have hlive := hd.number_lt hs
  rw [hd.tableRows hs hfile]
  obtain ⟨g', -, hp'⟩ := hp.after hlive hpass hstays₀
  rw [List.nil_append, show Cursor.moments _ first pass = moments from hmoments] at hp'
  obtain ⟨-, now', -, -, -, hle', hshown, hfound⟩ := hp'
  refine ⟨?_, ?_, ?_⟩
  · have hall := hshown.increasing
    rw [List.filterMap_append, List.pairwise_append] at hall
    exact hall.1
  · intro row hrow
    have hmem := List.mem_append_left (g'.ahead.toList ++ g'.inner.buffer) hrow
    obtain ⟨place, hplace, htable, hlt⟩ := hshown.placed row hmem
    obtain ⟨m, hm, hnow, place', hplace', htakes⟩ := hfound row hmem
    rw [hplace] at hplace'
    cases hplace'
    exact ⟨place, hplace, htable, Nat.lt_of_lt_of_le hlt hle', m, hm, htakes, hnow⟩
  · rintro early m late rfl hlast
    exact hp.all_shown hlive hpass hstays₀ hmoments hlast

/-- In a store for one page, a scan of a table of two pages is rewound in the middle of its rows.  When its
    first page is taken, a row of each page is deleted, and other rows are stored in their places and on a
    third page.  The one in front of the scan is given. -/
theorem scan_is_stable_of_two_pages :
    let schema := Schema.single "n" .int
    let t := tableIdOf ["d", "t.dat"]
    let row (n : Int32) : Row := ⟨schema, [.int n], none⟩
    let placed (n : Int32) (page slot : Nat) : Row := ⟨schema, [.int n], some ⟨⟨t, page⟩, slot⟩⟩
    let requests : List Request :=
      [.task (.createTable "t" schema), .task (.insertRow ⟨0⟩ t (row 1)),
       .task (.insertRow ⟨0⟩ t (row 2)), .task (.insertRow ⟨0⟩ t (row 3)),
       .task (.insertRow ⟨0⟩ t (row 4))]
    let before : List Move := [.call .start, .call .next, .call .next, .call .next]
    let writes : List Move :=
      [.request (.task (.deleteRow ⟨1⟩ (some ⟨⟨t, 1⟩, 1⟩))),
       .request (.task (.deleteRow ⟨1⟩ (some ⟨⟨t, 0⟩, 1⟩))),
       .request (.task (.insertRow ⟨1⟩ t (row 5))), .request (.task (.insertRow ⟨1⟩ t (row 6))),
       .request (.task (.insertRow ⟨1⟩ t (row 7))), .request (.task .flushAll)]
    let part : List Move := .call .next :: (writes ++ [.call .next, .call .hasNext, .call .next, .call .next])
    ∃ new files' c first moments, Database.create Files.empty "/d" ⟨9, 1⟩ = (.ok new, files') ∧
      (Cursor.ofPlan (.scan t schema)).after (new.after requests) before = (c, first) ∧
      (c.move first (.call .rewind)).1.moments (c.move first (.call .rewind)).2 part = moments ∧
      moments.filterMap Moment.given? = [placed 1 0 0, placed 2 0 1, placed 3 1 0, placed 6 1 1] ∧
      moments.filterMap Moment.deleted? = [⟨⟨t, 1⟩, 1⟩, ⟨⟨t, 0⟩, 1⟩] ∧
      first.tableRows t = [placed 1 0 0, placed 2 0 1, placed 3 1 0, placed 4 1 1] ∧
      ((moments.filterMap Moment.given?).filterMap (·.place)).Pairwise RecordId.Before ∧
      ∀ row ∈ first.tableRows t, row ∈ moments.filterMap Moment.given? ∨
        ∃ place ∈ moments.filterMap Moment.deleted?, row.place = some place := by
  intro schema t row placed requests before writes part
  let new : Database := ⟨"/d", ⟨9, 1⟩, Catalog.empty, ⟨⟨[], [["d"]], []⟩, Pool.empty ⟨9, 1⟩⟩⟩
  let heap : HeapFile := ⟨["d", "t.dat"], schema, 9⟩
  have hopen : Database.create Files.empty "/d" ⟨9, 1⟩ = (.ok new, ⟨[], [["d"]], []⟩) := rfl
  have hone : ∀ d ∈ new.states requests, ∀ g, d.catalog.file t = .ok g → g = heap := by decide +kernel
  have hstays : ∀ d ∈ (Cursor.ofPlan (.scan t schema)).stores (new.after requests)
      (before ++ .call .rewind :: (part ++ [.call .hasNext])), d.catalog.file t = .ok heap := by
    decide +kernel
  have hpass : ∀ move ∈ part ++ [.call .hasNext], move.InPass := by
    have htask : ∀ task : Task, (∀ tid table row, task = .insertRow tid table row → row.Conforms) →
        Move.InPass (.request (.task task)) := fun task hrow => ⟨task, rfl, hrow⟩
    simp only [part, writes, List.cons_append, List.nil_append, List.forall_mem_cons]
    refine ⟨Or.inr rfl, htask _ nofun, htask _ nofun, htask _ ?_, htask _ ?_, htask _ ?_, htask _ nofun,
      Or.inr rfl, Or.inl rfl, Or.inr rfl, Or.inr rfl, Or.inl rfl, nofun⟩
    all_goals
      rintro _ _ _ ⟨⟩
      rfl
  let start := (Cursor.ofPlan (.scan t schema)).after (new.after requests) before
  have hbegun : (start.1.call start.2.catalog start.2.storage .rewind).1 = .ok .done := by decide +kernel
  let begun := start.1.move start.2 (.call .rewind)
  have hgiven : (begun.1.moments begun.2 part).filterMap Moment.given? =
      [placed 1 0 0, placed 2 0 1, placed 3 1 0, placed 6 1 1] := by decide +kernel
  have hdeleted : (begun.1.moments begun.2 part).filterMap Moment.deleted? =
      [⟨⟨t, 1⟩, 1⟩, ⟨⟨t, 0⟩, 1⟩] := by decide +kernel
  have hrows : start.2.tableRows t = [placed 1 0 0, placed 2 0 1, placed 3 1 0, placed 4 1 1] := by
    decide +kernel
  have hbefore : (Cursor.ofPlan (.scan t schema)).after (new.after requests) before = (start.1, start.2) :=
    Prod.mk.eta.symm
  have hsplit : begun.1.moments begun.2 (part ++ [.call .hasNext]) = begun.1.moments begun.2 part ++
      [⟨(begun.1.after begun.2 part).1, (begun.1.after begun.2 part).2, .call .hasNext⟩] := moments_append
  have hlast : Moment.IsLast
      ⟨(begun.1.after begun.2 part).1, (begun.1.after begun.2 part).2, .call .hasNext⟩ :=
    ⟨.ok (.more false), by decide +kernel, Or.inl rfl⟩
  obtain ⟨horder, -, hall⟩ :=
    scan_is_stable (h := heap) hopen rfl hone (Or.inr rfl) hstays hpass hbefore hbegun hsplit
  rw [List.filterMap_append, List.filterMap_append, List.pairwise_append] at horder
  exact ⟨new, _, start.1, start.2, _, hopen, hbefore, rfl, hgiven, hdeleted, hrows, horder.1,
    hall _ _ [] rfl hlast⟩

end Cursor

end RowStore
