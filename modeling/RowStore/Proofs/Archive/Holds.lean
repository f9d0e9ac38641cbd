import RowStore.Proofs.Archive.Slots
import RowStore.Proofs.Cursor.Scans
import RowStore.Proofs.Storage.Coherent
import RowStore.Proofs.Storage.Origins

/-!
Files and memory together hold the pages of an archive.

1. `h.Holds t s`: page by page, the table of heap file `h` is now the table `t` of an archive.
2. As long as every page in memory belongs to a table that the catalog knows (`Attended`), no page
   is stuck, so every page of a table can be had, and it is the page of the archive
   (`Holds.getPage`).
3. Storing and deleting a row have the same result in the heap file and in the archive, and
   afterwards the heap file holds the table of the archive again (`Holds.insertRow`,
   `Holds.deleteRow`).
-/

namespace RowStore

open Storage

variable {h : HeapFile} {catalog : Catalog} {may : Effect → Prop} {tid : TransactionId}
  {s s' : Storage} {t : PagedTable}

/-! ## Pages of known tables -/

/-- Every page in memory belongs to a table that the catalog knows. -/
def Storage.Attended (catalog : Catalog) (s : Storage) : Prop :=
  ∀ id frame, s.pool.find? id = some frame → ∃ h, catalog.file id.table = .ok h

namespace Storage

theorem Step.attended (hstep : Step catalog may s s') (hs : s.pool.Sound)
    (ha : Attended catalog s) : Attended catalog s' := by
  intro id frame hfind
  cases hstep.origin hs hfind with
  | kept hold _ => exact ha id _ hold
  | changed _ hold _ _ => exact ha id _ hold
  | loaded _ hread =>
    obtain ⟨g, hg, -⟩ := file_of_readPage hread
    exact ⟨g, hg⟩

theorem Steps.attended (hsteps : Steps catalog may s s') (hs : s.pool.Sound)
    (ha : Attended catalog s) : Attended catalog s' := by
  induction hsteps with
  | refl => exact ha
  | tail hbefore hstep ih => exact hstep.attended (Steps.sound hbefore hs) ih

/-- No page stands in the way if every page belongs to a known table. -/
theorem Attended.not_stuck (ha : Attended catalog s) (victim : PageId) (e : Error) :
    ¬ Stuck catalog s victim e := by
  rintro ⟨frame, hfind, -, hlost⟩
  obtain ⟨g, hg⟩ := ha victim frame hfind
  rw [hg] at hlost
  cases hlost

/-- An error that says that a page stands in the way, in a storage in which one can. -/
def Blocked (catalog : Catalog) (s : Storage) (e : Error) : Prop :=
  (∃ victim cause, e = .eviction victim cause) ∧ ¬ Attended catalog s

theorem Stuck.blocked {victim : PageId} {e : Error} (hstuck : Stuck catalog s victim e) :
    Blocked catalog s (.eviction victim e) :=
  ⟨⟨victim, e, rfl⟩, fun ha => ha.not_stuck victim e hstuck⟩

/-- If one can stand in the way after some steps, one could before. -/
theorem Blocked.of_steps {e : Error} (hblocked : Blocked catalog s' e) (hs : s.pool.Sound)
    (hsteps : Steps catalog may s s') : Blocked catalog s e :=
  ⟨hblocked.1, fun ha => hblocked.2 (hsteps.attended hs ha)⟩

/-- A page of a table that the catalog does not know is not found, not even in memory. -/
theorem getPage_of_unknown (hs : s.pool.Sound) (ha : Attended catalog s) {id : PageId} {e : Error}
    (hfile : catalog.file id.table = .error e) {r : Except Error Frame}
    (hget : s.getPage catalog id = (r, s')) : r = .error e := by
  have hread : s.readPage catalog id = .error e := by
    simp only [Storage.readPage, hfile, bind, Except.bind]
  obtain ⟨frame, hfind, -, -⟩ | ⟨-, ⟨e', herror, rfl, -⟩ | ⟨page, hpage, -⟩⟩ :=
    getPage_cases hs hget
  · obtain ⟨g, hg⟩ := ha id frame hfind
    rw [hfile] at hg
    cases hg
  · rw [hread] at herror
    cases herror
    rfl
  · rw [hread] at hpage
    cases hpage

theorem flushPage_of_attended (hs : s.pool.Sound) (ha : Attended catalog s) {id : PageId}
    {r : Except Error Unit} (hflush : flushPage catalog id s = (r, s')) : r = .ok () := by
  obtain ⟨hok, -⟩ | ⟨frame, hfind, -, ⟨e, hfile, -⟩ | ⟨h, files, -, -, hok, -⟩⟩ :=
    flushPage_cases hflush
  · exact hok
  · obtain ⟨g, hg⟩ := ha id frame hfind
    rw [hs.own_id hfind, hg] at hfile
    cases hfile
  · exact hok

/-- Every page can be written back if every page belongs to a known table. -/
theorem flushEach_of_attended (hs : s.pool.Sound) (ha : Attended catalog s) {ids : List PageId}
    {r : Except Error Unit} (hflush : flushEach catalog ids s = (r, s')) : r = .ok () := by
  induction ids generalizing s with
  | nil =>
    cases hflush
    rfl
  | cons id ids ih =>
    unfold flushEach at hflush
    rcases hfirst : flushPage catalog id s with ⟨result, s₁⟩
    have hsteps : Steps catalog (fun _ => False) s s₁ := flushPage_steps hfirst
    obtain rfl := flushPage_of_attended hs ha hfirst
    rw [hfirst] at hflush
    exact ih (hsteps.sound hs) (hsteps.attended hs ha) hflush

end Storage

/-! ## Holding the pages of an archive -/

/-- Items that are all there stand where they were asked for. -/
theorem getElem?_filterMap_range {α : Type} {f : Nat → Option α} {count : Nat}
    (hsome : ∀ n < count, (f n).isSome = true) (n : Nat) :
    ((List.range count).filterMap f)[n]? = if n < count then f n else none := by
  have hmap : ∀ l : List Nat, (∀ n ∈ l, (f n).isSome = true) →
      (l.filterMap f).map some = l.map f := by
    intro l hl
    induction l with
    | nil => rfl
    | cons n l ih =>
      obtain ⟨x, hx⟩ := Option.isSome_iff_exists.mp (hl n List.mem_cons_self)
      rw [List.filterMap_cons, hx, List.map_cons, List.map_cons, hx,
        ih fun n hn => hl n (List.mem_cons_of_mem _ hn)]
  have hget := congrArg (·[n]?) (hmap (List.range count) fun n hn => hsome n (List.mem_range.mp hn))
  simp only [List.getElem?_map] at hget
  by_cases hn : n < count
  · obtain ⟨x, hx⟩ := Option.isSome_iff_exists.mp (hsome n hn)
    rw [List.getElem?_range hn, Option.map_some, hx, Option.map_eq_some_iff] at hget
    obtain ⟨y, hy, hsame⟩ := hget
    rw [if_pos hn, hy, hx, hsame]
  · have hnone : (List.range count)[n]? = none := List.getElem?_eq_none (by simpa using hn)
    rw [hnone] at hget
    rw [if_neg hn]
    exact Option.map_eq_none_iff.mp hget

/-- Page by page, a heap file with the memory above it is a table of an archive. -/
structure HeapFile.Holds (h : HeapFile) (t : PagedTable) (s : Storage) : Prop where
  /-- Memory and file agree. -/
  coherent : Coherent h s
  /-- The rows look alike. -/
  schema : t.schema = h.schema
  /-- The pages are the same. -/
  page? : ∀ n, h.page? s n = t.pages[n]?

namespace HeapFile.Holds

theorem numPages (hh : h.Holds t s) (hs : s.pool.Sound) :
    h.numPages s.files = t.pages.length := by
  rcases Nat.lt_trichotomy (h.numPages s.files) t.pages.length with hlt | heq | hgt
  · have hnone := hh.coherent.page?_of_ge (Nat.le_refl _)
    rw [hh.page?, List.getElem?_eq_getElem hlt] at hnone
    cases hnone
  · exact heq
  · obtain ⟨p, hp, -⟩ := hh.coherent.page?_of_lt hs hgt
    rw [hh.page?, List.getElem?_eq_none (Nat.le_refl _)] at hp
    cases hp

/-- What the pages of the archive look like. -/
theorem shape (hh : h.Holds t s) (hs : s.pool.Sound) {n : Nat} {p : Page}
    (hp : t.pages[n]? = some p) :
    p.id = ⟨h.id, n⟩ ∧ p.schema = h.schema ∧ p.bytes.size = h.pageSize ∧ p.clean = p := by
  obtain ⟨hlt, -⟩ := List.getElem?_eq_some_iff.mp hp
  obtain ⟨p', hp', hshape⟩ := hh.coherent.page?_of_lt hs ((hh.numPages hs).symm ▸ hlt)
  rw [hh.page?, hp] at hp'
  cases hp'
  exact hshape

/-- The pages are numbered and look like the table. -/
theorem regular (hh : h.Holds t s) (hs : s.pool.Sound) : t.Regular h.id h.pageSize where
  fits := hh.schema.symm ▸ hh.coherent.fits
  pageId := fun _ _ hp => (hh.shape hs hp).1
  pageSchema := fun _ _ hp => (hh.shape hs hp).2.1.trans hh.schema.symm

theorem keeps (hh : h.Holds t s) (hc : Coherent h s') (hkeeps : h.Keeps s s') :
    h.Holds t s' where
  coherent := hc
  schema := hh.schema
  page? := fun n => (hkeeps.page? n).trans (hh.page? n)

/-- Steps that do not write the table keep what it holds. -/
theorem steps (hh : h.Holds t s) (hs : s.pool.Sound)
    (honly : ∀ g, catalog.file h.id = .ok g → g = h) (hno : ¬ may (.write h.id))
    (hsteps : Steps catalog may s s') : h.Holds t s' := by
  obtain ⟨hc, hkeeps⟩ := hsteps.coherent_keeps hh.coherent hs honly
  exact hh.keeps hc (hkeeps hno)

/-- Reading and writing back keep what a known table holds. -/
theorem quiet (hh : h.Holds t s) (hs : s.pool.Sound) (hfile : catalog.file h.id = .ok h)
    (hquiet : Quiet catalog s s') : h.Holds t s' :=
  hh.steps hs (fun _ hg => Catalog.eq_of_file hfile hg) (fun hno => hno) hquiet

/-- A page that is put last in the queue is the same page. -/
theorem requeue (hh : h.Holds t s) (hs : s.pool.Sound) {id : PageId} {frame : Frame}
    (hfind : s.pool.find? id = some frame) :
    h.Holds t { s with pool := s.pool.putFrame id frame } := by
  have hstep : Step ⟨[]⟩ (fun _ => False) s { s with pool := s.pool.putFrame id frame } :=
    .requeue hfind
  obtain ⟨hc, hkeeps⟩ := hstep.coherent_keeps hh.coherent hs fun g hg => by cases hg
  exact hh.keeps hc (hkeeps (fun hno => hno))

/-- The page in memory is the page of the archive. -/
theorem of_find? (hh : h.Holds t s) {n : Nat} {frame : Frame}
    (hfind : s.pool.find? ⟨h.id, n⟩ = some frame) : t.pages[n]? = some frame.page.clean := by
  rw [← hh.page?, HeapFile.page?, hfind]

/-- A page that is looked for is found, as it is in the archive, unless there is none or another page
    stands in the way. -/
theorem getPage_ends (hh : h.Holds t s) (hs : s.pool.Sound) (hfile : catalog.file h.id = .ok h)
    {n : Nat} {r : Except Error Frame} (hget : s.getPage catalog ⟨h.id, n⟩ = (r, s')) :
    (∃ frame, r = .ok frame ∧ t.pages[n]? = some frame.page.clean) ∨
    (t.pages[n]? = none ∧ r = .error (.missing (.page ⟨h.id, n⟩ t.pages.length))) ∨
    (∃ victim e, Stuck catalog s victim e ∧ r = .error (.eviction victim e)) := by
  have hread : s.readPage catalog ⟨h.id, n⟩ = h.readPage s.files ⟨h.id, n⟩ := by
    simp only [Storage.readPage, hfile, bind, Except.bind]
  obtain ⟨frame, hfind, rfl, -⟩ | ⟨hnone, ⟨e, herror, rfl, -⟩ | ⟨page, hpage,
    ⟨victim, e, hstuck, rfl, -⟩ | ⟨s₁, -, rfl, -⟩⟩⟩ := getPage_cases hs hget
  · exact Or.inl ⟨frame, rfl, hh.of_find? hfind⟩
  · rw [hread] at herror
    rcases Nat.lt_or_ge n (h.numPages s.files) with hlt | hge
    · obtain ⟨p, hp⟩ := readPage_of_lt hh.coherent.fits hlt
      rw [hp] at herror
      cases herror
    · rw [readPage_of_ge hge] at herror
      cases herror
      rw [hh.numPages hs] at hge ⊢
      exact Or.inr (Or.inl ⟨List.getElem?_eq_none hge, rfl⟩)
  · exact Or.inr (Or.inr ⟨victim, e, hstuck, rfl⟩)
  · rw [hread] at hpage
    obtain ⟨-, -, -, -, hclean⟩ := readPage_eq_ok hpage
    refine Or.inl ⟨_, rfl, ?_⟩
    rw [← hh.page?, HeapFile.page?, hnone]
    simp only [hpage, hclean]
    rfl

/-- A page that was found is the page of the archive. -/
theorem getPage_ok (hh : h.Holds t s) (hs : s.pool.Sound) (hfile : catalog.file h.id = .ok h)
    {n : Nat} {frame : Frame} (hget : s.getPage catalog ⟨h.id, n⟩ = (.ok frame, s')) :
    t.pages[n]? = some frame.page.clean := by
  obtain ⟨found, hr, hpage⟩ | ⟨-, hr⟩ | ⟨victim, e, -, hr⟩ := hh.getPage_ends hs hfile hget
  · cases hr
    exact hpage
  · cases hr
  · cases hr

/-- A page of the table is found unless another page stands in the way. -/
theorem getPage_of_lt (hh : h.Holds t s) (hs : s.pool.Sound) (hfile : catalog.file h.id = .ok h)
    {n : Nat} (hn : n < t.pages.length) {r : Except Error Frame}
    (hget : s.getPage catalog ⟨h.id, n⟩ = (r, s')) :
    (∃ frame, r = .ok frame ∧ t.pages[n] = frame.page.clean) ∨
    (∃ victim e, Stuck catalog s victim e ∧ r = .error (.eviction victim e)) := by
  have hpage : t.pages[n]? = some t.pages[n] := List.getElem?_eq_getElem hn
  obtain ⟨frame, rfl, hfound⟩ | ⟨hnone, -⟩ | hstuck := hh.getPage_ends hs hfile hget
  · exact Or.inl ⟨frame, rfl, Option.some.inj (hpage.symm.trans hfound)⟩
  · cases hpage.symm.trans hnone
  · exact Or.inr hstuck

/-- If every page in memory belongs to a known table, no page stands in the way. -/
theorem getPage (hh : h.Holds t s) (hs : s.pool.Sound) (ha : Attended catalog s)
    (hfile : catalog.file h.id = .ok h) {n : Nat} {r : Except Error Frame}
    (hget : s.getPage catalog ⟨h.id, n⟩ = (r, s')) :
    (∃ frame, r = .ok frame ∧ t.pages[n]? = some frame.page.clean) ∨
    (t.pages[n]? = none ∧ r = .error (.missing (.page ⟨h.id, n⟩ t.pages.length))) := by
  obtain hfound | hnone | ⟨victim, e, hstuck, -⟩ := hh.getPage_ends hs hfile hget
  · exact Or.inl hfound
  · exact Or.inr hnone
  · exact absurd hstuck (ha.not_stuck victim e)

/-- A scan gives the rows of the table, in all circumstances `W` in which the table is held, and has
    no errors but that another page stands in the way. -/
theorem gives_ofTable {W : Storage → Prop} {fails : Error → Prop} {id : TableId}
    (hcalm : ∀ {s s'}, W s → Quiet catalog s s' → W s')
    (hheld : ∀ {s}, W s → s.pool.Sound ∧ ∃ h, catalog.file id = .ok h ∧ h.Holds t s)
    (hfails : ∀ {s victim e}, W s → Stuck catalog s victim e → fails (.eviction victim e))
    (schema : Schema) :
    Source.Gives catalog W fails (.ofTable id schema) t.rows (Source.Scan.Has t.pages) := by
  refine Source.gives_ofTable schema hcalm ?_ ?_
  · intro s hs
    obtain ⟨hsound, h, hfile, hh⟩ := hheld hs
    exact ⟨h, hfile, hh.numPages hsound⟩
  · intro n p s r s' hp hs hget
    obtain ⟨hsound, h, hfile, hh⟩ := hheld hs
    obtain rfl := Catalog.id_of_file hfile
    refine ⟨getPage_steps hsound hget, ?_⟩
    obtain ⟨frame, rfl, hpage⟩ | ⟨hnone, -⟩ | ⟨victim, e, hstuck, rfl⟩ :=
      hh.getPage_ends hsound hfile hget
    · rw [hp, Option.some.injEq] at hpage
      exact Or.inl ⟨frame, rfl, by rw [hpage]; rfl⟩
    · rw [hp] at hnone
      cases hnone
    · exact Or.inr ⟨_, rfl, hfails hs hstuck⟩

/-- **Reading all rows.**  A scan gives the rows of the table of the archive. -/
theorem scanRows (hh : h.Holds t s) (hs : s.pool.Sound) (ha : Attended catalog s)
    (hfile : catalog.file h.id = .ok h) {r : Except Error (List Row)}
    (hscan : s.scanRows catalog h.id = (r, s')) : r = .ok t.rows := by
  have hgives : Source.Gives catalog
      (fun s => s.pool.Sound ∧ Attended catalog s ∧ h.Holds t s) (fun _ => False)
      (.ofTable h.id h.schema) t.rows (Source.Scan.Has t.pages) := by
    refine gives_ofTable ?_ ?_ ?_ h.schema
    · rintro s s' ⟨hs, ha, hh⟩ hsteps
      exact ⟨hsteps.sound hs, hsteps.attended hs ha, hh.quiet hs hfile hsteps⟩
    · rintro s ⟨hs, -, hh⟩
      exact ⟨hs, h, hfile, hh⟩
    · rintro s victim e ⟨-, ha, -⟩ hstuck
      exact ha.not_stuck victim e hstuck
  rw [scanRows_of_file hfile] at hscan
  obtain ⟨-, hr | ⟨e, -, hno⟩⟩ := hgives.readAll ⟨hs, ha, hh⟩ hscan
  · exact hr
  · exact hno.elim

/-! ## Storing a row -/

/-- A page of the table is changed in memory, and so it is in the archive. -/
theorem change (hh : h.Holds t s) (hs : s.pool.Sound) {n : Nat} {frame : Frame} {page : Page}
    (hfind : s.pool.find? ⟨h.id, n⟩ = some frame) (hschema : page.schema = frame.page.schema)
    (hsize : page.bytes.size = frame.page.bytes.size) :
    h.Holds { t with pages := t.pages.set n page.clean } (HeapFile.change tid frame page s).2 where
  coherent := change_coherent hh.coherent hs hfind hschema hsize
  schema := hh.schema
  page? := fun m => by
    have hlt : n < t.pages.length := by
      rw [← hh.numPages hs]
      exact hh.coherent.inFile n frame hfind
    rw [page?_change hs hfind, List.getElem?_set, hh.page?]
    by_cases hm : m = n
    · rw [if_pos hm, if_pos hm.symm, if_pos hlt]
    · rw [if_neg hm, if_neg (Ne.symm hm)]

/-- A file that grew holds a table with a blank page more. -/
theorem grow (hh : h.Holds t s) (hs : s.pool.Sound) {id : PageId}
    (hgrow : h.grow s = (.ok id, s')) :
    ∃ page, Page.blank ⟨h.id, t.pages.length⟩ h.schema h.pageSize = .ok page ∧
      id = ⟨h.id, t.pages.length⟩ ∧ s'.pool.Sound ∧
      h.Holds { t with pages := t.pages ++ [page] } s' := by
  obtain ⟨page, files, hblank, hwrite, rfl, rfl⟩ := grow_eq_ok hgrow
  have hlength := hh.numPages hs
  refine ⟨page, hlength ▸ hblank, by rw [hlength], hs, grow_coherent hh.coherent hblank hwrite,
    hh.schema, fun n => ?_⟩
  rw [page?_grow hh.coherent hblank hwrite, hlength, hh.page?]
  by_cases hn : n = t.pages.length
  · rw [if_pos hn, hn, List.getElem?_concat_length]
  · rw [if_neg hn]
    rcases Nat.lt_or_gt_of_ne hn with hlt | hgt
    · rw [List.getElem?_append_left hlt]
    · rw [List.getElem?_eq_none (Nat.le_of_lt hgt),
        List.getElem?_eq_none (by simp only [List.length_append, List.length_singleton]; omega)]

theorem freeSlots_of_full (hh : h.Holds t s) (hs : s.pool.Sound)
    (hfile : catalog.file h.id = .ok h) {n : Nat} (hfull : h.Full catalog s n) :
    ∃ p, t.pages[n]? = some p ∧ p.freeSlots = [] := by
  obtain ⟨s₁, frame, hquiet, hfind, hfree⟩ := hfull
  exact ⟨_, (hh.quiet hs hfile hquiet).of_find? hfind, hfree⟩

/-- Only pages without a free slot come before the page: it is the first one with a free slot. -/
theorem find?_of_full_before (hh : h.Holds t s) (hs : s.pool.Sound)
    (hfile : catalog.file h.id = .ok h) {n : Nat} {p : Page}
    (hfull : ∀ m < n, h.Full catalog s m) (hpage : t.pages[n]? = some p) (hfree : p.freeSlots ≠ []) :
    t.pages.find? (fun p => !p.freeSlots.isEmpty) = some p := by
  obtain ⟨hlt, hget⟩ := List.getElem?_eq_some_iff.mp hpage
  rw [List.find?_eq_some_iff_getElem]
  refine ⟨?_, n, hlt, hget, fun m hm => ?_⟩
  · rw [Bool.not_eq_true', List.isEmpty_eq_false_iff]
    exact hfree
  · obtain ⟨p, hp, hnil⟩ := hh.freeSlots_of_full hs hfile (hfull m hm)
    rw [List.getElem?_eq_getElem (Nat.lt_trans hm hlt), Option.some.injEq] at hp
    rw [hp, hnil]
    rfl

/-- No page has a free slot. -/
theorem find?_of_full (hh : h.Holds t s) (hs : s.pool.Sound)
    (hfile : catalog.file h.id = .ok h)
    (hfull : ∀ m < h.numPages s.files, h.Full catalog s m) :
    t.pages.find? (fun p => !p.freeSlots.isEmpty) = none := by
  rw [List.find?_eq_none]
  intro p hp
  obtain ⟨m, hm, rfl⟩ := List.getElem_of_mem hp
  obtain ⟨p, hget, hnil⟩ :=
    hh.freeSlots_of_full hs hfile (hfull m ((hh.numPages hs).symm ▸ hm))
  rw [List.getElem?_eq_getElem hm, Option.some.injEq] at hget
  rw [hget, hnil]
  simp

/-- A row that the heap file takes, the archive takes too, and the heap file holds the table of the
    archive afterwards. -/
theorem insertRow_ok (hh : h.Holds t s) (hs : s.pool.Sound) (hfile : catalog.file h.id = .ok h)
    {row row' : Row} {frame : Frame}
    (hins : h.Inserted catalog tid row s (.ok (row', frame)) s') :
    ∃ t', t.insert h.id h.pageSize row = .ok (row', t') ∧ h.Holds t' s' := by
  cases hins with
  | @old n old _ s₁ _ htypes hn hfull hquiet hfind hfree hinto =>
    have hs₁ := hquiet.sound hs
    have hh₁ := hh.quiet hs hfile hquiet
    have hpage := hh₁.of_find? hfind
    obtain ⟨hid, -⟩ := hh₁.shape hs₁ hpage
    -- the page is the first one with a free slot, here and there
    have hinsert : t.insert h.id h.pageSize row = _ :=
      PagedTable.insert_of_old (hh.schema.symm ▸ htypes)
        (hh.find?_of_full_before hs hfile hfull hpage hfree)
    rw [Page.insert_clean, hid] at hinsert
    obtain ⟨e, -, hr, -⟩ | ⟨_, page, hok, hr, rfl⟩ := insertInto_cases hinto
    · cases hr
    · cases hr
      obtain ⟨-, hschema, hsize⟩ := Page.insert_keeps hok
      refine ⟨_, ?_, hh₁.change hs₁ hfind hschema hsize⟩
      rw [hinsert, hok]
      rfl
  | @new id first _ s₁ s₂ s₃ _ htypes hfull hquiet hgrow hget hinto =>
    obtain ⟨page, hblank, rfl, hs₂, hh₂⟩ := (hh.quiet hs hfile hquiet).grow (hquiet.sound hs) hgrow
    -- the page that was read is the blank one that was appended before
    have hafter : Quiet catalog s₂ s₃ := getPage_steps hs₂ hget
    have hs₃ := hafter.sound hs₂
    have hh₃ := hh₂.quiet hs₂ hfile hafter
    have hfind := find?_of_getPage hs₂ hget
    have hpage := hh₃.of_find? hfind
    rw [List.getElem?_concat_length, Option.some.injEq] at hpage
    have hinsert := PagedTable.insert_of_full (hh.schema.symm ▸ htypes)
      (hh.find?_of_full hs hfile hfull) (hh.schema.symm ▸ hblank)
    rw [hpage, Page.insert_clean] at hinsert
    obtain ⟨e, -, hr, -⟩ | ⟨_, page', hok, hr, rfl⟩ := insertInto_cases hinto
    · cases hr
    · cases hr
      obtain ⟨-, hschema, hsize⟩ := Page.insert_keeps hok
      refine ⟨⟨t.schema, t.pages ++ [page'.clean]⟩, ?_, ?_⟩
      · rw [hinsert, hok]
        rfl
      · have hset : (t.pages ++ [page]).set t.pages.length page'.clean =
            t.pages ++ [page'.clean] := by simp
        rw [← hset]
        exact hh₃.change hs₃ hfind hschema hsize

/-- A page with a free slot takes a row of the right types. -/
theorem insertInto_of_free (hh : h.Holds t s) (hs : s.pool.Sound) {row : Row}
    (hrow : row.Conforms) (htypes : row.schema.sameTypes h.schema = true) {n : Nat} {frame : Frame}
    (hpage : t.pages[n]? = some frame.page.clean) (hfree : frame.page.freeSlots ≠ [])
    {s₁ s₂ : Storage} {r : Except Error (Row × Frame)}
    (hinto : insertInto tid row frame s₁ = (r, s₂)) : ∃ placed, r = .ok placed := by
  obtain ⟨-, hschema, -⟩ := hh.shape hs hpage
  obtain ⟨i, hi⟩ := Page.exists_findIdx?_of_free hfree
  obtain ⟨page, htakes, -⟩ := Page.insert_eq_ok
    (show row.schema.sameTypes frame.page.schema = true from hschema.symm ▸ htypes) hrow hi
  obtain ⟨e, herror, -, -⟩ | ⟨row', page, -, hr, -⟩ := insertInto_cases hinto
  · cases htakes.symm.trans herror
  · exact ⟨_, hr⟩

/-- **Storing a row.**  The row is stored, in the heap file and in the archive; or it is of other types
    and nothing happens; or some page stands in the way, and the table has the rows that it had, maybe
    with a blank page more. -/
theorem insertRow_ends (hh : h.Holds t s) (hs : s.pool.Sound) (hfile : catalog.file h.id = .ok h)
    {row : Row} (hrow : row.Conforms) {r : Except Error (Row × Frame)}
    (hins : h.Inserted catalog tid row s r s') :
    (∃ row' t' frame, t.insert h.id h.pageSize row = .ok (row', t') ∧ r = .ok (row', frame) ∧
      h.Holds t' s') ∨
    (row.schema.sameTypes h.schema = false ∧
      r = .error (.mismatch (.rowOfTable row.schema h.id h.schema)) ∧ s' = s) ∨
    (∃ t' s₁ victim e, h.Holds t' s' ∧ t'.rows = t.rows ∧
      Steps catalog (· = .write h.id) s s₁ ∧ Stuck catalog s₁ victim e ∧
      r = .error (.eviction victim e)) := by
  rcases r with e | ⟨row', frame⟩
  case ok =>
    obtain ⟨t', hok, hh'⟩ := hh.insertRow_ok hs hfile hins
    exact Or.inl ⟨row', t', frame, hok, rfl, hh'⟩
  right
  cases hins with
  | otherTypes htypes => exact Or.inl ⟨htypes, rfl, rfl⟩
  | @unread n _ s₁ _ hn hquiet hget =>
    have hs₁ := hquiet.sound hs
    have hh₁ := hh.quiet hs hfile hquiet
    rw [hh.numPages hs] at hn
    obtain ⟨frame, hr, -⟩ | ⟨victim, e, hstuck, hr⟩ := hh₁.getPage_of_lt hs₁ hfile hn hget
    · cases hr
    · cases hr
      have hh₂ := hh₁.quiet hs₁ hfile (getPage_steps hs₁ hget)
      exact Or.inr ⟨t, s₁, victim, e, hh₂, rfl, hquiet.steps, hstuck, rfl⟩
  | @old n frame _ s₁ _ htypes hn hfull hquiet hfind hfree hinto =>
    have hh₁ := hh.quiet hs hfile hquiet
    obtain ⟨placed, hr⟩ :=
      hh₁.insertInto_of_free (hquiet.sound hs) hrow htypes (hh₁.of_find? hfind) hfree hinto
    cases hr
  | ungrown hquiet hgrow =>
    obtain ⟨e, herror, -⟩ | ⟨page, files, -, -, hr, -⟩ := grow_cases hgrow
    · -- a row fits on a page, so there is a blank page
      obtain ⟨page, hpage⟩ := Page.exists_blank ⟨h.id, h.numPages _⟩ hh.coherent.fits
      cases hpage.symm.trans herror
    · cases hr
  | @newUnread e id s₁ s₂ _ hfull hquiet hgrow hget =>
    obtain ⟨page, hblank, rfl, hs₂, hh₂⟩ := (hh.quiet hs hfile hquiet).grow (hquiet.sound hs) hgrow
    have hlast : t.pages.length < (t.pages ++ [page]).length := by simp
    obtain ⟨frame, hr, -⟩ | ⟨victim, e, hstuck, hr⟩ := hh₂.getPage_of_lt hs₂ hfile hlast hget
    · cases hr
    · cases hr
      refine Or.inr ⟨_, s₂, victim, e, hh₂.quiet hs₂ hfile (getPage_steps hs₂ hget), ?_,
        hquiet.steps.trans (grow_steps rfl hfile hgrow), hstuck, rfl⟩
      show (t.pages ++ [page]).flatMap Page.rows = t.pages.flatMap Page.rows
      rw [List.flatMap_append, List.flatMap_singleton, Page.rows_blank hblank, List.append_nil]
  | @new id frame _ s₁ s₂ s₃ _ htypes hfull hquiet hgrow hget hinto =>
    obtain ⟨page, hblank, rfl, hs₂, hh₂⟩ := (hh.quiet hs hfile hquiet).grow (hquiet.sound hs) hgrow
    have hpage := hh₂.getPage_ok hs₂ hfile hget
    -- the page that was found is the blank one, which has room for the row
    have hsame : page = frame.page.clean := by
      rwa [List.getElem?_concat_length, Option.some.injEq] at hpage
    have hfree : frame.page.freeSlots ≠ [] := by
      have hblank' := Page.freeSlots_blank hh.coherent.fits hblank
      rwa [hsame] at hblank'
    obtain ⟨placed, hr⟩ := hh₂.insertInto_of_free hs₂ hrow htypes hpage hfree hinto
    cases hr

/-- If every page in memory belongs to a known table, the heap file gives the same row back as the
    archive, or the same error, and holds the table of the archive afterwards. -/
theorem insertRow (hh : h.Holds t s) (hs : s.pool.Sound) (ha : Attended catalog s)
    (hfile : catalog.file h.id = .ok h) {row : Row} (hrow : row.Conforms)
    {r : Except Error (Row × Frame)} (hins : h.Inserted catalog tid row s r s') :
    (∃ e, t.insert h.id h.pageSize row = .error e ∧ r = .error e ∧ h.Holds t s') ∨
    (∃ row' t' frame, t.insert h.id h.pageSize row = .ok (row', t') ∧ r = .ok (row', frame) ∧
      h.Holds t' s') := by
  obtain hstored | ⟨htypes, rfl, rfl⟩ | ⟨-, s₁, victim, e, -, -, hsteps, hstuck, -⟩ :=
    hh.insertRow_ends hs hfile hrow hins
  · exact Or.inr hstored
  · refine Or.inl ⟨_, ?_, rfl, hh⟩
    unfold PagedTable.insert
    rw [hh.schema, htypes]
    rfl
  · exact absurd hstuck ((hsteps.attended hs ha).not_stuck victim e)

/-! ## Deleting a row -/

/-- **Deleting a row.**  The row is deleted, in the heap file and in the archive; or the table is what it
    was, since the archive refuses too or some page stands in the way. -/
theorem deleteRow_ends (hh : h.Holds t s) (hs : s.pool.Sound) (hfile : catalog.file h.id = .ok h)
    {place : RecordId} (hplace : place.page.table = h.id) {r : Except Error Frame}
    (hdel : h.Deleted catalog tid s (some place) r s') :
    (∃ t' frame, t.delete place = .ok t' ∧ r = .ok frame ∧ h.Holds t' s') ∨
    (∃ e, t.delete place = .error e ∧ r = .error e ∧ h.Holds t s') ∨
    (∃ victim e, Stuck catalog s victim e ∧ r = .error (.eviction victim e) ∧ h.Holds t s') := by
  obtain ⟨⟨table, n⟩, slot⟩ := place
  obtain rfl : table = h.id := hplace
  have hread : ∀ {r : Except Error Frame} {s₁ : Storage},
      s.getPage catalog ⟨h.id, n⟩ = (r, s₁) → h.Holds t s₁ :=
    fun hget => hh.quiet hs hfile (getPage_steps hs hget)
  cases hdel with
  | otherTable hcheck =>
    rw [checkTable_eq_ok_iff.mpr rfl] at hcheck
    cases hcheck
  | unread hcheck hget =>
    obtain ⟨frame, hr, -⟩ | ⟨hnone, hr⟩ | ⟨victim, e, hstuck, hr⟩ := hh.getPage_ends hs hfile hget
    · cases hr
    · cases hr
      exact Or.inr (Or.inl ⟨_, PagedTable.delete_of_none hnone, rfl, hread hget⟩)
    · exact Or.inr (Or.inr ⟨victim, e, hstuck, hr, hread hget⟩)
  | refused hcheck hget hdelete =>
    refine Or.inr (Or.inl ⟨_, ?_, rfl, hread hget⟩)
    rw [PagedTable.delete_of_some (hh.getPage_ok hs hfile hget), Page.delete_clean, hdelete]
    rfl
  | @done _ frame page s₁ hcheck hget hdelete =>
    have hquiet : Quiet catalog s s₁ := getPage_steps hs hget
    obtain ⟨-, hschema, hsize⟩ := Page.delete_keeps hdelete
    refine Or.inl ⟨⟨t.schema, t.pages.set n page.clean⟩, _, ?_, rfl,
      (hread hget).change (hquiet.sound hs) (find?_of_getPage hs hget) hschema hsize⟩
    rw [PagedTable.delete_of_some (hh.getPage_ok hs hfile hget), Page.delete_clean, hdelete]
    rfl

/-- If every page in memory belongs to a known table, the heap file and the archive refuse the row for
    the same reason, or the heap file holds the table of the archive afterwards. -/
theorem deleteRow (hh : h.Holds t s) (hs : s.pool.Sound) (ha : Attended catalog s)
    (hfile : catalog.file h.id = .ok h) {place : RecordId} (hplace : place.page.table = h.id)
    {r : Except Error Frame} (hdel : h.Deleted catalog tid s (some place) r s') :
    (∃ e, t.delete place = .error e ∧ r = .error e ∧ h.Holds t s') ∨
    (∃ t' frame, t.delete place = .ok t' ∧ r = .ok frame ∧ h.Holds t' s') := by
  obtain hdone | hrefused | ⟨victim, e, hstuck, -⟩ := hh.deleteRow_ends hs hfile hplace hdel
  · exact Or.inr hdone
  · exact Or.inl hrefused
  · exact absurd hstuck (ha.not_stuck victim e)

end HeapFile.Holds

end RowStore
