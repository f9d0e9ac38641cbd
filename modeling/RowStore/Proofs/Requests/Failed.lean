import RowStore.Proofs.Page.Slots
import RowStore.Proofs.Requests.Faults
import RowStore.Proofs.Storage.Coherent
import RowStore.Proofs.Storage.Unfit

/-!
Writes that fail change nothing.

1. `h.bytes? s n` are the bytes of page `n` of a heap file as they are now, in memory or in the file.
2. Storing or deleting a row that fails has only read, apart from one thing: a file whose pages were
   all full may have become a blank page longer.  What only reads keeps the pages of every table, also
   of one that the catalog has forgotten, as long as it knows the table under no other columns and
   page size.
3. The blank page has a free slot, so storing the row again does not make the file longer again
   (`HeapFile.Grows.not_full`), however often it is tried and whatever fails.

Tables whose rows do not fit on a page are told apart: no page of them ever comes into memory, and
their files do not grow (`Storage.Steps.unfit`).
-/

namespace RowStore

open Storage

/-! ## Bytes of pages -/

/-- The bytes of page `n` of a heap file as they are now, if it has one. -/
def HeapFile.bytes? (h : HeapFile) (s : Storage) (n : Nat) : Option Bytes :=
  match s.pool.find? ⟨h.id, n⟩ with
  | some frame => some frame.page.bytes
  | none =>
    if n < h.numPages s.files then some (block h.pageSize n (s.files.content h.path)) else none

/-- A heap file has as many pages as before, with the same bytes. -/
structure HeapFile.SameBytes (h : HeapFile) (s s' : Storage) : Prop where
  /-- The file has as many pages as before. -/
  numPages : h.numPages s'.files = h.numPages s.files
  /-- The bytes of every page are as before. -/
  bytes? : ∀ n, h.bytes? s' n = h.bytes? s n

/-- A heap file has one page more than before, which is blank, and the others are the same. -/
structure HeapFile.BlankAdded (h : HeapFile) (s s' : Storage) : Prop where
  /-- The file has one page more than before. -/
  numPages : h.numPages s'.files = h.numPages s.files + 1
  /-- The last page is blank, and the bytes of every other page are as before. -/
  bytes? : ∀ n, h.bytes? s' n =
    if n = h.numPages s.files then some (Bytes.zeros h.pageSize) else h.bytes? s n

namespace HeapFile

variable {h : HeapFile} {catalog : Catalog} {s s' s'' : Storage}

/-- The bytes of a page of a table whose rows fit are those of the page. -/
theorem bytes?_eq (hc : Coherent h s) (n : Nat) : h.bytes? s n = (h.page? s n).map Page.bytes := by
  unfold HeapFile.bytes? HeapFile.page?
  cases s.pool.find? ⟨h.id, n⟩ with
  | some frame => rfl
  | none =>
    simp only
    by_cases hn : n < h.numPages s.files
    · obtain ⟨p, hp⟩ := readPage_of_lt hc.fits hn
      have hread := hp
      rw [readPage_eq_ofBytes rfl hn] at hread
      obtain ⟨-, -, -, hbytes, -⟩ := Page.ofBytes_eq_ok_iff.mp hread
      rw [if_pos hn, hp, ← hbytes]
      rfl
    · rw [if_neg hn, readPage_of_ge (Nat.not_lt.mp hn)]
      rfl

theorem Keeps.sameBytes (hkeeps : h.Keeps s s') (hc : Coherent h s) (hc' : Coherent h s') :
    h.SameBytes s s' where
  numPages := hkeeps.numPages
  bytes? := fun n => by rw [bytes?_eq hc, bytes?_eq hc', hkeeps.page?]

/-! ## Growth -/

/-- All pages of a heap file are full, and it becomes a blank page longer. -/
structure Grows (h : HeapFile) (s s' : Storage) : Prop where
  /-- All pages are full before. -/
  full : ∀ n p, h.page? s n = some p → p.freeSlots = []
  /-- The file has one page more than before. -/
  numPages : h.numPages s'.files = h.numPages s.files + 1
  /-- The last page is blank and has a free slot, and every other page is as before. -/
  page? : ∃ blank : Page, blank.bytes = Bytes.zeros h.pageSize ∧ blank.freeSlots ≠ [] ∧
    ∀ n, h.page? s' n = if n = h.numPages s.files then some blank else h.page? s n

namespace Grows

theorem keeps (hgrows : h.Grows s s') (hkeeps : h.Keeps s' s'') : h.Grows s s'' := by
  obtain ⟨blank, hzeros, hfree, hpages⟩ := hgrows.page?
  refine ⟨hgrows.full, hkeeps.numPages.trans hgrows.numPages, blank, hzeros, hfree, fun n => ?_⟩
  rw [hkeeps.page?, hpages]

theorem of_keeps (hkeeps : h.Keeps s s') (hgrows : h.Grows s' s'') : h.Grows s s'' := by
  obtain ⟨blank, hzeros, hfree, hpages⟩ := hgrows.page?
  refine ⟨fun n p hp => hgrows.full n p ((hkeeps.page? n).trans hp),
    hgrows.numPages.trans (congrArg (· + 1) hkeeps.numPages), blank, hzeros, hfree, fun n => ?_⟩
  rw [hpages, hkeeps.page?, hkeeps.numPages]

/-- A file that grew does not grow again: its last page has a free slot. -/
theorem not_full (hgrows : h.Grows s s') : ¬ h.Grows s' s'' := by
  intro hagain
  obtain ⟨blank, -, hfree, hpages⟩ := hgrows.page?
  have hlast : h.page? s' (h.numPages s.files) = some blank := by rw [hpages, if_pos rfl]
  exact hfree (hagain.full _ blank hlast)

theorem blankAdded (hgrows : h.Grows s s') (hc : Coherent h s) (hc' : Coherent h s') :
    h.BlankAdded s s' where
  numPages := hgrows.numPages
  bytes? := fun n => by
    obtain ⟨blank, hzeros, -, hpages⟩ := hgrows.page?
    rw [bytes?_eq hc', hpages, bytes?_eq hc]
    split
    · rw [Option.map_some, hzeros]
    · rfl

/-- A heap file grows when storing a row finds all pages full. -/
theorem of_grow (hc : Coherent h s) (hfull : ∀ n p, h.page? s n = some p → p.freeSlots = [])
    {id : PageId} (hgrow : h.grow s = (.ok id, s')) : Coherent h s' ∧ h.Grows s s' := by
  obtain ⟨page, files, hblank, hwrite, -, rfl⟩ := grow_eq_ok hgrow
  obtain ⟨-, -, -, hbytes, -⟩ := Page.ofBytes_eq_ok_iff.mp hblank
  have hfree := Page.freeSlots_blank hc.fits hblank
  exact ⟨grow_coherent hc hblank hwrite, hfull, numPages_grow hc.fits hblank hwrite, page, hbytes,
    hfree, page?_grow hc hblank hwrite⟩

end Grows

/-- Pages that were met full on the way are full. -/
theorem full_of_met (hc : Coherent h s) (hs : s.pool.Sound)
    (honly : ∀ g, catalog.file h.id = .ok g → g = h)
    (hmet : ∀ m < h.numPages s.files, h.Full catalog s m) :
    ∀ n p, h.page? s n = some p → p.freeSlots = [] := by
  intro n p hp
  rcases Nat.lt_or_ge n (h.numPages s.files) with hn | hn
  · obtain ⟨s₁, frame, hquiet, hfind, hnone⟩ := hmet n hn
    have hkeeps := (hquiet.coherent_keeps hc hs honly).2 fun hno => hno
    have hthere : h.page? s₁ n = some frame.page.clean := by
      unfold HeapFile.page?
      rw [hfind]
    rw [← hkeeps.page?, hthere] at hp
    cases hp
    exact hnone
  · rw [hc.page?_of_ge hn] at hp
    cases hp

end HeapFile

namespace Storage

variable {h : HeapFile} {s s' : Storage}

theorem Unfit.sameBytes (hu : Unfit h s) (hu' : Unfit h s')
    (hcontent : s'.files.content h.path = s.files.content h.path) : h.SameBytes s s' where
  numPages := HeapFile.numPages_congr hcontent
  bytes? := fun n => by
    unfold HeapFile.bytes?
    rw [hu.absent n, hu'.absent n]
    simp only [HeapFile.numPages_congr hcontent, hcontent]

end Storage

/-! ## Attempts -/

namespace Faults

variable {h : HeapFile} {catalog : Catalog} {tid : TransactionId} {table : TableId} {row row' : Row}
  {s s' : Storage}

/-- Tries to store a row again and again, each time with other faults: the results in order, and what
    has become of the row. -/
def insertAgain (catalog : Catalog) (tid : TransactionId) (table : TableId) :
    List Faults → Row → Storage → List (Except Error Unit) × Row × Storage
  | [], row, s => ([], row, s)
  | f :: attempts, row, s =>
    let (result, row, s) := f.insertRow catalog tid table row s
    let (results, row, s) := insertAgain catalog tid table attempts row s
    (result :: results, row, s)

/-- An attempt that fails gives the row back. -/
theorem row_of_insertRow {f : Faults} {e : Error} (hs : s.pool.Sound) (hrow : row.Conforms)
    (hins : f.insertRow catalog tid table row s = (.error e, row', s')) : row' = row := by
  obtain ⟨e', -, -, hsame, -⟩ | ⟨h, -, ⟨e', -, hstored⟩ | ⟨hok, -⟩⟩ := insertRow_cases hs hins
  · exact hsame
  · cases hstored with
    | refused hsame hquiet => exact hsame hrow
    | grown hsame hfull hquiet hgrow hafter => exact hsame hrow
  · cases hok

/-- **One attempt that fails** keeps the pages of every table, or its own table was full and is a blank
    page longer. -/
theorem keeps_or_grows {f : Faults} {e : Error} (hc : Coherent h s) (hs : s.pool.Sound)
    (honly : ∀ g, catalog.file h.id = .ok g → g = h)
    (hins : f.insertRow catalog tid table row s = (.error e, row', s')) :
    Coherent h s' ∧ (h.Keeps s s' ∨ (table = h.id ∧ h.Grows s s')) := by
  have hread : ∀ {s₁ s₂ : Storage}, Coherent h s₁ → s₁.pool.Sound → Quiet catalog s₁ s₂ →
      Coherent h s₂ ∧ h.Keeps s₁ s₂ := by
    intro s₁ s₂ hc₁ hs₁ hquiet
    obtain ⟨hc₂, hkeeps⟩ := hquiet.coherent_keeps hc₁ hs₁ honly
    exact ⟨hc₂, hkeeps fun hno => hno⟩
  by_cases htable : table = h.id
  case neg =>
    -- whatever is done is done to another table
    obtain ⟨hc', hkeeps⟩ := (insertRow_steps hs hins).coherent_keeps hc hs honly
    exact ⟨hc', Or.inl (hkeeps fun hwrite => htable (Effect.write.inj hwrite).symm)⟩
  subst htable
  obtain ⟨e', -, -, -, rfl⟩ | ⟨g, hfile, ⟨e', -, hstored⟩ | ⟨hok, -⟩⟩ := insertRow_cases hs hins
  · exact ⟨hc, Or.inl (.refl h _)⟩
  · obtain rfl := honly g hfile
    cases hstored with
    | refused hsame hquiet =>
      obtain ⟨hc', hkeeps⟩ := hread hc hs hquiet
      exact ⟨hc', Or.inl hkeeps⟩
    | @grown _ _ _ s₁ s₂ _ hsame hfull hquiet hgrow hafter =>
      obtain ⟨hc₁, hkeeps₁⟩ := hread hc hs hquiet
      have hnone := HeapFile.full_of_met hc hs honly hfull
      obtain ⟨hc₂, hgrows⟩ := HeapFile.Grows.of_grow hc₁
        (fun n p hp => hnone n p ((hkeeps₁.page? n).symm.trans hp)) hgrow
      have hs₂ : s₂.pool.Sound := by
        obtain ⟨page, files, -, -, -, rfl⟩ := HeapFile.grow_eq_ok hgrow
        exact hquiet.sound hs
      obtain ⟨hc', hkeeps⟩ := hread hc₂ hs₂ hafter
      exact ⟨hc', Or.inr ⟨rfl, (HeapFile.Grows.of_keeps hkeeps₁ hgrows).keeps hkeeps⟩⟩
  · cases hok

/-- **What a failing attempt keeps**, all of them keep when they follow each other. -/
theorem insertAgain_keeps {inv : Row → Storage → Prop} {attempts : List Faults}
    {results : List (Except Error Unit)}
    (hstep : ∀ {f : Faults} {e : Error} {row row' : Row} {s s' : Storage}, inv row s →
      f.insertRow catalog tid table row s = (.error e, row', s') → inv row' s')
    (hinv : inv row s) (hins : insertAgain catalog tid table attempts row s = (results, row', s'))
    (hfail : ∀ r ∈ results, ∃ e, r = .error e) : inv row' s' := by
  induction attempts generalizing row s results with
  | nil =>
    cases hins
    exact hinv
  | cons f attempts ih =>
    unfold insertAgain at hins
    rcases hfirst : f.insertRow catalog tid table row s with ⟨result, row₁, s₁⟩
    rcases hrest : insertAgain catalog tid table attempts row₁ s₁ with ⟨others, row₂, s₂⟩
    simp only [hfirst, hrest] at hins
    cases hins
    obtain ⟨e, rfl⟩ := hfail result List.mem_cons_self
    exact ih (hstep hinv hfirst) hrest fun r hr => hfail r (List.mem_cons_of_mem _ hr)

section Attempts

variable {attempts : List Faults} {results : List (Except Error Unit)} (hs : s.pool.Sound)
  (hins : insertAgain catalog tid table attempts row s = (results, row', s'))
  (hfail : ∀ r ∈ results, ∃ e, r = .error e)

include hs hins hfail

/-- They are steps that write no other table. -/
theorem insertAgain_steps : Steps catalog (· = .write table) s s' := by
  let inv : Row → Storage → Prop := fun _ now => Steps catalog (· = .write table) s now
  have hstep : ∀ {f : Faults} {e : Error} {row row' : Row} {now next : Storage}, inv row now →
      f.insertRow catalog tid table row now = (.error e, row', next) → inv row' next :=
    fun hsteps hfirst => hsteps.trans (insertRow_steps (hsteps.sound hs) hfirst)
  exact insertAgain_keeps hstep .refl hins hfail

/-- They give the row back. -/
theorem row_of_insertAgain (hrow : row.Conforms) : row' = row := by
  let inv : Row → Storage → Prop := fun now s => now = row ∧ s.pool.Sound
  have hstep : ∀ {f : Faults} {e : Error} {now next : Row} {s s' : Storage}, inv now s →
      f.insertRow catalog tid table now s = (.error e, next, s') → inv next s' := by
    rintro f e now next s s' ⟨rfl, hs⟩ hfirst
    exact ⟨row_of_insertRow hs hrow hfirst, (insertRow_steps hs hfirst).sound hs⟩
  exact (insertAgain_keeps hstep ⟨rfl, hs⟩ hins hfail).1

/-- **Attempts that all fail** leave a table whose rows fit as it was, or full before and one blank
    page longer. -/
theorem insertAgain_fails (hc : Coherent h s) (honly : ∀ g, catalog.file h.id = .ok g → g = h) :
    Coherent h s' ∧ (h.Keeps s s' ∨ (table = h.id ∧ h.Grows s s')) := by
  let inv : Row → Storage → Prop := fun _ now =>
    now.pool.Sound ∧ Coherent h now ∧ (h.Keeps s now ∨ (table = h.id ∧ h.Grows s now))
  have hstep : ∀ {f : Faults} {e : Error} {row row' : Row} {now next : Storage}, inv row now →
      f.insertRow catalog tid table row now = (.error e, row', next) → inv row' next := by
    rintro f e row row' now next ⟨hs, hc, hbefore⟩ hfirst
    obtain ⟨hc', hone⟩ := keeps_or_grows hc hs honly hfirst
    refine ⟨(insertRow_steps hs hfirst).sound hs, hc', ?_⟩
    rcases hbefore with hkeeps | ⟨htable, hgrows⟩ <;>
      rcases hone with hkeeps' | ⟨htable', hgrows'⟩
    · exact Or.inl (hkeeps.trans hkeeps')
    · exact Or.inr ⟨htable', .of_keeps hkeeps hgrows'⟩
    · exact Or.inr ⟨htable, hgrows.keeps hkeeps'⟩
    · exact absurd hgrows' hgrows.not_full
  exact (insertAgain_keeps hstep ⟨hs, hc, Or.inl (.refl h s)⟩ hins hfail).2

end Attempts

end Faults

/-! ## Every store -/

namespace Database

open Faults

variable {db : Database} {h : HeapFile}

/-- What is known about a heap file in every store of a run: memory and file agree, or no page of it
    is in memory since its rows do not fit. -/
theorem settled_afterTrials (hdb : db.storage.pool.Sound) {trials : List Trial}
    (hset : Coherent h db.storage ∨ Unfit h db.storage)
    (hone : ∀ d ∈ db.trialStates trials, ∀ g, d.catalog.file h.id = .ok g → g = h) :
    (db.afterTrials trials).storage.pool.Sound ∧
      (Coherent h (db.afterTrials trials).storage ∨ Unfit h (db.afterTrials trials).storage) ∧
      ∀ g, (db.afterTrials trials).catalog.file h.id = .ok g → g = h := by
  induction trials generalizing db with
  | nil => exact ⟨hdb, hset, hone db List.mem_cons_self⟩
  | cons trial trials ih =>
    have honly := hone db List.mem_cons_self
    have hsteps := Faults.perform_steps (f := trial.faults) hdb trial.request
    refine ih (hsteps.sound hdb) ?_ fun d hd => hone d (List.mem_cons_of_mem _ hd)
    rcases hset with hc | hu
    · exact Or.inl (hsteps.coherent_keeps hc hdb honly).1
    · exact Or.inr (hsteps.unfit hu hdb honly).1

/-- **Writes that fail change nothing**, in every store that a run leads to in which any use of a file
    may fail, as long as the number of a table stands for one file with one schema and page size
    whenever the catalog knows it.  If storing a row fails, once or any number of times in a row, the
    row of the caller is what it was, and the pages of every table have the bytes that they had; only
    the table of the row may have become one blank page longer, and not more than one.  If deleting a
    row fails, all pages have the bytes that they had. -/
theorem failed_writes_change_nothing {files files' : Files} {directory : String} {config : Config}
    (hopen : create files directory config = (.ok db, files')) {trials : List Trial} {d : Database}
    (hreach : db.afterTrials trials = d)
    (hone : ∀ d ∈ db.trialStates trials, ∀ g, d.catalog.file h.id = .ok g → g = h) :
    (∀ tid table row attempts results row' s', row.Conforms →
      insertAgain d.catalog tid table attempts row d.storage = (results, row', s') →
      (∀ r ∈ results, ∃ e, r = .error e) →
      row' = row ∧ (h.SameBytes d.storage s' ∨ (table = h.id ∧ h.BlankAdded d.storage s'))) ∧
    ∀ (f : Faults) tid place e s', f.deleteRow d.catalog tid place d.storage = (.error e, s') →
      h.SameBytes d.storage s' := by
  subst hreach
  obtain ⟨-, hpool, -, rfl⟩ := create_cases hopen
  have hempty : Coherent h ⟨files', Pool.empty config⟩ ∨ Unfit h ⟨files', Pool.empty config⟩ := by
    by_cases hfits : h.Fits
    · exact Or.inl (.of_none hfits fun _ => rfl)
    · exact Or.inr ⟨hfits, fun _ => rfl⟩
  obtain ⟨hs, hset, honly⟩ := settled_afterTrials (Pool.sound_empty hpool) hempty hone
  constructor
  · intro tid table row attempts results row' s' hrow hins hfail
    refine ⟨row_of_insertAgain hs hins hfail hrow, ?_⟩
    rcases hset with hc | hu
    · obtain ⟨hc', hkeeps | ⟨htable, hgrows⟩⟩ := insertAgain_fails hs hins hfail hc honly
      · exact Or.inl (hkeeps.sameBytes hc hc')
      · exact Or.inr ⟨htable, hgrows.blankAdded hc hc'⟩
    · obtain ⟨hu', hcontent⟩ := (insertAgain_steps hs hins hfail).unfit hu hs honly
      exact Or.inl (hu.sameBytes hu' hcontent)
  · intro f tid place e s' hdel
    obtain ⟨e', -, hquiet⟩ | ⟨p, hok, -⟩ := deleteRow_cases hs hdel
    · rcases hset with hc | hu
      · obtain ⟨hc', hkeeps⟩ := hquiet.coherent_keeps hc hs honly
        exact (hkeeps fun hno => hno).sameBytes hc hc'
      · obtain ⟨hu', hcontent⟩ := hquiet.unfit hu hs honly
        exact hu.sameBytes hu' hcontent
    · cases hok

/-- In a store for one page, that page is changed, its table is forgotten, and it can be written back
    neither before nor after.  Storing a row in another table fails three times: the file cannot be
    written, then it grows and the new page finds no room in memory, and then it finds none again. -/
theorem failed_writes_change_nothing_but_grow :
    let schema := Schema.single "n" .int
    let a : HeapFile := ⟨["d", "a.dat"], schema, 64⟩
    let b := tableIdOf ["d", "b.dat"]
    let row (n : Int32) : Row := ⟨schema, [.int n], none⟩
    let fault : Error := .storage (.described "no space left")
    let broken : Faults := ⟨fun | .write _ => some fault | _ => none⟩
    let trials : List Trial :=
      [⟨.never, .task (.createTable "a" schema)⟩, ⟨.never, .task (.createTable "b" schema)⟩,
       ⟨.never, .task (.insertRow ⟨0⟩ b (row 1))⟩, ⟨broken, .task .flushAll⟩,
       ⟨.never, .clearCatalog⟩, ⟨.never, .task (.createTable "a" schema)⟩]
    ∃ db files' s', create Files.empty "/d" ⟨64, 1⟩ = (.ok db, files') ∧
      insertAgain (db.afterTrials trials).catalog ⟨0⟩ a.id [broken, .never, .never] (row 2)
          (db.afterTrials trials).storage =
        ([.error fault, .error (.eviction ⟨b, 0⟩ (.missing (.table b))),
          .error (.eviction ⟨b, 0⟩ (.missing (.table b)))], row 2, s') ∧
      a.BlankAdded (db.afterTrials trials).storage s' := by
  intro schema a b row fault broken trials
  let db : Database := ⟨"/d", ⟨64, 1⟩, Catalog.empty, ⟨⟨[], [["d"]], []⟩, Pool.empty ⟨64, 1⟩⟩⟩
  have hopen : create Files.empty "/d" ⟨64, 1⟩ = (.ok db, ⟨[], [["d"]], []⟩) := rfl
  have hone : ∀ d ∈ db.trialStates trials, ∀ g, d.catalog.file a.id = .ok g → g = a := by
    decide +kernel
  have hresults : (insertAgain (db.afterTrials trials).catalog ⟨0⟩ a.id [broken, .never, .never]
      (row 2) (db.afterTrials trials).storage).1 =
        [.error fault, .error (.eviction ⟨b, 0⟩ (.missing (.table b))),
          .error (.eviction ⟨b, 0⟩ (.missing (.table b)))] := by decide +kernel
  have hgrown : a.numPages (insertAgain (db.afterTrials trials).catalog ⟨0⟩ a.id
      [broken, .never, .never] (row 2) (db.afterTrials trials).storage).2.2.files ≠
        a.numPages (db.afterTrials trials).storage.files := by decide +kernel
  rcases hins : insertAgain (db.afterTrials trials).catalog ⟨0⟩ a.id [broken, .never, .never]
    (row 2) (db.afterTrials trials).storage with ⟨results, row', s'⟩
  simp only [hins] at hresults hgrown
  have hfail : ∀ r ∈ results, ∃ e, r = .error e := by
    intro r hr
    rw [hresults] at hr
    simp only [List.mem_cons, List.not_mem_nil, or_false] at hr
    rcases hr with rfl | rfl | rfl <;> exact ⟨_, rfl⟩
  have hrow : (row 2).Conforms := by decide
  obtain ⟨hsame, hbytes⟩ := (failed_writes_change_nothing hopen rfl hone).1 ⟨0⟩ a.id (row 2)
    [broken, .never, .never] results row' s' hrow hins hfail
  refine ⟨db, _, s', hopen, ?_, ?_⟩
  · rw [hins, hresults, hsame]
  · rcases hbytes with hbytes | ⟨-, hbytes⟩
    · exact absurd hbytes.numPages hgrown
    · exact hbytes

end Database

end RowStore
