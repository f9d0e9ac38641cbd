import RowStore.Proofs.Cursor.Lasting

/-!
Pulls that fail and are repeated.

Program.  A cursor over a tree of scans, filters and joins is open and is asked for its rows.  Some of these
calls fail, since a page or a table cannot be had at the moment: the table was taken out of the catalog, or
another page stands in the way.  Later the cursor is asked again.

Specification.  The rows that the successful calls give are, in their order, those that the tree means over
the rows of its tables when it was started, as if no call had failed.

1. One call takes the row that it gives from those that are left, and no other (`Cursor.call_resumes`).
2. So it is along a run in which no scanned table is written (`Cursor.given_along`).
3. Failed pulls lose nothing, if none of them failed for a table on the inner side of a join
   (`Cursor.failed_pulls_lose_nothing`).  Otherwise they may lose rows (`Cursor.failed_pulls_lose_rows`).

Crux.  A scan that fails stands before the page that it asked for, so it does not matter how long that page
is away.  A join takes the outer row out of its state for the run through the inner source and puts it back
only when a pair is given: what fails on the inner side loses the other pairs of that row, and a rewind that
fails leaves a scan of nothing behind, so that the next outer row finds no partner.
-/

namespace RowStore

open Storage Source

variable {one : TableId → HeapFile} {db : Database}

/-! ## Runs -/

/-- What may happen between two pulls: the next row is looked for or taken, and others ask for what does
    not write the tables of `ids`. -/
def Move.Pulls (ids : List TableId) : Move → Prop
  | .call asked => asked = .hasNext ∨ asked = .next
  | .request wanted => ∀ id ∈ ids, ¬ wanted.effects (.write id)

namespace Move

variable {ids : List TableId}

@[simp] theorem pulls_call {asked : Call} :
    Pulls ids (.call asked) ↔ asked = .hasNext ∨ asked = .next := Iff.rfl

@[simp] theorem pulls_clearCatalog : Pulls ids (.request .clearCatalog) := fun _ _ hno => hno

@[simp] theorem pulls_createTable (name : String) (schema : Schema) :
    Pulls ids (.request (.task (.createTable name schema))) := by
  rintro id - ⟨⟩

end Move

namespace Cursor

/-- The rows that the calls of a run give, in their order. -/
def given (c : Cursor) (db : Database) (moves : List Move) : List Row :=
  (c.moments db moves).filterMap Moment.given?

/-- A run of pulls in which no scanned table is written, and each of them, whenever the catalog knows it, is
    the same file. -/
structure Retries (one : TableId → HeapFile) (c : Cursor) (db : Database) (moves : List Move) : Prop where
  /-- Rows are pulled, and no scanned table is written. -/
  pulls : ∀ move ∈ moves, move.Pulls c.plan.tables
  /-- A table that is registered again is the table that it was. -/
  same : ∀ d ∈ c.stores db moves, ∀ id ∈ c.plan.tables, ∀ h, d.catalog.file id = .ok h → h = one id

theorem Retries.of_follows {c : Cursor} {moves : List Move}
    (hpulls : ∀ move ∈ moves, move.Pulls c.plan.tables) (hfollows : ∀ d ∈ c.stores db moves, d.Follows one) : c.Retries one db moves where
  pulls := hpulls
  same := fun d hd _ _ h hfile => by rw [(hfollows d hd).eq_of_file hfile, Catalog.id_of_file hfile]

/-- Whenever a call fails, the tables on the inner sides of joins are available. -/
def InnerAvailable (c : Cursor) (db : Database) (moves : List Move) : Prop :=
  ∀ m ∈ c.moments db moves, ∀ e, m.answer? = some (.error e) → e ≠ .noMoreRows →
    ∀ id ∈ c.plan.innerTables, Available m.db.catalog id m.db.storage

/-- The cursor said at some moment of a run that there is no further row. -/
def Exhausted (c : Cursor) (db : Database) (moves : List Move) : Prop :=
  ∃ m ∈ c.moments db moves, m.IsLast

variable {plan : Plan} {g : Guarded plan.source.State} {left rows : List Row}
  {has : plan.source.State → List Row → Prop}

/-! ## One call -/

section Call

variable {catalog : Catalog} {W : Storage → Prop} {fails : Storage → Error → Prop} {keeps : Storage → Prop}
  {s s' : Storage} {asked : Call} {answer : Except Error Reply} {c' : Cursor}

/-- **One pull.**  A row that is given is taken from those that are left; the cursor is at its end only if
    none was left; and a call that fails takes none away, if the source keeps them. -/
theorem call_resumes (hsrc : Resumes catalog W fails keeps plan.source rows has)
    (hg : Guarded.Has has g left) (hasked : asked = .hasNext ∨ asked = .next) (hs : W s)
    (h : Cursor.call catalog ⟨plan, g⟩ s asked = (answer, c', s')) :
    Quiet catalog s s' ∧ ∃ g', c' = ⟨plan, g'⟩ ∧
      ((∃ left', left = (Reply.given? answer).toList ++ left' ∧ Guarded.Has has g' left' ∧
          (Reply.IsLast answer → left = [])) ∨
       ∃ e, answer = .error e ∧ fails s e ∧ (keeps s → Guarded.Has has g' left)) := by
  let lost : Error → plan.source.State → List Row → Prop := fun e st rest =>
    fails s e ∧ (keeps s → has st rest)
  have hfetch : ∀ {st rest r st' s'}, has st rest → plan.source.fetch catalog st s = (r, st', s') →
      Quiet catalog s s' ∧ ((r = .ok rest.head? ∧ has st' rest.tail) ∨
        ∃ e, r = .error e ∧ lost e st' rest) := fun hst h => hsrc.fetch hs hst h
  -- what the source has left when it failed, the open cursor has left
  have hkept : ∀ {g' : Guarded plan.source.State}, g'.isOpen = true → g'.ahead = none →
      (keeps s → has g'.inner left) → keeps s → Guarded.Has has g' left := fun hopen hahead hst hk =>
    ⟨hopen, left, hst hk, by rw [hahead]; rfl⟩
  rcases hasked with rfl | rfl
  · unfold Cursor.call Cursor.hasNext at h
    rcases hnext : Guarded.hasNext catalog g s with ⟨r, g₁, s₁⟩
    obtain ⟨hquiet, ⟨rfl, -, hg₁⟩ | ⟨e, rfl, hopen, hahead, he, hst⟩⟩ :=
      Guarded.hasNext_of_fetch hfetch .refl hg hnext
    · rw [hnext] at h
      cases h
      refine ⟨hquiet, g₁, rfl, Or.inl ⟨left, rfl, hg₁, ?_⟩⟩
      rintro (hlast | hlast)
      · cases left with
        | nil => rfl
        | cons row rest => cases hlast
      · cases hlast
    · rw [hnext] at h
      cases h
      exact ⟨hquiet, g₁, rfl, Or.inr ⟨e, rfl, he, hkept hopen hahead hst⟩⟩
  · unfold Cursor.call Cursor.next at h
    rcases hnext : Guarded.next catalog g s with ⟨r, g₁, s₁⟩
    obtain ⟨hquiet, ⟨row, rest, rfl, rfl, hg₁⟩ | ⟨rfl, rfl, hg₁⟩ | ⟨e, rfl, hopen, hahead, he, hst⟩⟩ :=
      Guarded.next_of_fetch hfetch .refl hg hnext
    · rw [hnext] at h
      cases h
      refine ⟨hquiet, g₁, rfl, Or.inl ⟨rest, rfl, hg₁, ?_⟩⟩
      rintro (hlast | hlast) <;> cases hlast
    · rw [hnext] at h
      cases h
      exact ⟨hquiet, g₁, rfl, Or.inl ⟨[], rfl, hg₁, fun _ => rfl⟩⟩
    · rw [hnext] at h
      cases h
      exact ⟨hquiet, g₁, rfl, Or.inr ⟨e, rfl, he, hkept hopen hahead hst⟩⟩

end Call

/-! ## A run -/

variable {view : TableId → PagedTable} {count : TableId → Nat} {moves : List Move}

theorem given_cons (c : Cursor) (db : Database) (move : Move) (moves : List Move) :
    given c db (move :: moves) = (Moment.given? ⟨c, db, move⟩).toList ++
      given (c.move db move).1 (c.move db move).2 moves := by
  unfold given
  rw [moments_cons, List.filterMap_cons]
  cases Moment.given? ⟨c, db, move⟩ <;> rfl

theorem exhausted_cons (c : Cursor) (db : Database) (move : Move) (moves : List Move) :
    Exhausted c db (move :: moves) ↔
      Moment.IsLast ⟨c, db, move⟩ ∨ Exhausted (c.move db move).1 (c.move db move).2 moves :=
  List.exists_mem_cons_iff _ _ _

/-- **The run lemma.**  The rows that are given are the first of those that are left, and all of them if the
    cursor came to its end. -/
theorem given_along
    (hsrc : ∀ catalog, Resumes catalog (Lasts one view count plan.tables catalog)
      (Lacks catalog plan.tables) (fun s => ∀ id ∈ plan.innerTables, Available catalog id s) plan.source
      rows has)
    (hlasts : Lasts one view count plan.tables db.catalog db.storage) (hg : Guarded.Has has g left)
    (hrun : Retries one ⟨plan, g⟩ db moves) (hinner : InnerAvailable ⟨plan, g⟩ db moves) :
    given ⟨plan, g⟩ db moves <+: left ∧ (Exhausted ⟨plan, g⟩ db moves → given ⟨plan, g⟩ db moves = left) := by
  induction moves generalizing g db left with
  | nil =>
    refine ⟨List.nil_prefix, ?_⟩
    rintro ⟨m, hm, -⟩
    cases hm
  | cons move moves ih =>
    obtain ⟨hpulls, hrest⟩ := List.forall_mem_cons.mp hrun.pulls
    obtain ⟨-, hsame⟩ := List.forall_mem_cons.mp hrun.same
    obtain ⟨hnow, hlater⟩ := List.forall_mem_cons.mp hinner
    rw [given_cons, exhausted_cons]
    cases move with
    | request wanted =>
      have hwrites : ∀ id ∈ plan.tables, ¬ wanted.effects (.write id) := hpulls
      have hlasts' := (hlasts.steps hwrites (Database.perform_steps hlasts.sound wanted)).of_catalog
        (hsame _ (mem_stores _ _ _))
      obtain ⟨hfirst, hall⟩ := ih hlasts' hg ⟨hrest, hsame⟩ hlater
      refine ⟨hfirst, ?_⟩
      rintro (⟨answer, hnone, -⟩ | hlast)
      · cases hnone
      · exact hall hlast
    | call asked =>
      have hasked : asked = .hasNext ∨ asked = .next := hpulls
      rcases hcall : Cursor.call db.catalog ⟨plan, g⟩ db.storage asked with ⟨answer, c', s⟩
      obtain ⟨hquiet, g', rfl, hends⟩ := call_resumes (hsrc db.catalog) hg hasked hlasts hcall
      obtain ⟨hnext, hanswer, hgiven, -⟩ := Moment.of_call (m := ⟨⟨plan, g⟩, db, .call asked⟩) rfl hcall
      let after : Database := { db with storage := s }
      replace hnext : Cursor.move ⟨plan, g⟩ db (.call asked) = (⟨plan, g'⟩, after) := hnext
      rw [hnext] at hsame hlater ⊢
      have hlasts' : Lasts one view count plan.tables after.catalog after.storage := hlasts.quiet hquiet
      rw [hgiven]
      obtain ⟨left', rfl, hg', hlast⟩ | ⟨e, rfl, he, hkeeps⟩ := hends
      · obtain ⟨hfirst, hall⟩ := @ih after g' left' hlasts' hg' ⟨hrest, hsame⟩ hlater
        have htaken := (List.prefix_append_right_inj (Reply.given? answer).toList).mpr hfirst
        refine ⟨htaken, ?_⟩
        rintro (⟨answer', hanswer', hend⟩ | hend)
        · -- nothing was left, so nothing was given
          cases hanswer.symm.trans hanswer'
          rw [hlast hend] at htaken ⊢
          exact List.prefix_nil.mp htaken
        · rw [hall hend]
      · -- the call failed, and what was left is left
        have hg' := hkeeps (hnow e hanswer he.1)
        obtain ⟨hfirst, hall⟩ := @ih after g' left hlasts' hg' ⟨hrest, hsame⟩ hlater
        refine ⟨hfirst, ?_⟩
        rintro (⟨answer', hanswer', hend⟩ | hend)
        · cases hanswer.symm.trans hanswer'
          rcases hend with hend | hend
          · cases hend
          · exact absurd (Except.error.inj hend) he.1
        · exact hall hend

/-! ## From a start on -/

/-- A start that succeeds is a start of the source of the plan. -/
theorem start_eq_ok {catalog : Catalog} {opened : Cursor} {s s' : Storage}
    (h : Cursor.start catalog ⟨plan, g⟩ s = (.ok (), opened, s')) :
    ∃ g', opened = ⟨plan, g'⟩ ∧ Guarded.start catalog g s = (.ok (), g', s') := by
  unfold Cursor.start at h
  rcases hstart : Guarded.start catalog g s with ⟨r, g', s₁⟩
  rw [hstart] at h
  cases h
  exact ⟨g', rfl, rfl⟩

/-- **Failed pulls lose nothing.**  A cursor over a tree of scans, filters and joins is started, and asked for
    its rows while no scanned table is written.  Any of its calls may fail, and any of its tables may be
    forgotten and registered again.  Then the rows that are given are, in their order, the first of those
    that the tree means, and at its end they are all of them, if all tables on the inner sides of joins were
    available whenever a call failed. -/
theorem failed_pulls_lose_nothing {cursors : List Cursor} (hdb : db.Reached one cursors) {c opened : Cursor}
    {s : Storage} (hplan : c.plan.isSelection = true)
    (hstart : c.start db.catalog db.storage = (.ok (), opened, s)) :
    ∃ rows, c.plan.meaning db.tableRows = .ok rows ∧
      ∀ moves, opened.Retries one { db with storage := s } moves →
        opened.InnerAvailable { db with storage := s } moves →
        opened.given { db with storage := s } moves <+: rows ∧
          (opened.Exhausted { db with storage := s } moves →
            opened.given { db with storage := s } moves = rows) := by
  obtain ⟨plan, g⟩ := c
  obtain ⟨g', rfl, hopened⟩ := start_eq_ok hstart
  obtain ⟨hs, hfollows, -, hheld⟩ := hdb.displays
  -- every table is known when the cursor is started, and it is the file that `one` names
  have hknown : ∀ id ∈ plan.tables, db.catalog.file id = .ok (one id) ∧ (one id).id = id := by
    intro id hid
    obtain ⟨_, hsource, -⟩ := Guarded.start_eq_ok hopened
    obtain ⟨h, hfile⟩ := Plan.known_of_start hplan hsource id hid
    obtain rfl := Catalog.id_of_file hfile
    have hone := hfollows.eq_of_file hfile
    exact ⟨hone ▸ hfile, by rw [← hone]⟩
  have hlasts : Lasts one db.paged (fun id => (one id).numPages db.storage.files) plan.tables db.catalog
      db.storage := by
    refine ⟨hs, fun id hid => ?_, fun id hid g hg => ?_⟩
    · obtain ⟨hfile, hone⟩ := hknown id hid
      obtain ⟨now, hd⟩ := hheld (one id) (by rw [hone])
      have hfile' : db.catalog.file (one id).id = .ok (one id) := by rw [hone, hfile]
      have hpaged := HeapFile.Displays.paged hd hs hfile'
      rw [hone] at hpaged
      exact ⟨hone, hpaged, rfl⟩
    · exact Catalog.eq_of_file (hknown id hid).1 hg
  obtain ⟨rows, hmeaning⟩ := Plan.meaning_of_isSelection hplan db.tableRows
  rw [Database.tableRows_eq] at hmeaning
  obtain ⟨has, hresumes⟩ := Plan.resumes hplan (fun _ hid => hid) hmeaning
  obtain ⟨hquiet, hbegun⟩ := Guarded.start_begun ((hresumes db.catalog).start hlasts) hopened
  refine ⟨rows, by rw [Database.tableRows_eq, hmeaning], fun moves hrun hinner => ?_⟩
  cases hbegun with
  | ok hg => exact given_along hresumes (hlasts.quiet hquiet) hg hrun hinner

/-- A join reads three rows on two pages with two rows on one.  After its second row both tables are
    forgotten, and only the inner one is registered again.  So the second page of the outer table cannot be
    had, and two calls fail before the outer table comes back. -/
theorem failed_pulls_lose_nothing_of_outer_table :
    let schema := Schema.single "n" .int
    let a := tableIdOf ["d", "a.dat"]
    let b := tableIdOf ["d", "b.dat"]
    let one (id : TableId) : HeapFile :=
      if id = a then ⟨["d", "a.dat"], schema, 9⟩ else ⟨["d", "b.dat"], schema, 9⟩
    let row (n : Int32) : Row := ⟨schema, [.int n], none⟩
    let requests : List Request :=
      [.task (.createTable "a" schema), .task (.createTable "b" schema),
       .task (.insertRow ⟨0⟩ a (row 1)), .task (.insertRow ⟨0⟩ a (row 2)),
       .task (.insertRow ⟨0⟩ a (row 3)), .task (.insertRow ⟨0⟩ b (row 2)),
       .task (.insertRow ⟨0⟩ b (row 3)), .task .flushAll]
    let plan := Plan.join ⟨0, .le, 0⟩ (.filter ⟨0, .lt, .int 9⟩ (.scan a schema)) (.scan b schema)
    let moves : List Move :=
      [.call .next, .call .hasNext, .request .clearCatalog, .request (.task (.createTable "b" schema)),
       .call .next, .call .next, .call .next, .call .next, .call .hasNext,
       .request (.task (.createTable "a" schema)), .call .next, .call .next]
    let pair (m n : Int32) : Row := ⟨plan.schema, [.int m, .int n], none⟩
    ∃ new files' opened s, Database.create Files.empty "/d" ⟨9, 1⟩ = (.ok new, files') ∧
      (new.after requests).Reached one [] ∧
      (Cursor.ofPlan plan).start (new.after requests).catalog (new.after requests).storage =
        (.ok (), opened, s) ∧
      opened.Retries one { new.after requests with storage := s } moves ∧
      opened.InnerAvailable { new.after requests with storage := s } moves ∧
      opened.answers { new.after requests with storage := s } moves =
        [.ok (.row (pair 1 2)), .ok (.more true), .ok (.row (pair 1 3)), .ok (.row (pair 2 2)),
         .ok (.row (pair 2 3)), .error (.missing (.table a)), .error (.missing (.table a)),
         .ok (.row (pair 3 3)), .error .noMoreRows] ∧
      plan.meaning (new.after requests).tableRows =
        .ok (opened.given { new.after requests with storage := s } moves) := by
  intro schema a b one row requests plan moves pair
  let new : Database := ⟨"/d", ⟨9, 1⟩, Catalog.empty, ⟨⟨[], [["d"]], []⟩, Pool.empty ⟨9, 1⟩⟩⟩
  let heap : HeapFile := ⟨["d", "b.dat"], schema, 9⟩
  let run := (Cursor.ofPlan plan).start (new.after requests).catalog (new.after requests).storage
  have hopen : Database.create Files.empty "/d" ⟨9, 1⟩ = (.ok new, ⟨[], [["d"]], []⟩) := rfl
  have hbefore : (new.after requests).Reached one [] :=
    Database.Reached.after (.opened hopen) (by decide +kernel)
  have hrun : run.1 = .ok () ∧
      (∀ d ∈ run.2.1.stores { new.after requests with storage := run.2.2 } moves, d.Follows one) ∧
      (∀ m ∈ run.2.1.moments { new.after requests with storage := run.2.2 } moves, m.answer? = none ∨
        (m.db.catalog.file b = .ok heap ∧ ∀ e ∈ m.db.storage.pool.resident, e.2.page.dirty = false)) ∧
      (∃ m ∈ run.2.1.moments { new.after requests with storage := run.2.2 } moves,
        m.answer? = some (.error .noMoreRows)) ∧
      run.2.1.answers { new.after requests with storage := run.2.2 } moves =
        [.ok (.row (pair 1 2)), .ok (.more true), .ok (.row (pair 1 3)), .ok (.row (pair 2 2)),
         .ok (.row (pair 2 3)), .error (.missing (.table a)), .error (.missing (.table a)),
         .ok (.row (pair 3 3)), .error .noMoreRows] := by decide +kernel
  rcases hstart : run with ⟨r, opened, s⟩
  rw [hstart] at hrun
  obtain ⟨hdone, hfollows, hknown, ⟨last, hlast, hnone⟩, hanswers⟩ := hrun
  obtain rfl : r = .ok () := hdone
  have hreached := (hbefore.made plan).started hstart
  have hplan : opened.plan = plan := by
    obtain ⟨g, rfl, -⟩ := start_eq_ok hstart
    rfl
  have hretries : opened.Retries one { new.after requests with storage := s } moves :=
    .of_follows (by simp [moves]) hfollows
  have hinner : opened.InnerAvailable { new.after requests with storage := s } moves := by
    intro m hm e he _ id hid
    rw [hplan] at hid
    obtain rfl := List.mem_singleton.mp hid
    obtain hno | ⟨hfile, hclean⟩ := hknown m hm
    · cases he.symm.trans hno
    · obtain ⟨hs, -, -, hheld⟩ := (hreached.moment hfollows hm).displays
      obtain ⟨now, hh | ⟨hu, -⟩⟩ := hheld heap (by decide +kernel)
      · refine Available.of_holds (h := heap) hh hs ?_ hfile
        intro id frame hfind hdirty
        rw [hclean _ (Assoc.mem_of_find? hfind)] at hdirty
        cases hdirty
      · exact absurd (by decide) hu.unfit
  obtain ⟨rows, hrows, hall⟩ := failed_pulls_lose_nothing hbefore (c := Cursor.ofPlan plan) rfl hstart
  obtain ⟨-, hgiven⟩ := hall moves hretries hinner
  rw [← hgiven ⟨last, hlast, _, hnone, Or.inr rfl⟩] at hrows
  exact ⟨new, _, opened, s, hopen, hbefore, hstart, hretries, hinner, hanswers, hrows⟩

/-- **Failed pulls may lose rows.**  A join of two rows that go together is started, and both tables are
    forgotten.  The page of the outer table is still in memory, so the pull fails for the inner one, and the
    outer row is gone.  After both tables were registered again there is no further row. -/
theorem failed_pulls_lose_rows :
    let schema := Schema.single "n" .int
    let a := tableIdOf ["d", "a.dat"]
    let b := tableIdOf ["d", "b.dat"]
    let one (id : TableId) : HeapFile :=
      if id = a then ⟨["d", "a.dat"], schema, 64⟩ else ⟨["d", "b.dat"], schema, 64⟩
    let row : Row := ⟨schema, [.int 3], none⟩
    let requests : List Request :=
      [.task (.createTable "b" schema), .task (.insertRow ⟨0⟩ b row),
       .task (.createTable "a" schema), .task (.insertRow ⟨0⟩ a row)]
    let plan := Plan.join ⟨0, .eq, 0⟩ (.scan a schema) (.scan b schema)
    let moves : List Move :=
      [.request .clearCatalog, .call .next, .request (.task (.createTable "a" schema)),
       .request (.task (.createTable "b" schema)), .call .next, .call .next]
    ∃ new files' opened s, Database.create Files.empty "/d" ⟨64, 1⟩ = (.ok new, files') ∧
      (new.after requests).Reached one [] ∧
      (Cursor.ofPlan plan).start (new.after requests).catalog (new.after requests).storage =
        (.ok (), opened, s) ∧
      opened.Retries one { new.after requests with storage := s } moves ∧
      plan.meaning (new.after requests).tableRows = .ok [⟨plan.schema, [.int 3, .int 3], none⟩] ∧
      opened.answers { new.after requests with storage := s } moves =
        [.error (.missing (.table b)), .error .noMoreRows, .error .noMoreRows] ∧
      opened.Exhausted { new.after requests with storage := s } moves ∧
      opened.given { new.after requests with storage := s } moves = [] := by
  intro schema a b one row requests plan moves
  let new : Database := ⟨"/d", ⟨64, 1⟩, Catalog.empty, ⟨⟨[], [["d"]], []⟩, Pool.empty ⟨64, 1⟩⟩⟩
  let run := (Cursor.ofPlan plan).start (new.after requests).catalog (new.after requests).storage
  have hopen : Database.create Files.empty "/d" ⟨64, 1⟩ = (.ok new, ⟨[], [["d"]], []⟩) := rfl
  have hbefore : (new.after requests).Reached one [] :=
    Database.Reached.after (.opened hopen) (by decide +kernel)
  have hrun : run.1 = .ok () ∧
      (∀ d ∈ run.2.1.stores { new.after requests with storage := run.2.2 } moves, d.Follows one) ∧
      plan.meaning (new.after requests).tableRows = .ok [⟨plan.schema, [.int 3, .int 3], none⟩] ∧
      run.2.1.answers { new.after requests with storage := run.2.2 } moves =
        [.error (.missing (.table b)), .error .noMoreRows, .error .noMoreRows] ∧
      (∃ m ∈ run.2.1.moments { new.after requests with storage := run.2.2 } moves,
        m.answer? = some (.error .noMoreRows)) ∧
      run.2.1.given { new.after requests with storage := run.2.2 } moves = [] := by decide +kernel
  rcases hstart : run with ⟨r, opened, s⟩
  rw [hstart] at hrun
  obtain ⟨hdone, hfollows, hmeaning, hanswers, ⟨last, hlast, hnone⟩, hgiven⟩ := hrun
  obtain rfl : r = .ok () := hdone
  have hretries : opened.Retries one { new.after requests with storage := s } moves :=
    .of_follows (by simp [moves]) hfollows
  exact ⟨new, _, opened, s, hopen, hbefore, hstart, hretries, hmeaning, hanswers,
    ⟨last, hlast, _, hnone, Or.inr rfl⟩, hgiven⟩

end Cursor

end RowStore
