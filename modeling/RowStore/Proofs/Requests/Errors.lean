import RowStore.Proofs.Requests.Steps

/-!
Why requests fail.

1. Most errors say what is wrong with the request, or what is not there (`Error.isPlain`).
2. The only other reason is a changed page that cannot leave, because the catalog does not know its
   table any more; the error then names that page (`Storage.Failed`).

One lemma for each operation, from the parts of a page up to a whole request
(`Database.failed_perform`).
-/

namespace RowStore

open Storage

/-- Whether an error says neither that a page could not leave nor that there was none to leave, nor
    how a cursor was used. -/
def Error.isPlain : Error → Bool
  | .missing .victim | .eviction _ _ | .notOpen | .noMoreRows => false
  | _ => true

/-- The effects on tables that the catalog knows. -/
def Catalog.writesKnown (catalog : Catalog) (effect : Effect) : Prop :=
  ∀ table, effect = .write table → ∃ h, catalog.file table = .ok h

/-- Why an operation failed: for a plain reason, or because a changed page stood in the way on some
    step of it. -/
def Storage.Failed (catalog : Catalog) (s : Storage) (e : Error) : Prop :=
  e.isPlain = true ∨
    ∃ s' victim cause, Steps catalog catalog.writesKnown s s' ∧ Stuck catalog s' victim cause ∧
      e = .eviction victim cause

variable {catalog : Catalog} {tid : TransactionId} {e : Error} {s s' : Storage}

/-! ## Why an operation failed -/

namespace Storage

theorem Quiet.known (h : Quiet catalog s s') : Steps catalog catalog.writesKnown s s' :=
  h.steps

/-- What failed after some steps failed on the way. -/
theorem Failed.after (hsteps : Steps catalog catalog.writesKnown s s') (h : Failed catalog s' e) :
    Failed catalog s e := by
  rcases h with hplain | ⟨s₁, victim, cause, hlater, hstuck, he⟩
  · exact Or.inl hplain
  · exact Or.inr ⟨s₁, victim, cause, hsteps.trans hlater, hstuck, he⟩

end Storage

/-! ## Pages and files -/

theorem Page.isPlain_ofBytes {id : PageId} {schema : Schema} {bytes : Bytes} {pageSize : Nat}
    (h : Page.ofBytes id schema bytes pageSize = .error e) : e.isPlain = true := by
  unfold ofBytes at h
  split at h
  · cases h
    rfl
  · split at h <;> cases h
    rfl

theorem HeapFile.isPlain_checkTable {h : HeapFile} {id : PageId}
    (hcheck : h.checkTable id = .error e) : e.isPlain = true := by
  unfold checkTable at hcheck
  split at hcheck <;> cases hcheck
  rfl

theorem Catalog.isPlain_file {table : TableId} (hfile : catalog.file table = .error e) :
    e.isPlain = true := by
  rw [error_of_file hfile]
  rfl

theorem Storage.isPlain_readPage {id : PageId} (h : s.readPage catalog id = .error e) :
    e.isPlain = true := by
  simp only [readPage, bind, Except.bind] at h
  split at h
  · rename_i e' hfile
    cases h
    exact Catalog.isPlain_file hfile
  · simp only [HeapFile.readPage, bind, Except.bind] at h
    split at h
    · rename_i hcheck
      cases h
      exact HeapFile.isPlain_checkTable hcheck
    · split at h
      · cases h
        rfl
      · exact Page.isPlain_ofBytes h

theorem isPlain_clipValues {schema : Schema} {values : List Value} {i : Nat}
    (h : clipValues schema i values = .error e) : e.isPlain = true := by
  induction values generalizing i with
  | nil => cases h
  | cons v vs ih =>
    have hcolumn : ∀ {e : Error}, schema.columnType i = .error e → e.isPlain = true := by
      intro e h
      unfold Schema.columnType Schema.column at h
      split at h <;> cases h
      rfl
    have hrest : ∀ {w : Value}, (do
        let vs ← clipValues schema (i + 1) vs
        .ok (w :: vs) : Except Error (List Value)) = .error e → e.isPlain = true := by
      intro w h
      simp only [bind, Except.bind] at h
      split at h
      · rename_i hvs
        cases h
        exact ih hvs
      · cases h
    unfold clipValues at h
    split at h
    · split at h
      · rename_i he
        cases h
        exact hcolumn he
      · split at h
        · exact hrest h
        · cases h
          rfl
    · exact hrest h

theorem Page.isPlain_insert {p : Page} {row : Row} (h : p.insert row = .error e) :
    e.isPlain = true := by
  unfold insert at h
  split at h
  · cases h
    rfl
  · split at h
    · cases h
      rfl
    · simp only [Row.clip, bind, Except.bind] at h
      cases hclip : clipValues row.schema 0 row.values with
      | error e' =>
        rw [hclip] at h
        cases h
        exact isPlain_clipValues hclip
      | ok values =>
        rw [hclip] at h
        cases h

theorem Page.isPlain_delete {p : Page} {place : Option RecordId}
    (h : p.delete place = .error e) : e.isPlain = true := by
  unfold delete at h
  split at h
  · cases h
    rfl
  · split at h
    · cases h
      rfl
    · split at h <;> cases h
      rfl

/-! ## Operations on the storage -/

/-- A page is not found for a plain reason, or because room cannot be made for it. -/
theorem Storage.failed_getPage {id : PageId} (hs : s.pool.Sound)
    (h : s.getPage catalog id = (.error e, s')) : Failed catalog s e := by
  obtain ⟨frame, -, he, -⟩ | ⟨-, ⟨cause, hread, he, -⟩ | ⟨page, -,
    ⟨victim, cause, hstuck, he, -⟩ | ⟨s₁, -, he, -⟩⟩⟩ := getPage_cases hs h
  · cases he
  · cases he
    exact Or.inl (isPlain_readPage hread)
  · cases he
    exact Or.inr ⟨s, victim, cause, .refl, hstuck, rfl⟩
  · cases he

theorem Storage.isPlain_flushPage {id : PageId} (h : s.flushPage catalog id = (.error e, s')) :
    e.isPlain = true := by
  obtain ⟨he, -, -⟩ | ⟨frame, -, -, ⟨e', hfile, he, -⟩ | ⟨file, files, -, -, he, -⟩⟩ :=
    flushPage_cases h
  · cases he
  · cases he
    exact Catalog.isPlain_file hfile
  · cases he

theorem Storage.isPlain_flushEach {ids : List PageId}
    (h : s.flushEach catalog ids = (.error e, s')) : e.isPlain = true := by
  induction ids generalizing s with
  | nil => cases h
  | cons id ids ih =>
    unfold flushEach at h
    split at h
    · rename_i hflush
      cases h
      exact isPlain_flushPage hflush
    · exact ih h

namespace HeapFile

open Storage

variable {h : HeapFile}

theorem isPlain_grow (hgrow : h.grow s = (.error e, s')) : e.isPlain = true := by
  obtain ⟨e', hblank, he, -⟩ | ⟨page, files, -, -, he, -⟩ := grow_cases hgrow
  · cases he
    exact Page.isPlain_ofBytes hblank
  · cases he

theorem isPlain_insertInto {row : Row} {frame : Frame}
    (hinto : insertInto tid row frame s = (.error e, s')) : e.isPlain = true := by
  obtain ⟨e', hins, he, -⟩ | ⟨row', page, -, he, -⟩ := insertInto_cases hinto
  · cases he
    exact Page.isPlain_insert hins
  · cases he

theorem Inserted.failed {table : TableId} {row : Row} (hs : s.pool.Sound)
    (hfile : catalog.file table = .ok h)
    (hins : h.Inserted catalog tid row s (.error e) s') : Failed catalog s e := by
  cases hins with
  | otherTypes htypes => exact Or.inl rfl
  | unread hn hquiet hget =>
    exact (failed_getPage (hquiet.sound hs) hget).after hquiet.known
  | old htypes hn hfull hquiet hfind hfree hinto => exact Or.inl (isPlain_insertInto hinto)
  | ungrown hquiet hgrow => exact Or.inl (isPlain_grow hgrow)
  | @newUnread _ _ s₁ s₂ _ hfull hquiet hgrow hget =>
    -- the file has grown already
    have hfile' : catalog.file h.id = .ok h := Catalog.id_of_file hfile ▸ hfile
    have hknown : catalog.writesKnown (.write h.id) := by
      intro table htable
      cases htable
      exact ⟨h, hfile'⟩
    have hsteps : Steps catalog catalog.writesKnown s s₂ :=
      hquiet.known.trans (grow_steps hknown hfile' hgrow)
    exact (failed_getPage (hsteps.sound hs) hget).after hsteps
  | new htypes hfull hquiet hgrow hget hinto => exact Or.inl (isPlain_insertInto hinto)

theorem Deleted.failed {place : Option RecordId} (hs : s.pool.Sound)
    (hdel : h.Deleted catalog tid s place (.error e) s') : Failed catalog s e := by
  cases hdel with
  | noPlace => exact Or.inl rfl
  | otherTable hcheck => exact Or.inl (isPlain_checkTable hcheck)
  | unread hcheck hget => exact failed_getPage hs hget
  | refused hcheck hget hdelete => exact Or.inl (Page.isPlain_delete hdelete)

end HeapFile

/-! ## Scans -/

namespace Source

open Storage

/-- A scan fails for a page that cannot be taken, since its consumer does not make it fail. -/
theorem Scan.failed_eachPage {α : Type} {table : TableId} {consume : Consumer α}
    (hconsume : ConsumerSteps catalog (fun _ => False) consume) {pages : Nat}
    {scan scan' : Scan} {a a' : α} (hs : s.pool.Sound)
    (h : Scan.eachPage table catalog consume pages scan a s = (.failed e, scan', a', s')) :
    Failed catalog s e := by
  have hpage : ∀ {n : Nat} {b : α} {s₁ s₂ : Storage} {r : Except Error Frame},
      n < scan.next + pages → Quiet catalog s s₁ → s₁.getPage catalog ⟨table, n⟩ = (r, s₂) →
      (∃ frame : Frame, r = .ok frame ∧ Quiet catalog s s₂) ∨
      (∃ e, r = .error e ∧ Failed catalog s e ∧ Quiet catalog s s₂) := by
    intro n b s₁ s₂ r _ hquiet hget
    have hs₁ := hquiet.sound hs
    have hquiet' : Quiet catalog s s₂ := hquiet.trans (getPage_steps hs₁ hget)
    cases r with
    | ok frame => exact Or.inl ⟨frame, rfl, hquiet'⟩
    | error e => exact Or.inr ⟨e, rfl, (failed_getPage hs₁ hget).after hquiet.known, hquiet'⟩
  obtain ⟨-, -, -, hended⟩ :=
    Scan.eachPage_ends (fun _ => hconsume.consumes hs) rfl (hpage (b := a)) .refl h
  cases hended with
  | failed he _ => exact he

end Source

theorem Storage.failed_scanRows {table : TableId} (hs : s.pool.Sound)
    (h : s.scanRows catalog table = (.error e, s')) : Failed catalog s e := by
  rw [scanRows_eq] at h
  cases hfile : catalog.file table with
  | error e' =>
    rw [hfile] at h
    cases h
    exact Or.inl (Catalog.isPlain_file hfile)
  | ok file =>
    simp only [hfile] at h
    rcases heach : Source.Scan.eachPage table catalog Source.takeRow (file.numPages s.files)
        ⟨file.numPages s.files, 0, []⟩ [] s with ⟨ending, rest⟩
    rw [heach] at h
    cases ending with
    | failed e' =>
      cases h
      exact Source.Scan.failed_eachPage Source.takeRow_steps hs heach
    | exhausted => cases h
    | stopped => cases h

/-! ## Requests -/

theorem Storage.failed_insertRow {table : TableId} {row : Row} (hs : s.pool.Sound)
    (h : s.insertRow catalog tid table row = (.error e, s')) : Failed catalog s e := by
  obtain ⟨e', hfile, he, -⟩ | ⟨file, hfile, ⟨e', hins, he⟩ | ⟨row', frame, s₁, -, he, -⟩⟩ :=
    insertRow_cases hs h
  · cases he
    exact Or.inl (Catalog.isPlain_file hfile)
  · cases he
    exact hins.failed hs hfile
  · cases he

theorem Storage.failed_deleteRow {place : Option RecordId} (hs : s.pool.Sound)
    (h : s.deleteRow catalog tid place = (.error e, s')) : Failed catalog s e := by
  obtain ⟨-, he, -⟩ | ⟨p, rfl, ⟨e', hfile, he, -⟩ | ⟨file, -, ⟨e', hdel, he⟩ |
    ⟨frame, s₁, -, he, -⟩⟩⟩ := deleteRow_cases hs h
  · cases he
    exact Or.inl rfl
  · cases he
    exact Or.inl (Catalog.isPlain_file hfile)
  · cases he
    exact hdel.failed hs
  · cases he

theorem Storage.failed_insertInFile {table : TableId} {row : Row} (hs : s.pool.Sound)
    (h : s.insertInFile catalog tid table row = (.error e, s')) : Failed catalog s e := by
  obtain ⟨e', hfile, he, -⟩ | ⟨file, r₁, hfile, hins, he⟩ := insertInFile_cases hs h
  · cases he
    exact Or.inl (Catalog.isPlain_file hfile)
  · cases r₁ with
    | ok => cases he
    | error e' =>
      cases he
      exact hins.failed hs hfile

theorem Storage.failed_deleteInFile {table : TableId} {place : Option RecordId}
    (hs : s.pool.Sound) (h : s.deleteInFile catalog tid table place = (.error e, s')) :
    Failed catalog s e := by
  obtain ⟨e', hfile, he, -⟩ | ⟨file, r₁, -, hdel, he⟩ := deleteInFile_cases h
  · cases he
    exact Or.inl (Catalog.isPlain_file hfile)
  · cases r₁ with
    | ok => cases he
    | error e' =>
      cases he
      exact hdel.failed hs

theorem HeapFile.isPlain_openNamed {files : Files} {name : String} {schema : Schema}
    {pageSize : Nat} (h : openNamed files name schema pageSize = .error e) :
    e.isPlain = true := by
  unfold openNamed at h
  split at h <;> cases h
  rfl

theorem Catalog.isPlain_add {c : Catalog} {entry : TableEntry}
    (h : c.add entry = .error e) : e.isPlain = true := by
  unfold add at h
  simp only at h
  split at h
  · split at h <;> cases h
    rfl
  · cases h

theorem Catalog.isPlain_addLines {pageSize number : Nat} {name : String} {dir : Path}
    {lines : List String} {c : Catalog} {files : Files} {result : Catalog × Files}
    (h : addLines pageSize name dir number lines c files = (.error e, result)) :
    e.isPlain = true := by
  induction lines generalizing number c files result with
  | nil => cases h
  | cons line lines ih =>
    rw [Storage.addLines_cons] at h
    split at h
    · exact ih h
    · split at h
      · cases h
        rfl
      · split at h
        · rename_i hline
          cases h
          unfold addLine at hline
          split at hline
          · rename_i hopen
            cases hline
            exact HeapFile.isPlain_openNamed hopen
          · split at hline
            · rename_i hadd
              cases hline
              exact isPlain_add hadd
            · cases hline
        · split at h
          · rename_i hrest
            cases h
            exact ih hrest
          · cases h

theorem Database.isPlain_addFile {db : Database} {file name primaryKey : String}
    {schema : Schema} {pageSize : Nat}
    (h : (db.addFile file name primaryKey schema pageSize).1 = .error e) :
    e.isPlain = true := by
  unfold addFile at h
  split at h
  · rename_i hopen
    cases h
    exact HeapFile.isPlain_openNamed hopen
  · simp only at h
    split at h
    · rename_i hadd
      cases h
      exact Catalog.isPlain_add hadd
    · cases h

theorem error_of_answer {α : Type} {f : α → Outcome} {result : Except Error α}
    (h : result.map f = .error e) : result = .error e := by
  cases result <;> cases h
  rfl

/-- A request fails for a plain reason, or because a changed page stood in the way. -/
theorem Database.failed_perform {db : Database} (hdb : db.storage.pool.Sound)
    {request : Request} (h : (db.perform request).1 = .error e) :
    Failed db.catalog db.storage e := by
  cases request with
  | task asked =>
    cases asked with
    | createTable name schema => exact Or.inl (isPlain_addFile (error_of_answer h))
    | insertRow tid table row =>
      exact failed_insertRow hdb (Prod.ext (error_of_answer h) rfl)
    | deleteRow tid place => exact failed_deleteRow hdb (Prod.ext (error_of_answer h) rfl)
    | getPage id => exact failed_getPage hdb (Prod.ext (error_of_answer h) rfl)
    | flushPage id => exact Or.inl (isPlain_flushPage (Prod.ext (error_of_answer h) rfl))
    | flushPages tid => exact Or.inl (isPlain_flushEach (Prod.ext (error_of_answer h) rfl))
    | flushAll => exact Or.inl (isPlain_flushEach (Prod.ext (error_of_answer h) rfl))
    | scan table => exact failed_scanRows hdb (Prod.ext (error_of_answer h) rfl)
  | addFile file name primaryKey schema pageSize =>
    exact Or.inl (isPlain_addFile (error_of_answer h))
  | loadSchema name =>
    have hload : (db.loadSchema name).1 = .error e := error_of_answer h
    unfold loadSchema Catalog.load at hload
    cases htext : db.storage.files.readText name with
    | error fault =>
      rw [htext] at hload
      cases hload
      exact Or.inl rfl
    | ok found =>
      rw [htext] at hload
      exact Or.inl (Catalog.isPlain_addLines (Prod.ext hload rfl))
  | clearCatalog => cases h
  | discard id => cases h
  | insertInFile tid table row =>
    exact failed_insertInFile hdb (Prod.ext (error_of_answer h) rfl)
  | deleteInFile tid table place =>
    exact failed_deleteInFile hdb (Prod.ext (error_of_answer h) rfl)

end RowStore
