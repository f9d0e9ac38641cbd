import RowStore.Proofs.Pool.Misses

/-!
Why requests fail while files may fail.

1. An error is one that says what is wrong with the request or what is not there, or the error of a use of a
   file, or it says that the oldest page could not leave for such a reason (`Faults.Explained`).
2. Every error with which a trial is answered is explained so, in every store in which pool and queue agree
   (`Faults.explained_perform`), with one lemma for each operation.

Crux.  Finding a page is the only operation that lets a page go, and `Faults.Unserved` lists why it fails.
All others fail by themselves or because they cannot find a page.
-/

namespace RowStore

open Storage

namespace Faults

/-- There is a reason for an error, while some uses of files fail. -/
inductive Explained (f : Faults) : Error → Prop
  /-- It says what is wrong with the request, or what is not there. -/
  | plain {e : Error} (hplain : e.isPlain = true) : Explained f e
  /-- A use of a file failed with it. -/
  | use {access : Access} {e : Error} (hfails : f.error? access = some e) : Explained f e
  /-- A page could not leave, for some reason. -/
  | eviction {victim : PageId} {cause : Error} (hcause : Explained f cause) :
    Explained f (.eviction victim cause)

variable {f : Faults} {catalog : Catalog} {tid : TransactionId} {h : HeapFile} {e : Error} {s s' : Storage}

theorem explained_file {table : TableId} (hfile : catalog.file table = .error e) : f.Explained e :=
  .plain (Catalog.isPlain_file hfile)

/-- What is a reason when nothing fails is one whatever fails. -/
theorem explained_of_failed (hfailed : Failed catalog s e) : f.Explained e := by
  rcases hfailed with hplain | ⟨s', victim, cause, -, ⟨frame, -, -, hfile⟩, rfl⟩
  · exact .plain hplain
  · exact .eviction (explained_file hfile)

theorem explained_guard {α : Type} {access : Access} {result : Except Error α}
    (hguard : f.guard access result = .error e) (hresult : result = .error e → f.Explained e) :
    f.Explained e := by
  unfold guard at hguard
  cases hfails : f.error? access with
  | none =>
    rw [hfails] at hguard
    exact hresult hguard
  | some e' =>
    rw [hfails] at hguard
    cases hguard
    exact .use hfails

/-! ## Pages -/

theorem explained_flushPage {id : PageId} (hs : s.pool.Sound)
    (hflush : f.flushPage catalog id s = (.error e, s')) : f.Explained e := by
  obtain ⟨e', -, rfl⟩ | ⟨he, -⟩ := flushPage_cases hflush
  · obtain ⟨frame, -, -, hfile | ⟨-, hfails⟩⟩ := (flushPage_error_iff hs).mp hflush
    · exact explained_file hfile
    · exact .use hfails
  · cases he

theorem explained_flushEach {ids : List PageId} (hs : s.pool.Sound)
    (hflush : f.flushEach catalog ids s = (.error e, s')) : f.Explained e := by
  induction ids generalizing s with
  | nil => cases hflush
  | cons id ids ih =>
    unfold flushEach at hflush
    rcases hfirst : f.flushPage catalog id s with ⟨result, s₁⟩
    rw [hfirst] at hflush
    obtain ⟨e', rfl, -⟩ | ⟨rfl, hdone⟩ := flushPage_cases hfirst
    · cases hflush
      exact explained_flushPage hs hfirst
    · have hquiet : Quiet catalog s s₁ := Storage.flushPage_steps hdone
      exact ih (hquiet.sound hs) hflush

theorem explained_getPage {id : PageId} (hs : s.pool.Sound)
    (hget : f.getPage catalog id s = (.error e, s')) : f.Explained e := by
  obtain ⟨-, hwhy, -⟩ := (getPage_error_iff hs).mp hget
  cases hwhy with
  | unknown hfile => exact explained_file hfile
  | unreadable hfile hfails => exact .use hfails
  | pastEnd hfile hworks hend => exact .plain rfl
  | undecoded hfile hworks hnumber hbytes => exact .plain (Page.isPlain_ofBytes hbytes)
  | stuck hread hfull hqueue hfind hdirty hcause =>
    obtain hfile | ⟨-, hfails⟩ := hcause
    · exact .eviction (explained_file hfile)
    · exact .eviction (.use hfails)

theorem explained_rowsFrom {table : TableId} {count number : Nat} {taken : List Row} (hs : s.pool.Sound)
    (hfrom : f.rowsFrom catalog table count number taken s = (.error e, s')) : f.Explained e := by
  induction count generalizing number taken s with
  | zero => cases hfrom
  | succ count ih =>
    unfold rowsFrom at hfrom
    rcases hget : f.getPage catalog ⟨table, number⟩ s with ⟨result, s₁⟩
    have hquiet : Quiet catalog s s₁ := getPage_steps hs hget
    rw [hget] at hfrom
    cases result with
    | error e' =>
      cases hfrom
      exact explained_getPage hs hget
    | ok frame => exact ih (hquiet.sound hs) hfrom

theorem explained_scanRows {table : TableId} (hs : s.pool.Sound)
    (hscan : f.scanRows catalog table s = (.error e, s')) : f.Explained e := by
  unfold scanRows at hscan
  cases hfile : catalog.file table with
  | error e' =>
    rw [hfile] at hscan
    cases hscan
    exact explained_file hfile
  | ok h =>
    simp only [hfile] at hscan
    rcases hlength : f.guard (.length table) (.ok (h.numPages s.files)) with e' | count
    · rw [hlength] at hscan
      cases hscan
      exact explained_guard hlength nofun
    · rw [hlength] at hscan
      exact explained_rowsFrom hs hscan

/-! ## Rows -/

theorem isPlain_store {frame : Frame} {row row' : Row}
    (hstore : store tid frame row s = (.error e, row', s')) : e.isPlain = true := by
  unfold store at hstore
  rcases hpage : frame.page.store row with ⟨result, stored⟩
  rw [hpage] at hstore
  cases result with
  | ok page => cases hstore
  | error e' =>
    cases hstore
    exact Page.isPlain_insert (by rw [Page.insert_eq_store, hpage])

theorem explained_storeFrom {count number : Nat} {row row' : Row} (hs : s.pool.Sound)
    (hfrom : f.storeFrom h catalog tid count number row s = (.error e, row', s')) : f.Explained e := by
  induction count generalizing number s with
  | zero => cases hfrom
  | succ count ih =>
    unfold storeFrom at hfrom
    rcases hget : f.getPage catalog ⟨h.id, number⟩ s with ⟨result, s₁⟩
    have hquiet : Quiet catalog s s₁ := getPage_steps hs hget
    rw [hget] at hfrom
    cases result with
    | error e' =>
      cases hfrom
      exact explained_getPage hs hget
    | ok frame =>
      by_cases hempty : frame.page.freeSlots.isEmpty = true
      · simp only [if_pos hempty] at hfrom
        exact ih (hquiet.sound hs) hfrom
      · simp only [if_neg hempty] at hfrom
        rcases hstore : store tid frame row s₁ with ⟨stored, row₁, s₂⟩
        rw [hstore] at hfrom
        cases stored <;> cases hfrom
        exact .plain (isPlain_store hstore)

theorem explained_grow (hgrow : f.grow h s = (.error e, s')) : f.Explained e := by
  unfold grow at hgrow
  rcases hextent : f.guard (.extent h.id) (.ok (h.numPages s.files)) with e' | count
  · rw [hextent] at hgrow
    cases hgrow
    exact explained_guard hextent nofun
  · rw [hextent] at hgrow
    simp only at hgrow
    cases hblank : Page.blank ⟨h.id, count⟩ h.schema h.pageSize with
    | error e' =>
      rw [hblank] at hgrow
      cases hgrow
      exact .plain (Page.isPlain_ofBytes hblank)
    | ok page =>
      have hid : page.id = ⟨h.id, count⟩ := Page.id_of_ofBytes hblank
      have hwrite := HeapFile.writePage_of_id s.files (congrArg PageId.table hid)
      rcases hguard : f.guard (.write page.id) (h.writePage s.files page) with e' | files
      · simp only [hblank, hguard] at hgrow
        cases hgrow
        exact explained_guard hguard (by rw [hwrite]; exact nofun)
      · simp only [hblank, hguard] at hgrow
        cases hgrow

theorem explained_storeIn {row row' : Row} (hs : s.pool.Sound) (hfile : catalog.file h.id = .ok h)
    (hin : f.storeIn h catalog tid row s = (.error e, row', s')) : f.Explained e := by
  unfold storeIn at hin
  by_cases htypes : (!row.schema.sameTypes h.schema) = true
  · rw [if_pos htypes] at hin
    cases hin
    exact .plain rfl
  rw [if_neg htypes] at hin
  rcases hlength : f.guard (.length h.id) (.ok (h.numPages s.files)) with e' | count
  · rw [hlength] at hin
    cases hin
    exact explained_guard hlength nofun
  rw [hlength] at hin
  simp only at hin
  rcases hfrom : f.storeFrom h catalog tid count 0 row s with ⟨result, row₁, s₁⟩
  rw [hfrom] at hin
  obtain ⟨e', rfl, -, -⟩ | ⟨rfl, hquiet, -⟩ | ⟨frame, rfl, -, -⟩ :=
    storeFrom_cases hs .refl (fun m hm => absurd hm (Nat.not_lt_zero m)) hfrom
  · cases hin
    exact explained_storeFrom hs hfrom
  · rcases hgrow : f.grow h s₁ with ⟨grown, s₂⟩
    simp only [hgrow] at hin
    obtain ⟨e', rfl, rfl⟩ | ⟨id, rfl, hplain⟩ := grow_cases hgrow
    · cases hin
      exact explained_grow hgrow
    -- the file is a page longer, and the page has to be found
    have hlonger : Steps catalog (· = .write h.id) s s₂ :=
      hquiet.steps.trans (HeapFile.grow_steps rfl hfile hplain)
    rcases hget : f.getPage catalog id s₂ with ⟨found, s₃⟩
    simp only [hget] at hin
    cases found with
    | error e' =>
      cases hin
      exact explained_getPage (hlonger.sound hs) hget
    | ok frame => exact .plain (isPlain_store hin)
  · cases hin

theorem explained_insertRow {table : TableId} {row row' : Row} (hs : s.pool.Sound)
    (hins : f.insertRow catalog tid table row s = (.error e, row', s')) : f.Explained e := by
  unfold insertRow at hins
  cases hfile : catalog.file table with
  | error e' =>
    rw [hfile] at hins
    cases hins
    exact explained_file hfile
  | ok h =>
    obtain rfl := Catalog.id_of_file hfile
    simp only [hfile] at hins
    rcases hin : f.storeIn h catalog tid row s with ⟨result, row₁, s₁⟩
    rw [hin] at hins
    cases storeIn_cases hs hfile hin with
    | done hsteps hfind =>
      simp only [absorb_of_find? hfind] at hins
      cases hins
    | _ =>
      cases hins
      exact explained_storeIn hs hfile hin

theorem explained_deleteIn {place : Option RecordId} (hs : s.pool.Sound)
    (hdel : f.deleteIn h catalog tid place s = (.error e, s')) : f.Explained e := by
  unfold deleteIn at hdel
  cases place with
  | none =>
    cases hdel
    exact .plain rfl
  | some p =>
    simp only at hdel
    cases hcheck : h.checkTable p.page with
    | error e' =>
      rw [hcheck] at hdel
      cases hdel
      exact .plain (HeapFile.isPlain_checkTable hcheck)
    | ok =>
      rcases hget : f.getPage catalog p.page s with ⟨result, s₁⟩
      simp only [hcheck, hget] at hdel
      cases result with
      | error e' =>
        cases hdel
        exact explained_getPage hs hget
      | ok frame =>
        simp only at hdel
        cases hdelete : frame.page.delete (some p) with
        | error e' =>
          rw [hdelete] at hdel
          cases hdel
          exact .plain (Page.isPlain_delete hdelete)
        | ok page =>
          rw [hdelete] at hdel
          cases hdel

theorem explained_deleteRow {place : Option RecordId} (hs : s.pool.Sound)
    (hdel : f.deleteRow catalog tid place s = (.error e, s')) : f.Explained e := by
  unfold deleteRow at hdel
  cases place with
  | none =>
    cases hdel
    exact .plain rfl
  | some p =>
    simp only at hdel
    cases hfile : catalog.file p.page.table with
    | error e' =>
      rw [hfile] at hdel
      cases hdel
      exact explained_file hfile
    | ok h =>
      rcases hin : f.deleteIn h catalog tid (some p) s with ⟨result, s₁⟩
      simp only [hfile, hin] at hdel
      obtain ⟨e', rfl, -⟩ | ⟨frame, q, rfl, -, -, -, hfind⟩ := deleteIn_cases hs hin
      · cases hdel
        exact explained_deleteIn hs hin
      · simp only [absorb_of_find? hfind] at hdel
        cases hdel

/-! ## Requests -/

theorem explained_insertInFile {table : TableId} {row row' : Row} (hs : s.pool.Sound)
    (hins : f.insertInFile catalog tid table row s = (.error e, row', s')) : f.Explained e := by
  unfold insertInFile at hins
  cases hfile : catalog.file table with
  | error e' =>
    rw [hfile] at hins
    cases hins
    exact explained_file hfile
  | ok h =>
    obtain rfl := Catalog.id_of_file hfile
    rcases hin : f.storeIn h catalog tid row s with ⟨result, row₁, s₁⟩
    simp only [hfile, hin] at hins
    cases result <;> cases hins
    exact explained_storeIn hs hfile hin

theorem explained_deleteInFile {table : TableId} {place : Option RecordId} (hs : s.pool.Sound)
    (hdel : f.deleteInFile catalog tid table place s = (.error e, s')) : f.Explained e := by
  unfold deleteInFile at hdel
  cases hfile : catalog.file table with
  | error e' =>
    rw [hfile] at hdel
    cases hdel
    exact explained_file hfile
  | ok h =>
    rcases hin : f.deleteIn h catalog tid place s with ⟨result, s₁⟩
    simp only [hfile, hin] at hdel
    cases result <;> cases hdel
    exact explained_deleteIn hs hin

theorem error_of_rowAnswer {result : Except Error Unit × Row × Storage}
    (hanswer : (rowAnswer result).1 = .error e) : result = (.error e, result.2) :=
  Prod.ext (error_of_answer hanswer) rfl

/-- There is a reason for every error with which a request is answered, whatever fails. -/
theorem explained_perform {db : Database} (hdb : db.storage.pool.Sound) {request : Request}
    (hanswer : (f.perform db request).1 = .error e) : f.Explained e := by
  have hplain : (db.perform request).1 = .error e → f.Explained e := fun h =>
    explained_of_failed (Database.failed_perform hdb h)
  cases request with
  | task asked =>
    cases asked with
    | createTable name schema => exact hplain hanswer
    | insertRow tid table row => exact explained_insertRow hdb (error_of_rowAnswer hanswer)
    | deleteRow tid place => exact explained_deleteRow hdb (Prod.ext (error_of_answer hanswer) rfl)
    | getPage id => exact explained_getPage hdb (Prod.ext (error_of_answer hanswer) rfl)
    | flushPage id => exact explained_flushPage hdb (Prod.ext (error_of_answer hanswer) rfl)
    | flushPages tid => exact explained_flushEach hdb (Prod.ext (error_of_answer hanswer) rfl)
    | flushAll => exact explained_flushEach hdb (Prod.ext (error_of_answer hanswer) rfl)
    | scan table => exact explained_scanRows hdb (Prod.ext (error_of_answer hanswer) rfl)
  | insertInFile tid table row => exact explained_insertInFile hdb (error_of_rowAnswer hanswer)
  | deleteInFile tid table place =>
    exact explained_deleteInFile hdb (Prod.ext (error_of_answer hanswer) rfl)
  | _ => exact hplain hanswer

end Faults

end RowStore
