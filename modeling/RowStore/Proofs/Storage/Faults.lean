import RowStore.Proofs.Page.Codec
import RowStore.Proofs.Storage.Operations
import RowStore.Storage.Faults

/-!
Operations on files that may fail, as runs of steps.

1. An operation that uses at most one file to one end fails at once and leaves the storage alone, or
   does what it does when nothing fails (`flushPage_cases`, `makeRoom_cases`, `getPage_cases`,
   `grow_cases`).
2. So every other operation is a run of steps too, whatever fails under way.  Storing a row that
   fails has only read, or it has made the file a page longer in between, and then all pages were
   full (`Stored`).  Deleting a row that fails has only read (`deleteRow_cases`).
3. A row that agrees with its schema is what it was when storing it failed.
-/

namespace RowStore

open Storage

/-- A page that refuses a row leaves it as it is. -/
theorem Page.row_of_store {p : Page} {row row' : Row} {e : Error} (hrow : row.Conforms)
    (hstore : p.store row = (.error e, row')) : row' = row := by
  unfold store at hstore
  split at hstore
  · cases hstore
    rfl
  · split at hstore
    · cases hstore
      rfl
    · have hclip := Row.clip_eq_shorten row
      rw [Row.clip_of_conforms hrow] at hclip
      rcases hshort : row.shorten with ⟨result, short⟩
      rw [hshort] at hclip hstore
      cases result with
      | error e => cases hclip
      | ok => cases hstore

theorem Page.insert_of_store {p page : Page} {row row' : Row}
    (hstore : p.store row = (.ok page, row')) : p.insert row = .ok (row', page) := by
  rw [Page.insert_eq_store, hstore]

namespace Faults

variable {f : Faults} {catalog : Catalog} {may : Effect → Prop} {tid : TransactionId} {id : PageId}
  {s s' : Storage}

/-! ## Uses that fail -/

theorem guard_cases (f : Faults) {α : Type} (access : Access) (result : Except Error α) :
    f.guard access result = result ∨ ∃ e, f.guard access result = .error e := by
  unfold guard
  cases f.error? access with
  | none => exact Or.inl rfl
  | some e => exact Or.inr ⟨e, rfl⟩

/-- Writing a page back fails and changes nothing, or is done. -/
theorem flushPage_cases {r : Except Error Unit} (hflush : f.flushPage catalog id s = (r, s')) :
    (∃ e, r = .error e ∧ s' = s) ∨ (r = .ok () ∧ s.flushPage catalog id = (.ok (), s')) := by
  unfold flushPage at hflush
  unfold Storage.flushPage
  cases hfind : s.pool.find? id with
  | none =>
    rw [hfind] at hflush
    cases hflush
    exact Or.inr ⟨rfl, rfl⟩
  | some frame =>
    rw [hfind] at hflush
    simp only [flushFrame, Storage.flushFrame] at hflush ⊢
    by_cases hdirty : frame.page.dirty = true
    · rw [if_pos hdirty] at hflush ⊢
      cases hfile : catalog.file frame.page.id.table with
      | error e =>
        rw [hfile] at hflush
        cases hflush
        exact Or.inl ⟨e, rfl, rfl⟩
      | ok h =>
        have hwrite := HeapFile.writePage_of_id s.files (Catalog.id_of_file hfile).symm
        simp only [hfile, hwrite] at hflush ⊢
        rcases guard_cases f (.write frame.page.id) _ with hok | ⟨e, herror⟩
        · rw [hok] at hflush
          cases hflush
          exact Or.inr ⟨rfl, rfl⟩
        · rw [herror] at hflush
          cases hflush
          exact Or.inl ⟨e, rfl, rfl⟩
    · rw [if_neg hdirty] at hflush ⊢
      cases hflush
      exact Or.inr ⟨rfl, rfl⟩

/-- The search for a page that can leave is over when there is room. -/
theorem evictFrom_of_hasRoom (hroom : s.pool.hasRoom = true) (ids : List PageId) :
    f.evictFrom catalog ids s = (.ok (), s) := by
  cases ids <;> simp only [evictFrom, if_pos hroom]

/-- Making room fails and changes nothing, or is done: at most one page has to leave. -/
theorem makeRoom_cases (hs : s.pool.Sound) {r : Except Error Unit}
    (hroom : f.makeRoom catalog s = (r, s')) :
    (∃ e, r = .error e ∧ s' = s) ∨ (r = .ok () ∧ s.makeRoom catalog = (.ok (), s')) := by
  rcases hplain : s.makeRoom catalog with ⟨r₀, s₀⟩
  unfold makeRoom at hroom
  obtain ⟨hyes, rfl, rfl⟩ | ⟨hno, victim, rest, frame, hqueue, hfind, hends⟩ :=
    Storage.makeRoom_cases hs hplain
  · rw [evictFrom_of_hasRoom hyes] at hroom
    cases hroom
    exact Or.inr ⟨rfl, rfl⟩
  · rw [hqueue, evictFrom, if_neg (by simp [hno])] at hroom
    rcases hflush : f.flushPage catalog victim s with ⟨result, s₁⟩
    rw [hflush] at hroom
    obtain ⟨e, rfl, rfl⟩ | ⟨rfl, hwritten⟩ := flushPage_cases hflush
    · cases hroom
      exact Or.inl ⟨_, rfl, rfl⟩
    · obtain ⟨e, hdirty, hlost, -⟩ | ⟨s₂, hflush', rfl, hnow, rfl⟩ := hends
      · -- a page whose table is not there is not written
        obtain ⟨-, -, hclean⟩ | ⟨frame', hfind', -, ⟨e', -, herror, -⟩ | ⟨h, files, hfile, -⟩⟩ :=
          Storage.flushPage_cases hwritten
        · rw [hclean frame hfind] at hdirty
          cases hdirty
        · cases herror
        · rw [hs.own_id hfind', hlost] at hfile
          cases hfile
      · rw [hwritten] at hflush'
        cases hflush'
        simp only at hroom
        rw [evictFrom_of_hasRoom hnow] at hroom
        cases hroom
        exact Or.inr ⟨rfl, rfl⟩

/-- Finding a page fails and finds nothing, or is done. -/
theorem getPage_cases (hs : s.pool.Sound) {r : Except Error Frame}
    (hget : f.getPage catalog id s = (r, s')) :
    (∃ e, r = .error e ∧ s' = { s with pool := s.pool.miss }) ∨
    (∃ frame, r = .ok frame ∧ s.getPage catalog id = (.ok frame, s')) := by
  unfold getPage at hget
  unfold Storage.getPage
  cases hfind : s.pool.find? id with
  | some frame =>
    rw [hfind] at hget
    cases hget
    exact Or.inr ⟨frame, rfl, rfl⟩
  | none =>
    simp only [hfind] at hget ⊢
    have hs₀ : ({ s with pool := s.pool.miss } : Storage).pool.Sound := hs.count
    rcases hread : f.readPage catalog id { s with pool := s.pool.miss } with e | page
    · rw [hread] at hget
      cases hget
      exact Or.inl ⟨e, rfl, rfl⟩
    · have hplain : ({ s with pool := s.pool.miss } : Storage).readPage catalog id = .ok page := by
        simp only [readPage, Storage.readPage, bind, Except.bind] at hread ⊢
        cases hfile : catalog.file id.table with
        | error e =>
          rw [hfile] at hread
          cases hread
        | ok h =>
          simp only [hfile] at hread
          rcases guard_cases f (.read id) (h.readPage s.files id) with hok | ⟨e, herror⟩
          · rwa [hok] at hread
          · rw [herror] at hread
            cases hread
      rw [hread] at hget
      rw [hplain]
      rcases hroom : f.makeRoom catalog { s with pool := s.pool.miss } with ⟨result, s₁⟩
      simp only [hroom] at hget
      obtain ⟨e, rfl, rfl⟩ | ⟨rfl, hmade⟩ := makeRoom_cases hs₀ hroom
      · cases hget
        exact Or.inl ⟨e, rfl, rfl⟩
      · cases hget
        refine Or.inr ⟨_, rfl, ?_⟩
        simp only [hmade]

theorem getPage_steps (hs : s.pool.Sound) {r : Except Error Frame}
    (hget : f.getPage catalog id s = (r, s')) : Steps catalog may s s' := by
  obtain ⟨e, -, rfl⟩ | ⟨frame, -, hplain⟩ := getPage_cases hs hget
  · exact .single .count
  · exact Storage.getPage_steps hs hplain

/-- Making the file longer fails and changes nothing, or is done. -/
theorem grow_cases {h : HeapFile} {r : Except Error PageId} (hgrow : f.grow h s = (r, s')) :
    (∃ e, r = .error e ∧ s' = s) ∨ (∃ id, r = .ok id ∧ h.grow s = (.ok id, s')) := by
  unfold grow at hgrow
  rcases guard_cases f (.extent h.id) (.ok (h.numPages s.files)) with hok | ⟨e, herror⟩
  · unfold HeapFile.grow
    rw [hok] at hgrow
    simp only at hgrow ⊢
    cases hblank : Page.blank ⟨h.id, h.numPages s.files⟩ h.schema h.pageSize with
    | error e =>
      rw [hblank] at hgrow
      cases hgrow
      exact Or.inl ⟨e, rfl, rfl⟩
    | ok page =>
      have hid : page.id = ⟨h.id, h.numPages s.files⟩ := Page.id_of_ofBytes hblank
      have hwrite := HeapFile.writePage_of_id (h := h) s.files (congrArg PageId.table hid)
      simp only [hblank, hwrite] at hgrow ⊢
      rcases guard_cases f (.write page.id) _ with hok | ⟨e, herror⟩
      · rw [hok] at hgrow
        cases hgrow
        exact Or.inr ⟨_, rfl, rfl⟩
      · rw [herror] at hgrow
        cases hgrow
        exact Or.inl ⟨e, rfl, rfl⟩
  · rw [herror] at hgrow
    cases hgrow
    exact Or.inl ⟨e, rfl, rfl⟩

/-! ## Storing a row -/

variable {h : HeapFile} {row row' : Row}

/-- A row is put into a page in memory, or the page refuses it. -/
theorem store_cases (hs : s.pool.Sound) {frame : Frame} (hfind : s.pool.find? id = some frame)
    {r : Except Error Frame} (hstore : store tid frame row s = (r, row', s')) :
    (∃ e, r = .error e ∧ (row.Conforms → row' = row) ∧ s' = s) ∨
    (∃ placed, r = .ok placed ∧ Steps catalog (· = .write id.table) s s' ∧
      s'.pool.find? placed.page.id = some placed) := by
  unfold store at hstore
  rcases hpage : frame.page.store row with ⟨result, stored⟩
  rw [hpage] at hstore
  cases result with
  | error e =>
    cases hstore
    exact Or.inl ⟨e, rfl, fun hrow => Page.row_of_store hrow hpage, rfl⟩
  | ok page =>
    cases hstore
    obtain ⟨hid, hschema, hsize⟩ := Page.insert_keeps (Page.insert_of_store hpage)
    refine Or.inr ⟨_, rfl, .single (.change rfl hfind hid hschema hsize), ?_⟩
    have hown : (page.touch (some tid)).id = id := hid.trans (hs.own_id hfind)
    show (HeapFile.change tid frame page s).2.pool.find? (page.touch (some tid)).id = _
    rw [HeapFile.find?_change hs hfind, if_pos hown]

/-- How storing a row in a heap file ends when uses of files may fail. -/
inductive Stored (h : HeapFile) (catalog : Catalog) (row : Row) (s : Storage) :
    Except Error Frame → Row → Storage → Prop where
  /-- It failed and has only read. -/
  | refused {e : Error} {row' : Row} {s' : Storage} (hrow : row.Conforms → row' = row)
    (hquiet : Quiet catalog s s') : Stored h catalog row s (.error e) row' s'
  /-- All pages were full, and it failed after the file had become a page longer. -/
  | grown {e : Error} {id : PageId} {row' : Row} {s₁ s₂ s' : Storage}
    (hrow : row.Conforms → row' = row) (hfull : ∀ m < h.numPages s.files, h.Full catalog s m)
    (hquiet : Quiet catalog s s₁) (hgrow : h.grow s₁ = (.ok id, s₂))
    (hafter : Quiet catalog s₂ s') : Stored h catalog row s (.error e) row' s'
  /-- The row is stored, on a page in memory. -/
  | done {frame : Frame} {row' : Row} {s' : Storage}
    (hsteps : Steps catalog (· = .write h.id) s s')
    (hfind : s'.pool.find? frame.page.id = some frame) : Stored h catalog row s (.ok frame) row' s'

/-- The search for a free slot, from page `number` on, when the pages before it are full. -/
theorem storeFrom_cases {count number : Nat} {s₀ : Storage} {r : Except Error (Option Frame)}
    (hs : s.pool.Sound) (hquiet : Quiet catalog s₀ s) (hfull : ∀ m < number, h.Full catalog s₀ m)
    (hfrom : f.storeFrom h catalog tid count number row s = (r, row', s')) :
    (∃ e, r = .error e ∧ (row.Conforms → row' = row) ∧ Quiet catalog s₀ s') ∨
    (r = .ok none ∧ Quiet catalog s₀ s' ∧ ∀ m < number + count, h.Full catalog s₀ m) ∨
    (∃ frame, r = .ok (some frame) ∧ Steps catalog (· = .write h.id) s₀ s' ∧
      s'.pool.find? frame.page.id = some frame) := by
  induction count generalizing number s with
  | zero =>
    cases hfrom
    exact Or.inr (Or.inl ⟨rfl, hquiet, hfull⟩)
  | succ count ih =>
    unfold storeFrom at hfrom
    rcases hget : f.getPage catalog ⟨h.id, number⟩ s with ⟨result, s₁⟩
    rw [hget] at hfrom
    have hsteps : Quiet catalog s s₁ := getPage_steps hs hget
    have hquiet₁ : Quiet catalog s₀ s₁ := hquiet.trans hsteps
    obtain ⟨e, rfl, -⟩ | ⟨frame, rfl, hplain⟩ := getPage_cases hs hget
    · cases hfrom
      exact Or.inl ⟨e, rfl, fun _ => rfl, hquiet₁⟩
    · have hfind := find?_of_getPage hs hplain
      by_cases hempty : frame.page.freeSlots.isEmpty = true
      · simp only [if_pos hempty] at hfrom
        -- this page is full too: go on with the next one
        have hnext := ih (hsteps.sound hs) hquiet₁ (HeapFile.full_succ hfull hquiet₁ hfind hempty) hfrom
        rwa [show number + 1 + count = number + (count + 1) by omega] at hnext
      · simp only [if_neg hempty] at hfrom
        rcases hstore : store tid frame row s₁ with ⟨stored, row₁, s₂⟩
        rw [hstore] at hfrom
        obtain ⟨e, rfl, hrow, rfl⟩ | ⟨placed, rfl, hsteps', hfind'⟩ :=
          store_cases (hsteps.sound hs) hfind hstore
        · cases hfrom
          exact Or.inl ⟨e, rfl, hrow, hquiet₁⟩
        · cases hfrom
          exact Or.inr (Or.inr ⟨placed, rfl, hquiet₁.steps.trans hsteps', hfind'⟩)

theorem storeIn_cases (hs : s.pool.Sound) (hfile : catalog.file h.id = .ok h)
    {r : Except Error Frame} (hin : f.storeIn h catalog tid row s = (r, row', s')) :
    Stored h catalog row s r row' s' := by
  unfold storeIn at hin
  by_cases htypes : (!row.schema.sameTypes h.schema) = true
  · rw [if_pos htypes] at hin
    cases hin
    exact .refused (fun _ => rfl) .refl
  rw [if_neg htypes] at hin
  rcases guard_cases f (.length h.id) (.ok (h.numPages s.files)) with hok | ⟨e, herror⟩
  case inr =>
    rw [herror] at hin
    cases hin
    exact .refused (fun _ => rfl) .refl
  rw [hok] at hin
  simp only at hin
  rcases hfrom : f.storeFrom h catalog tid (h.numPages s.files) 0 row s with ⟨result, row₁, s₁⟩
  rw [hfrom] at hin
  obtain ⟨e, rfl, hrow, hquiet⟩ | ⟨rfl, hquiet, hfull⟩ | ⟨frame, rfl, hsteps, hfind⟩ :=
    storeFrom_cases hs .refl (fun m hm => absurd hm (Nat.not_lt_zero m)) hfrom
  · cases hin
    exact .refused hrow hquiet
  · obtain rfl := row_of_storeFrom catalog tid hfrom
    rw [Nat.zero_add] at hfull
    rcases hgrow : f.grow h s₁ with ⟨grown, s₂⟩
    simp only [hgrow] at hin
    obtain ⟨e, rfl, rfl⟩ | ⟨id, rfl, hplain⟩ := grow_cases hgrow
    · cases hin
      exact .refused (fun _ => rfl) hquiet
    have hlonger : Steps catalog (· = .write h.id) s s₂ :=
      hquiet.steps.trans (HeapFile.grow_steps rfl hfile hplain)
    have hs₂ : s₂.pool.Sound := hlonger.sound hs
    rcases hget : f.getPage catalog id s₂ with ⟨found, s₃⟩
    have hafter : Quiet catalog s₂ s₃ := getPage_steps hs₂ hget
    simp only [hget] at hin
    obtain ⟨e, rfl, -⟩ | ⟨frame, rfl, hfound⟩ := getPage_cases hs₂ hget
    · cases hin
      exact .grown (fun _ => rfl) hfull hquiet hplain hafter
    · have hfind := find?_of_getPage hs₂ hfound
      have htable : id.table = h.id := by
        obtain ⟨page, files, -, -, rfl, -⟩ := HeapFile.grow_eq_ok hplain
        rfl
      obtain ⟨e, rfl, hrow, rfl⟩ | ⟨placed, rfl, hsteps, hfind'⟩ :=
        store_cases (hafter.sound hs₂) hfind hin
      · exact .grown hrow hfull hquiet hplain hafter
      · rw [htable] at hsteps
        exact .done ((hlonger.trans hafter.steps).trans hsteps) hfind'
  · cases hin
    exact .done hsteps hfind

/-- A page in memory is taken back without any use of a file. -/
theorem absorb_of_find? {frame : Frame} (hfind : s.pool.find? frame.page.id = some frame) :
    f.absorb catalog frame s =
      (.ok (), { s with pool := s.pool.putFrame frame.page.id frame }) := by
  have hin : s.pool.contains frame.page.id = true := by simp [Pool.contains, hfind]
  simp only [absorb, hin, if_true]

/-- Storing a row in a table fails as it fails in the file of the table, or it is done. -/
theorem insertRow_cases (hs : s.pool.Sound) {table : TableId} {r : Except Error Unit}
    (hins : f.insertRow catalog tid table row s = (r, row', s')) :
    (∃ e, r = .error e ∧ catalog.file table = .error e ∧ row' = row ∧ s' = s) ∨
    (∃ h, catalog.file table = .ok h ∧
      ((∃ e, r = .error e ∧ Stored h catalog row s (.error e) row' s') ∨
       (r = .ok () ∧ Steps catalog (· = .write table) s s'))) := by
  unfold insertRow at hins
  cases hfile : catalog.file table with
  | error e =>
    rw [hfile] at hins
    cases hins
    exact Or.inl ⟨e, rfl, rfl, rfl, rfl⟩
  | ok h =>
    refine Or.inr ⟨h, rfl, ?_⟩
    obtain rfl := Catalog.id_of_file hfile
    rw [hfile] at hins
    simp only at hins
    rcases hin : f.storeIn h catalog tid row s with ⟨result, row₁, s₁⟩
    have hstored := storeIn_cases hs hfile hin
    rw [hin] at hins
    cases result with
    | error e =>
      cases hins
      exact Or.inl ⟨e, rfl, hstored⟩
    | ok frame =>
      cases hstored with
      | done hsteps hfind =>
        simp only [absorb_of_find? hfind] at hins
        cases hins
        exact Or.inr ⟨rfl, hsteps.tail (.requeue hfind)⟩

theorem Stored.steps {r : Except Error Frame} (hfile : catalog.file h.id = .ok h)
    (hstored : Stored h catalog row s r row' s') : Steps catalog (· = .write h.id) s s' := by
  cases hstored with
  | refused hrow hquiet => exact hquiet.steps
  | grown hrow hfull hquiet hgrow hafter =>
    have hlonger : Steps catalog (· = .write h.id) s _ :=
      hquiet.steps.trans (HeapFile.grow_steps rfl hfile hgrow)
    exact hlonger.trans hafter.steps
  | done hsteps hfind => exact hsteps

theorem insertRow_steps (hs : s.pool.Sound) {table : TableId} {r : Except Error Unit}
    (hins : f.insertRow catalog tid table row s = (r, row', s')) :
    Steps catalog (· = .write table) s s' := by
  obtain ⟨e, -, -, -, rfl⟩ | ⟨h, hfile, ⟨e, -, hstored⟩ | ⟨-, hsteps⟩⟩ := insertRow_cases hs hins
  · exact .refl
  · obtain rfl := Catalog.id_of_file hfile
    exact hstored.steps hfile
  · exact hsteps

/-! ## Deleting a row -/

/-- Deleting a row from a heap file fails and has only read, or it is done. -/
theorem deleteIn_cases (hs : s.pool.Sound) {place : Option RecordId} {r : Except Error Frame}
    (hdel : f.deleteIn h catalog tid place s = (r, s')) :
    (∃ e, r = .error e ∧ Quiet catalog s s') ∨
    (∃ frame p, r = .ok frame ∧ place = some p ∧ p.page.table = h.id ∧
      Steps catalog (· = .write p.page.table) s s' ∧
      s'.pool.find? frame.page.id = some frame) := by
  unfold deleteIn at hdel
  cases place with
  | none =>
    cases hdel
    exact Or.inl ⟨_, rfl, .refl⟩
  | some p =>
    simp only at hdel
    cases hcheck : h.checkTable p.page with
    | error e =>
      rw [hcheck] at hdel
      cases hdel
      exact Or.inl ⟨e, rfl, .refl⟩
    | ok =>
      rcases hget : f.getPage catalog p.page s with ⟨result, s₁⟩
      have hsteps : Quiet catalog s s₁ := getPage_steps hs hget
      simp only [hcheck, hget] at hdel
      obtain ⟨e, rfl, -⟩ | ⟨frame, rfl, hplain⟩ := getPage_cases hs hget
      · cases hdel
        exact Or.inl ⟨e, rfl, hsteps⟩
      · simp only at hdel
        cases hdelete : frame.page.delete (some p) with
        | error e =>
          rw [hdelete] at hdel
          cases hdel
          exact Or.inl ⟨e, rfl, hsteps⟩
        | ok page =>
          rw [hdelete] at hdel
          cases hdel
          have hs₁ := hsteps.sound hs
          have hfind := find?_of_getPage hs hplain
          have htable : p.page.table = h.id := HeapFile.checkTable_eq_ok_iff.mp hcheck
          obtain ⟨hid, hschema, hsize⟩ := Page.delete_keeps hdelete
          refine Or.inr ⟨_, p, rfl, rfl, htable,
            hsteps.steps.tail (.change rfl hfind hid hschema hsize), ?_⟩
          have hown : (page.touch (some tid)).id = p.page := hid.trans (hs₁.own_id hfind)
          show (HeapFile.change tid frame page s₁).2.pool.find? (page.touch (some tid)).id = _
          rw [HeapFile.find?_change hs₁ hfind, if_pos hown]
          rfl

/-- Deleting a row fails and has only read, or it is done. -/
theorem deleteRow_cases (hs : s.pool.Sound) {place : Option RecordId} {r : Except Error Unit}
    (hdel : f.deleteRow catalog tid place s = (r, s')) :
    (∃ e, r = .error e ∧ Quiet catalog s s') ∨
    (∃ p, r = .ok () ∧ place = some p ∧ Steps catalog (· = .write p.page.table) s s') := by
  unfold deleteRow at hdel
  cases place with
  | none =>
    cases hdel
    exact Or.inl ⟨_, rfl, .refl⟩
  | some p =>
    simp only at hdel
    cases hfile : catalog.file p.page.table with
    | error e =>
      rw [hfile] at hdel
      cases hdel
      exact Or.inl ⟨e, rfl, .refl⟩
    | ok h =>
      rcases hin : f.deleteIn h catalog tid (some p) s with ⟨result, s₁⟩
      simp only [hfile, hin] at hdel
      obtain ⟨e, rfl, hquiet⟩ | ⟨frame, q, rfl, hq, -, hsteps, hfind⟩ := deleteIn_cases hs hin
      · cases hdel
        exact Or.inl ⟨e, rfl, hquiet⟩
      · cases hq
        simp only [absorb_of_find? hfind] at hdel
        cases hdel
        exact Or.inr ⟨p, rfl, rfl, hsteps.tail (.requeue hfind)⟩

/-! ## Writing back and reading -/

theorem flushEach_steps {ids : List PageId} {r : Except Error Unit}
    (hflush : f.flushEach catalog ids s = (r, s')) : Steps catalog may s s' := by
  have hone : ∀ {id s s' r}, f.flushPage catalog id s = (r, s') → Steps catalog may s s' := by
    intro id s s' r hflush
    obtain ⟨e, -, rfl⟩ | ⟨-, hplain⟩ := flushPage_cases hflush
    · exact .refl
    · exact flushPage_steps hplain
  induction ids generalizing s with
  | nil =>
    cases hflush
    exact .refl
  | cons id ids ih =>
    unfold flushEach at hflush
    rcases hfirst : f.flushPage catalog id s with ⟨result, s₁⟩
    rw [hfirst] at hflush
    cases result with
    | error e =>
      cases hflush
      exact hone hfirst
    | ok => exact (hone hfirst).trans (ih hflush)

theorem rowsFrom_steps {table : TableId} {count number : Nat} {taken : List Row}
    {r : Except Error (List Row)} (hs : s.pool.Sound)
    (hfrom : f.rowsFrom catalog table count number taken s = (r, s')) : Steps catalog may s s' := by
  induction count generalizing number taken s with
  | zero =>
    cases hfrom
    exact .refl
  | succ count ih =>
    unfold rowsFrom at hfrom
    rcases hget : f.getPage catalog ⟨table, number⟩ s with ⟨result, s₁⟩
    have hsteps : Steps catalog may s s₁ := getPage_steps hs hget
    rw [hget] at hfrom
    cases result with
    | error e =>
      cases hfrom
      exact hsteps
    | ok frame => exact hsteps.trans (ih (hsteps.sound hs) hfrom)

theorem scanRows_steps {table : TableId} {r : Except Error (List Row)} (hs : s.pool.Sound)
    (hscan : f.scanRows catalog table s = (r, s')) : Steps catalog may s s' := by
  unfold scanRows at hscan
  cases hfile : catalog.file table with
  | error e =>
    rw [hfile] at hscan
    cases hscan
    exact .refl
  | ok h =>
    simp only [hfile] at hscan
    rcases guard_cases f (.length table) (.ok (h.numPages s.files)) with hok | ⟨e, herror⟩
    · rw [hok] at hscan
      exact rowsFrom_steps hs hscan
    · rw [herror] at hscan
      cases hscan
      exact .refl

end Faults

end RowStore
