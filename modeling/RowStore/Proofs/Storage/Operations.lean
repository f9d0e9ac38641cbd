import RowStore.Proofs.Storage.Steps

/-!
The operations on the storage as runs of steps.

1. Finding a page has four endings (`getPage_cases`): it was in memory, it cannot be read, no room
   can be made for it, or it was read.  Afterwards a page that was found is in memory.
2. Storing a row has six (`HeapFile.Inserted`): the types differ; a page cannot be had; an old page
   takes the row, and all pages before it are full; or all old pages are full, and the file cannot
   grow, or the new page cannot be had, or the new page takes the row.
3. Deleting a row has four (`HeapFile.Deleted`).

On the way to the page that is changed an operation only reads: its steps so far write no table
(`Quiet`).  The steps of a whole operation write the table it is about, and no other.
-/

namespace RowStore

/-! ## Changes keep the shape of a page -/

theorem Page.insert_keeps {p p' : Page} {row row' : Row} (h : p.insert row = .ok (row', p')) :
    p'.id = p.id ∧ p'.schema = p.schema ∧ p'.bytes.size = p.bytes.size := by
  unfold Page.insert at h
  split at h
  · cases h
  · split at h
    · cases h
    · simp only [bind, Except.bind] at h
      split at h
      · cases h
      · cases h
        exact ⟨rfl, rfl, by simp [mark, fill]⟩

theorem Page.delete_keeps {p p' : Page} {place : Option RecordId}
    (h : p.delete place = .ok p') :
    p'.id = p.id ∧ p'.schema = p.schema ∧ p'.bytes.size = p.bytes.size := by
  unfold Page.delete at h
  split at h
  · cases h
  · split at h
    · cases h
    · split at h
      · cases h
      · cases h
        exact ⟨rfl, rfl, by simp [mark]⟩

namespace Storage

variable {catalog : Catalog} {may : Effect → Prop} {id : PageId} {s s' : Storage}

/-- A run of steps that write no table. -/
abbrev Quiet (catalog : Catalog) : Storage → Storage → Prop := Steps catalog fun _ => False

theorem Quiet.steps (h : Quiet catalog s s') : Steps catalog may s s' :=
  h.mono fun _ h => h.elim

/-! ## Finding a page -/

/-- A page stands in the way: it was changed, and its table is not there. -/
def Stuck (catalog : Catalog) (s : Storage) (victim : PageId) (e : Error) : Prop :=
  ∃ frame, s.pool.find? victim = some frame ∧ frame.page.dirty = true ∧
    catalog.file victim.table = .error e

theorem getPage_cases (hs : s.pool.Sound) {r : Except Error Frame}
    (h : s.getPage catalog id = (r, s')) :
    (∃ frame, s.pool.find? id = some frame ∧ r = .ok frame ∧
      s' = { s with pool := s.pool.hit }) ∨
    (s.pool.find? id = none ∧
      ((∃ e, s.readPage catalog id = .error e ∧ r = .error e ∧
          s' = { s with pool := s.pool.miss }) ∨
       (∃ page, s.readPage catalog id = .ok page ∧
         ((∃ victim e, Stuck catalog s victim e ∧ r = .error (.eviction victim e) ∧
            s' = { s with pool := s.pool.miss }) ∨
          (∃ s₁, makeRoom catalog { s with pool := s.pool.miss } = (.ok (), s₁) ∧
            r = .ok ⟨s₁.pool.nextStamp, page⟩ ∧
            s' = { s₁ with pool := (s₁.pool.accept id page).2 }))))) := by
  unfold getPage at h
  cases hfind : s.pool.find? id with
  | some frame =>
    rw [hfind] at h
    cases h
    exact Or.inl ⟨frame, rfl, rfl, rfl⟩
  | none =>
    refine Or.inr ⟨rfl, ?_⟩
    have hsame : ({ s with pool := s.pool.miss } : Storage).readPage catalog id =
        s.readPage catalog id := rfl
    rw [hfind] at h
    simp only [hsame] at h
    cases hread : s.readPage catalog id with
    | error e =>
      rw [hread] at h
      cases h
      exact Or.inl ⟨e, rfl, rfl, rfl⟩
    | ok page =>
      refine Or.inr ⟨page, rfl, ?_⟩
      rw [hread] at h
      have hs₀ : ({ s with pool := s.pool.miss } : Storage).pool.Sound := hs.count
      rcases hroom : makeRoom catalog { s with pool := s.pool.miss } with ⟨result, s₁⟩
      simp only [hroom] at h
      cases result with
      | ok =>
        cases h
        exact Or.inr ⟨s₁, rfl, rfl, rfl⟩
      | error e =>
        cases h
        obtain ⟨-, he, -⟩ | ⟨-, victim, rest, frame, -, hv, ⟨e', hdirty, hfile, he, rfl⟩ |
          ⟨s₂, -, he, -⟩⟩ := makeRoom_cases hs₀ hroom
        · cases he
        · cases he
          exact Or.inl ⟨victim, e', ⟨frame, hv, hdirty, hfile⟩, rfl, rfl⟩
        · cases he

theorem getPage_steps (hs : s.pool.Sound) {r : Except Error Frame}
    (h : s.getPage catalog id = (r, s')) : Steps catalog may s s' := by
  obtain ⟨frame, -, -, rfl⟩ | ⟨hnone, ⟨e, -, -, rfl⟩ | ⟨page, hread, ⟨victim, e, -, -, rfl⟩ |
    ⟨s₁, hroom, -, rfl⟩⟩⟩ := getPage_cases hs h
  · exact .single .count
  · exact .single .count
  · exact .single .count
  · have hmiss : Step catalog may s { s with pool := s.pool.miss } := .count
    exact .tail (.single hmiss) (.load hnone hread hroom)

/-- A page that was found is in memory. -/
theorem find?_of_getPage (hs : s.pool.Sound) {frame : Frame}
    (h : s.getPage catalog id = (.ok frame, s')) : s'.pool.find? id = some frame := by
  obtain ⟨f, hfind, hr, rfl⟩ | ⟨-, ⟨e, -, hr, -⟩ | ⟨page, -, ⟨victim, e, -, hr, -⟩ |
    ⟨s₁, -, hr, rfl⟩⟩⟩ := getPage_cases hs h
  · cases hr
    exact hfind
  · cases hr
  · cases hr
  · cases hr
    rw [Pool.find?_accept, if_pos rfl]

/-- Taking back a page that is in memory puts it last in the queue; no room is made. -/
theorem absorb_of_find? {frame : Frame} (hfind : s.pool.find? frame.page.id = some frame) :
    s.absorb catalog frame =
      (.ok (), { s with pool := s.pool.putFrame frame.page.id frame }) := by
  have hin : s.pool.contains frame.page.id = true := by simp [Pool.contains, hfind]
  simp only [absorb, hin, if_true]

end Storage

/-! ## Storing a row -/

namespace HeapFile

open Storage

variable {h : HeapFile} {catalog : Catalog} {tid : TransactionId} {row : Row} {s s' : Storage}

/-- A row is put into a page, or the page refuses it. -/
theorem insertInto_cases {frame : Frame} {r : Except Error (Row × Frame)}
    (hinto : insertInto tid row frame s = (r, s')) :
    (∃ e, frame.page.insert row = .error e ∧ r = .error e ∧ s' = s) ∨
    (∃ row' page, frame.page.insert row = .ok (row', page) ∧
      r = .ok (row', ⟨frame.stamp, page.touch (some tid)⟩) ∧
      s' = (change tid frame page s).2) := by
  unfold insertInto at hinto
  split at hinto
  · rename_i e he
    cases hinto
    exact Or.inl ⟨e, he, rfl, rfl⟩
  · rename_i row' page hok
    cases hinto
    exact Or.inr ⟨row', page, hok, rfl, rfl⟩

/-- A page of the table is full: it was met in memory without a free slot. -/
def Full (h : HeapFile) (catalog : Catalog) (s : Storage) (n : Nat) : Prop :=
  ∃ s₁ frame, Quiet catalog s s₁ ∧ s₁.pool.find? ⟨h.id, n⟩ = some frame ∧
    frame.page.freeSlots = []

/-- If the pages before a page are full, and it is full too, then so are the pages before the next one. -/
theorem full_succ {number : Nat} {s₁ : Storage} {frame : Frame}
    (hfull : ∀ m < number, h.Full catalog s m) (hquiet : Quiet catalog s s₁)
    (hfind : s₁.pool.find? ⟨h.id, number⟩ = some frame) (hempty : frame.page.freeSlots.isEmpty = true) :
    ∀ m < number + 1, h.Full catalog s m := by
  intro m hm
  rcases Nat.lt_succ_iff_lt_or_eq.mp hm with hm | rfl
  · exact hfull m hm
  · exact ⟨s₁, frame, hquiet, hfind, List.isEmpty_iff.mp hempty⟩

/-- How storing a row ends. -/
inductive Inserted (h : HeapFile) (catalog : Catalog) (tid : TransactionId) (row : Row)
    (s : Storage) : Except Error (Row × Frame) → Storage → Prop where
  /-- The row is of other types. -/
  | otherTypes (htypes : row.schema.sameTypes h.schema = false) :
    Inserted h catalog tid row s (.error (.mismatch (.rowOfTable row.schema h.id h.schema))) s
  /-- A page cannot be had. -/
  | unread {n : Nat} {e : Error} {s₁ s₂ : Storage} (hn : n < h.numPages s.files)
    (hquiet : Quiet catalog s s₁) (hget : s₁.getPage catalog ⟨h.id, n⟩ = (.error e, s₂)) :
    Inserted h catalog tid row s (.error e) s₂
  /-- An old page has a free slot. -/
  | old {n : Nat} {frame : Frame} {r : Except Error (Row × Frame)} {s₁ s₂ : Storage}
    (htypes : row.schema.sameTypes h.schema = true) (hn : n < h.numPages s.files)
    (hfull : ∀ m < n, h.Full catalog s m) (hquiet : Quiet catalog s s₁)
    (hfind : s₁.pool.find? ⟨h.id, n⟩ = some frame) (hfree : frame.page.freeSlots ≠ [])
    (hinto : insertInto tid row frame s₁ = (r, s₂)) :
    Inserted h catalog tid row s r s₂
  /-- The file cannot grow. -/
  | ungrown {e : Error} {s₁ s₂ : Storage} (hquiet : Quiet catalog s s₁)
    (hgrow : h.grow s₁ = (.error e, s₂)) :
    Inserted h catalog tid row s (.error e) s₂
  /-- The new page cannot be had. -/
  | newUnread {e : Error} {id : PageId} {s₁ s₂ s₃ : Storage}
    (hfull : ∀ m < h.numPages s.files, h.Full catalog s m) (hquiet : Quiet catalog s s₁)
    (hgrow : h.grow s₁ = (.ok id, s₂)) (hget : s₂.getPage catalog id = (.error e, s₃)) :
    Inserted h catalog tid row s (.error e) s₃
  /-- The new page takes the row. -/
  | new {id : PageId} {frame : Frame} {r : Except Error (Row × Frame)} {s₁ s₂ s₃ s₄ : Storage}
    (htypes : row.schema.sameTypes h.schema = true)
    (hfull : ∀ m < h.numPages s.files, h.Full catalog s m) (hquiet : Quiet catalog s s₁)
    (hgrow : h.grow s₁ = (.ok id, s₂)) (hget : s₂.getPage catalog id = (.ok frame, s₃))
    (hinto : insertInto tid row frame s₃ = (r, s₄)) :
    Inserted h catalog tid row s r s₄

/-- The search for a free slot, from page `number` on, when the pages before it are full. -/
theorem insertFrom_cases {count number : Nat} {s₀ : Storage}
    {r : Except Error (Option (Row × Frame))} (hs : s.pool.Sound)
    (hquiet : Quiet catalog s₀ s) (hfull : ∀ m < number, h.Full catalog s₀ m)
    (hfrom : insertFrom h catalog tid row count number s = (r, s')) :
    (∃ n e s₁, n < number + count ∧ Quiet catalog s₀ s₁ ∧
      s₁.getPage catalog ⟨h.id, n⟩ = (.error e, s') ∧ r = .error e) ∨
    (r = .ok none ∧ Quiet catalog s₀ s' ∧ ∀ m < number + count, h.Full catalog s₀ m) ∨
    (∃ n frame s₁ r', n < number + count ∧ (∀ m < n, h.Full catalog s₀ m) ∧
      Quiet catalog s₀ s₁ ∧ s₁.pool.find? ⟨h.id, n⟩ = some frame ∧
      frame.page.freeSlots ≠ [] ∧ insertInto tid row frame s₁ = (r', s') ∧
      r = r'.map some) := by
  induction count generalizing number s with
  | zero =>
    cases hfrom
    exact Or.inr (Or.inl ⟨rfl, hquiet, hfull⟩)
  | succ count ih =>
    unfold insertFrom at hfrom
    rcases hget : s.getPage catalog ⟨h.id, number⟩ with ⟨result, s₁⟩
    rw [hget] at hfrom
    have hsteps : Quiet catalog s s₁ := getPage_steps hs hget
    cases result with
    | error e =>
      cases hfrom
      exact Or.inl ⟨number, e, s, by omega, hquiet, hget, rfl⟩
    | ok frame =>
      have hfind := find?_of_getPage hs hget
      have hquiet₁ : Quiet catalog s₀ s₁ := hquiet.trans hsteps
      simp only at hfrom
      split at hfrom
      · rename_i hempty
        -- this page is full too: go on with the next one
        have hnext := ih (hsteps.sound hs) hquiet₁ (full_succ hfull hquiet₁ hfind hempty) hfrom
        rwa [show number + 1 + count = number + (count + 1) by omega] at hnext
      · rename_i hfree
        refine Or.inr (Or.inr ⟨number, frame, s₁, ?_⟩)
        have hfree' : frame.page.freeSlots ≠ [] := fun hnil => hfree (List.isEmpty_iff.mpr hnil)
        rcases hinto : insertInto tid row frame s₁ with ⟨result, s₂⟩
        rw [hinto] at hfrom
        cases result with
        | error e =>
          cases hfrom
          exact ⟨_, by omega, hfull, hquiet₁, hfind, hfree', rfl, rfl⟩
        | ok placed =>
          cases hfrom
          exact ⟨_, by omega, hfull, hquiet₁, hfind, hfree', rfl, rfl⟩

theorem insertRow_cases (hs : s.pool.Sound) {r : Except Error (Row × Frame)}
    (hins : h.insertRow catalog tid row s = (r, s')) : h.Inserted catalog tid row s r s' := by
  unfold insertRow at hins
  by_cases htypes : row.schema.sameTypes h.schema = true
  case neg =>
    rw [Bool.not_eq_true] at htypes
    simp only [htypes, Bool.not_false, if_true] at hins
    cases hins
    exact .otherTypes htypes
  simp only [htypes, Bool.not_true, Bool.false_eq_true, if_false] at hins
  rcases hfrom : insertFrom h catalog tid row (h.numPages s.files) 0 s with ⟨result, s₁⟩
  rw [hfrom] at hins
  obtain ⟨n, e, s₂, hn, hquiet, hget, rfl⟩ | ⟨rfl, hquiet, hfull⟩ |
    ⟨n, frame, s₂, r', hn, hfull, hquiet, hfind, hfree, hinto, rfl⟩ :=
    insertFrom_cases hs .refl (fun m hm => absurd hm (Nat.not_lt_zero m)) hfrom
  · cases hins
    exact .unread (by omega) hquiet hget
  · rw [Nat.zero_add] at hfull
    rcases hgrow : h.grow s₁ with ⟨result, s₂⟩
    simp only [hgrow] at hins
    cases result with
    | error e =>
      cases hins
      exact .ungrown hquiet hgrow
    | ok id =>
      rcases hget : s₂.getPage catalog id with ⟨result, s₃⟩
      simp only [hget] at hins
      cases result with
      | error e =>
        cases hins
        exact .newUnread hfull hquiet hgrow hget
      | ok frame => exact .new htypes hfull hquiet hgrow hget hins
  · cases r' with
    | error e =>
      cases hins
      exact .old htypes (by omega) hfull hquiet hfind hfree hinto
    | ok placed =>
      cases hins
      exact .old htypes (by omega) hfull hquiet hfind hfree hinto

/-- A file grows by a blank page, or rows of the table do not fit on a page. -/
theorem grow_cases {r : Except Error PageId} (hgrow : h.grow s = (r, s')) :
    (∃ e, Page.blank ⟨h.id, h.numPages s.files⟩ h.schema h.pageSize = .error e ∧ r = .error e ∧
      s' = s) ∨
    (∃ page files, Page.blank ⟨h.id, h.numPages s.files⟩ h.schema h.pageSize = .ok page ∧
      h.writePage s.files page = .ok files ∧ r = .ok ⟨h.id, h.numPages s.files⟩ ∧
      s' = { s with files := files }) := by
  unfold grow at hgrow
  simp only at hgrow
  cases hblank : Page.blank ⟨h.id, h.numPages s.files⟩ h.schema h.pageSize with
  | error e =>
    rw [hblank] at hgrow
    cases hgrow
    exact Or.inl ⟨e, rfl, rfl, rfl⟩
  | ok page =>
    have hid : page.id = ⟨h.id, h.numPages s.files⟩ := Page.id_of_ofBytes hblank
    have hwrite := writePage_of_id (h := h) s.files (congrArg PageId.table hid)
    rw [hblank] at hgrow
    simp only [hwrite] at hgrow
    cases hgrow
    exact Or.inr ⟨page, _, rfl, hwrite, rfl, rfl⟩

/-- A file that grew has a blank page behind the others. -/
theorem grow_eq_ok {id : PageId} (hgrow : h.grow s = (.ok id, s')) :
    ∃ page files, Page.blank ⟨h.id, h.numPages s.files⟩ h.schema h.pageSize = .ok page ∧
      h.writePage s.files page = .ok files ∧ id = ⟨h.id, h.numPages s.files⟩ ∧
      s' = { s with files := files } := by
  obtain ⟨e, -, he, -⟩ | ⟨page, files, hblank, hwrite, hid, rfl⟩ := grow_cases hgrow
  · cases he
  · cases hid
    exact ⟨page, files, hblank, hwrite, rfl, rfl⟩

theorem grow_steps {may : Effect → Prop} (hmay : may (.write h.id))
    (hfile : catalog.file h.id = .ok h) {r : Except Error PageId} (hgrow : h.grow s = (r, s')) :
    Steps catalog may s s' := by
  obtain ⟨e, -, -, rfl⟩ | ⟨page, files, hblank, hwrite, -, rfl⟩ := grow_cases hgrow
  · exact .refl
  · exact .single (.grow hmay hfile hblank hwrite)

/-- How deleting the row at a place ends. -/
inductive Deleted (h : HeapFile) (catalog : Catalog) (tid : TransactionId) (s : Storage) :
    Option RecordId → Except Error Frame → Storage → Prop where
  /-- The row has no place. -/
  | noPlace : Deleted h catalog tid s none (.error (.missing .placeToDelete)) s
  /-- The place is in another table. -/
  | otherTable {place : RecordId} {e : Error} (hcheck : h.checkTable place.page = .error e) :
    Deleted h catalog tid s (some place) (.error e) s
  /-- The page cannot be had. -/
  | unread {place : RecordId} {e : Error} {s₁ : Storage}
    (hcheck : h.checkTable place.page = .ok ())
    (hget : s.getPage catalog place.page = (.error e, s₁)) :
    Deleted h catalog tid s (some place) (.error e) s₁
  /-- There is no row. -/
  | refused {place : RecordId} {frame : Frame} {e : Error} {s₁ : Storage}
    (hcheck : h.checkTable place.page = .ok ())
    (hget : s.getPage catalog place.page = (.ok frame, s₁))
    (hdelete : frame.page.delete (some place) = .error e) :
    Deleted h catalog tid s (some place) (.error e) s₁
  /-- The row is deleted. -/
  | done {place : RecordId} {frame : Frame} {page : Page} {s₁ : Storage}
    (hcheck : h.checkTable place.page = .ok ())
    (hget : s.getPage catalog place.page = (.ok frame, s₁))
    (hdelete : frame.page.delete (some place) = .ok page) :
    Deleted h catalog tid s (some place) (.ok ⟨frame.stamp, page.touch (some tid)⟩)
      (change tid frame page s₁).2

theorem deleteRow_cases {place : Option RecordId} {r : Except Error Frame}
    (hdel : h.deleteRow catalog tid place s = (r, s')) :
    h.Deleted catalog tid s place r s' := by
  unfold deleteRow at hdel
  cases place with
  | none =>
    cases hdel
    exact .noPlace
  | some place =>
    simp only at hdel
    cases hcheck : h.checkTable place.page with
    | error e =>
      rw [hcheck] at hdel
      cases hdel
      exact .otherTable hcheck
    | ok =>
      simp only [hcheck] at hdel
      rcases hget : s.getPage catalog place.page with ⟨result, s₁⟩
      rw [hget] at hdel
      cases result with
      | error e =>
        cases hdel
        exact .unread hcheck hget
      | ok frame =>
        simp only at hdel
        cases hdelete : frame.page.delete (some place) with
        | error e =>
          rw [hdelete] at hdel
          cases hdel
          exact .refused hcheck hget hdelete
        | ok page =>
          rw [hdelete] at hdel
          cases hdel
          exact .done hcheck hget hdelete

/-! ## The steps of an operation -/

/-- Changing the page of a frame changes what is in memory for that page, and nothing else. -/
theorem find?_change (hs : s.pool.Sound) {id x : PageId} {frame : Frame} {page : Page}
    (hfind : s.pool.find? id = some frame) :
    (change tid frame page s).2.pool.find? x =
      if x = id then some ⟨frame.stamp, page.touch (some tid)⟩ else s.pool.find? x :=
  hs.find?_update hfind rfl

theorem insertInto_steps (hs : s.pool.Sound) {table : TableId} {id : PageId} {frame : Frame}
    {r : Except Error (Row × Frame)} (hid : id.table = table)
    (hfind : s.pool.find? id = some frame) (hinto : insertInto tid row frame s = (r, s')) :
    Steps catalog (· = .write table) s s' ∧
      ∀ row' frame', r = .ok (row', frame') → s'.pool.find? frame'.page.id = some frame' := by
  obtain ⟨e, -, rfl, rfl⟩ | ⟨row', page, hins, rfl, rfl⟩ := insertInto_cases hinto
  · exact ⟨.refl, fun _ _ h => by cases h⟩
  · obtain ⟨hsame, hschema, hsize⟩ := Page.insert_keeps hins
    have hmay : Effect.write id.table = .write table := congrArg Effect.write hid
    refine ⟨.single (.change hmay hfind hsame hschema hsize), fun _ _ h => ?_⟩
    cases h
    have hown : (page.touch (some tid)).id = id := hsame.trans (hs.own_id hfind)
    rw [find?_change hs hfind, if_pos hown]

/-- Storing a row writes its table and no other, however it ends; the page that took the row is
    in memory. -/
theorem Inserted.steps (hs : s.pool.Sound) {table : TableId} (hfile : catalog.file table = .ok h)
    {r : Except Error (Row × Frame)} (hins : h.Inserted catalog tid row s r s') :
    Steps catalog (· = .write table) s s' ∧
      ∀ row' frame, r = .ok (row', frame) → s'.pool.find? frame.page.id = some frame := by
  have hid := Catalog.id_of_file hfile
  have hfile' : catalog.file h.id = .ok h := hid ▸ hfile
  have hno : ∀ {e : Error} {s' : Storage}, Steps catalog (· = .write table) s s' →
      Steps catalog (· = .write table) s s' ∧ ∀ (row' : Row) (frame : Frame),
        Except.error e = .ok (row', frame) → s'.pool.find? frame.page.id = some frame :=
    fun hsteps => ⟨hsteps, fun _ _ h => by cases h⟩
  have hgrown : ∀ {s₁ s₂ : Storage} {r : Except Error PageId}, h.grow s₁ = (r, s₂) →
      Steps catalog (· = .write table) s₁ s₂ :=
    fun hgrow => grow_steps (congrArg Effect.write hid) hfile' hgrow
  cases hins with
  | otherTypes htypes => exact hno .refl
  | unread hn hquiet hget =>
    exact hno (hquiet.steps.trans (getPage_steps (hquiet.sound hs) hget))
  | old htypes hn hfull hquiet hfind hfree hinto =>
    obtain ⟨hsteps, hin⟩ := insertInto_steps (hquiet.sound hs) hid hfind hinto
    exact ⟨hquiet.steps.trans hsteps, hin⟩
  | ungrown hquiet hgrow => exact hno (hquiet.steps.trans (hgrown hgrow))
  | newUnread hfull hquiet hgrow hget =>
    have hs₂ := (hgrown hgrow).sound (hquiet.sound hs)
    exact hno ((hquiet.steps.trans (hgrown hgrow)).trans (getPage_steps hs₂ hget))
  | @new id _ _ _ _ _ _ htypes hfull hquiet hgrow hget hinto =>
    have hs₂ := (hgrown hgrow).sound (hquiet.sound hs)
    have hget' : Steps catalog (· = .write table) _ _ := getPage_steps hs₂ hget
    have hnew : id.table = table := by
      obtain ⟨page, files, -, -, rfl, -⟩ := grow_eq_ok hgrow
      exact hid
    obtain ⟨hsteps, hin⟩ := insertInto_steps (hget'.sound hs₂) hnew
      (find?_of_getPage hs₂ hget) hinto
    exact ⟨((hquiet.steps.trans (hgrown hgrow)).trans hget').trans hsteps, hin⟩

/-- Deleting a row writes the table of its place and no other, however it ends; the page that
    held the row is in memory. -/
theorem Deleted.steps (hs : s.pool.Sound) {may : Effect → Prop} {place : Option RecordId}
    (hmay : ∀ p, place = some p → p.page.table = h.id → may (.write p.page.table))
    {r : Except Error Frame} (hdel : h.Deleted catalog tid s place r s') :
    Steps catalog may s s' ∧
      ∀ frame, r = .ok frame → s'.pool.find? frame.page.id = some frame := by
  cases hdel with
  | noPlace => exact ⟨.refl, fun _ h => by cases h⟩
  | otherTable hcheck => exact ⟨.refl, fun _ h => by cases h⟩
  | unread hcheck hget => exact ⟨getPage_steps hs hget, fun _ h => by cases h⟩
  | refused hcheck hget hdelete => exact ⟨getPage_steps hs hget, fun _ h => by cases h⟩
  | @done place frame page s₁ hcheck hget hdelete =>
    have hsteps : Steps catalog may s s₁ := getPage_steps hs hget
    have hfind := find?_of_getPage hs hget
    obtain ⟨hid, hschema, hsize⟩ := Page.delete_keeps hdelete
    have hs₁ := hsteps.sound hs
    have hwrites : may (.write place.page.table) := hmay place rfl (checkTable_eq_ok_iff.mp hcheck)
    refine ⟨hsteps.tail (.change hwrites hfind hid hschema hsize), fun _ h => ?_⟩
    cases h
    have hown : (page.touch (some tid)).id = place.page := hid.trans (hs₁.own_id hfind)
    rw [find?_change hs₁ hfind, if_pos hown]

end HeapFile

namespace Storage

variable {catalog : Catalog} {tid : TransactionId} {row : Row} {s s' : Storage}

/-- Storing a row in a table is storing it in the file of the table; taking the page back cannot
    fail, since the page never left. -/
theorem insertRow_cases (hs : s.pool.Sound) {table : TableId} {r : Except Error Row}
    (hins : s.insertRow catalog tid table row = (r, s')) :
    (∃ e, catalog.file table = .error e ∧ r = .error e ∧ s' = s) ∨
    (∃ h, catalog.file table = .ok h ∧
      ((∃ e, h.Inserted catalog tid row s (.error e) s' ∧ r = .error e) ∨
       (∃ row' frame s₁, h.Inserted catalog tid row s (.ok (row', frame)) s₁ ∧ r = .ok row' ∧
          s₁.pool.find? frame.page.id = some frame ∧
          s' = { s₁ with pool := s₁.pool.putFrame frame.page.id frame }))) := by
  unfold insertRow at hins
  cases hfile : catalog.file table with
  | error e =>
    rw [hfile] at hins
    cases hins
    exact Or.inl ⟨e, rfl, rfl, rfl⟩
  | ok h =>
    refine Or.inr ⟨h, rfl, ?_⟩
    rw [hfile] at hins
    simp only at hins
    rcases hrow : h.insertRow catalog tid row s with ⟨result, s₁⟩
    have hcases := HeapFile.insertRow_cases hs hrow
    rw [hrow] at hins
    cases result with
    | error e =>
      cases hins
      exact Or.inl ⟨e, hcases, rfl⟩
    | ok placed =>
      obtain ⟨row', frame⟩ := placed
      have hfind := (hcases.steps hs hfile).2 row' frame rfl
      simp only [absorb_of_find? hfind] at hins
      cases hins
      exact Or.inr ⟨row', frame, s₁, hcases, rfl, hfind, rfl⟩

theorem deleteRow_cases (hs : s.pool.Sound) {place : Option RecordId} {r : Except Error Unit}
    (hdel : s.deleteRow catalog tid place = (r, s')) :
    (place = none ∧ r = .error (.missing .placeToDelete) ∧ s' = s) ∨
    (∃ p, place = some p ∧
      ((∃ e, catalog.file p.page.table = .error e ∧ r = .error e ∧ s' = s) ∨
       (∃ h, catalog.file p.page.table = .ok h ∧
         ((∃ e, h.Deleted catalog tid s (some p) (.error e) s' ∧ r = .error e) ∨
          (∃ frame s₁, h.Deleted catalog tid s (some p) (.ok frame) s₁ ∧ r = .ok () ∧
             s₁.pool.find? frame.page.id = some frame ∧
             s' = { s₁ with pool := s₁.pool.putFrame frame.page.id frame }))))) := by
  unfold deleteRow at hdel
  cases place with
  | none =>
    cases hdel
    exact Or.inl ⟨rfl, rfl, rfl⟩
  | some p =>
    refine Or.inr ⟨p, rfl, ?_⟩
    simp only at hdel
    cases hfile : catalog.file p.page.table with
    | error e =>
      rw [hfile] at hdel
      cases hdel
      exact Or.inl ⟨e, rfl, rfl, rfl⟩
    | ok h =>
      refine Or.inr ⟨h, rfl, ?_⟩
      rw [hfile] at hdel
      simp only at hdel
      rcases hrow : h.deleteRow catalog tid (some p) s with ⟨result, s₁⟩
      have hcases := HeapFile.deleteRow_cases hrow
      rw [hrow] at hdel
      cases result with
      | error e =>
        cases hdel
        exact Or.inl ⟨e, hcases, rfl⟩
      | ok frame =>
        have hall : Steps catalog (fun _ => True) s s₁ ∧ _ := hcases.steps hs fun _ _ _ => trivial
        have hfind := hall.2 frame rfl
        simp only [absorb_of_find? hfind] at hdel
        cases hdel
        exact Or.inr ⟨frame, s₁, hcases, rfl, hfind, rfl⟩

theorem insertRow_steps (hs : s.pool.Sound) {table : TableId} {r : Except Error Row}
    (hins : s.insertRow catalog tid table row = (r, s')) : Steps catalog (· = .write table) s s' := by
  obtain ⟨e, -, -, rfl⟩ | ⟨h, hfile, ⟨e, hcases, -⟩ | ⟨row', frame, s₁, hcases, -, hfind, rfl⟩⟩ :=
    insertRow_cases hs hins
  · exact .refl
  · exact (hcases.steps hs hfile).1
  · exact (hcases.steps hs hfile).1.tail (.requeue hfind)

theorem deleteRow_steps (hs : s.pool.Sound) {may : Effect → Prop} {place : Option RecordId}
    (hmay : ∀ p, place = some p → may (.write p.page.table)) {r : Except Error Unit}
    (hdel : s.deleteRow catalog tid place = (r, s')) : Steps catalog may s s' := by
  obtain ⟨-, -, rfl⟩ | ⟨p, rfl, ⟨e, -, -, rfl⟩ | ⟨h, hfile, ⟨e, hcases, -⟩ |
    ⟨frame, s₁, hcases, -, hfind, rfl⟩⟩⟩ := deleteRow_cases hs hdel
  · exact .refl
  · exact .refl
  · exact (hcases.steps hs fun p hp _ => hmay p hp).1
  · exact (hcases.steps hs fun p hp _ => hmay p hp).1.tail (.requeue hfind)

end Storage

end RowStore
