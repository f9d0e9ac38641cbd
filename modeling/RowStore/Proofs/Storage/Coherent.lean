import RowStore.Proofs.Files.Names
import RowStore.Proofs.HeapFile.Pages
import RowStore.Proofs.Storage.Operations

/-!
Memory and file of a table agree, and steps that do not write a table keep its pages.

1. `Coherent h s`: a page of `h` in memory looks like a page of `h`, has a number below the number
   of pages of the file, and, unless it was changed, is the page in the file.
2. `h.page? s n` is page `n` as it is now: the one in memory, else the one in the file.
3. Every step keeps `Coherent` (`Step.coherent`), whoever takes it, as long as the catalog knows
   the table as `h` or not at all.
4. A step that does not write the table keeps its number of pages and every page (`Step.keeps`).
   Writing back, evicting and reading again are such steps: they move a page between memory and
   file, and the page stays the same.  A change changes the one page that it names
   (`page?_change`), and growth adds a blank page after the last (`page?_grow`).
-/

namespace RowStore

/-- Page `n` of a heap file as it is now, if it has one. -/
def HeapFile.page? (h : HeapFile) (s : Storage) (n : Nat) : Option Page :=
  match s.pool.find? ⟨h.id, n⟩ with
  | some frame => some frame.page.clean
  | none => (h.readPage s.files ⟨h.id, n⟩).toOption

/-- Memory and file agree about the pages of a table. -/
structure Coherent (h : HeapFile) (s : Storage) : Prop where
  /-- The rows of the table fit on its pages. -/
  fits : h.Fits
  /-- A page in memory looks like a page of the table. -/
  shape : ∀ n frame, s.pool.find? ⟨h.id, n⟩ = some frame →
    frame.page.schema = h.schema ∧ frame.page.bytes.size = h.pageSize
  /-- A page in memory is one of the file. -/
  inFile : ∀ n frame, s.pool.find? ⟨h.id, n⟩ = some frame → n < h.numPages s.files
  /-- A page in memory that was not changed is the page in the file. -/
  same : ∀ n frame, s.pool.find? ⟨h.id, n⟩ = some frame → frame.page.dirty = false →
    h.readPage s.files ⟨h.id, n⟩ = .ok frame.page

/-- The pages of a table are as before. -/
structure HeapFile.Keeps (h : HeapFile) (s s' : Storage) : Prop where
  /-- The file has as many pages as before. -/
  numPages : h.numPages s'.files = h.numPages s.files
  /-- Every page is as before. -/
  page? : ∀ n, h.page? s' n = h.page? s n

namespace HeapFile.Keeps

variable {h : HeapFile} {s s' s'' : Storage}

theorem refl (h : HeapFile) (s : Storage) : h.Keeps s s := ⟨rfl, fun _ => rfl⟩

theorem trans (h₁ : h.Keeps s s') (h₂ : h.Keeps s' s'') : h.Keeps s s'' :=
  ⟨h₂.numPages.trans h₁.numPages, fun n => (h₂.page? n).trans (h₁.page? n)⟩

end HeapFile.Keeps

namespace Coherent

variable {h : HeapFile} {s s' : Storage}

/-- The pages of a table are those below its number of pages. -/
theorem page?_of_lt (hc : Coherent h s) (hs : s.pool.Sound) {n : Nat}
    (hn : n < h.numPages s.files) :
    ∃ p, h.page? s n = some p ∧ p.id = ⟨h.id, n⟩ ∧ p.schema = h.schema ∧
      p.bytes.size = h.pageSize ∧ p.clean = p := by
  unfold HeapFile.page?
  cases hfind : s.pool.find? ⟨h.id, n⟩ with
  | some frame =>
    obtain ⟨hschema, hsize⟩ := hc.shape n frame hfind
    exact ⟨frame.page.clean, rfl, hs.own_id hfind, hschema, hsize, rfl⟩
  | none =>
    obtain ⟨p, hp⟩ := HeapFile.readPage_of_lt hc.fits hn
    obtain ⟨-, hid, hschema, hsize, hclean⟩ := HeapFile.readPage_eq_ok hp
    exact ⟨p, by rw [hp]; rfl, hid, hschema, hsize, hclean⟩

theorem page?_of_ge (hc : Coherent h s) {n : Nat} (hn : h.numPages s.files ≤ n) :
    h.page? s n = none := by
  unfold HeapFile.page?
  cases hfind : s.pool.find? ⟨h.id, n⟩ with
  | some frame => exact absurd (hc.inFile n frame hfind) (Nat.not_lt.mpr hn)
  | none =>
    simp only [HeapFile.readPage_of_ge hn]
    rfl

/-- Memory and file of a table with no page in memory agree. -/
theorem of_none (hfits : h.Fits) (hnone : ∀ n, s.pool.find? ⟨h.id, n⟩ = none) :
    Coherent h s where
  fits := hfits
  shape := fun n _ hfind => by rw [hnone n] at hfind; cases hfind
  inFile := fun n _ hfind => by rw [hnone n] at hfind; cases hfind
  same := fun n _ hfind => by rw [hnone n] at hfind; cases hfind

/-- Pages that leave memory, and files that other tables have, make no difference. -/
theorem of_subset (hc : Coherent h s)
    (hcontent : s'.files.content h.path = s.files.content h.path)
    (hsub : ∀ n frame, s'.pool.find? ⟨h.id, n⟩ = some frame →
      s.pool.find? ⟨h.id, n⟩ = some frame) : Coherent h s' where
  fits := hc.fits
  shape := fun n frame hfind => hc.shape n frame (hsub n frame hfind)
  inFile := fun n frame hfind => by
    rw [HeapFile.numPages_congr hcontent]
    exact hc.inFile n frame (hsub n frame hfind)
  same := fun n frame hfind hdirty => by
    rw [HeapFile.readPage_congr hcontent]
    exact hc.same n frame (hsub n frame hfind) hdirty

end Coherent

theorem HeapFile.Keeps.of_same {h : HeapFile} {s s' : Storage}
    (hcontent : s'.files.content h.path = s.files.content h.path)
    (hfind : ∀ n, s'.pool.find? ⟨h.id, n⟩ = s.pool.find? ⟨h.id, n⟩) : h.Keeps s s' where
  numPages := HeapFile.numPages_congr hcontent
  page? := fun n => by
    unfold HeapFile.page?
    rw [hfind n, HeapFile.readPage_congr hcontent]

namespace Storage

variable {h : HeapFile} {catalog : Catalog} {may : Effect → Prop} {s s' : Storage}

/-! ## Writing back -/

/-- Writing back a page of another table touches neither the file nor the pages of this one. -/
theorem write_back_other (hc : Coherent h s) (hs : s.pool.Sound) {id : PageId} {frame : Frame}
    (hfind : s.pool.find? id = some frame) {g : HeapFile} {files : Files} (hother : g.id ≠ h.id)
    (hwrite : g.writePage s.files frame.page = .ok files) :
    Coherent h ⟨files, s.pool.update ⟨frame.stamp, frame.page.clean⟩⟩ ∧
      h.Keeps s ⟨files, s.pool.update ⟨frame.stamp, frame.page.clean⟩⟩ := by
  have htable : id.table = g.id := hs.own_id hfind ▸ (HeapFile.writePage_eq_ok hwrite).1
  have hcontent : files.content h.path = s.files.content h.path :=
    HeapFile.content_writePage hother.symm hwrite
  have hview : ∀ n, (s.pool.update ⟨frame.stamp, frame.page.clean⟩).find? ⟨h.id, n⟩ =
      s.pool.find? ⟨h.id, n⟩ := by
    intro n
    rw [hs.find?_clean hfind, if_neg]
    rintro rfl
    exact hother htable.symm
  exact ⟨hc.of_subset hcontent fun n f hf => (hview n).symm.trans hf, .of_same hcontent hview⟩

/-- Writing a page back makes it a page that was not changed; it is the page that was in memory
    before and that is in the file now. -/
theorem write_back (hc : Coherent h s) (hs : s.pool.Sound) {id : PageId} {frame : Frame}
    (hfind : s.pool.find? id = some frame) {g : HeapFile} {files : Files}
    (hg : g.id = h.id → g = h) (hwrite : g.writePage s.files frame.page = .ok files) :
    Coherent h ⟨files, s.pool.update ⟨frame.stamp, frame.page.clean⟩⟩ ∧
      h.Keeps s ⟨files, s.pool.update ⟨frame.stamp, frame.page.clean⟩⟩ := by
  by_cases hsame : g.id = h.id
  case neg => exact write_back_other hc hs hfind hsame hwrite
  obtain rfl := hg hsame
  have hid : frame.page.id = id := hs.own_id hfind
  have htable : id.table = g.id := hid ▸ (HeapFile.writePage_eq_ok hwrite).1
  obtain ⟨table, m⟩ := id
  subst htable
  obtain ⟨hschema, hsize⟩ := hc.shape m frame hfind
  have hm : m < g.numPages s.files := hc.inFile m frame hfind
  have hpos := hc.fits.pageSize_pos
  have hplace : g.offset s.files frame.page.id.number = frame.page.id.number * g.pageSize :=
    HeapFile.offset_of_le (hid ▸ Nat.le_of_lt hm)
  have hcount : g.numPages files = g.numPages s.files := by
    rw [HeapFile.numPages_writePage hpos hsize hwrite hplace, hid]
    exact Nat.max_eq_left hm
  have hread : ∀ n, n < g.numPages s.files → g.readPage files ⟨g.id, n⟩ =
      if n = m then .ok frame.page.clean else g.readPage s.files ⟨g.id, n⟩ := by
    intro n hn
    have hback := HeapFile.readPage_writePage hpos hschema hsize hwrite hplace
      (show (⟨g.id, n⟩ : PageId).table = g.id from rfl) (Or.inl hn)
    rw [hback, hid]
    simp only [PageId.mk.injEq, true_and]
  have hview : ∀ n, (s.pool.update ⟨frame.stamp, frame.page.clean⟩).find? ⟨g.id, n⟩ =
      if n = m then some ⟨frame.stamp, frame.page.clean⟩ else s.pool.find? ⟨g.id, n⟩ := by
    intro n
    rw [hs.find?_clean hfind]
    simp only [PageId.mk.injEq, true_and]
  constructor
  · refine ⟨hc.fits, fun n f hf => ?_, fun n f hf => ?_, fun n f hf hdirty => ?_⟩ <;>
      rw [hview] at hf <;> split at hf
    · cases hf
      exact ⟨hschema, hsize⟩
    · exact hc.shape n f hf
    · rename_i hn
      exact hn ▸ hcount.symm ▸ hm
    · exact hcount.symm ▸ hc.inFile n f hf
    · rename_i hn
      cases hf
      rw [hread n (hn ▸ hm), if_pos hn]
    · rename_i hn
      rw [hread n (hc.inFile n f hf), if_neg hn]
      exact hc.same n f hf hdirty
  · refine ⟨hcount, fun n => ?_⟩
    unfold HeapFile.page?
    rw [hview]
    by_cases hn : n = m
    · subst hn
      rw [if_pos rfl, hfind]
      rfl
    · rw [if_neg hn]
      cases s.pool.find? ⟨g.id, n⟩ with
      | some f => rfl
      | none =>
        rcases Nat.lt_or_ge n (g.numPages s.files) with hlt | hge
        · simp only [hread n hlt, if_neg hn]
        · have hge' : g.numPages files ≤ n := hcount.symm ▸ hge
          simp only [HeapFile.readPage_of_ge hge, HeapFile.readPage_of_ge hge']
          rfl

theorem flushPage_coherent (hc : Coherent h s) (hs : s.pool.Sound)
    (honly : ∀ g, catalog.file h.id = .ok g → g = h) {id : PageId} {r : Except Error Unit}
    (hflush : flushPage catalog id s = (r, s')) : Coherent h s' ∧ h.Keeps s s' := by
  obtain ⟨-, rfl, -⟩ | ⟨frame, hfind, -, ⟨e, -, -, rfl⟩ | ⟨g, files, hfile, hwrite, -, rfl⟩⟩ :=
    flushPage_cases hflush
  · exact ⟨hc, .refl h s'⟩
  · exact ⟨hc, .refl h s'⟩
  · have htable := (HeapFile.writePage_eq_ok hwrite).1
    refine write_back hc hs hfind (fun hg => honly g ?_) hwrite
    rw [← hg, ← htable, hfile]

/-- After a page was written without an error, it is not changed. -/
theorem clean_of_flushPage (hs : s.pool.Sound) {id : PageId} {frame : Frame}
    (hflush : flushPage catalog id s = (.ok (), s')) (hfind : s'.pool.find? id = some frame) :
    frame.page.dirty = false := by
  obtain ⟨-, rfl, hclean⟩ | ⟨f, hf, -, ⟨e, -, he, -⟩ | ⟨g, files, -, -, -, rfl⟩⟩ :=
    flushPage_cases hflush
  · exact hclean frame hfind
  · cases he
  · have hafter := hs.find?_clean hf id
    rw [if_pos rfl] at hafter
    cases hafter.symm.trans hfind
    rfl

/-! ## Evicting and reading -/

/-- A page that is not changed can leave memory: the file has it. -/
theorem release_coherent (hc : Coherent h s) {id : PageId} (queue : List PageId)
    (hclean : ∀ frame, s.pool.find? id = some frame → frame.page.dirty = false) :
    Coherent h { s with pool := { s.pool.release id with queue := queue } } ∧
      h.Keeps s { s with pool := { s.pool.release id with queue := queue } } := by
  have hview : ∀ x, ({ s.pool.release id with queue := queue } : Pool).find? x =
      if x = id then none else s.pool.find? x := fun x => Pool.find?_release
  constructor
  · refine hc.of_subset rfl fun n frame hfind => ?_
    rw [hview] at hfind
    split at hfind
    · cases hfind
    · exact hfind
  · refine ⟨rfl, fun n => ?_⟩
    unfold HeapFile.page?
    rw [hview]
    by_cases hid : (⟨h.id, n⟩ : PageId) = id
    · subst hid
      rw [if_pos rfl]
      cases hfind : s.pool.find? ⟨h.id, n⟩ with
      | none => rfl
      | some frame =>
        have hsame := hc.same n frame hfind (hclean frame hfind)
        obtain ⟨-, -, -, -, hpage⟩ := HeapFile.readPage_eq_ok hsame
        simp only [hsame, hpage]
        rfl
    · rw [if_neg hid]

theorem makeRoom_coherent (hc : Coherent h s) (hs : s.pool.Sound)
    (honly : ∀ g, catalog.file h.id = .ok g → g = h) {r : Except Error Unit}
    (hroom : makeRoom catalog s = (r, s')) : Coherent h s' ∧ h.Keeps s s' := by
  obtain ⟨-, -, rfl⟩ | ⟨-, victim, rest, frame, -, -, ⟨e, -, -, -, rfl⟩ |
    ⟨s₁, hflush, -, -, rfl⟩⟩ := makeRoom_cases hs hroom
  · exact ⟨hc, .refl h s'⟩
  · exact ⟨hc, .refl h s'⟩
  · obtain ⟨hc₁, hkeeps₁⟩ := flushPage_coherent hc hs honly hflush
    obtain ⟨hc₂, hkeeps₂⟩ :=
      release_coherent hc₁ rest fun frame => clean_of_flushPage hs hflush
    exact ⟨hc₂, hkeeps₁.trans hkeeps₂⟩

/-- A page that is read is the one in the file, also after another page was written and left. -/
theorem load_coherent (hc : Coherent h s) (hs : s.pool.Sound)
    (honly : ∀ g, catalog.file h.id = .ok g → g = h) {id : PageId} {page : Page}
    (hnone : s.pool.find? id = none) (hread : s.readPage catalog id = .ok page)
    (hroom : makeRoom catalog s = (.ok (), s')) :
    Coherent h { s' with pool := (s'.pool.accept id page).2 } ∧
      h.Keeps s { s' with pool := (s'.pool.accept id page).2 } := by
  obtain ⟨hc', hkeeps⟩ := makeRoom_coherent hc hs honly hroom
  have hnone' := find?_of_makeRoom hs hroom hnone
  have hview : ∀ x, (s'.pool.accept id page).2.find? x =
      if x = id then some ⟨s'.pool.nextStamp, page⟩ else s'.pool.find? x :=
    fun x => Pool.find?_accept
  -- the page was read before room was made, and writing the page that left did not touch it
  have hpage : ∀ n, (⟨h.id, n⟩ : PageId) = id →
      h.readPage s.files ⟨h.id, n⟩ = .ok page ∧ h.readPage s'.files ⟨h.id, n⟩ = .ok page := by
    rintro n rfl
    have hbefore : h.readPage s.files ⟨h.id, n⟩ = .ok page := by
      simp only [readPage, bind, Except.bind] at hread
      split at hread
      · cases hread
      · rename_i g hfile
        rwa [honly g hfile] at hread
    refine ⟨hbefore, ?_⟩
    have hsame := hkeeps.page? n
    unfold HeapFile.page? at hsame
    rw [hnone, hnone', hbefore] at hsame
    cases hafter : h.readPage s'.files ⟨h.id, n⟩ with
    | error e =>
      rw [hafter] at hsame
      cases hsame
    | ok p =>
      rw [hafter] at hsame
      cases hsame
      rfl
  constructor
  · refine ⟨hc.fits, fun n f hf => ?_, fun n f hf => ?_, fun n f hf hdirty => ?_⟩ <;>
      rw [hview] at hf <;> split at hf
    · rename_i hid
      cases hf
      obtain ⟨-, -, hschema, hsize, -⟩ := HeapFile.readPage_eq_ok (hpage n hid).2
      exact ⟨hschema, hsize⟩
    · exact hc'.shape n f hf
    · rename_i hid
      exact (HeapFile.readPage_eq_ok (hpage n hid).2).1
    · exact hc'.inFile n f hf
    · rename_i hid
      cases hf
      exact (hpage n hid).2
    · exact hc'.same n f hf hdirty
  · refine ⟨hkeeps.numPages, fun n => ?_⟩
    rw [← hkeeps.page? n]
    unfold HeapFile.page?
    rw [hview]
    by_cases hid : (⟨h.id, n⟩ : PageId) = id
    · obtain ⟨-, hafter⟩ := hpage n hid
      obtain ⟨-, -, -, -, hclean⟩ := HeapFile.readPage_eq_ok hafter
      rw [if_pos hid, hid, hnone', ← hid]
      simp only [hafter, hclean]
      rfl
    · rw [if_neg hid]

/-! ## Changing and growing -/

theorem change_coherent (hc : Coherent h s) (hs : s.pool.Sound) {id : PageId} {frame : Frame}
    {page : Page} {tid : TransactionId} (hfind : s.pool.find? id = some frame)
    (hschema : page.schema = frame.page.schema)
    (hsize : page.bytes.size = frame.page.bytes.size) :
    Coherent h (HeapFile.change tid frame page s).2 := by
  refine ⟨hc.fits, fun n f hf => ?_, fun n f hf => ?_, fun n f hf hdirty => ?_⟩ <;>
    rw [HeapFile.find?_change hs hfind] at hf <;> split at hf
  · rename_i hid
    subst hid
    cases hf
    obtain ⟨hschema', hsize'⟩ := hc.shape n frame hfind
    exact ⟨hschema.trans hschema', hsize.trans hsize'⟩
  · exact hc.shape n f hf
  · rename_i hid
    subst hid
    exact hc.inFile n frame hfind
  · exact hc.inFile n f hf
  · cases hf
    cases hdirty
  · exact hc.same n f hf hdirty

/-- A change changes the page that it names. -/
theorem page?_change (hs : s.pool.Sound) {m : Nat} {frame : Frame} {page : Page}
    {tid : TransactionId} (hfind : s.pool.find? ⟨h.id, m⟩ = some frame) (n : Nat) :
    h.page? (HeapFile.change tid frame page s).2 n =
      if n = m then some page.clean else h.page? s n := by
  have hfiles : (HeapFile.change tid frame page s).2.files = s.files := rfl
  unfold HeapFile.page?
  rw [HeapFile.find?_change hs hfind, hfiles]
  by_cases hn : n = m
  · rw [if_pos hn, if_pos (by rw [hn])]
    rfl
  · rw [if_neg hn, if_neg (by simpa using hn)]

theorem keeps_of_change (hs : s.pool.Sound) {id : PageId} {frame : Frame} {page : Page}
    {tid : TransactionId} (hfind : s.pool.find? id = some frame) (hid : id.table ≠ h.id) :
    h.Keeps s (HeapFile.change tid frame page s).2 := by
  refine .of_same rfl fun n => ?_
  rw [HeapFile.find?_change hs hfind, if_neg]
  rintro rfl
  exact hid rfl

section Growth

variable {page : Page} {files : Files}

/-- The blank page after the last one of the file. -/
theorem blank_eq_ok (hblank : Page.blank ⟨h.id, h.numPages s.files⟩ h.schema h.pageSize = .ok page) :
    page.id = ⟨h.id, h.numPages s.files⟩ ∧ page.schema = h.schema ∧
      page.bytes.size = h.pageSize ∧ page.clean = page := by
  obtain ⟨hsize, hid, hschema, hbytes, hdirty, hby⟩ := Page.ofBytes_eq_ok_iff.mp hblank
  refine ⟨hid, hschema, hbytes ▸ hsize, ?_⟩
  obtain ⟨id', schema', bytes', fits, dirty, dirtiedBy⟩ := page
  cases hdirty
  cases hby
  rfl

/-- The page after the last one is written where it belongs. -/
theorem offset_of_blank
    (hblank : Page.blank ⟨h.id, h.numPages s.files⟩ h.schema h.pageSize = .ok page) :
    h.offset s.files page.id.number = page.id.number * h.pageSize := by
  obtain ⟨hid, -⟩ := blank_eq_ok hblank
  rw [hid]
  exact HeapFile.offset_of_le (Nat.le_refl _)

theorem numPages_grow (hfits : h.Fits)
    (hblank : Page.blank ⟨h.id, h.numPages s.files⟩ h.schema h.pageSize = .ok page)
    (hwrite : h.writePage s.files page = .ok files) :
    h.numPages files = h.numPages s.files + 1 := by
  obtain ⟨hid, -, hsize, -⟩ := blank_eq_ok hblank
  rw [HeapFile.numPages_writePage hfits.pageSize_pos hsize hwrite (offset_of_blank hblank), hid]
  exact Nat.max_eq_right (Nat.le_succ _)

theorem readPage_grow (hfits : h.Fits)
    (hblank : Page.blank ⟨h.id, h.numPages s.files⟩ h.schema h.pageSize = .ok page)
    (hwrite : h.writePage s.files page = .ok files) {n : Nat} (hn : n ≤ h.numPages s.files) :
    h.readPage files ⟨h.id, n⟩ =
      if n = h.numPages s.files then .ok page else h.readPage s.files ⟨h.id, n⟩ := by
  obtain ⟨hid, hschema, hsize, hclean⟩ := blank_eq_ok hblank
  have hwhich : n < h.numPages s.files ∨ (⟨h.id, n⟩ : PageId) = page.id := by
    rcases Nat.lt_or_eq_of_le hn with hlt | rfl
    · exact Or.inl hlt
    · exact Or.inr hid.symm
  have hback := HeapFile.readPage_writePage hfits.pageSize_pos hschema hsize hwrite
    (offset_of_blank hblank) (show (⟨h.id, n⟩ : PageId).table = h.id from rfl) hwhich
  rw [hback, hid, hclean]
  simp only [PageId.mk.injEq, true_and]

theorem grow_coherent (hc : Coherent h s)
    (hblank : Page.blank ⟨h.id, h.numPages s.files⟩ h.schema h.pageSize = .ok page)
    (hwrite : h.writePage s.files page = .ok files) :
    Coherent h { s with files := files } := by
  have hcount := numPages_grow hc.fits hblank hwrite
  refine ⟨hc.fits, hc.shape, fun n f hf => ?_, fun n f hf hdirty => ?_⟩
  · show n < h.numPages files
    have := hc.inFile n f hf
    omega
  · have hn := hc.inFile n f hf
    show h.readPage files ⟨h.id, n⟩ = .ok f.page
    rw [readPage_grow hc.fits hblank hwrite (Nat.le_of_lt hn), if_neg (Nat.ne_of_lt hn)]
    exact hc.same n f hf hdirty

/-- Growth adds a blank page after the last one. -/
theorem page?_grow (hc : Coherent h s)
    (hblank : Page.blank ⟨h.id, h.numPages s.files⟩ h.schema h.pageSize = .ok page)
    (hwrite : h.writePage s.files page = .ok files) (n : Nat) :
    h.page? { s with files := files } n =
      if n = h.numPages s.files then some page else h.page? s n := by
  have hcount := numPages_grow hc.fits hblank hwrite
  unfold HeapFile.page?
  show (match s.pool.find? ⟨h.id, n⟩ with
    | some frame => some frame.page.clean
    | none => (h.readPage files ⟨h.id, n⟩).toOption) = _
  cases hfind : s.pool.find? ⟨h.id, n⟩ with
  | some frame =>
    have hn := hc.inFile n frame hfind
    rw [if_neg (Nat.ne_of_lt hn)]
  | none =>
    simp only
    rcases Nat.lt_or_ge (h.numPages s.files) n with hlt | hle
    · have hafter : h.numPages files ≤ n := by omega
      rw [if_neg (by omega), HeapFile.readPage_of_ge hafter,
        HeapFile.readPage_of_ge (Nat.le_of_lt hlt)]
      rfl
    · rw [readPage_grow hc.fits hblank hwrite hle]
      split <;> rfl

end Growth

/-! ## Every step -/

/-- **The step lemma.**  No step breaks the agreement of memory and file, and a step that does not
    write the table keeps its pages. -/
theorem Step.coherent_keeps (hstep : Step catalog may s s') (hc : Coherent h s)
    (hs : s.pool.Sound) (honly : ∀ g, catalog.file h.id = .ok g → g = h) :
    Coherent h s' ∧ (¬ may (.write h.id) → h.Keeps s s') := by
  cases hstep with
  | count => exact ⟨hc.of_subset rfl fun _ _ hf => hf, fun _ => .of_same rfl fun _ => rfl⟩
  | flush hfind hdirty hfile hwrite =>
    have htable := (HeapFile.writePage_eq_ok hwrite).1
    obtain ⟨hc', hkeeps⟩ := write_back hc hs hfind
      (fun hg => honly _ (by rw [← hg, ← htable, hfile])) hwrite
    exact ⟨hc', fun _ => hkeeps⟩
  | load hnone hread hroom =>
    obtain ⟨hc', hkeeps⟩ := load_coherent hc hs honly hnone hread hroom
    exact ⟨hc', fun _ => hkeeps⟩
  | @requeue id frame hfind =>
    have hview : ∀ x, (s.pool.putFrame id frame).find? x = s.pool.find? x := by
      intro x
      rw [Pool.find?_putFrame]
      split
      · rename_i hx
        rw [hx, hfind]
      · rfl
    exact ⟨hc.of_subset rfl fun n f hf => (hview _).symm.trans hf,
      fun _ => .of_same rfl fun n => hview _⟩
  | change hmay hfind hid hschema hsize =>
    refine ⟨change_coherent hc hs hfind hschema hsize, fun hno => ?_⟩
    exact keeps_of_change hs hfind fun htable => hno (htable ▸ hmay)
  | @grow g page files hmay hfile hblank hwrite =>
    by_cases hg : g.id = h.id
    · obtain rfl := honly g (hg ▸ hfile)
      exact ⟨grow_coherent hc hblank hwrite, fun hno => absurd hmay hno⟩
    · have hcontent := HeapFile.content_writePage (fun he => hg he.symm) hwrite
      exact ⟨hc.of_subset hcontent fun _ _ hf => hf, fun _ => .of_same hcontent fun _ => rfl⟩
  | @discard id hmay =>
    constructor
    · refine hc.of_subset rfl fun n f hf => ?_
      rw [Pool.find?_discard] at hf
      split at hf
      · cases hf
      · exact hf
    · intro hno
      refine .of_same rfl fun n => ?_
      rw [Pool.find?_discard, if_neg]
      rintro rfl
      exact hno hmay
  | @create path hmay habsent =>
    have hcontent : (s.files.put path #[]).content h.path = s.files.content h.path :=
      Files.content_put_empty habsent h.path
    exact ⟨hc.of_subset hcontent fun _ _ hf => hf, fun _ => .of_same hcontent fun _ => rfl⟩

/-- **The run lemma.** -/
theorem Steps.coherent_keeps (hsteps : Steps catalog may s s') (hc : Coherent h s)
    (hs : s.pool.Sound) (honly : ∀ g, catalog.file h.id = .ok g → g = h) :
    Coherent h s' ∧ (¬ may (.write h.id) → h.Keeps s s') := by
  induction hsteps with
  | refl => exact ⟨hc, fun _ => .refl h s⟩
  | tail hbefore hstep ih =>
    obtain ⟨hc₁, hkeeps₁⟩ := ih
    obtain ⟨hc₂, hkeeps₂⟩ := hstep.coherent_keeps hc₁ (Steps.sound hbefore hs) honly
    exact ⟨hc₂, fun hno => (hkeeps₁ hno).trans (hkeeps₂ hno)⟩

end Storage

end RowStore
