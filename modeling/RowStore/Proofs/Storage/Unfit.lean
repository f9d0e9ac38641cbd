import RowStore.Proofs.Storage.Coherent
import RowStore.Proofs.Storage.Origins

/-!
Tables whose rows do not fit on a page.

The catalog accepts such a table, but none of its pages can be made: no page of it ever comes into
memory, its file stays what it is (`Storage.Steps.unfit`), and no row can be stored in it
(`Storage.Unfit.not_inserted`).
-/

namespace RowStore

namespace Storage

variable {h : HeapFile} {catalog : Catalog} {may : Effect → Prop} {s s' : Storage}

/-- Rows of the table do not fit, and none of its pages is in memory. -/
structure Unfit (h : HeapFile) (s : Storage) : Prop where
  /-- The rows do not fit. -/
  unfit : ¬ h.Fits
  /-- No page is in memory. -/
  absent : ∀ n, s.pool.find? ⟨h.id, n⟩ = none

theorem Unfit.other (hu : Unfit h s) {id : PageId} {frame : Frame}
    (hfind : s.pool.find? id = some frame) : id.table ≠ h.id := by
  intro htable
  obtain ⟨table, n⟩ := id
  obtain rfl : table = h.id := htable
  rw [hu.absent n] at hfind
  cases hfind

/-- A page of such a table cannot be made. -/
theorem Unfit.no_page (hu : Unfit h s) {id : PageId} {bytes : Bytes} {page : Page}
    (hpage : Page.ofBytes id h.schema bytes h.pageSize = .ok page) : False := by
  obtain ⟨hsize, -, hschema, hbytes, -⟩ := Page.ofBytes_eq_ok_iff.mp hpage
  have hfits := page.fits
  rw [hbytes, hsize, hschema] at hfits
  exact hu.unfit hfits

/-- No page of such a table can be read. -/
theorem Unfit.not_read (hu : Unfit h s) {files : Files} {id : PageId} (htable : id.table = h.id)
    {page : Page} (hread : h.readPage files id = .ok page) : False := by
  rcases Nat.lt_or_ge id.number (h.numPages files) with hn | hn
  · rw [HeapFile.readPage_eq_ofBytes htable hn] at hread
    exact hu.no_page hread
  · rw [show id = ⟨h.id, id.number⟩ by rw [← htable], HeapFile.readPage_of_ge hn] at hread
    cases hread

/-- **The step lemma.**  No page of such a table comes into memory, and its file stays. -/
theorem Step.unfit (hstep : Step catalog may s s') (hu : Unfit h s) (hs : s.pool.Sound)
    (honly : ∀ g, catalog.file h.id = .ok g → g = h) :
    Unfit h s' ∧ s'.files.content h.path = s.files.content h.path := by
  refine ⟨⟨hu.unfit, fun n => ?_⟩, ?_⟩
  · cases hfind : s'.pool.find? ⟨h.id, n⟩ with
    | none => rfl
    | some frame =>
      cases hstep.origin hs hfind with
      | kept hold _ => exact absurd rfl (hu.other hold)
      | changed _ hold _ _ => exact absurd rfl (hu.other hold)
      | loaded _ hread =>
        obtain ⟨g, hg, hread⟩ := file_of_readPage hread
        obtain rfl := honly g hg
        exact (hu.not_read rfl hread).elim
  · obtain hsame | ⟨id, frame, hfind, htable⟩ | ⟨g, id, page, hg, hblank⟩ :=
      hstep.content_cases hs h
    · exact hsame
    · exact absurd htable (hu.other hfind)
    · obtain rfl := honly g hg
      exact (hu.no_page hblank).elim

/-- **The run lemma.** -/
theorem Steps.unfit (hsteps : Steps catalog may s s') (hu : Unfit h s) (hs : s.pool.Sound)
    (honly : ∀ g, catalog.file h.id = .ok g → g = h) :
    Unfit h s' ∧ s'.files.content h.path = s.files.content h.path := by
  induction hsteps with
  | refl => exact ⟨hu, rfl⟩
  | tail hbefore hstep ih =>
    obtain ⟨hu₁, hcontent₁⟩ := ih
    obtain ⟨hu₂, hcontent₂⟩ := hstep.unfit hu₁ (Steps.sound hbefore hs) honly
    exact ⟨hu₂, hcontent₂.trans hcontent₁⟩

/-- A page of such a table is not found. -/
theorem Unfit.getPage (hu : Unfit h s) (hs : s.pool.Sound) (hfile : catalog.file h.id = .ok h)
    {n : Nat} {r : Except Error Frame} (hget : s.getPage catalog ⟨h.id, n⟩ = (r, s')) :
    ∃ e, r = .error e := by
  obtain ⟨frame, hfind, -, -⟩ | ⟨-, ⟨e, -, rfl, -⟩ | ⟨page, hread, -⟩⟩ := getPage_cases hs hget
  · exact absurd rfl (hu.other hfind)
  · exact ⟨e, rfl⟩
  · obtain ⟨g, hg, hread⟩ := file_of_readPage hread
    obtain rfl := Catalog.eq_of_file hfile hg
    exact (hu.not_read rfl hread).elim

/-- There is no page, neither in memory nor in the file. -/
theorem Unfit.page?_eq_none (hu : Unfit h s) (n : Nat) : h.page? s n = none := by
  unfold HeapFile.page?
  rw [hu.absent n]
  cases hread : h.readPage s.files ⟨h.id, n⟩ with
  | error e => rfl
  | ok page => exact (hu.not_read rfl hread).elim

/-- No row can be stored in such a table. -/
theorem Unfit.not_inserted (hu : Unfit h s) (hs : s.pool.Sound) (hfile : catalog.file h.id = .ok h)
    {tid : TransactionId} {row : Row} {placed : Row × Frame} :
    ¬ h.Inserted catalog tid row s (.ok placed) s' := by
  have honly : ∀ g, catalog.file h.id = .ok g → g = h := fun g => Catalog.eq_of_file hfile
  intro hins
  cases hins with
  | old _ _ _ hquiet hfind _ _ => exact (hquiet.unfit hu hs honly).1.other hfind rfl
  | new _ _ hquiet hgrow _ _ =>
    obtain ⟨page, files, hblank, -⟩ := HeapFile.grow_eq_ok hgrow
    exact hu.no_page hblank

end Storage

end RowStore
