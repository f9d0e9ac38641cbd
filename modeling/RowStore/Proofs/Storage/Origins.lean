import RowStore.Proofs.Files.Names
import RowStore.Proofs.HeapFile.Pages
import RowStore.Proofs.Storage.Operations

/-!
What is in memory and in the files after a step.

1. A page that is in memory after a step was there before, and it is what it was, or it was written
   back, or it was changed; or it was read from the file of its table (`Step.origin`).
2. The file of a table stays what it is unless the table has a page in memory, which may be written
   back, or gets a blank page (`Step.content_cases`).

What steps keep of every page in memory follows from the first, one case for each origin.
-/

namespace RowStore.Storage

variable {catalog : Catalog} {may : Effect → Prop} {s s' : Storage} {id : PageId} {frame f : Frame}

/-- Where a page in memory comes from that is there after a step from `s`. -/
inductive Origin (catalog : Catalog) (may : Effect → Prop) (s : Storage) (id : PageId)
    (frame : Frame) : Prop
  /-- It was there, and perhaps it was written back. -/
  | kept {old : Frame} (hold : s.pool.find? id = some old)
    (hpage : frame.page = old.page ∨ frame.page = old.page.clean)
  /-- It was there and was changed. -/
  | changed {old : Frame} (hmay : may (.write id.table)) (hold : s.pool.find? id = some old)
    (hschema : frame.page.schema = old.page.schema)
    (hsize : frame.page.bytes.size = old.page.bytes.size)
  /-- It was read. -/
  | loaded (hnone : s.pool.find? id = none) (hread : s.readPage catalog id = .ok frame.page)

/-- A page that was in memory keeps its origin in the storage before. -/
theorem Origin.same (hfind : s.pool.find? id = some frame) : Origin catalog may s id frame :=
  .kept hfind (Or.inl rfl)

/-- When one page is written back, all pages stay in memory. -/
theorem find?_of_update_clean (hs : s.pool.Sound) (hfind : s.pool.find? id = some frame)
    {x : PageId} (hf : (s.pool.update ⟨frame.stamp, frame.page.clean⟩).find? x = some f) :
    ∃ old, s.pool.find? x = some old ∧ (f.page = old.page ∨ f.page = old.page.clean) := by
  rw [hs.find?_clean hfind] at hf
  split at hf
  · rename_i hx
    cases hf
    exact ⟨frame, hx ▸ hfind, Or.inr rfl⟩
  · exact ⟨f, hf, Or.inl rfl⟩

/-- When room was made, the pages in memory were there before. -/
theorem origin_of_makeRoom (hs : s.pool.Sound) {r : Except Error Unit}
    (hroom : s.makeRoom catalog = (r, s')) {x : PageId} (hf : s'.pool.find? x = some f) :
    ∃ old, s.pool.find? x = some old ∧ (f.page = old.page ∨ f.page = old.page.clean) := by
  obtain ⟨-, -, rfl⟩ | ⟨-, victim, rest, frame, -, -, ⟨e, -, -, -, rfl⟩ |
    ⟨s₁, hflush, -, -, rfl⟩⟩ := makeRoom_cases hs hroom
  · exact ⟨f, hf, Or.inl rfl⟩
  · exact ⟨f, hf, Or.inl rfl⟩
  · -- the victim was written back if it was changed, and then it left
    have hf₁ : s₁.pool.find? x = some f := Pool.find?_of_release hf
    obtain ⟨-, rfl, -⟩ | ⟨old, hold, -, ⟨e, -, -, rfl⟩ | ⟨h, files, -, -, -, rfl⟩⟩ :=
      flushPage_cases hflush
    · exact ⟨f, hf₁, Or.inl rfl⟩
    · exact ⟨f, hf₁, Or.inl rfl⟩
    · exact find?_of_update_clean hs hold hf₁

/-- **Pages in memory after a step.** -/
theorem Step.origin (hstep : Step catalog may s s') (hs : s.pool.Sound) {x : PageId}
    (hf : s'.pool.find? x = some f) : Origin catalog may s x f := by
  cases hstep with
  | count => exact .same hf
  | flush hfind hdirty hfile hwrite =>
    obtain ⟨old, hold, hpage⟩ := find?_of_update_clean hs hfind hf
    exact .kept hold hpage
  | @load s₁ id page hnone hread hroom =>
    rw [Pool.find?_accept] at hf
    split at hf
    · rename_i hx
      cases hf
      exact .loaded (hx ▸ hnone) (hx ▸ hread)
    · obtain ⟨old, hold, hpage⟩ := origin_of_makeRoom hs hroom hf
      exact .kept hold hpage
  | @requeue id frame hfind =>
    rw [Pool.find?_putFrame] at hf
    split at hf
    · rename_i hx
      cases hf
      exact .same (hx ▸ hfind)
    · exact .same hf
  | @change id frame page tid hmay hfind hid hschema hsize =>
    rw [HeapFile.find?_change hs hfind] at hf
    split at hf
    · rename_i hx
      cases hf
      exact .changed (hx ▸ hmay) (hx ▸ hfind) hschema hsize
    · exact .same hf
  | grow hmay hfile hblank hwrite => exact .same hf
  | discard hmay =>
    rw [Pool.find?_discard] at hf
    split at hf
    · cases hf
    · exact .same hf
  | create hmay habsent => exact .same hf

/-! ## Files -/

variable {h : HeapFile}

/-- Writing back a page that is in memory writes no file but that of its table. -/
theorem content_of_written (hs : s.pool.Sound) (hfind : s.pool.find? id = some frame)
    {g : HeapFile} {files : Files} (hwrite : g.writePage s.files frame.page = .ok files) :
    files.content h.path = s.files.content h.path ∨ id.table = h.id := by
  have htable : id.table = g.id := hs.own_id hfind ▸ (HeapFile.writePage_eq_ok hwrite).1
  by_cases hsame : h.id = g.id
  · exact Or.inr (htable.trans hsame.symm)
  · exact Or.inl (HeapFile.content_writePage hsame hwrite)

/-- **Files after a step.** -/
theorem Step.content_cases (hstep : Step catalog may s s') (hs : s.pool.Sound) (h : HeapFile) :
    s'.files.content h.path = s.files.content h.path ∨
    (∃ id frame, s.pool.find? id = some frame ∧ id.table = h.id) ∨
    ∃ g id page, catalog.file h.id = .ok g ∧ Page.blank id g.schema g.pageSize = .ok page := by
  cases hstep with
  | flush hfind hdirty hfile hwrite =>
    exact (content_of_written hs hfind hwrite).imp_right fun htable => Or.inl ⟨_, _, hfind, htable⟩
  | load hnone hread hroom =>
    obtain ⟨-, -, rfl⟩ | ⟨-, victim, rest, frame, -, -, ⟨e, -, -, he, -⟩ |
      ⟨s₁, hflush, -, -, rfl⟩⟩ := makeRoom_cases hs hroom
    · exact Or.inl rfl
    · cases he
    · obtain ⟨-, rfl, -⟩ | ⟨old, hold, -, ⟨e, -, he, -⟩ | ⟨g, files, -, hwrite, -, rfl⟩⟩ :=
        flushPage_cases hflush
      · exact Or.inl rfl
      · cases he
      · exact (content_of_written hs hold hwrite).imp_right fun htable => Or.inl ⟨_, _, hold, htable⟩
  | @grow g page files hmay hfile hblank hwrite =>
    by_cases hsame : h.id = g.id
    · exact Or.inr (Or.inr ⟨g, _, page, hsame ▸ hfile, hblank⟩)
    · exact Or.inl (HeapFile.content_writePage hsame hwrite)
  | create hmay habsent => exact Or.inl (Files.content_put_empty habsent h.path)
  | count | requeue _ | change _ _ _ _ _ | discard _ => exact Or.inl rfl

end RowStore.Storage
