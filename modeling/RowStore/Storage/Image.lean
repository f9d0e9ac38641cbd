import RowStore.Storage

/-!
What a page and a table hold now.

1. The image of a page is the page in memory if there is one, and the page in the file if not.
2. `getPage` gives the image of the page it is asked for (`image_of_getPage`), and fails where
   there is none (`getPage_of_image_eq_error`).
3. The live rows of a table are those of the images of its pages, by rising page and slot.
-/

namespace RowStore.Storage

/-- A page as it is now. -/
def image (catalog : Catalog) (id : PageId) (s : Storage) : Except Error Page :=
  match s.pool.find? id with
  | some frame => .ok frame.page
  | none => s.readPage catalog id

/-- The live rows of a table. -/
def tableRows (catalog : Catalog) (table : TableId) (s : Storage) : Except Error (List Row) := do
  let file ← catalog.file table
  let pages ← (List.range (file.numPages s.files)).mapM fun n => s.image catalog ⟨table, n⟩
  .ok (pages.flatMap Page.rows)

theorem image_of_getPage {catalog : Catalog} {id : PageId} {s s' : Storage} {frame : Frame}
    (h : s.getPage catalog id = (.ok frame, s')) : s.image catalog id = .ok frame.page := by
  cases hfind : s.pool.find? id with
  | some found =>
    simp only [getPage, hfind, Prod.mk.injEq, Except.ok.injEq] at h
    simp only [image, hfind, h.1]
  | none =>
    have himage : s.image catalog id = s.readPage catalog id := by simp only [image, hfind]
    have hmiss : ({ s with pool := s.pool.miss } : Storage).readPage catalog id =
        s.readPage catalog id := rfl
    simp only [getPage, hfind, hmiss] at h
    rw [himage]
    cases hread : s.readPage catalog id with
    | error e => simp [hread] at h
    | ok page =>
      simp only [hread] at h
      split at h
      · simp at h
      · simp only [Pool.accept, Prod.mk.injEq, Except.ok.injEq] at h
        rw [← h.1]

theorem getPage_of_image_eq_error {catalog : Catalog} {id : PageId} {s : Storage} {e : Error}
    (h : s.image catalog id = .error e) :
    s.getPage catalog id = (.error e, { s with pool := s.pool.miss }) := by
  cases hfind : s.pool.find? id with
  | some found => simp [image, hfind] at h
  | none =>
    have hmiss : ({ s with pool := s.pool.miss } : Storage).readPage catalog id =
        s.readPage catalog id := rfl
    simp only [image, hfind] at h
    simp only [getPage, hfind, hmiss, h]

end RowStore.Storage
