import RowStore.Error

/-!
The sizes of a store: the bytes of a page and the pages kept in memory.  Neither may be zero;
of two faults the page size is reported.
-/

namespace RowStore

/-- The sizes that a store works with. -/
structure Config where
  /-- Number of bytes of a page. -/
  pageSize : Nat
  /-- Number of pages kept in memory. -/
  poolPages : Nat
  deriving DecidableEq

namespace Config

/-- The sizes of a store that was told none. -/
def standard : Config := ⟨4096, 50⟩

/-- The sizes, if a store can work with them. -/
def validate (c : Config) : Except Error Config :=
  if c.pageSize = 0 then .error (.config .noPageSize)
  else if c.poolPages = 0 then .error (.config .noPoolPages)
  else .ok c

end Config

end RowStore
