import RowStore.Value

/-!
Schemas and places.

1. A `Schema` is a list of named and typed columns, and never empty.  Names are labels: they may
   repeat, and two schemas with the same types in the same order store alike (`sameTypes`).
2. A `TableId`, a `PageId` and a `RecordId` name a table, a page of it and a slot of that page.
-/

namespace RowStore

/-! ## Schemas -/

/-- A named column. -/
structure Column where
  /-- Its name. -/
  name : String
  /-- What it holds. -/
  type : ColumnType
  deriving DecidableEq

/-- The columns of a table or of a result. -/
structure Schema where
  /-- The columns in order. -/
  columns : List Column
  /-- There is at least one. -/
  ne_nil : columns ≠ []
  deriving DecidableEq

namespace Schema

/-- The types of the columns. -/
def types (s : Schema) : List ColumnType := s.columns.map (·.type)

/-- Number of columns. -/
def size (s : Schema) : Nat := s.columns.length

/-- Number of bytes of a stored row. -/
def rowWidth (s : Schema) : Nat := ColumnType.totalWidth s.types

/-- Whether rows of the two schemas are stored alike. -/
def sameTypes (s t : Schema) : Bool := s.types == t.types

/-- The columns of both schemas, one after the other. -/
def append (s t : Schema) : Schema :=
  ⟨s.columns ++ t.columns, by simp [s.ne_nil]⟩

/-- A schema with one column. -/
def single (name : String) (type : ColumnType) : Schema := ⟨[⟨name, type⟩], by simp⟩

/-- A schema as it is printed: `name(type), name(type)`. -/
def text (s : Schema) : String :=
  ", ".intercalate (s.columns.map fun c => c.name ++ "(" ++ c.type.name ++ ")")

theorem sameTypes_iff {s t : Schema} : sameTypes s t = true ↔ s.types = t.types := by
  simp [sameTypes]

theorem rowWidth_pos (s : Schema) : 0 < s.rowWidth := by
  obtain ⟨columns, hne⟩ := s
  cases columns with
  | nil => exact absurd rfl hne
  | cons c cs =>
    have := c.type.width_pos
    simp only [rowWidth, types, List.map_cons, ColumnType.totalWidth]
    omega

end Schema

/-! ## Places -/

/-- The number of a table. -/
abbrev TableId := UInt32

/-- A page of a table. -/
structure PageId where
  /-- The table. -/
  table : TableId
  /-- The position of the page in the table's file. -/
  number : Nat
  deriving DecidableEq

/-- A page as it is printed. -/
def PageId.text (p : PageId) : String := toString p.table.toNat ++ ":" ++ toString p.number

/-- The place of a stored row. -/
structure RecordId where
  /-- The page. -/
  page : PageId
  /-- The slot inside the page. -/
  slot : Nat
  deriving DecidableEq

/-- A place as it is printed. -/
def RecordId.text (r : RecordId) : String := r.page.text ++ "#" ++ toString r.slot

end RowStore
