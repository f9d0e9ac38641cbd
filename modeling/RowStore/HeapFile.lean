import RowStore.Blocks
import RowStore.Files
import RowStore.Page

/-!
Heap files.

1. A `HeapFile` is a file whose blocks are the pages of a table.  It is known by its path, and
   the number of the table is computed from the path alone (`HeapFile.id`), so that it is the
   same whenever the file is opened.
2. A page is read only from the file of its own table and only below the number of pages; it is
   written as a whole.
3. Where a page is written is computed in machine words and wraps around (`HeapFile.offset`).  For a
   page that the file has, or the one after the last, it does not (`HeapFile.offset_of_le`).
-/

namespace RowStore

/-! ## The number of a table -/

/-- Takes one more byte into a hash: mix it in, then multiply by a prime. -/
def hashStep (h : UInt64) (b : UInt8) : UInt64 := (h ^^^ b.toUInt64) * 0x100000001B3

/-- A hash of some bytes. -/
def hashBytes (bytes : List UInt8) : UInt64 := bytes.foldl hashStep 0xCBF29CE484222325

/-- The number of the table that is stored at a path: the hash of the text of the path and an
    end mark, its two halves laid over each other. -/
def tableIdOf (p : Path) : TableId :=
  let h := hashBytes (Text.Utf8.encode p.text ++ [0xFF])
  (h ^^^ (h >>> 32)).toUInt32

/-! ## Heap files -/

/-- The file of a table. -/
structure HeapFile where
  /-- Where the file is. -/
  path : Path
  /-- What the rows look like. -/
  schema : Schema
  /-- Number of bytes of a page. -/
  pageSize : Nat
  deriving DecidableEq

namespace HeapFile

/-- The number of the table. -/
def id (h : HeapFile) : TableId := tableIdOf h.path

/-- The heap file called `name`, made if it is not there. -/
def openNamed (files : Files) (name : String) (schema : Schema) (pageSize : Nat) :
    Except Error (HeapFile × Files) :=
  match files.openFile name with
  | .error fault => .error (.storage fault)
  | .ok (path, files) => .ok (⟨path, schema, pageSize⟩, files)

/-- Number of pages; a last page that is cut short counts. -/
def numPages (h : HeapFile) (files : Files) : Nat :=
  blockCount h.pageSize (files.content h.path)

/-- Whether a page belongs to the table. -/
def checkTable (h : HeapFile) (page : PageId) : Except Error Unit :=
  if page.table ≠ h.id then .error (.missing (.pageOfTable page h.id)) else .ok ()

theorem checkTable_eq_ok_iff {h : HeapFile} {page : PageId} :
    h.checkTable page = .ok () ↔ page.table = h.id := by
  unfold checkTable
  split
  · rename_i hne
    exact ⟨nofun, fun heq => absurd heq hne⟩
  · rename_i hsame
    exact ⟨fun _ => Decidable.not_not.mp hsame, fun _ => rfl⟩

/-- Reads a page from its place, which is inside the file, so that its offset does not wrap around. -/
def readPage (h : HeapFile) (files : Files) (page : PageId) : Except Error Page := do
  h.checkTable page
  if h.numPages files ≤ page.number then .error (.missing (.page page (h.numPages files)))
  else
    let bytes := block h.pageSize page.number (files.content h.path)
    Page.ofBytes page h.schema bytes h.pageSize

/-! ### Writing -/

/-- Where page `n` is written: the product of two words of 64 bits, which wraps around.  Where the size
    of a page or the length of a file is no such word, there is no machine, and nothing wraps. -/
def offset (h : HeapFile) (files : Files) (n : Nat) : Nat :=
  if h.pageSize < UInt64.size ∧ files.Addressable then
    (UInt64.ofNat n * UInt64.ofNat h.pageSize).toNat
  else n * h.pageSize

/-- Writes a page. -/
def writePage (h : HeapFile) (files : Files) (page : Page) : Except Error Files := do
  h.checkTable page.id
  .ok (files.put h.path
    (putBytes (files.content h.path) (h.offset files page.id.number) page.bytes))

variable {h : HeapFile} {files : Files} {n : Nat}

/-- A place below 2⁶⁴ is no other for being computed in words. -/
theorem offset_of_lt (hn : n * h.pageSize < UInt64.size) : h.offset files n = n * h.pageSize := by
  unfold offset
  split
  · rw [UInt64.toNat_mul, UInt64.toNat_ofNat', UInt64.toNat_ofNat', ← Nat.mul_mod]
    exact Nat.mod_eq_of_lt hn
  · rfl

/-- The pages of a file and the page after the last one are where they belong. -/
theorem offset_of_le (hn : n ≤ h.numPages files) : h.offset files n = n * h.pageSize := by
  by_cases hwords : h.pageSize < UInt64.size ∧ files.Addressable
  · obtain ⟨hsize, hfiles⟩ := hwords
    have hlength := Files.addressable_iff.mp hfiles h.path
    refine offset_of_lt ?_
    unfold UInt64.size at hsize ⊢
    -- the last page begins inside the file, and a page is shorter than 2⁶⁴
    have hle : n * h.pageSize ≤ h.numPages files * h.pageSize := Nat.mul_le_mul_right _ hn
    have hend : h.numPages files * h.pageSize ≤ (files.content h.path).size + h.pageSize - 1 :=
      Nat.div_mul_le_self _ _
    rcases Nat.lt_or_ge 1 (h.numPages files) with hmany | hfew
    · have htwo := Nat.mul_le_mul_right h.pageSize hmany
      omega
    · have hone := Nat.mul_le_mul_right h.pageSize hfew
      omega
  · rw [offset, if_neg hwords]

end HeapFile

end RowStore
